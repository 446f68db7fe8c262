import ConnectionPool.Proofs.Reclaim
import ConnectionPool.Proofs.Resumption
import ConnectionPool.Proofs.Vetting
/-! In what order a caller tries its chances: the kept connections from the front until one passes,
then a new one if there is room, then the one that is out longest, then sleep. The kept ones never
use up the caller's patience, since it is good for as many as a pool may keep. -/
namespace ConnectionPool

def Event.isCall : Event → Bool
  | call _ _ _ _ => true
  | _ => false

def Event.tries : Event → Bool
  | refused _ _ | opened _ _ _ _ => true
  | _ => false

def deeds (journal : List Event) : List Event := journal.filter (!·.isCall)

def rejections (n : Nat) (ws : List Wrapper) : List Event :=
  ws.reverse.flatMap fun w => [.discarded n w.conn,.rejected n w]

namespace Shared
variable {σ : Type} {P : Platform σ} {s t : Shared σ}

theorem Talks.deeds {caller : Caller} {conn : Nat} (talks : s.Talks P caller conn t) :
    deeds t.journal = deeds s.journal :=
  Writes.filter (talks.writes fun _ _ => rfl)

theorem disposeDeeds (P : Platform σ) (n conn : Nat) (s : Shared σ) :
    ConnectionPool.deeds (s.dispose P n conn).journal =
      .discarded n conn :: ConnectionPool.deeds s.journal := by
  obtain ⟨t,talks,_,same⟩ := s.disposeParts P n conn
  rw [same,← talks.deeds]
  rfl

/-- This is the next that happens after the one state, and the other comes later. -/
def Next (event : Event) (s t : Shared σ) : Prop := event :: s.journal <:+ t.journal

theorem nextOnce {one other : Event} (first : Next one s t) (second : Next other s t) :
    one = other := by
  have within := List.suffix_of_suffix_length_le first second (Nat.le_refl _)
  exact (List.cons.inj (within.eq_of_length rfl)).1

end Shared

namespace Pool
variable {σ : Type} {P : Platform σ} {seeker : Seeker} {p q : Pool} {s t : Shared σ}
  {w x : Wrapper} {i k n : Nat}

theorem rejectDeeds (P : Platform σ) (p : Pool) (w : Wrapper) (s : Shared σ) :
    deeds (p.reject P w s).2.journal =
      .discarded p.number w.conn :: .rejected p.number w :: deeds s.journal :=
  Shared.disposeDeeds ..

def passOver (P : Platform σ) (p : Pool) : List Wrapper → Shared σ → Shared σ
  | [],s => s
  | w :: ws,s => p.passOver P ws (p.reject P w (p.admits P w s).2).2

theorem passOverSnoc (ws : List Wrapper) (w : Wrapper) (s : Shared σ) :
    p.passOver P (ws ++ [w]) s =
      (p.reject P w (p.admits P w (p.passOver P ws s)).2).2 := by
  induction ws generalizing s with
  | nil => rfl
  | cons y ws ih => exact ih _

theorem passOverDeeds (ws : List Wrapper) (s : Shared σ) :
    deeds (p.passOver P ws s).journal = rejections p.number ws ++ deeds s.journal := by
  induction ws generalizing s with
  | nil => rfl
  | cons w ws ih =>
    rw [passOver,ih,rejectDeeds,(admitsTalks ..).deeds]
    simp [rejections]

theorem passOverNow (ws : List Wrapper) (s : Shared σ) : (p.passOver P ws s).now = s.now := by
  induction ws generalizing s with
  | nil => rfl
  | cons w ws ih =>
    have tried := (p.admitsTalks P w s).books.now
    have disposed := (Shared.disposeBooks P p.number w.conn
      (((p.admits P w s).2.note (.rejected p.number w)).invalidate w)).now
    exact (ih _).trans (disposed.trans tried)

def Passes (P : Platform σ) (p : Pool) (s : Shared σ) (i : Nat) (x : Wrapper) : Prop :=
  p.idle[i]? = some x ∧ (p.admits P x (p.passOver P (p.idle.take i) s)).1 = true

def sifted (k : Nat) (p : Pool) : Pool :=
  { p with idle := p.idle.drop k }.count fun c => { c with bad := c.bad + k, closed := c.closed + k }

theorem siftedPicks (k : Nat) (here : p.idle[k]? = some x) (t : Shared σ) :
    Picks P (p.sifted k) t (.candidate x) { p.sifted k with idle := p.idle.drop (k + 1) } t := by
  obtain ⟨inside,rfl⟩ := List.getElem?_eq_some_iff.mp here
  exact .kept (List.drop_eq_getElem_cons inside)

theorem siftedPassed (few : k ≤ p.idle.length) (spoilt : ∀ i < k, ∀ x, ¬p.Passes P s i x) :
    Passed P p s k (p.sifted k) (p.passOver P (p.idle.take k) s) := by
  induction k with
  | zero => exact .start
  | succ k ih =>
    have passed := ih (Nat.le_of_succ_le few) fun i earlier => spoilt i (Nat.lt_succ_of_lt earlier)
    have here : p.idle[k]? = some p.idle[k] := List.getElem?_eq_getElem few
    let t := p.passOver P (p.idle.take k) s
    have bad : (p.admits P p.idle[k] t).1 = false :=
      Bool.eq_false_iff.mpr fun good => spoilt k (Nat.lt_succ_self k) _ ⟨here,good⟩
    -- How a candidate is tried hangs on the number and the settings of the pool alone.
    have turned := passed.again (siftedPicks k here t)
      (u := (p.admits P p.idle[k] t).2) (Prod.ext bad rfl)
    rw [List.take_succ_eq_append_getElem few,passOverSnoc]
    exact turned

theorem keptWithinLimit (room : p.Room 0) :
    p.idle.length ≤ p.settings.maxIdle.toNat ∧
      p.settings.maxIdle.toNat ≤ p.settings.badConnectionLimit.toNat := by
  have largest := p.settings.maxIdle.toNat_lt
  rw [Settings.badConnectionLimitNat]
  exact ⟨room.idle,by omega⟩

theorem staysToServe (room : p.Room 0) (none : seeker.bad = 0) (passes : p.Passes P s i x)
    (spoilt : ∀ j < i, ∀ y, ¬p.Passes P s j y) :
    p.stay P seeker s = { p.sifted i with idle := p.idle.drop (i + 1) }.grant seeker x
      (p.admits P x (p.passOver P (p.idle.take i) s)).2 := by
  obtain ⟨here,good⟩ := passes
  have inside := (List.getElem?_eq_some_iff.mp here).1
  have ⟨few,enough⟩ := keptWithinLimit room
  rw [staySeeks P none]
  exact endsSeek (.finds (by omega) (siftedPassed (Nat.le_of_lt inside) spoilt)
    (siftedPicks i here _) (Prod.ext good rfl))

theorem siftedLooks (room : p.Room 0) (none : seeker.bad = 0) (spoilt : ∀ i x, ¬p.Passes P s i x) :
    p.Looks P seeker s (p.sifted p.idle.length) (p.passOver P p.idle s) := by
  have ⟨few,enough⟩ := keptWithinLimit room
  have passed := siftedPassed (Nat.le_refl _) fun i _ => spoilt i
  rw [List.take_length] at passed
  refine ⟨_,?_,passed⟩
  rw [none]
  exact Nat.le_trans few enough

theorem stayGrows (P : Platform σ) (seeker : Seeker) (base : List Event) :
    StayRule P seeker (fun _ t => base <:+ t.journal) (fun _ _ t => base <:+ t.journal)
      (fun _ _ t => base <:+ t.journal) where
  finds before picks := before.trans (picksActs (.same _) (.same _ _) picks).1.writes.suffix
  misses before picks := before.trans (picksActs (.same _) (.same _ _) picks).1.writes.suffix
  blocks before _ _ := before.trans (List.suffix_cons ..)
  grants {w q t u} holding good := by
    have tried : t.Writes (fun _ => True) u := ((admitsTalks ..).ends good).writes fun _ _ => trivial
    exact (holding.trans tried.suffix).trans (List.suffix_cons ..)
  rejects {w q t u} holding bad := by
    have tried : t.Writes (fun _ => True) u := ((admitsTalks ..).ends bad).writes fun _ _ => trivial
    have noted : t.Writes (fun _ => True) ((u.note (.rejected q.number w)).invalidate w) :=
      tried.trans ⟨[_],rfl,by simp⟩
    have disposed : Shared.Writes (fun _ => True) _ (q.reject P w u).2 :=
      Shared.disposeWrites P q.number w.conn _ (fun _ _ => trivial) trivial
    exact (holding.trans noted.suffix).trans disposed.suffix
  fails before _ := before.trans (List.suffix_cons ..)
  overruns before := before

theorem lookGrows {base : List Event} (looks : p.Looks P seeker s q t)
    (begun : ∀ {pick q' t'}, Picks P q t pick q' t' → base <:+ t'.journal) :
    base <:+ (p.stay P seeker s).2.2.journal := by
  obtain ⟨n,inTime,passed⟩ := looks
  exact (stayGrows P seeker base).later inTime passed begun begun fun picks _ =>
    (begun picks).trans (List.suffix_cons ..)

theorem roomTries (idle : q.idle = []) (room : q.HasActiveRoom) :
    ∃ event : Event, event.tries = true ∧ event.pool? = some q.number ∧
      ∀ {pick q' t'}, Picks P q t pick q' t' → event :: t.journal <:+ t'.journal := by
  rcases connect : P.connect t.opened q.source t.outside with ⟨reply,outside⟩
  cases reply with
  | error cause =>
    refine ⟨.refused q.number cause,rfl,rfl,?_⟩
    intro pick q' t' picks
    cases picks with
    | kept first => cases idle.symm.trans first
    | refused _ _ again => cases connect.symm.trans again; exact List.suffix_rfl
    | unfit _ _ again | fresh _ _ again => cases connect.symm.trans again
    | overdue _ full | nothing _ full => exact absurd room full
  | ok =>
    refine ⟨.opened q.number t.opened t.nextId q.source,rfl,rfl,?_⟩
    have called {v : Shared σ} {reply : Except Cause Unit}
        (setUp : (q.welcome outside t).setUp P (.pool q.number) t.opened q.source = (reply,v)) :
        (q.welcome outside t).Writes (fun _ => True) v :=
      ((Shared.setUpTalks ..).ends setUp).writes fun _ _ => trivial
    intro pick q' t' picks
    cases picks with
    | kept first => cases idle.symm.trans first
    | refused _ _ again => cases connect.symm.trans again
    | unfit _ _ again setUp =>
      cases connect.symm.trans again
      exact ((called setUp).trans
        (Shared.disposeWrites P _ _ _ (fun _ _ => trivial) trivial)).suffix
    | fresh _ _ again setUp =>
      cases connect.symm.trans again
      exact (called setUp).suffix.trans (List.suffix_cons ..)
    | overdue _ full | nothing _ full => exact absurd room full

theorem overdueSeized (overdue : q.Overdue x t.now) {pick : Pick} {q' : Pool} {t' : Shared σ}
    (picks : Picks P q t pick q' t') :
    .reclaimed q.number x (x.heldFor t.now) :: t.journal <:+ t'.journal := by
  obtain ⟨_,_,_,_,rfl⟩ := overduePicks overdue picks
  have seized : Shared.Writes (fun _ => True)
      ((t.invalidate x).note (.reclaimed q.number x (x.heldFor t.now))) (q.seize P x t) :=
    (q.seizeTalks P x t).writes fun _ _ => trivial
  exact seized.suffix.trans (List.suffix_cons ..)

end Pool

namespace World
variable {σ : Type} {P : Platform σ} {Alters : (σ → σ) → Prop} {outside : σ} {w w' : World σ}
  {a : Move σ} {seeker : Seeker} {p q : Pool} {s t : Shared σ} {x : Wrapper} {i n : Nat}

/-- A caller is given the kept connection at this place, all before it are gone, and nothing else has
been done. -/
structure Served (w' : World σ) (seeker : Seeker) (p : Pool) (s : Shared σ) (i : Nat) (x : Wrapper) :
    Prop where
  handle : w'.handle? seeker.ticket = some ⟨x.stamped p.expected s.now,seeker.pool,false⟩
  pool : w'.pools[seeker.pool]? = some { p with
    idle := p.idle.drop (i + 1)
    active := p.active ++ [x.stamped p.expected s.now]
    counters := { p.counters with
      bad := p.counters.bad + i
      closed := p.counters.closed + i
      requests := p.counters.requests + 1
      requestTime := p.counters.requestTime + (s.now - seeker.startedAt) } }
  told : deeds w'.shared.journal =
    .granted p.number seeker.ticket (x.stamped p.expected s.now) (s.now - seeker.startedAt) ::
      (rejections p.number (p.idle.take i) ++ deeds s.journal)

structure Resorts (P : Platform σ) (w w' : World σ) (seeker : Seeker) (p : Pool) (s t : Shared σ) :
    Prop where
  looks : p.Looks P seeker s (p.sifted p.idle.length) t
  told : deeds t.journal = rejections p.number p.idle ++ deeds s.journal
  free : p.idle ≠ [] → p.HasActiveRoom
  tries : (∃ event : Event, event.tries = true ∧ event.pool? = some p.number ∧
    t.Next event w'.shared) ↔ p.HasActiveRoom
  seizes {x : Wrapper} (full : ¬p.HasActiveRoom) (first : p.active.head? = some x)
    (late : p.settings.maxCheckoutTime < x.heldFor s.now) :
    w.TakesLongest w' seeker p s.now x ∧
      s.Next (.reclaimed p.number x (x.heldFor s.now)) w'.shared
  sleeps (full : ¬p.HasActiveRoom)
    (inTime : ∀ x ∈ p.active.head?, x.heldFor s.now ≤ p.settings.maxCheckoutTime) :
    w.OnlySleeps w' seeker ∧ s.Next (.blocked p.number seeker.ticket) w'.shared

theorem searchUnspoilt (attained : Attained P Alters outside w)
    (searches : w.Searches a seeker p s) : seeker.bad = 0 := by
  cases searches with
  | get => rfl
  | resume awake =>
    have member := List.mem_append_right w.shared.waiting (List.mem_of_getElem? awake)
    exact (everyCallerUnspoilt attained _ member).bad

theorem searchSeats (attained : Attained P Alters outside w) (searches : w.Searches a seeker p s) :
    (w.move P a).slots[seeker.ticket]? = some (slotAfter seeker.pool (p.stay P seeker s).1) := by
  have known := numbered attained
  cases searches with
  | @get door n p behind here unshut =>
    rw [getMove known behind here,Pool.enterOpen unshut]
    exact List.getElem?_concat_length
  | @resume index wait p awake here unshut =>
    have seat := (everyCallerQueued attained).seat awake
    rw [resumeMove known awake here,letGoSlots,seatResumed,Pool.resumeOpen unshut]
    exact List.getElem?_set_self (List.getElem?_eq_some_iff.mp seat).1

theorem searchGrants (attained : Attained P Alters outside w) (searches : w.Searches a seeker p s)
    (granted : (p.stay P seeker s).1 = .granted x) :
    (w.move P a).handle? seeker.ticket = some ⟨x,seeker.pool,false⟩ := by
  have seats := searchSeats (P := P) attained searches
  rw [granted] at seats
  exact handleAt.mpr seats

theorem searchGrows {base : List Event} (attained : Attained P Alters outside w)
    (searches : w.Searches a seeker p s) (grown : base <:+ (p.stay P seeker s).2.2.journal) :
    base <:+ (w.move P a).shared.journal := by
  obtain ⟨seated,searched⟩ := searched attained searches
  rw [← searched.shared] at grown
  rw [searched.move]
  exact letGoKeeps (fun t => base <:+ t.journal) searched.numbered grown
    (fun q => grown.trans (Pool.sweepActs P q _).writes.suffix) _

theorem searchServed (attained : Attained P Alters outside w) (searches : w.Searches a seeker p s)
    (passes : p.Passes P s i x) (spoilt : ∀ j < i, ∀ y, ¬p.Passes P s j y) :
    (w.move P a).Served seeker p s i x := by
  have begins := begins attained searches
  have none := searchUnspoilt attained searches
  obtain ⟨seated,searched⟩ := searched attained searches
  have stays := Pool.staysToServe begins.room none passes spoilt
  let u := (p.admits P x (p.passOver P (p.idle.take i) s)).2
  have tried := p.admitsTalks P x (p.passOver P (p.idle.take i) s)
  have now : u.now = s.now := tried.books.now.trans (Pool.passOverNow ..)
  have handle : (w.move P a).handle? seeker.ticket =
      some ⟨x.stamped p.expected s.now,seeker.pool,false⟩ := by
    refine searchGrants attained searches ?_
    rw [stays,← now]
    rfl
  -- The handle that has been given keeps the pool from being let go.
  have kept : seated.handle? seeker.ticket =
      some ⟨x.stamped p.expected s.now,seeker.pool,false⟩ := by
    rwa [searched.move,handleAt,letGoSlots,← handleAt] at handle
  have same := searched.referred (handleRefers kept)
  refine ⟨handle,?_,?_⟩
  · rw [same,searched.pool begins,stays,← now]
    rfl
  · rw [same,searched.shared,stays,← now,← Pool.passOverDeeds,← tried.deeds]
    rfl

theorem searchResorts (attained : Attained P Alters outside w) (searches : w.Searches a seeker p s)
    (spoilt : ∀ i x, ¬p.Passes P s i x) :
    w.Resorts P (w.move P a) seeker p s (p.passOver P p.idle s) := by
  have begins := begins attained searches
  have none := searchUnspoilt attained searches
  have ordered := searchStands (Pool.orderedStands P) attained searches
  have looks := Pool.siftedLooks begins.room none spoilt
  have free : p.idle ≠ [] → p.HasActiveRoom := by
    intro some
    have kept := List.length_pos_iff.mpr some
    have all := begins.room.all
    unfold Pool.HasActiveRoom
    omega
  have bare (full : ¬p.HasActiveRoom) : p.idle = [] := Classical.not_not.mp (mt free full)
  have seizes {x : Wrapper} (full : ¬p.HasActiveRoom) (first : p.active.head? = some x)
      (late : p.settings.maxCheckoutTime < x.heldFor s.now) :
      w.TakesLongest (w.move P a) seeker p s.now x ∧
        s.Next (.reclaimed p.number x (x.heldFor s.now)) (w.move P a).shared :=
    have overdue : p.Overdue x s.now := ⟨bare full,Pool.fullLength begins.room full,first,late⟩
    ⟨overdueTaken attained searches overdue (Pool.firstLongest ordered first),
      searchGrows attained searches
        (Pool.lookGrows ⟨0,Nat.zero_le _,.start⟩ (Pool.overdueSeized overdue))⟩
  have sleeps (full : ¬p.HasActiveRoom)
      (inTime : ∀ x ∈ p.active.head?, x.heldFor s.now ≤ p.settings.maxCheckoutTime) :
      w.OnlySleeps (w.move P a) seeker ∧
        s.Next (.blocked p.number seeker.ticket) (w.move P a).shared := by
    have picks : Pool.Picks P p s .nothing p s := .nothing (bare full) full inTime
    refine ⟨inTimeSleeps attained searches picks,searchGrows attained searches ?_⟩
    rw [Pool.staySleeps picks,begins.number]
    exact List.suffix_rfl
  refine ⟨looks,Pool.passOverDeeds ..,free,⟨?_,fun room => ?_⟩,seizes,sleeps⟩
  · rintro ⟨event,tries,_,next⟩
    by_contra full
    rw [bare full] at next
    rcases Pool.overdueOrNot (P := P) begins.room (bare full) full s with ⟨x,overdue⟩ | picks
    · rw [Shared.nextOnce next (seizes full overdue.first overdue.late).2] at tries
      cases tries
    · cases picks with
      | nothing _ _ inTime =>
        rw [Shared.nextOnce next (sleeps full inTime).2] at tries
        cases tries
  · have emptied : (p.sifted p.idle.length).idle = [] := List.drop_length
    obtain ⟨event,tries,own,begun⟩ := Pool.roomTries (P := P) (t := p.passOver P p.idle s) emptied
      room
    exact ⟨event,tries,own,searchGrows attained searches (Pool.lookGrows looks begun)⟩

/-- A caller that searches a pool is given the first kept connection that passes, and those before it
are discarded; it opens none then, takes none from a holder and does not sleep. If none passes all of
them are discarded, and it tries to open one just if there is room, which there is if any was kept;
else it takes the connection lent first if that is overdue, and else it sleeps. -/
structure PicksFirst (P : Platform σ) (w : World σ) (a : Move σ) (seeker : Seeker) (p : Pool)
    (s : Shared σ) : Prop where
  few : p.idle.length ≤ p.settings.maxIdle.toNat
  tolerated : p.settings.maxIdle.toNat ≤ p.settings.badConnectionLimit.toNat
  serves {i : Nat} {x : Wrapper} (passes : p.Passes P s i x) (first : ∀ j < i, ∀ y, ¬p.Passes P s j y) :
    (w.move P a).Served seeker p s i x
  resorts (spoilt : ∀ i x, ¬p.Passes P s i x) :
    w.Resorts P (w.move P a) seeker p s (p.passOver P p.idle s)

theorem firstPassingServed (reachable : w.Reachable P) (searches : w.Searches a seeker p s) :
    PicksFirst P w a seeker p s := by
  obtain ⟨_,attained⟩ := reachableAttained reachable
  have ⟨few,enough⟩ := Pool.keptWithinLimit (begins attained searches).room
  exact ⟨few,enough,searchServed attained searches,searchResorts attained searches⟩

def firstSevered : World Memory.Server :=
  World.run Memory.platform
    [.create {} {},.get 0,.get 0,.get 0,.release 0,.release 1,.release 2,
      .tamper fun server => server.tamper (.sever 0),.advance 4] (.initial {})

theorem firstPassingServedSecond :
    ∃ p x, firstSevered.pools[0]? = some p ∧ p.idle.map Wrapper.conn = [0,1,2] ∧ x.conn = 1 ∧
      (∀ y, ¬p.Passes Memory.platform firstSevered.shared 0 y) ∧
      (firstSevered.move Memory.platform (.get 0)).Served (firstSevered.newSeeker 0 0) p
        firstSevered.shared 1 x := by
  have reachable : firstSevered.Reachable Memory.platform := reachableRun (.initial _) _
  have found : ∃ p y x z, firstSevered.pools[0]? = some p ∧ p.closed = false ∧
      p.idle = [y,x,z] ∧ p.idle.map Wrapper.conn = [0,1,2] ∧ x.conn = 1 ∧
      (p.admits Memory.platform y (p.passOver Memory.platform [] firstSevered.shared)).1 = false ∧
      (p.admits Memory.platform x (p.passOver Memory.platform [y] firstSevered.shared)).1 = true :=
    ⟨_,_,_,_,rfl,by decide,rfl,by decide,by decide,by decide,by decide⟩
  obtain ⟨p,y,x,z,here,unshut,idle,conns,second,bad,good⟩ := found
  have searches : firstSevered.Searches (.get 0) (firstSevered.newSeeker 0 0) p
      firstSevered.shared := .get rfl here unshut
  have spoilt : ∀ v, ¬p.Passes Memory.platform firstSevered.shared 0 v := by
    rintro v ⟨first,passes⟩
    rw [idle] at first passes
    obtain rfl := Option.some.inj first
    exact absurd (bad.symm.trans passes) (by decide)
  refine ⟨p,x,here,conns,second,spoilt,(firstPassingServed reachable searches).serves ?_ ?_⟩
  · rw [Pool.Passes,idle]
    exact ⟨rfl,good⟩
  · intro j before
    obtain rfl := Nat.lt_one_iff.mp before
    exact spoilt

end World
end ConnectionPool
