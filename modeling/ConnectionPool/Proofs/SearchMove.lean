import ConnectionPool.Proofs.FirstLook
import ConnectionPool.Proofs.Referral
import ConnectionPool.Proofs.Search
import ConnectionPool.Proofs.Standing
/-! A move that makes a caller search a pool comes down to one stay: how the stay finds things, and
where the move leaves them. -/
namespace ConnectionPool.World
variable {σ : Type} {P : Platform σ} {Alters : (σ → σ) → Prop} {outside : σ} {w : World σ}
  {a : Move σ} {seeker other : Seeker} {p q : Pool} {s t : Shared σ} {slot : Nat} {h : Handle}

theorem searchesOnce (one : w.Searches a seeker p s) (two : w.Searches a other q t) :
    other = seeker ∧ q = p ∧ t = s := by
  cases one with
  | get behind here =>
    cases two with
    | get again there =>
      cases behind.symm.trans again
      cases here.symm.trans there
      exact ⟨rfl,rfl,rfl⟩
  | resume awake here =>
    cases two with
    | resume again there =>
      cases awake.symm.trans again
      cases here.symm.trans there
      exact ⟨rfl,rfl,rfl⟩

structure Begins (w : World σ) (seeker : Seeker) (p : Pool) (s : Shared σ) : Prop where
  here : ∃ r, w.pools[seeker.pool]? = some r ∧ p = { r with counters := p.counters } ∧
    p.takings = r.takings
  number : p.number = seeker.pool
  room : p.Room 0
  ledger : Ledger (p.tracked ++ w.trackedElsewhere seeker.pool) s
  now : s.now = w.shared.now
  live : s.live = w.shared.live
  told : stirrings s.journal = stirrings w.shared.journal
  alone : ∀ x ∈ s.unfinished, x.seeker.ticket ≠ seeker.ticket

theorem begins (attained : Attained P Alters outside w) (searches : w.Searches a seeker p s) :
    w.Begins seeker p s := by
  have known := numbered attained
  have queued := everyCallerQueued attained
  have ledger := (everyOwned attained).ledger
  cases searches with
  | @get door n p behind here unshut =>
    have books := ledger.perm (trackedPerm here)
    exact ⟨⟨p,here,rfl,rfl⟩,known here,Pool.everyRoom attained here,books,rfl,rfl,rfl,
      fun _ member => Nat.ne_of_lt (queued.fresh member)⟩
  | @resume index wait p awake here unshut =>
    have number := known here
    have places := Pool.everyRoom attained here
    have books := (ledger.perm (trackedPerm here)).frame (t := p.rises wait (w.rouse index).shared)
      rfl rfl (Nat.le_refl _) (Nat.le_refl _)
    exact ⟨⟨p,here,rfl,rfl⟩,number,⟨places.all,places.idle⟩,books,rfl,rfl,rfl,
      fun _ => queued.alone awake⟩

theorem searchStands {Holds : Pool → Shared σ → Prop} (standing : Standing P Holds)
    (attained : Attained P Alters outside w) (searches : w.Searches a seeker p s) : Holds p s := by
  have stands := everyStanding standing attained
  cases searches with
  | get behind here => exact stands here
  | @resume index wait p awake here =>
    have roused : (w.rouse index).Stands Holds := standing.frame stands rfl rfl (Nat.le_refl _)
    exact standing.lingers (roused here) wait

structure Searched (P : Platform σ) (w : World σ) (a : Move σ) (seeker : Seeker) (p : Pool)
    (s : Shared σ) (seated : World σ) : Prop where
  numbered : seated.Numbered
  move : w.move P a = seated.letGo P seeker.pool
  shared : seated.shared = (p.stay P seeker s).2.2
  pools : seated.pools = w.pools.set seeker.pool (p.stay P seeker s).2.1
  held {slot : Nat} {h : Handle} (held : w.handle? slot = some h) : seated.handle? slot = some h

theorem searched (attained : Attained P Alters outside w) (searches : w.Searches a seeker p s) :
    ∃ seated, w.Searched P a seeker p s seated := by
  have known := numbered attained
  cases searches with
  | @get door n p behind here unshut =>
    have moved := getMove (P := P) known behind here
    have alike := p.enterAlike P (w.newSeeker door n) w.shared
    rw [Pool.enterOpen unshut] at moved alike
    have kept : (w.seat n (p.stay P (w.newSeeker door n) w.shared)
        fun slot => w.slots ++ [slot]).Numbered := numberedSeat known here alike
    refine ⟨_,kept,moved.trans (if_pos ?_).symm,rfl,rfl,(getSeated n _).stays⟩
    exact .inl (List.mem_of_getElem? behind)
  | @resume index wait p awake here unshut =>
    have seated := resumeSeated (P := P) (everyCallerQueued attained) awake p
    have moved := resumeMove (P := P) known awake here
    have kept := numberedResumed (P := P) known here index
    unfold seatResumed at moved kept seated
    rw [Pool.resumeOpen unshut] at moved kept seated
    exact ⟨_,kept,moved,rfl,rfl,seated.stays⟩

theorem Searched.referred {seated : World σ} (searched : w.Searched P a seeker p s seated)
    (referred : seated.IsReferred seeker.pool) : w.move P a = seated :=
  searched.move.trans (if_pos referred)

theorem Searched.pool {seated : World σ} (searched : w.Searched P a seeker p s seated)
    (begins : w.Begins seeker p s) :
    seated.pools[seeker.pool]? = some (p.stay P seeker s).2.1 := by
  obtain ⟨r,here,_⟩ := begins.here
  rw [searched.pools]
  exact List.getElem?_set_self (List.getElem?_eq_some_iff.mp here).1

theorem searchSeated (attained : Attained P Alters outside w)
    (searches : w.Searches a seeker p s) :
    Seated seeker.pool (p.stay P seeker s).1.wrapper? seeker.ticket w (w.move P a) := by
  have known := numbered attained
  cases searches with
  | @get door n p behind here unshut =>
    have seated := getSeated (w := w) n (p.enter P (w.newSeeker door n) w.shared)
    rw [← getMove known behind here,Pool.enterOpen unshut] at seated
    exact seated
  | @resume index wait p awake here unshut =>
    have seated := resumeSeated (P := P) (everyCallerQueued attained) awake p
    rw [Pool.resumeOpen unshut] at seated
    have moved := resumeMove (P := P) known awake here
    have same (i : Nat) : (w.move P (.resume index)).handle? i =
        (w.seatResumed P index wait p).handle? i := by
      simp only [handle?,moved,letGoSlots]
    exact ⟨fun held => (same _).trans (seated.stays held),fun held => seated.stems ((same _) ▸ held),
      fun granted => (same _).trans (seated.seat granted)⟩

theorem makesSearch {w' : World σ} (queued : w.Queued) (makes : w.Makes P a w')
    (vacant : w.handle? slot = none) (held : w'.handle? slot = some h) :
    ∃ seeker p s, w.Searches a seeker p s := by
  have apart {i : Nat} {k : Handle} (given : w.handle? i = some k) : slot ≠ i := by
    rintro rfl
    cases vacant.symm.trans given
  cases makes with
  | nothing | noPool | found | share | stray | renew | tolerance | call | advance | tamper =>
    cases vacant.symm.trans held
  | leave =>
    rw [handleAt,letGoSlots,← handleAt] at held
    cases vacant.symm.trans held
  | release given =>
    rw [releaseElsewhere (apart given)] at held
    cases vacant.symm.trans held
  | drop given =>
    rw [drop,handleAt,letGoSlots,← handleAt,handleElsewhere .empty (apart given),
      releaseElsewhere (apart given)] at held
    cases vacant.symm.trans held
  | @get door n p behind here =>
    cases closed : p.closed with
    | false => exact ⟨_,_,_,.get behind here closed⟩
    | true =>
      rw [Pool.enterShut closed] at held
      rcases (getSeated n _).stems held with old | ⟨_,_,none,_⟩
      · cases vacant.symm.trans old
      · cases none
  | @resume index wait p awake here =>
    cases closed : p.closed with
    | false => exact ⟨_,_,_,.resume awake here closed⟩
    | true =>
      have seated := resumeSeated (P := P) queued awake p
      rw [handleAt,letGoSlots] at held
      rw [Pool.resumeShut closed] at seated
      rcases seated.stems (handleAt.mpr held) with old | ⟨_,_,none,_⟩
      · cases vacant.symm.trans old
      · cases none

structure Grant (P : Platform σ) (w : World σ) (a : Move σ) (h : Handle) (seeker : Seeker) (p : Pool)
    (s : Shared σ) : Prop where
  searches : w.Searches a seeker p s
  granted : (p.stay P seeker s).1 = .granted h.wrapper
  own : h.pool = seeker.pool
  pool : (w.move P a).pools[h.pool]? = some (p.stay P seeker s).2.1
  shared : (w.move P a).shared = (p.stay P seeker s).2.2

theorem newGrant (attained : Attained P Alters outside w) (vacant : w.handle? slot = none)
    (held : (w.move P a).handle? slot = some h) : ∃ seeker p s, w.Grant P a h seeker p s := by
  obtain ⟨seeker,p,s,searches⟩ :=
    makesSearch (everyCallerQueued attained) (moveMakes (numbered attained) a) vacant held
  obtain ⟨seated,searched⟩ := searched attained searches
  rcases (searchSeated (P := P) attained searches).stems held with old | ⟨_,x,granted,rfl⟩
  · cases vacant.symm.trans old
  · have kept : seated.handle? slot = some ⟨x,seeker.pool,false⟩ := by
      rwa [searched.move,handleAt,letGoSlots,← handleAt] at held
    have same := searched.referred (handleRefers kept)
    refine ⟨seeker,p,s,searches,Pool.wrapperGranted granted,rfl,?_,same ▸ searched.shared⟩
    rw [same]
    exact searched.pool (begins attained searches)

end ConnectionPool.World
