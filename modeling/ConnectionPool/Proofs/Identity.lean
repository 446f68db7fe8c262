import ConnectionPool.Memory
import ConnectionPool.Proofs.Counts
/-! A connection keeps what was settled when it was opened. Numbers are issued in the order in which
connections are opened, and all wrappers of a connection, old and new, carry its numbers. -/
namespace ConnectionPool
namespace Event

def isAttempt : Event → Bool
  | refused _ _ | opened _ _ _ _ => true
  | _ => false

def isOpening : Event → Bool
  | opened _ _ _ _ => true
  | _ => false

theorem openingAttempt {event : Event} (opening : event.isOpening) : event.isAttempt := by
  cases event <;> first | rfl | cases opening

end Event

def Issued : List Event → Prop
  | [] => True
  | event :: older =>
      (∀ n conn id source, event = .opened n conn id source →
        conn = older.countP Event.isOpening ∧ id = 1 + older.countP Event.isAttempt) ∧ Issued older

theorem issuedSplit {newer older : List Event} {n conn id : Nat} {source : DataSource}
    (issued : Issued (newer ++ .opened n conn id source :: older)) :
    conn = older.countP Event.isOpening ∧ id = 1 + older.countP Event.isAttempt := by
  induction newer with
  | nil => exact issued.1 _ _ _ _ rfl
  | cons event newer ih => exact ih issued.2

section Order
variable {log : Log} {n m a b conn other id last : Nat} {source base : DataSource}

theorem issuedBelow (issued : Issued (log.map Prod.snd))
    (opened : (a,.opened n conn id source) ∈ log) :
    conn < (log.map Prod.snd).countP Event.isOpening ∧
      id < 1 + (log.map Prod.snd).countP Event.isAttempt := by
  induction log with
  | nil => cases opened
  | cons entry older ih =>
    rcases List.mem_cons.mp opened with rfl | before
    · obtain ⟨rfl,rfl⟩ := issued.1 _ _ _ _ rfl
      simp [List.countP_cons,Event.isOpening,Event.isAttempt]
    · have ⟨first,second⟩ := ih issued.2 before
      simp only [List.map_cons,List.countP_cons]
      omega

theorem issuedOrder (issued : Issued (log.map Prod.snd)) (one : (a,.opened n conn id source) ∈ log)
    (two : (b,.opened m other last base) ∈ log) :
    (conn = other → a = b ∧ id = last) ∧ (conn < other ↔ id < last) := by
  induction log with
  | nil => cases one
  | cons entry older ih =>
    rcases List.mem_cons.mp one with rfl | oneBefore
    · have newest := issued.1 _ _ _ _ rfl
      rcases List.mem_cons.mp two with same | twoBefore
      · cases same
        simp
      · -- The newest numbers are larger than all that have been given before.
        have below := issuedBelow issued.2 twoBefore
        omega
    · rcases List.mem_cons.mp two with rfl | twoBefore
      · have newest := issued.1 _ _ _ _ rfl
        have below := issuedBelow issued.2 oneBefore
        omega
      · exact ih issued.2 oneBefore twoBefore

end Order

theorem answeredOnce {log : Log} (once : (log.filterMap (·.2.answered?)).Nodup) {x y : Nat × Event}
    {ticket : Nat} (one : x ∈ log) (other : y ∈ log) (first : x.2.answered? = some ticket)
    (second : y.2.answered? = some ticket) : x = y := by
  induction log with
  | nil => cases one
  | cons entry older ih =>
    have apart {z : Nat × Event} (later : entry.2.answered? = some ticket) (member : z ∈ older) :
        z.2.answered? ≠ some ticket := fun again => by
      simp only [List.filterMap_cons,later] at once
      exact (List.nodup_cons.mp once).1 (List.mem_filterMap.mpr ⟨z,member,again⟩)
    have rest : (older.filterMap (·.2.answered?)).Nodup :=
      once.sublist ((List.sublist_cons_self entry older).filterMap _)
    rcases List.mem_cons.mp one with rfl | oneBefore
    · rcases List.mem_cons.mp other with rfl | otherBefore
      · rfl
      · exact absurd second (apart first otherBefore)
    · rcases List.mem_cons.mp other with rfl | otherBefore
      · exact absurd first (apart second oneBefore)
      · exact ih rest oneBefore otherBefore

namespace Shared
variable {σ : Type} {P : Platform σ} {s t u : Shared σ}

structure Issues (s : Shared σ) : Prop where
  issued : Issued s.journal
  nextId : s.nextId = 1 + s.journal.countP Event.isAttempt
  opened : s.opened = s.journal.countP Event.isOpening

structure Rests (s t : Shared σ) : Prop where
  nextId : t.nextId = s.nextId
  opened : t.opened = s.opened
  writes : s.Writes (fun event => event.isAttempt = false) t

namespace Rests

theorem trans (first : s.Rests t) (second : t.Rests u) : s.Rests u :=
  ⟨second.nextId.trans first.nextId,second.opened.trans first.opened,
    first.writes.trans second.writes⟩

theorem talks {caller : Caller} {conn : Nat} (talks : s.Talks P caller conn t) : s.Rests t :=
  ⟨talks.books.nextId,talks.books.opened,talks.writes fun _ _ => rfl⟩

theorem dispose (P : Platform σ) (n conn : Nat) (s : Shared σ) : s.Rests (s.dispose P n conn) :=
  ⟨(s.disposeBooks P n conn).nextId,(s.disposeBooks P n conn).opened,
    disposeWrites P n conn s (fun _ _ => rfl) rfl⟩

end Rests

theorem Issues.rest (issues : s.Issues) (rests : s.Rests t) : t.Issues := by
  obtain ⟨new,grown,silent⟩ := rests.writes
  have none : new.countP Event.isAttempt = 0 :=
    List.countP_eq_zero.mpr fun e member => by simp [silent e member]
  have unopened : new.countP Event.isOpening = 0 :=
    List.countP_eq_zero.mpr fun e member opening => by
      have silent := silent e member
      simp [Event.openingAttempt opening] at silent
  refine ⟨?_,?_,?_⟩
  · rw [grown]
    clear grown none unopened
    induction new with
    | nil => exact issues.issued
    | cons e es ih =>
      have ⟨first,others⟩ := List.forall_mem_cons.mp silent
      exact ⟨fun n conn id source same => by simp [same,Event.isAttempt] at first,ih others⟩
  · rw [rests.nextId,grown,List.countP_append,none,Nat.zero_add,issues.nextId]
  · rw [rests.opened,grown,List.countP_append,unopened,Nat.zero_add,issues.opened]

end Shared

namespace Pool
variable {σ : Type} {P : Platform σ} {seeker : Seeker} {p q q' : Pool} {s t u : Shared σ}
  {w x : Wrapper}

theorem welcomeIssues (issues : s.Issues) (p : Pool) (outside : σ) : (p.welcome outside s).Issues where
  issued := by
    refine ⟨fun n conn id source same => ?_,issues.issued⟩
    obtain ⟨_,rfl,rfl,_⟩ := Event.opened.inj same
    exact ⟨issues.opened,issues.nextId⟩
  nextId := by
    simp [welcome,Shared.note,List.countP_cons,Event.isAttempt,issues.nextId,Nat.add_assoc]
  opened := by
    simp only [welcome,Shared.note,List.countP_cons,Event.isOpening,issues.opened]
    rfl

theorem refusedIssues (issues : s.Issues) (n : Nat) (cause : Cause) (outside : σ) :
    ({ s with outside, nextId := s.nextId + 1 }.note (.refused n cause)).Issues where
  issued := ⟨by simp,issues.issued⟩
  nextId := by
    simp [Shared.note,List.countP_cons,Event.isAttempt,issues.nextId,Nat.add_assoc]
  opened := by
    simp only [Shared.note,List.countP_cons,Event.isOpening,issues.opened]
    rfl

theorem discardRests (P : Platform σ) (w : Wrapper) (p : Pool) (s : Shared σ) :
    s.Rests (p.discard P w s).2 :=
  have gone := Shared.Rests.dispose P p.number w.conn (s.invalidate w)
  ⟨gone.nextId,gone.opened,gone.writes⟩

theorem picksIssues (issues : s.Issues) {pick : Pick} (picks : Picks P p s pick q t) : t.Issues := by
  have opening {outside : σ} {v : Shared σ} {reply : Except Cause Unit}
      (setUp : (p.welcome outside s).setUp P (.pool p.number) s.opened p.source = (reply,v)) :
      v.Issues :=
    (welcomeIssues issues p outside).rest (.talks ((Shared.setUpTalks ..).ends setUp))
  cases picks with
  | kept | nothing => exact issues
  | refused => exact refusedIssues issues _ _ _
  | @unfit cause outside v none room connect setUp =>
    exact (opening setUp).rest (.dispose P p.number s.opened v)
  | fresh none room connect setUp =>
    exact (opening setUp).rest ⟨rfl,rfl,[_],rfl,by simp [Event.isAttempt]⟩
  | @overdue oldest rest none full lent late =>
    have struck : s.Rests ((s.invalidate oldest).note
        (.reclaimed p.number oldest (oldest.heldFor s.now))) :=
      ⟨rfl,rfl,[_],rfl,by simp [Event.isAttempt]⟩
    have seized := issues.rest (struck.trans (.talks (p.seizeTalks P oldest s)))
    exact seized.rest ⟨rfl,rfl,[_],rfl,by simp [Event.isAttempt]⟩

theorem stayIssues (P : Platform σ) (seeker : Seeker) :
    StayRule P seeker (fun _ t => t.Issues) (fun _ _ t => t.Issues) (fun _ _ t => t.Issues) where
  finds issues picks := picksIssues issues picks
  misses issues picks := picksIssues issues picks
  blocks issues _ bad := issues.rest ⟨rfl,rfl,[_],rfl,by simp [Event.isAttempt]⟩
  grants issues good :=
    (issues.rest (.talks ((admitsTalks ..).ends good))).rest ⟨rfl,rfl,[_],rfl,by simp [Event.isAttempt]⟩
  rejects {w q t u} issues bad := by
    have noted : u.Rests (u.note (.rejected q.number w)) := ⟨rfl,rfl,.one rfl⟩
    have called := issues.rest (.talks ((admitsTalks ..).ends bad))
    exact (called.rest noted).rest (discardRests P w _ _)
  fails issues error := issues.rest ⟨rfl,rfl,.one rfl⟩
  overruns issues := issues

theorem enterIssues (P : Platform σ) (seeker : Seeker) (p : Pool) (issues : s.Issues) :
    (p.enter P seeker s).2.2.Issues :=
  (stayIssues P seeker).enter (fun _ => issues.rest ⟨rfl,rfl,.one rfl⟩) (fun _ => issues)

theorem resumeIssues (P : Platform σ) (wait : Wait) (p : Pool) (issues : s.Issues) :
    (p.resume P wait s).2.2.Issues := by
  have risen : (p.rises wait s).Issues := issues.rest ⟨rfl,rfl,.one rfl⟩
  exact (stayIssues P wait.seeker).resume (fun _ => risen.rest ⟨rfl,rfl,.one rfl⟩) (fun _ => risen)

theorem returnsRests (returns : Returns P x p s q t) : s.Rests t := by
  have called {v : Shared σ} {healthy : Bool}
      (found : (p.removeActive x).inspect P x s = (healthy,v)) : s.Rests v :=
    .talks ((inspectTalks ..).ends found)
  have returned (healthy : Bool) (v : Shared σ) :
      v.Rests (v.note (.returned p.number x healthy (x.heldFor s.now))) := ⟨rfl,rfl,.one rfl⟩
  cases returns with
  | stale => exact ⟨rfl,rfl,.one rfl⟩
  | @unfit v lent found =>
    have given := (called found).trans (returned false v)
    have gone := given.trans (discardRests P x (p.removeActive x) _)
    exact gone.trans ⟨rfl,rfl,.one rfl⟩
  | @dropped u v lent found unwelcome =>
    have refused := Shared.Rests.talks (droppedTalks unwelcome)
    have given := ((called found).trans (returned true u)).trans refused
    have gone := given.trans (discardRests P x (p.checkIn x s.now) v)
    exact gone.trans ⟨rfl,rfl,.one rfl⟩
  | @kept u v lent found welcome cleared =>
    have rolled := Shared.Rests.talks ((Shared.rollbackTalks ..).ends cleared)
    exact (((called found).trans (returned true u)).trans rolled).trans ⟨rfl,rfl,.one rfl⟩

theorem sweepRests (P : Platform σ) (p : Pool) (s : Shared σ) : s.Rests (p.sweep P s).2 := by
  refine discardAllKeeps (P := P) (p := p.swept P) (fun _ _ t => s.Rests t)
    (fun rests => rests.trans (discardRests P _ _ _)) ?_
  exact ⟨rfl,rfl,.one rfl⟩

end Pool

namespace World
variable {σ : Type} {P : Platform σ} {Alters : (σ → σ) → Prop} {outside : σ} {w w' : World σ}
  {n slot : Nat} {p q : Pool} {h k : Handle} {x : Wrapper} {log : Log}

theorem letGoUnnumbered (P : Platform σ) (numbered : w.Numbered) (n : Nat) :
    w.shared.Rests (w.letGo P n).shared :=
  letGoKeeps w.shared.Rests numbered ⟨rfl,rfl,.nothing rfl⟩ (fun p => p.sweepRests P w.shared) n

theorem issuesTurn (numbered : w.Numbered) (issues : w.shared.Issues) (turn : Turn P Alters w w') :
    w'.shared.Issues := by
  cases turn with
  | found | noDoor | share | stray | tolerance | advance | tamper =>
    exact issues.rest ⟨rfl,rfl,.nothing rfl⟩
  | ask => exact issues.rest ⟨rfl,rfl,.one rfl⟩
  | @leave door n =>
    have home : Numbered { w with doors := w.doors.set door none } := numbered
    exact issues.rest (letGoUnnumbered P home n)
  | @get door n p known here => exact Pool.enterIssues P (w.newSeeker door n) p issues
  | @resume index wait p awake here =>
    have roused : (w.rouse index).shared.Issues := issues.rest ⟨rfl,rfl,.nothing rfl⟩
    have stayed : (w.seatResumed P index wait p).shared.Issues := Pool.resumeIssues P wait p roused
    exact stayed.rest (letGoUnnumbered P (numberedResumed numbered here index) _)
  | @renew n p source settings closed =>
    have swept := Pool.sweepRests P { p with source, settings, closed } w.shared
    exact issues.rest (swept.trans ⟨rfl,rfl,.one rfl⟩)
  | giveBack => exact issues.rest (Pool.returnsRests (Pool.releaseReturns ..))
  | @vacate slot h =>
    have home : (w.setSlot slot .empty).Numbered := numbered
    exact issues.rest (letGoUnnumbered P home h.pool)

theorem everyIssues (attained : Attained P Alters outside w) : w.shared.Issues := by
  induction attained with
  | refl => exact ⟨trivial,rfl,rfl⟩
  | tail before turn ih => exact issuesTurn (numbered before) ih turn

theorem sameWrapper (ages : w.Ages w') (held : w.handle? slot = some h)
    (later : w'.handle? slot = some k) : k.wrapper = h.wrapper := by
  obtain ⟨content,there,becomes⟩ := ages.slots (handleAt.mp held)
  obtain rfl := Option.some.inj ((handleAt.mp later).symm.trans there)
  cases becomes <;> rfl

/-- A wrapper tells the numbers and the instant of the opening of its connection, of which there is
one, and nothing that it tells is older. -/
structure TellsOpening (log : Log) (x : Wrapper) : Prop where
  checkout : x.createdAt ≤ x.checkoutAt
  use : x.createdAt ≤ x.lastUsedAt
  opened : ∃ n source, (x.createdAt,.opened n x.conn x.id source) ∈ log
  once {a n id : Nat} {source : DataSource}
    (again : (a,.opened n x.conn id source) ∈ log) : a = x.createdAt ∧ id = x.id

/-- The wrapper that a handle holds was last used when it was granted, which it was once. -/
structure TellsGrant (log : Log) (slot : Nat) (h : Handle) : Prop where
  fresh : h.wrapper.lastUsedAt = h.wrapper.checkoutAt
  granted : ∃ took, (h.wrapper.checkoutAt,.granted h.pool slot h.wrapper took) ∈ log
  once {a n took : Nat} {x : Wrapper} (again : (a,.granted n slot x took) ∈ log) :
    a = h.wrapper.checkoutAt ∧ x = h.wrapper

/-- Connections and the attempts to open them are counted through, and wrappers and handles tell what
the log tells. So handles are of the same connection if and only if they say so, and ids are in the
order of openings. A handle keeps its wrapper for good, and a kept connection was last used when it
came back. -/
structure TellsConnections (P : Platform σ) (w : World σ) (log : Log) : Prop where
  journal : log.map Prod.snd = w.shared.journal
  numbers {newer n conn id source older}
    (whole : w.shared.journal = newer ++ .opened n conn id source :: older) :
    conn = older.countP Event.isOpening ∧ id = 1 + older.countP Event.isAttempt
  wrappers {x : Wrapper}
    (wraps : x ∈ w.tracked ∨ ∃ slot h, w.handle? slot = some h ∧ h.wrapper = x) : TellsOpening log x
  same {i j : Nat} {h k : Handle} (one : w.handle? i = some h) (other : w.handle? j = some k) :
    sameConnection h k = true ↔ h.wrapper.conn = k.wrapper.conn
  order {i j : Nat} {h k : Handle} (one : w.handle? i = some h) (other : w.handle? j = some k) :
    h.wrapper.id < k.wrapper.id ↔ h.wrapper.conn < k.wrapper.conn
  handles {slot : Nat} {h : Handle} (held : w.handle? slot = some h) : TellsGrant log slot h
  stays {slot : Nat} {h k : Handle} (held : w.handle? slot = some h) {later : List (Move σ)}
    (there : (w.run P later).handle? slot = some k) : k.wrapper = h.wrapper
  kept {x : Wrapper} (kept : x ∈ w.keptBack) : log.newest (Event.takesBack x.conn) = some x.lastUsedAt

theorem idsTellConnections (outside : σ) (moves : List (Move σ)) :
    ((initial outside).run P moves).TellsConnections P (timeline P moves (.initial outside) []) := by
  have start : Attained P (fun _ => True) outside (.initial outside) := .refl
  have attained := start.trans (runTurns (P := P) start moves)
  have dated := everyRunDated P outside moves
  generalize (initial outside).run P moves = w at attained dated ⊢
  generalize timeline P moves (.initial outside) [] = log at dated ⊢
  have reads := dated.reads
  have issues := everyIssues attained
  have issued : Issued (log.map Prod.snd) := dated.journal ▸ issues.issued
  have begun {x : Wrapper}
      (wraps : x ∈ w.tracked ∨ ∃ slot h, w.handle? slot = some h ∧ h.wrapper = x) : log.Begun x := by
    rcases wraps with tracked | ⟨slot,h,held,rfl⟩
    · exact reads.begun x tracked
    · exact (reads.held slot h held).1
  have order {h k : Handle} {i j : Nat} (one : w.handle? i = some h) (other : w.handle? j = some k) :=
    have ⟨_,_,first⟩ := (reads.held i h one).1.opened
    have ⟨_,_,second⟩ := (reads.held j k other).1.opened
    issuedOrder issued first second
  constructor
  case journal => exact dated.journal
  case numbers =>
    intro newer n conn id source older whole
    exact issuedSplit (whole ▸ issues.issued)
  case wrappers =>
    intro x wraps
    obtain ⟨lent,used,n,source,opened⟩ := begun wraps
    exact ⟨lent,used,⟨n,source,opened⟩,fun again => (issuedOrder issued again opened).1 rfl⟩
  case same =>
    intro i j h k one other
    have same := order one other
    have less := order other one
    simp only [sameConnection,beq_iff_eq]
    omega
  case order =>
    intro i j h k one other
    have less := order one other
    omega
  case handles =>
    intro slot h held
    obtain ⟨_,used,took,granted⟩ := reads.held slot h held
    refine ⟨used,⟨took,granted⟩,fun again => ?_⟩
    cases answeredOnce reads.attends.once again granted rfl rfl
    exact ⟨rfl,rfl⟩
  case stays =>
    intro slot h k held later there
    exact sameWrapper (agesTurns attained (runTurns attained later)) held there
  case kept => exact fun {x} => reads.kept x

def takenOver : World Memory.Server :=
  World.run Memory.platform
    [.create {} { maxActive := 1, maxCheckoutTime := 5 },.get 0,.advance 6,.get 0] (.initial {})

example : ∃ h k, takenOver.handle? 0 = some h ∧ takenOver.handle? 1 = some k ∧
    sameConnection h k = true ∧ h.wrapper.key ≠ k.wrapper.key ∧
    (h.wrapper.checkoutAt,k.wrapper.checkoutAt,k.wrapper.createdAt) = (0,6,0) :=
  ⟨_,_,rfl,rfl,by decide +kernel⟩

end World
end ConnectionPool
