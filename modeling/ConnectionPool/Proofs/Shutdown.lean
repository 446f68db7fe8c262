import ConnectionPool.Proofs.Ages
import ConnectionPool.Proofs.Search
import ConnectionPool.Proofs.Sleepers
/-! A pool that has been closed stays closed and empty and says nothing more to the outside, and all
who waited for it are turned away. Closed pools alone turn callers away like that; in an open one a
caller fails for want of a good connection, and never for lack of time. -/
namespace ConnectionPool

def Event.contacts (pool : Nat) : Event → Bool
  | refused n _ | opened n _ _ _ | call (.pool n) _ _ _ => n == pool
  | _ => false

namespace Pool
variable {σ : Type} {P : Platform σ} {seeker : Seeker} {p q : Pool} {s t : Shared σ}
  {error : PoolError}

structure Shut (p : Pool) : Prop where
  closed : p.closed = true
  empty : p.tracked = []

theorem signsApart {n : Nat} {event : Event} (other : p.number ≠ n) (signs : p.Signs s event) :
    event.contacts n = false := by
  have number {m : Nat} (same : m = p.number) : (m == n) = false := same ▸ beq_false_of_ne other
  cases event with
  | refused m cause => exact number (Option.some.inj signs)
  | opened m conn id source => exact number signs.1
  | call caller conn request reply =>
    obtain ⟨rfl,_⟩ := signs
    exact number rfl
  | _ => rfl

theorem releaseShut (shut : p.Shut) (w : Wrapper) : p.release P w s =
    (p.count fun c => { c with bad := c.bad + 1 },s.note (.staleReturn p.number w)) := by
  have none := (List.append_eq_nil_iff.mp shut.empty).2
  exact if_neg (by simp [IsActive,none])

theorem closeAllShut (empty : p.tracked = []) :
    p.closeAll P s = (p.swept P,(s.note (.swept p.number 0 0)).notify p.number) := by
  obtain ⟨idle,active⟩ := List.append_eq_nil_iff.mp empty
  simp only [closeAll,sweep,idle,active,List.reverse_nil,List.append_nil,discardAll]
  rfl

theorem enterFails (failed : (p.enter P seeker s).1 = .failed error) :
    (p.closed = true ∧ error = .poolClosed) ∨
    (p.closed = false ∧ ∃ q t, p.Looks P seeker s q t ∧ q.Thwarts P t error) := by
  unfold enter at failed
  split at failed
  · rename_i closed
    exact .inl ⟨closed,(Outcome.failed.inj failed).symm⟩
  · rename_i unshut
    exact .inr ⟨by simpa using unshut,stayThwarts failed⟩

theorem resumeFails {wait : Wait} (failed : (p.resume P wait s).1 = .failed error) :
    (p.closed = true ∧ error = .waitInterrupted) ∨
    (p.closed = false ∧ ∃ q t,
      (p.lingered (s.now - wait.since)).Looks P wait.seeker (p.rises wait s) q t ∧
        q.Thwarts P t error) := by
  simp only [resume] at failed
  split at failed
  · rename_i closed
    exact .inl ⟨closed,(Outcome.failed.inj failed).symm⟩
  · rename_i unshut
    exact .inr ⟨by simpa [count] using unshut,stayThwarts failed⟩

theorem closedEmptyLasts (P : Platform σ) :
    World.Lasting P fun p => p.closed = true → p.tracked = [] where
  created _ _ _ _ _ closed := nomatch closed
  enters {p} before seeker s closed := by
    have was := (p.enterAlike P seeker s).closed.symm.trans closed
    rw [enterShut was]
    exact before was
  resumes {p} before wait s closed := by
    have was := (p.resumeAlike P wait s).closed.symm.trans closed
    rw [resumeShut was]
    exact before was
  releases {p} before x s closed := by
    have was := (returnsAlike (p.releaseReturns P x s)).closed.symm.trans closed
    rw [releaseShut ⟨was,before was⟩]
    exact before was
  renewed _ _ _ _ _ _ s _ := sweepTracked ..
  tolerates before _ := before

end Pool

namespace World
variable {σ : Type} {P : Platform σ} {Alters : (σ → σ) → Prop} {outside : σ} {w w' : World σ}
  {n m : Nat} {p q : Pool}

theorem everyClosedShut (attained : Attained P Alters outside w) (here : w.pools[n]? = some p)
    (closed : p.closed = true) : p.Shut :=
  ⟨closed,everyPool (Pool.closedEmptyLasts P) attained p (List.mem_of_getElem? here) closed⟩

abbrev Rests (n : Nat) (w w' : World σ) : Prop :=
  w.shared.Writes (fun event => event.contacts n = false) w'.shared

theorem letGoRests (numbered : w.Numbered)
    (empty : ∀ p, w.pools[n]? = some p → p.tracked = []) (m : Nat) : w.Rests n (w.letGo P m) := by
  rcases letGoCases (P := P) numbered m with ⟨same,_⟩ | ⟨q,_,there,some,swept⟩
  · rw [same]
    exact .nothing rfl
  · rw [swept]
    refine (q.sweepActs P w.shared).writes.imp fun _ => Pool.signsApart ?_
    rw [numbered there]
    rintro rfl
    exact some (empty q there)

section Shut
variable (numbered : w.Numbered) (here : w.pools[n]? = some p) (shut : p.Shut)
include numbered here shut

theorem resumeRests {index : Nat} {wait : Wait} (there : w.pools[wait.seeker.pool]? = some q) :
    w.Rests n (((w.rouse index).seat wait.seeker.pool (q.resume P wait (w.rouse index).shared)
      (w.slots.set wait.seeker.ticket)).letGo P wait.seeker.pool) := by
  let stay := q.resume P wait (w.rouse index).shared
  let seated := (w.rouse index).seat wait.seeker.pool stay (w.slots.set wait.seeker.ticket)
  have written : (w.rouse index).Rests n seated := by
    by_cases own : wait.seeker.pool = n
    · rw [own] at there
      obtain rfl := Option.some.inj (there.symm.trans here)
      change (w.rouse index).shared.Writes _ (q.resume P wait (w.rouse index).shared).2.2
      rw [Pool.resumeShut shut.closed]
      exact ⟨[_,_],rfl,by simp [Event.contacts]⟩
    · have number := numbered there
      refine (q.resumeActs P number.symm (w.rouse index).shared).writes.imp fun _ => ?_
      exact Pool.signsApart (number ▸ own)
  have alike := q.resumeAlike P wait (w.rouse index).shared
  have left : seated.Rests n (seated.letGo P wait.seeker.pool) := by
    apply letGoRests
    · exact numberedSeat (w := w.rouse index) numbered there alike
    · intro r after
      rcases poolAtSeat (w := w.rouse index) after with ⟨own,rfl⟩ | ⟨_,old⟩
      · obtain rfl := Option.some.inj (there.symm.trans (own ▸ here))
        change (q.resume P wait (w.rouse index).shared).2.1.tracked = []
        rw [Pool.resumeShut shut.closed]
        exact shut.empty
      · obtain rfl := Option.some.inj (old.symm.trans here)
        exact shut.empty
  exact written.trans left

theorem shutTurn (owned : w.Owned) (turn : Turn P Alters w w') : w.Rests n w' := by
  have empty : ∀ q, w.pools[n]? = some q → q.tracked = [] := by
    intro q there
    obtain rfl := Option.some.inj (there.symm.trans here)
    exact shut.empty
  cases turn with
  | found | noDoor | share | stray | advance | tamper | tolerance => exact .nothing rfl
  | ask => exact .one rfl
  | leave =>
    exact letGoRests (w := { w with doors := w.doors.set _ none }) numbered empty _
  | @vacate slot => exact letGoRests (w := w.setSlot slot .empty) numbered empty _
  | @get door m q known there =>
    by_cases own : m = n
    · subst own
      obtain rfl := Option.some.inj (there.symm.trans here)
      change w.shared.Writes _ (q.enter P (w.newSeeker door m) w.shared).2.2
      rw [Pool.enterShut shut.closed]
      exact .one rfl
    · have mine : (w.newSeeker door m).pool = q.number := (numbered there).symm
      refine (q.enterActs P mine w.shared).writes.imp fun _ => Pool.signsApart ?_
      exact numbered there ▸ own
  | resume awake there => exact resumeRests numbered here shut there
  | @renew m q source settings closed known there =>
    by_cases own : m = n
    · subst own
      obtain rfl := Option.some.inj (there.symm.trans here)
      rw [Pool.closeAllShut (p := { q with source, settings, closed }) shut.empty]
      exact ⟨[_,_],rfl,by simp [Event.contacts]⟩
    · refine (Pool.closeAllActs P { q with source, settings, closed } w.shared).writes.imp fun _ => ?_
      exact Pool.signsApart (p := { q with source, settings, closed }) (numbered there ▸ own)
  | @giveBack slot h q held first there =>
    by_cases own : h.pool = n
    · rw [own] at there
      obtain rfl := Option.some.inj (there.symm.trans here)
      rw [Pool.releaseShut shut]
      exact .one rfl
    · have acts := Pool.returnsActs (holderOwns owned held there)
        (q.releaseReturns P h.wrapper w.shared)
      exact acts.writes.imp fun _ => Pool.signsApart (numbered there ▸ own)

end Shut

def Awaits (wait : Wait) (s : Shared σ) : Prop :=
  wait ∈ s.unfinished ∨
    .denied wait.seeker.pool wait.seeker.ticket .waitInterrupted ∈ s.journal

theorem letGoAwaits {wait : Wait} (numbered : w.Numbered) (awaits : Awaits wait w.shared) (m : Nat) :
    Awaits wait (w.letGo P m).shared := by
  refine letGoKeeps (Awaits wait) numbered awaits (fun q => ?_) m
  refine awaits.imp (fun member => ?_) (q.sweepActs P w.shared).writes.keeps
  exact q.sweepUnfinished P w.shared ▸ member

theorem resumeAwaits {index : Nat} {wait other : Wait} (numbered : w.Numbered)
    (awake : w.shared.woken[index]? = some other) (here : w.pools[other.seeker.pool]? = some q)
    (closed : other = wait → q.closed = true) (member : wait ∈ w.shared.unfinished) :
    Awaits wait (((w.rouse index).seat other.seeker.pool (q.resume P other (w.rouse index).shared)
      (w.slots.set other.seeker.ticket)).letGo P other.seeker.pool).shared := by
  apply letGoAwaits
  · exact numberedResumed numbered here index
  · rcases List.mem_cons.mp ((rousePerm awake).mem_iff.mp member) with rfl | elsewhere
    · refine .inr ?_
      change _ ∈ (q.resume P wait (w.rouse index).shared).2.2.journal
      rw [Pool.resumeShut (closed rfl),← numbered here]
      exact List.mem_cons_self
    · exact .inl (Pool.queuesKeep (q.resumeQueues P other (w.rouse index).shared) elsewhere)

theorem callerTurn {wait : Wait} (numbered : w.Numbered) (here : w.pools[wait.seeker.pool]? = some p)
    (closed : p.closed = true) (member : wait ∈ w.shared.unfinished)
    (turn : Turn P Alters w w') : Awaits wait w'.shared := by
  cases turn with
  | found | noDoor | share | ask | tolerance | tamper => exact .inl member
  | advance time => exact .inl ((w.shared.advanceUnfinished time).mem_iff.mpr member)
  | @leave door m known =>
    exact letGoAwaits (w := { w with doors := w.doors.set door none }) numbered (.inl member) _
  | @vacate slot => exact letGoAwaits (w := w.setSlot slot .empty) numbered (.inl member) _
  | stray awake away =>
    rcases List.mem_cons.mp ((rousePerm awake).mem_iff.mp member) with rfl | elsewhere
    · cases away.symm.trans here
    · exact .inl elsewhere
  | @get door m q known there =>
    exact .inl (Pool.queuesKeep (q.enterQueues P (w.newSeeker door m) w.shared) member)
  | @resume index other q awake there =>
    refine resumeAwaits numbered awake there ?_ member
    rintro rfl
    obtain rfl := Option.some.inj (there.symm.trans here)
    exact closed
  | renew =>
    refine .inl ((Shared.notifyUnfinished _ _).mem_iff.mpr ?_)
    exact Pool.sweepUnfinished P _ w.shared ▸ member
  | @giveBack slot h q held first there =>
    exact .inl ((Pool.returnsUnfinished (q.releaseReturns P h.wrapper w.shared)).mem_iff.mpr member)

theorem shutTurns (attained : Attained P Alters outside w) (here : w.pools[n]? = some p)
    (closed : p.closed = true) (turns : Turns P Alters w w') :
    w.Rests n w' ∧
      ∀ wait ∈ w.shared.unfinished, wait.seeker.pool = n → Awaits wait w'.shared := by
  induction turns with
  | refl => exact ⟨.nothing rfl,fun wait member _ => .inl member⟩
  | tail before turn ih =>
    have middle := attained.trans before
    obtain ⟨q,there,stays,_⟩ := (agesTurns attained before).pools here
    have shut := everyClosedShut middle there (stays closed)
    have rests := shutTurn (numbered middle) there shut (everyOwned middle) turn
    refine ⟨ih.1.trans rests,?_⟩
    rintro wait member rfl
    -- What has been written stays written, so only callers still on their way matter.
    rcases ih.2 wait member rfl with onTheWay | denied
    · exact callerTurn (numbered middle) there shut.closed onTheWay turn
    · exact .inr (rests.keeps denied)

def fault? {α : Type} : Except PoolError α → Option PoolError
  | .error error => some error
  | .ok _ => none

def error? (P : Platform σ) (w : World σ) : Move σ → Option PoolError
  | .create source settings => fault? (w.create P source settings).1
  | .createFrom text => fault? (w.createFrom P text).1
  | .get door => (w.doorPool? door).bind fun p => (w.get P door p).2.1.result?.bind fault?
  | .resume index => (w.resumeAt P index).1.bind fun finished => fault? finished.result
  | .configure door change =>
      (w.doorPool? door).bind fun p => fault? (w.consult p (Pool.configure P change)).1
  | .forward slot request => (w.handle? slot).bind fun h => fault? (w.forward P h request).1
  | .raw slot request => (w.handle? slot).bind fun h => fault? (w.raw P h request).1
  | .isClosed slot => (w.handle? slot).bind fun h => fault? (w.isClosed P h).1
  | _ => none

theorem resultFault {outcome : Outcome} {error : PoolError} :
    outcome.result?.bind fault? = some error ↔ outcome = .failed error := by
  cases outcome <;> simp [Outcome.result?,fault?]

theorem finishedFault {ticket : Nat} {outcome : Outcome} {error : PoolError} :
    (finished? ticket outcome).bind (fun finished => fault? finished.result) = some error ↔
      outcome = .failed error := by
  cases outcome <;> simp [finished?,Outcome.result?,fault?]

theorem getError {door : Nat} {error : PoolError} : w.error? P (.get door) = some error ↔
    ∃ p, w.doorPool? door = some p ∧
      (p.enter P (w.newSeeker door p.number) w.shared).1 = .failed error :=
  Option.bind_eq_some_iff.trans (exists_congr fun _ => and_congr_right fun _ => resultFault)

theorem resumeError {index : Nat} {error : PoolError} : w.error? P (.resume index) = some error ↔
    ∃ wait p, w.shared.woken[index]? = some wait ∧ w.pools[wait.seeker.pool]? = some p ∧
      (p.resume P wait (w.rouse index).shared).1 = .failed error := by
  cases awake : w.shared.woken[index]? with
  | none => simp [error?,resumeAt,awake]
  | some wait =>
    cases here : w.pools[wait.seeker.pool]? with
    | none => simp [error?,resumeAt,awake,here]
    | some p =>
      simp only [error?,resumeAt,awake,here,Option.some.injEq,exists_and_left,exists_eq_left']
      exact finishedFault

theorem createError {source : DataSource} {settings : Settings} {error : PoolError}
    (failed : fault? (w.create P source settings).1 = some error) :
    ∃ detail, error = .config detail := by
  unfold World.create at failed
  split at failed
  · exact ⟨_,(Option.some.inj failed).symm⟩
  · cases failed

theorem callError {h : Handle} {request : Request} {error : PoolError}
    (failed : fault? (w.forward P h request).1 = some error) :
    error = .illegalState ∨ ∃ cause, error = .connection cause := by
  by_cases live : w.shared.IsLive h.wrapper
  · rw [forwardCalled live] at failed
    cases told : w.reply P h request with
    | error cause =>
      rw [told] at failed
      exact .inr ⟨cause,(Option.some.inj failed).symm⟩
    | ok =>
      rw [told] at failed
      cases failed
  · rw [forwardStuck live] at failed
    exact .inl (Option.some.inj failed).symm

theorem otherErrors {a : Move σ} {error : PoolError} (failed : w.error? P a = some error) :
    (∃ door, a = .get door) ∨ (∃ index, a = .resume index) ∨
      (∃ detail, error = .config detail) ∨ error = .illegalState ∨
        ∃ cause, error = .connection cause := by
  cases a with
  | create => exact .inr (.inr (.inl (createError failed)))
  | createFrom text =>
    simp only [error?,createFrom] at failed
    split at failed
    · exact .inr (.inr (.inl ⟨_,(Option.some.inj failed).symm⟩))
    · exact .inr (.inr (.inl (createError failed)))
  | get door => exact .inl ⟨door,rfl⟩
  | resume index => exact .inr (.inl ⟨index,rfl⟩)
  | configure door change =>
    obtain ⟨p,_,failed⟩ := Option.bind_eq_some_iff.mp failed
    simp only [consult] at failed
    rcases p.configureCases P change w.shared with ⟨fault,same⟩ | ⟨_,_,_,_,same⟩
    · rw [same] at failed
      exact .inr (.inr (.inl ⟨_,(Option.some.inj failed).symm⟩))
    · rw [same] at failed
      cases failed
  | forward =>
    obtain ⟨h,_,failed⟩ := Option.bind_eq_some_iff.mp failed
    exact .inr (.inr (.inr (callError failed)))
  | raw slot request =>
    obtain ⟨h,_,failed⟩ := Option.bind_eq_some_iff.mp failed
    unfold World.raw at failed
    split at failed
    · cases failed
    · exact .inr (.inr (.inr (.inl (Option.some.inj failed).symm)))
  | isClosed =>
    obtain ⟨h,_,failed⟩ := Option.bind_eq_some_iff.mp failed
    rw [isClosedForward] at failed
    split at failed
    · exact .inr (.inr (.inr (callError failed)))
    · cases failed
  | _ => cases failed

theorem getFails {door : Nat} {error : PoolError} (numbered : w.Numbered)
    (failed : w.error? P (.get door) = some error) :
    (error = .poolClosed ∧ ∃ p, w.doorPool? door = some p ∧ p.closed = true) ∨
    ∃ n q t, w.Seeks P n (.get door) q t ∧ q.Thwarts P t error := by
  obtain ⟨p,behind,ends⟩ := getError.mp failed
  obtain ⟨n,known,here⟩ := doorPoolAt behind
  rcases Pool.enterFails ends with ⟨closed,same⟩ | ⟨unshut,q,t,looks,thwarts⟩
  · exact .inl ⟨same,p,behind,closed⟩
  · rw [numbered here] at looks
    exact .inr ⟨n,q,t,⟨_,p,_,.get known here unshut,rfl,looks⟩,thwarts⟩

theorem resumeFails {index : Nat} {error : PoolError}
    (failed : w.error? P (.resume index) = some error) :
    (error = .waitInterrupted ∧ ∃ wait p, w.shared.woken[index]? = some wait ∧
      w.pools[wait.seeker.pool]? = some p ∧ p.closed = true) ∨
    ∃ n q t, w.Seeks P n (.resume index) q t ∧ q.Thwarts P t error := by
  obtain ⟨wait,p,awake,here,ends⟩ := resumeError.mp failed
  rcases Pool.resumeFails ends with ⟨closed,same⟩ | ⟨unshut,q,t,looks,thwarts⟩
  · exact .inl ⟨same,wait,p,awake,here,closed⟩
  · exact .inr ⟨_,q,t,⟨_,_,_,.resume awake here unshut,rfl,looks⟩,thwarts⟩

theorem getClosed {door : Nat} (behind : w.doorPool? door = some p) (closed : p.closed = true) :
    w.error? P (.get door) = some .poolClosed :=
  getError.mpr ⟨p,behind,by rw [Pool.enterShut closed]; rfl⟩

theorem resumeClosed {index : Nat} {wait : Wait} (awake : w.shared.woken[index]? = some wait)
    (here : w.pools[wait.seeker.pool]? = some p) (closed : p.closed = true) :
    w.error? P (.resume index) = some .waitInterrupted :=
  resumeError.mpr ⟨wait,p,awake,here,by rw [Pool.resumeShut closed]; rfl⟩

theorem interrupted (numbered : w.Numbered) {a : Move σ}
    (failed : w.error? P a = some .waitInterrupted) : ∃ index wait p, a = .resume index ∧
      w.shared.woken[index]? = some wait ∧ w.pools[wait.seeker.pool]? = some p ∧
        p.closed = true := by
  rcases otherErrors failed with ⟨door,rfl⟩ | ⟨index,rfl⟩ | ⟨_,other⟩ | other | ⟨_,other⟩
  · rcases getFails numbered failed with ⟨other,_⟩ | ⟨_,_,_,_,thwarts⟩
    · cases other
    · cases thwarts
  · rcases resumeFails failed with ⟨_,wait,p,awake,here,closed⟩ | ⟨_,_,_,_,thwarts⟩
    · exact ⟨index,wait,p,rfl,awake,here,closed⟩
    · cases thwarts
  all_goals cases other

theorem turnedAway (numbered : w.Numbered) {a : Move σ}
    (failed : w.error? P a = some .poolClosed) :
    ∃ door p, a = .get door ∧ w.doorPool? door = some p ∧ p.closed = true := by
  rcases otherErrors failed with ⟨door,rfl⟩ | ⟨index,rfl⟩ | ⟨_,other⟩ | other | ⟨_,other⟩
  · rcases getFails numbered failed with ⟨_,p,behind,closed⟩ | ⟨_,_,_,_,thwarts⟩
    · exact ⟨door,p,rfl,behind,closed⟩
    · cases thwarts
  · rcases resumeFails failed with ⟨other,_⟩ | ⟨_,_,_,_,thwarts⟩
    · cases other
    · cases thwarts
  all_goals cases other

structure Ended (P : Platform σ) (w : World σ) (n : Nat) : Prop where
  pool : ∃ p, w.pools[n]? = some p ∧ p.closed = true ∧ p.idle = [] ∧ p.active = []
  handles {slot h} (held : w.handle? slot = some h) (own : h.pool = n) :
    ¬w.shared.IsLive h.wrapper
  asleep : ∀ wait ∈ w.shared.waiting, wait.seeker.pool ≠ n
  gets {door} (behind : w.doors[door]? = some (some n)) :
    w.error? P (.get door) = some .poolClosed
  resumes {index wait} (awake : w.shared.woken[index]? = some wait) (own : wait.seeker.pool = n) :
    w.error? P (.resume index) = some .waitInterrupted

theorem ended (attained : Attained P Alters outside w) (here : w.pools[n]? = some p)
    (closed : p.closed = true) : w.Ended P n where
  pool :=
    have ⟨idle,active⟩ := List.append_eq_nil_iff.mp (everyClosedShut attained here closed).empty
    ⟨p,here,closed,idle,active⟩
  handles {slot h} held own live := by
    obtain ⟨_,q,there,lent⟩ := (everyOwned attained).valid held live
    obtain rfl := Option.some.inj ((own ▸ there).symm.trans here)
    have tracked : h.wrapper ∈ q.tracked := List.mem_append_right _ lent
    rw [(everyClosedShut attained here closed).empty] at tracked
    exact absurd tracked List.not_mem_nil
  asleep wait sleeps own := by
    obtain ⟨q,there,full⟩ := everySleeperHushed attained wait sleeps
    obtain rfl := Option.some.inj ((own ▸ there).symm.trans here)
    cases full.1.symm.trans closed
  gets behind := getClosed (doorPoolSome behind here) closed
  resumes awake own := resumeClosed awake (own ▸ here) closed

theorem closeShuts {door : Nat} (numbered : w.Numbered) (behind : w.doorPool? door = some p) :
    ∃ q, (w.move P (.close door)).pools[p.number]? = some q ∧ q.closed = true := by
  obtain ⟨n,_,here⟩ := doorPoolAt behind
  have number := numbered here
  have inside := (List.getElem?_eq_some_iff.mp here).1
  simp only [World.move,atDoor,behind,visitPut numbered here,number]
  refine ⟨(p.close P w.shared).1,List.getElem?_set_self inside,?_⟩
  unfold Pool.close
  split
  · assumption
  · exact congrArg Pool.closed (Pool.sweepAlike P { p with closed := true } w.shared)

theorem closeKeeps {door : Nat} (numbered : w.Numbered) (behind : w.doorPool? door = some p) :
    (w.move P (.close door)).shared.unfinished.Perm w.shared.unfinished := by
  obtain ⟨n,_,here⟩ := doorPoolAt behind
  simp only [World.move,atDoor,behind,visitPut numbered here]
  unfold put Pool.close
  split
  · exact .refl _
  · exact (Shared.notifyUnfinished _ _).trans (.of_eq (Pool.sweepUnfinished P _ w.shared))

structure StaysClosed (P : Platform σ) (w closed later : World σ) (n : Nat) : Prop where
  ended : later.Ended P n
  rests : closed.Rests n later
  callers {wait} (onTheWay : wait ∈ w.shared.unfinished) (own : wait.seeker.pool = n) :
    wait ∈ later.shared.woken ∨ .denied n wait.seeker.ticket .waitInterrupted ∈ later.shared.journal

/-- Once a pool is closed it stays so and stays empty, its handles are invalid, it says nothing more
to the outside, and whoever waited for it is awake until it is turned away. Closed pools, and no
others, turn callers away; otherwise a caller fails only where no connection can be opened or one
more bad candidate is too many. -/
structure ClosesForGood (P : Platform σ) (w : World σ) : Prop where
  closes {door p} (behind : w.doorPool? door = some p) (moves : List (Move σ)) :
    w.StaysClosed P (w.move P (.close door)) ((w.move P (.close door)).run P moves) p.number
  interrupted {a} : w.error? P a = some .waitInterrupted ↔ ∃ index wait p, a = .resume index ∧
    w.shared.woken[index]? = some wait ∧ w.pools[wait.seeker.pool]? = some p ∧ p.closed = true
  turnedAway {a} : w.error? P a = some .poolClosed ↔
    ∃ door p, a = .get door ∧ w.doorPool? door = some p ∧ p.closed = true
  getFails {door error} (failed : w.error? P (.get door) = some error) : error = .poolClosed ∨
    ∃ n q t, w.Seeks P n (.get door) q t ∧ q.Thwarts P t error
  resumeFails {index error} (failed : w.error? P (.resume index) = some error) :
    error = .waitInterrupted ∨ ∃ n q t, w.Seeks P n (.resume index) q t ∧ q.Thwarts P t error

theorem closeStays (attained : Attained P (fun _ => True) outside w) {door : Nat}
    (behind : w.doorPool? door = some p) (moves : List (Move σ)) :
    w.StaysClosed P (w.move P (.close door)) ((w.move P (.close door)).run P moves) p.number := by
  have known := numbered attained
  have closes := attained.trans (moveTurns (P := P) known (.close door) fun _ _ => trivial)
  have turns := runTurns closes moves
  obtain ⟨q,here,closed⟩ := closeShuts (P := P) known behind
  obtain ⟨r,there,stays,_⟩ := (agesTurns closes turns).pools here
  have ended := ended (closes.trans turns) there (stays closed)
  obtain ⟨rests,callers⟩ := shutTurns closes here closed turns
  refine ⟨ended,rests,fun {wait} member own => ?_⟩
  rcases callers wait ((closeKeeps known behind).mem_iff.mpr member) own with onTheWay | denied
  · rcases List.mem_append.mp onTheWay with asleep | awake
    · exact absurd own (ended.asleep wait asleep)
    · exact .inl awake
  · exact .inr (own ▸ denied)

theorem poolsCloseForGood (reachable : w.Reachable P) : w.ClosesForGood P := by
  obtain ⟨_,attained⟩ := reachableAttained reachable
  have known := numbered attained
  refine ⟨closeStays attained,⟨interrupted known,?_⟩,⟨turnedAway known,?_⟩,
    fun failed => (getFails known failed).imp_left And.left,
    fun failed => (resumeFails failed).imp_left And.left⟩
  · rintro ⟨index,wait,p,rfl,awake,here,closed⟩
    exact resumeClosed awake here closed
  · rintro ⟨door,p,rfl,behind,closed⟩
    exact getClosed behind closed

def oneWaits : World Memory.Server :=
  World.run Memory.platform
    [.create {} { maxActive := 1, timeToWait := 5 },.get 0,.get 0,.release 0] (.initial {})

theorem poolsCloseForGoodWoken : oneWaits.shared.woken.map (·.seeker.ticket) = [1] ∧
    (oneWaits.move Memory.platform (.close 0)).error? Memory.platform (.resume 0) =
      some .waitInterrupted := by
  have reachable : oneWaits.Reachable Memory.platform := reachableRun (.initial _) _
  have waits : ∃ wait p, oneWaits.doorPool? 0 = some p ∧ wait.seeker.pool = p.number ∧
      (oneWaits.move Memory.platform (.close 0)).shared.woken[0]? = some wait :=
    ⟨_,_,rfl,by decide,rfl⟩
  obtain ⟨wait,p,behind,own,awake⟩ := waits
  exact ⟨by decide,((poolsCloseForGood reachable).closes behind []).ended.resumes awake own⟩

end World
end ConnectionPool
