import ConnectionPool.Proofs.Sides
import ConnectionPool.Proofs.Sight
import ConnectionPool.Proofs.Within
/-! A move that is made in view gets the same answer in what is left of the world, and leaves behind
what is left of the world after it. -/
namespace ConnectionPool
variable {σ : Type} {P : Platform σ} {scope : Scope}

def World.Finished.within (scope : Scope) (answer : World.Finished) : World.Finished where
  ticket := rank scope.slot answer.ticket
  result := answer.result.map (Wrapper.within scope)

def Answer.within (scope : Scope) : Answer → Answer
  | door result => .door (result.map (rank scope.door))
  | stay ticket outcome => .stay (rank scope.slot ticket) (outcome.within scope)
  | resumed told => .resumed (told.map (World.Finished.within scope))
  | answer => answer

def Move.within (scope : Scope) (w : World σ) : Move σ → Move σ
  | create source settings => .create source settings
  | createFrom text => .createFrom text
  | share door => .share (rank scope.door door)
  | leave door => .leave (rank scope.door door)
  | get door => .get (rank scope.door door)
  | resume index => .resume ((w.shared.woken.take index).countP scope.awaits)
  | closeAll door => .closeAll (rank scope.door door)
  | close door => .close (rank scope.door door)
  | configure door change => .configure (rank scope.door door) change
  | setTolerance door count => .setTolerance (rank scope.door door) count
  | release slot => .release (rank scope.slot slot)
  | drop slot => .drop (rank scope.slot slot)
  | forward slot request => .forward (rank scope.slot slot) request
  | raw slot request => .raw (rank scope.slot slot) request
  | isClosed slot => .isClosed (rank scope.slot slot)
  | advance time => .advance time
  | tamper change => .tamper change

theorem Scope.callersApart {xs : List Wait} {i : Nat} {x : Wait} (there : xs[i]? = some x)
    (mine : scope.awaits x = true) :
    (scope.callers xs)[(xs.take i).countP scope.awaits]? = some (x.within scope) ∧
      (scope.callers xs).eraseIdx ((xs.take i).countP scope.awaits) =
        scope.callers (xs.eraseIdx i) := by
  induction xs generalizing i with
  | nil => cases there
  | cons y ys ih =>
    cases i with
    | zero =>
      obtain rfl : y = x := Option.some.inj there
      simp [callers,mine]
    | succ i =>
      have later := ih there
      cases other : scope.awaits y with
      | true => simpa [callers,other] using later
      | false => simpa [callers,other] using later

namespace World
variable {w : World σ} {f : σ → σ} {n i : Nat} {p : Pool} {h : Handle}

section Lookups

theorem withinPoolAt (mine : scope.pool n = true) (w : World σ) :
    (w.within scope f).pools[rank scope.pool n]? = (w.pools[n]?).map (Pool.within scope) :=
  thinImageAt mine ..

theorem withinDoorPool (divided : w.Divided scope) (mine : scope.door i = true) :
    (w.within scope f).doorPool? (rank scope.door i) =
      (w.doorPool? i).map (Pool.within scope) := by
  have there : (w.within scope f).doors[rank scope.door i]? =
      (w.doors[i]?).map (Option.map (rank scope.pool)) := thinImageAt mine ..
  unfold doorPool?
  rw [there]
  rcases known : w.doors[i]? with _ | _ | n
  · rfl
  · rfl
  · exact withinPoolAt ((divided.doors known).symm.trans mine) w

theorem withinHandle (mine : scope.slot i = true) (w : World σ) :
    (w.within scope f).handle? (rank scope.slot i) = (w.handle? i).map (Handle.within scope) := by
  have there : (w.within scope f).slots[rank scope.slot i]? =
      (w.slots[i]?).map (Slot.within scope) := thinImageAt mine ..
  unfold handle?
  rw [there]
  rcases w.slots[i]? with _ | _ | _ | _ <;> rfl

theorem withinSetSlot (mine : scope.slot i = true) (content : Slot) (w : World σ) :
    (w.within scope f).setSlot (rank scope.slot i) (content.within scope) =
      (w.setSlot i content).within scope f :=
  congrArg (fun slots => { w.within scope f with slots }) (thinImageSetIn mine content).symm

theorem withinDoorsTo (divided : w.Divided scope) (mine : scope.pool n = true) :
    some (rank scope.pool n) ∈ (w.within scope f).doors ↔ some n ∈ w.doors := by
  constructor
  · intro member
    obtain ⟨i,own,there⟩ := memThin.mp member
    rw [List.getElem?_map] at there
    obtain ⟨door,known,image⟩ := Option.map_eq_some_iff.mp there
    obtain ⟨m,rfl,same⟩ := Option.map_eq_some_iff.mp image
    have theirs := (divided.doors known).symm.trans own
    exact (rankSame theirs mine).mp same ▸ List.mem_of_getElem? known
  · intro member
    obtain ⟨i,there⟩ := List.mem_iff_getElem?.mp member
    refine memThin.mpr ⟨i,(divided.doors there).trans mine,?_⟩
    rw [List.getElem?_map,there]
    rfl

theorem withinSlotsTo (divided : w.Divided scope) (mine : scope.pool n = true) :
    (w.within scope f).slots.any (Slot.refersTo (rank scope.pool n)) =
      w.slots.any (Slot.refersTo n) := by
  rw [Bool.eq_iff_iff,List.any_eq_true,List.any_eq_true]
  constructor
  · rintro ⟨content,member,refers⟩
    obtain ⟨i,own,there⟩ := memThin.mp member
    rw [List.getElem?_map] at there
    obtain ⟨old,known,rfl⟩ := Option.map_eq_some_iff.mp there
    cases old with
    | held h =>
      have theirs := (divided.slots (handleAt.mpr known)).symm.trans own
      exact ⟨_,List.mem_of_getElem? known,
        beq_iff_eq.mpr ((rankSame theirs mine).mp (beq_iff_eq.mp refers))⟩
    | pending | empty => cases refers
  · rintro ⟨content,member,refers⟩
    obtain ⟨i,there⟩ := List.mem_iff_getElem?.mp member
    cases content with
    | held h =>
      obtain rfl : h.pool = n := beq_iff_eq.mp refers
      have own : scope.slot i = true := (divided.slots (handleAt.mpr there)).trans mine
      refine ⟨.held (h.within scope),memThin.mpr ⟨i,own,?_⟩,beq_self_eq_true (rank scope.pool h.pool)⟩
      rw [List.getElem?_map,there]
      rfl
    | pending | empty => cases refers

theorem withinCallersTo (mine : scope.pool n = true) (w : World σ) :
    rank scope.pool n ∈ (w.within scope f).shared.unfinished.map (·.seeker.pool) ↔
      n ∈ w.shared.unfinished.map (·.seeker.pool) := by
  have pools : (scope.callers w.shared.unfinished).map (·.seeker.pool) =
      ((w.shared.unfinished.map (·.seeker.pool)).filter scope.pool).map (rank scope.pool) := by
    rw [Scope.callers,List.map_map,List.filter_map,List.map_map]
    rfl
  have joined : (w.within scope f).shared.unfinished = scope.callers w.shared.unfinished :=
    (Scope.callersAppend ..).symm
  rw [joined,pools]
  exact rankMem mine _

theorem withinIsReferred (divided : w.Divided scope) (mine : scope.pool n = true) :
    (w.within scope f).IsReferred (rank scope.pool n) ↔ w.IsReferred n := by
  unfold IsReferred
  rw [withinDoorsTo divided mine,withinSlotsTo divided mine,withinCallersTo mine]

end Lookups

section Acts

theorem withinVisit (mine : scope.pool p.number = true)
    {act act' : Pool → Shared σ → Pool × Shared σ}
    (acts : act' (p.within scope) (w.shared.within scope f) =
      Pool.withinBoth scope f (act p w.shared)) :
    (w.within scope f).visit (p.within scope) act' = (w.visit p act).within scope f := by
  have shared : (w.within scope f).shared = w.shared.within scope f := rfl
  unfold visit
  rw [shared,acts]
  rcases act p w.shared with ⟨q,t⟩
  exact congrArg (fun pools => { w.within scope f with shared := t.within scope f, pools })
    (thinImageSetIn mine q).symm

theorem withinConsult (mine : scope.pool p.number = true) {α : Type} {mask : α → α}
    {act act' : Pool → Shared σ → α × Pool × Shared σ}
    (acts : act' (p.within scope) (w.shared.within scope f) =
      (act p w.shared).map mask (Pool.withinBoth scope f)) :
    (w.within scope f).consult (p.within scope) act' =
      (w.consult p act).map mask (within scope f) := by
  have shared : (w.within scope f).shared = w.shared.within scope f := rfl
  unfold consult
  rw [shared,acts]
  rcases act p w.shared with ⟨a,q,t⟩
  exact congrArg (fun pools => (mask a,
    ({ w.within scope f with shared := t.within scope f, pools } : World σ)))
    (thinImageSetIn mine q).symm

theorem withinSlotAfter (n : Nat) (outcome : Outcome) :
    slotAfter (rank scope.pool n) (outcome.within scope) = (slotAfter n outcome).within scope := by
  cases outcome <;> rfl

theorem withinFinished (ticket : Nat) (outcome : Outcome) :
    finished? (rank scope.slot ticket) (outcome.within scope) =
      (finished? ticket outcome).map (Finished.within scope) := by
  cases outcome <;> rfl

variable (division : P.Division scope.conn)

theorem withinLetGo (divided : w.Divided scope) (numbered : w.Numbered)
    (mine : scope.pool n = true) :
    (w.within scope division.part).letGo P (rank scope.pool n) =
      (w.letGo P n).within scope division.part := by
  have referred := withinIsReferred (f := division.part) divided mine
  unfold letGo
  by_cases known : w.IsReferred n
  · rw [if_pos known,if_pos (referred.mpr known)]
  · rw [if_neg known,if_neg (mt referred.mp known),withinPoolAt mine]
    cases here : w.pools[n]? with
    | none => rfl
    | some p =>
      have own : scope.pool p.number = true := (congrArg scope.pool (numbered here)).trans mine
      have owns : ∀ x ∈ p.tracked, scope.Owns true x := fun x member =>
        mine ▸ divided.pools here member
      exact withinVisit own (Pool.withinAbandon division own owns w.shared)

theorem withinGet {door : Nat} (mine : scope.pool p.number = true)
    (owns : ∀ x ∈ p.tracked, scope.Owns true x) (sized : division.Sized w.shared)
    (slot : scope.slot w.slots.length = true)
    (issues : scope.Issues true w.shared (w.get P door p).2.2.shared) :
    (w.within scope division.part).get P (rank scope.door door) (p.within scope) =
      (w.get P door p).map (rank scope.slot)
        (Prod.map (Outcome.within scope) (within scope division.part)) := by
  have seats : (w.within scope division.part).slots.length = rank scope.slot w.slots.length :=
    thinImages ..
  have seeker : (w.within scope division.part).newSeeker (rank scope.door door)
      (rank scope.pool p.number) = (w.newSeeker door p.number).within scope :=
    congrArg (fun ticket => ({ (w.newSeeker door p.number).within scope with ticket } : Seeker)) seats
  have entered : (w.within scope division.part).consult (p.within scope)
      (Pool.enter P ((w.newSeeker door p.number).within scope)) =
      (w.consult p (Pool.enter P (w.newSeeker door p.number))).map (Outcome.within scope)
        (within scope division.part) :=
    withinConsult mine (Pool.withinEnter division mine owns sized mine issues)
  have met : (w.within scope division.part).get P (rank scope.door door) (p.within scope) =
      (fun stay => ((w.within scope division.part).slots.length,stay.1,({ stay.2 with
        slots := stay.2.slots ++ [slotAfter (rank scope.pool p.number) stay.1] } : World σ)))
      ((w.within scope division.part).consult (p.within scope) (Pool.enter P
        ((w.within scope division.part).newSeeker (rank scope.door door)
          (rank scope.pool p.number)))) := rfl
  have came : w.get P door p = (fun stay => (w.slots.length,stay.1,({ stay.2 with
      slots := stay.2.slots ++ [slotAfter p.number stay.1] } : World σ)))
      (w.consult p (Pool.enter P (w.newSeeker door p.number))) := rfl
  have kept : (w.consult p (Pool.enter P (w.newSeeker door p.number))).2.slots = w.slots := rfl
  rw [met,came,seeker,entered,seats]
  generalize w.consult p (Pool.enter P (w.newSeeker door p.number)) = stay at kept ⊢
  obtain ⟨outcome,w'⟩ := stay
  have joined : thin scope.slot ((w'.slots ++ [slotAfter p.number outcome]).map
      (Slot.within scope)) = thin scope.slot (w'.slots.map (Slot.within scope)) ++
        [slotAfter (rank scope.pool p.number) (outcome.within scope)] := by
    rw [withinSlotAfter]
    exact thinImageAddIn (by rw [kept,slot]) _
  exact Prod.ext rfl (Prod.ext rfl
    (congrArg (fun slots => { w'.within scope division.part with slots }) joined.symm))

theorem resumeAtSome {wait : Wait} (awake : w.shared.woken[i]? = some wait)
    (here : w.pools[wait.seeker.pool]? = some p) :
    w.resumeAt P i =
      let stay := (w.rouse i).consult p (Pool.resume P wait)
      (finished? wait.seeker.ticket stay.1,
        (stay.2.setSlot wait.seeker.ticket (slotAfter p.number stay.1)).letGo P p.number) := by
  simp only [resumeAt,awake,here]
  rfl

theorem withinResumeAt (divided : w.Divided scope) (numbered : w.Numbered)
    (sized : division.Sized w.shared) {wait : Wait} (awake : w.shared.woken[i]? = some wait)
    (mine : scope.awaits wait = true)
    (issues : scope.Issues true w.shared (w.move P (.resume i)).shared) :
    (w.within scope division.part).resumeAt P ((w.shared.woken.take i).countP scope.awaits) =
      (w.resumeAt P i).map (Option.map (Finished.within scope)) (within scope division.part) := by
  -- The caller is the same one, behind those alone that are in view.
  obtain ⟨first,apart⟩ := Scope.callersApart awake mine
  have roused : (w.within scope division.part).rouse
      ((w.shared.woken.take i).countP scope.awaits) = (w.rouse i).within scope division.part :=
    congrArg (fun woken => ({ w.within scope division.part with
      shared := { w.shared.within scope division.part with woken } } : World σ)) apart
  have ticket : scope.slot wait.seeker.ticket = true :=
    (divided.callers (List.mem_append_right _ (List.mem_of_getElem? awake))).trans mine
  have pool := withinPoolAt (f := division.part) mine w
  cases here : w.pools[wait.seeker.pool]? with
  | none =>
    rw [here] at pool
    have strayed : (w.within scope division.part).pools[(wait.within scope).seeker.pool]? = none :=
      pool
    simp only [resumeAt,awake,here,strayed,
      show (w.within scope division.part).shared.woken[_]? = some (wait.within scope) from first]
    exact congrArg (fun v => (none,v)) roused
  | some p =>
    rw [here] at pool
    rw [resumeMove numbered awake here] at issues
    have issued := issuedResume numbered here issues
    have seated := sidedSeat division divided numbered sized awake here mine issued
    have own : scope.pool p.number = true := (congrArg scope.pool (numbered here)).trans mine
    have owns : ∀ x ∈ p.tracked, scope.Owns true x := fun x member =>
      mine ▸ divided.pools here member
    have awoken : division.Sized (w.rouse i).shared := division.endures.quiet sized ⟨rfl,rfl,rfl⟩
    have resumed : ((w.rouse i).within scope division.part).consult (p.within scope)
        (Pool.resume P (wait.within scope)) =
        ((w.rouse i).consult p (Pool.resume P wait)).map (Outcome.within scope)
          (within scope division.part) :=
      withinConsult own (Pool.withinResume division own owns awoken mine issued)
    have shape : w.seatResumed P i wait p =
        ((w.rouse i).consult p (Pool.resume P wait)).2.setSlot wait.seeker.ticket
          (slotAfter p.number ((w.rouse i).consult p (Pool.resume P wait)).1) := by
      unfold seatResumed
      rw [← numbered here]
      rfl
    have after : (w.seatResumed P i wait p).Numbered := numberedResumed numbered here i
    have gone := withinLetGo division seated.divided after own
    rw [shape,← withinSetSlot ticket,← withinSlotAfter] at gone
    rw [resumeAtSome first pool,resumeAtSome awake here,roused,resumed]
    exact Prod.ext (withinFinished _ _) gone

theorem withinRaw (own : scope.Owns true h.wrapper) (request : Request) (w : World σ) :
    (w.within scope division.part).raw P (h.within scope) request =
      (w.raw P h request).map id (within scope division.part) := by
  have live : (w.within scope division.part).shared.IsLive (h.within scope).wrapper ↔
      w.shared.IsLive h.wrapper := Shared.isLiveWithin own.key
  have asked := Shared.withinRelays division (.holder h.wrapper.key) own.conn request w.shared
  unfold raw
  by_cases valid : w.shared.IsLive h.wrapper
  · rw [if_pos valid,if_pos (live.mpr valid)]
    exact congrArg (fun x => (Except.ok x.1,
      ({ w.within scope division.part with shared := x.2 } : World σ))) asked
  · rw [if_neg valid,if_neg (mt live.mp valid)]
    rfl

theorem withinForward (own : scope.Owns true h.wrapper) (request : Request) (w : World σ) :
    (w.within scope division.part).forward P (h.within scope) request =
      (w.forward P h request).map id (within scope division.part) := by
  unfold forward
  rw [withinRaw division own]
  rcases w.raw P h request with ⟨_ | _ | _,w'⟩ <;> rfl

theorem withinIsClosed (own : scope.Owns true h.wrapper) (w : World σ) :
    (w.within scope division.part).isClosed P (h.within scope) =
      (w.isClosed P h).map id (within scope division.part) := by
  have live : (w.within scope division.part).shared.IsLive (h.within scope).wrapper ↔
      w.shared.IsLive h.wrapper := Shared.isLiveWithin own.key
  rw [isClosedForward,isClosedForward]
  by_cases valid : w.shared.IsLive h.wrapper
  · rw [if_pos valid,if_pos (live.mpr valid)]
    exact withinForward division own .isClosed w
  · rw [if_neg valid,if_neg (mt live.mp valid)]
    rfl

theorem withinRelease (divided : w.Divided scope) (numbered : w.Numbered)
    (held : w.handle? i = some h) (mine : scope.pool h.pool = true)
    (issues : scope.Issues true w.shared (w.release P i h).shared) :
    (w.within scope division.part).release P (rank scope.slot i) (h.within scope) =
      (w.release P i h).within scope division.part := by
  have again : (h.within scope).released = h.released := rfl
  have pool := withinPoolAt (f := division.part) mine w
  have slot : scope.slot i = true := (divided.slots held).trans mine
  have wrapper : scope.Owns true h.wrapper := mine ▸ divided.handles held
  unfold release at issues ⊢
  rw [again]
  split
  · rfl
  · rename_i first
    rw [if_neg first] at issues
    cases here : w.pools[h.pool]? with
    | none =>
      rw [here] at pool
      have none : (w.within scope division.part).pools[(h.within scope).pool]? = none := pool
      rw [none]
    | some p =>
      rw [here] at pool issues
      have there : (w.within scope division.part).pools[(h.within scope).pool]? =
          some (p.within scope) := pool
      have own : scope.pool p.number = true := (congrArg scope.pool (numbered here)).trans mine
      have owns : ∀ x ∈ p.tracked, scope.Owns true x := fun x member =>
        mine ▸ divided.pools here member
      have taken := withinVisit (w := w) own
        (Pool.withinRelease division own wrapper owns w.shared issues)
      rw [there]
      refine (congrArg (setSlot · (rank scope.slot i) _) taken).trans ?_
      exact withinSetSlot slot (.held { h with released := true }) _

theorem withinDrop (divided : w.Divided scope) (numbered : w.Numbered)
    (held : w.handle? i = some h) (mine : scope.pool h.pool = true)
    (issues : scope.Issues true w.shared (w.drop P i h).shared) :
    (w.within scope division.part).drop P (rank scope.slot i) (h.within scope) =
      (w.drop P i h).within scope division.part := by
  have slot : scope.slot i = true := (divided.slots held).trans mine
  have given : Turns P (fun _ => True) w (w.release P i h) := releaseTurns numbered held
  have kept : (w.release P i h).Numbered := numberedTurns numbered given
  have after : ((w.release P i h).setSlot i .empty).Numbered := kept
  have left := letGoGrows (P := P) after h.pool
  have released := sidedRelease division divided numbered held mine (issues.upTo left)
  have vacant := sidedSet (f := division.part) released.divided slot
    (show Fits scope true .empty by rintro _ ⟨⟩)
  have emptied : ((w.release P i h).within scope division.part).setSlot (rank scope.slot i) .empty =
      ((w.release P i h).setSlot i .empty).within scope division.part :=
    withinSetSlot slot .empty _
  unfold drop
  rw [withinRelease division divided numbered held mine (issues.upTo left),emptied]
  exact withinLetGo division vacant.divided after mine

theorem withinLeave {door : Nat} (divided : w.Divided scope) (numbered : w.Numbered)
    (behind : w.doorPool? door = some p) (mine : scope.pool p.number = true) :
    (w.within scope division.part).leave P (rank scope.door door) =
      (w.leave P door).within scope division.part := by
  obtain ⟨n,known,here⟩ := doorPoolAt behind
  have own : scope.door door = true :=
    (divided.doors known).trans ((congrArg scope.pool (numbered here)).symm.trans mine)
  have there := withinDoorPool (f := division.part) divided own
  rw [behind] at there
  have shut := sidedShut (f := division.part) divided own
  have closed : ({ w.within scope division.part with
      doors := (w.within scope division.part).doors.set (rank scope.door door) none } : World σ) =
      ({ w with doors := w.doors.set door none } : World σ).within scope division.part :=
    congrArg (fun doors => { w.within scope division.part with doors })
      (thinImageSetIn own none).symm
  simp only [leave,behind,there,Option.map_some,closed]
  exact withinLetGo division shut.divided numbered mine

omit division in
theorem withinDoors (w : World σ) :
    (w.within scope f).doors.length = rank scope.door w.doors.length := thinImages ..

omit division in
theorem withinNewDoor (mine : scope.door w.doors.length = true) (door : Option Nat) :
    { w.within scope f with
      doors := (w.within scope f).doors ++ [door.map (rank scope.pool)] } =
      ({ w with doors := w.doors ++ [door] } : World σ).within scope f :=
  congrArg (fun doors => { w.within scope f with doors }) (thinImageAddIn mine door).symm

omit division in
theorem withinCreate (source : DataSource) (settings : Settings)
    (mine : scope.door w.doors.length = true)
    (pool : w.pools.length < (w.create P source settings).2.pools.length →
      scope.pool w.pools.length = true) :
    (w.within scope f).create P source settings =
      (w.create P source settings).map (Except.map (rank scope.door)) (within scope f) := by
  have count : (w.within scope f).pools.length = rank scope.pool w.pools.length := thinImages ..
  unfold create at pool ⊢
  split
  · exact Prod.ext rfl (withinNewDoor mine none)
  · rename_i valid
    have own : scope.pool w.pools.length = true := pool (by simp [valid])
    have pools : thin scope.pool ((w.pools ++ [Pool.create P w.pools.length source settings
        w.shared.now]).map (Pool.within scope)) = _ := thinImageAddIn own _
    have grown := withinNewDoor (f := f) (w := { w with
      pools := w.pools ++ [Pool.create P w.pools.length source settings w.shared.now] })
      mine (some w.pools.length)
    refine Prod.ext (congrArg Except.ok (withinDoors w)) ?_
    refine Eq.trans ?_ grown
    rw [count]
    exact congrArg (fun pools => ({ w.within scope f with
      pools
      doors := (w.within scope f).doors ++ [some (rank scope.pool w.pools.length)] } : World σ))
      pools.symm

omit division in
theorem withinCreateFrom (text : String) (mine : scope.door w.doors.length = true)
    (pool : w.pools.length < (w.createFrom P text).2.pools.length →
      scope.pool w.pools.length = true) :
    (w.within scope f).createFrom P text =
      (w.createFrom P text).map (Except.map (rank scope.door)) (within scope f) := by
  unfold createFrom at pool ⊢
  split
  · exact Prod.ext rfl (withinNewDoor mine none)
  · rename_i source settings read
    exact withinCreate source settings mine fun more => pool (by simpa only [read] using more)

theorem outcomeVeilWithin (outcome : Outcome) :
    (outcome.within scope).veil = outcome.veil.within scope := by
  cases outcome <;> rfl

theorem finishedVeilWithin (answer : Finished) :
    (answer.within scope).veil = answer.veil.within scope := by
  have result : (answer.result.map (Wrapper.within scope)).map Wrapper.veil =
      (answer.result.map Wrapper.veil).map (Wrapper.within scope) := by
    cases answer.result <;> rfl
  exact congrArg (Finished.mk _) result

omit division in
theorem spokenWithin {α : Type} {x y : α × World σ} {told : α → Answer}
    (same : x = y.map id (within scope f)) (plain : ∀ a, (told a).within scope = told a) :
    x.map told id = (y.map told id).map (Answer.within scope) (within scope f) := by
  rw [same]
  exact Prod.ext (plain y.1).symm rfl

omit division in
theorem askDoorWithin (divided : w.Divided scope) (numbered : w.Numbered) {door : Nat}
    {act act' : Pool → Answer × World σ}
    (kept : ((w.doorPool? door).any fun p => scope.pool p.number) = true)
    (acts : ∀ {p}, w.doorPool? door = some p → scope.pool p.number = true →
      (∀ x ∈ p.tracked, scope.Owns true x) →
      act' (p.within scope) = (act p).map (Answer.within scope) (within scope f)) :
    (w.within scope f).askDoor (rank scope.door door) act' =
      (w.askDoor door act).map (Answer.within scope) (within scope f) := by
  obtain ⟨p,found,mine⟩ := Option.any_eq_true .. |>.mp kept
  obtain ⟨n,known,here⟩ := doorPoolAt found
  have own := (congrArg scope.pool (numbered here)).symm.trans mine
  have there := withinDoorPool (f := f) divided ((divided.doors known).trans own)
  rw [found] at there
  simp only [askDoor,found,there,Option.map_some]
  exact acts found mine fun x member => own ▸ divided.pools here member

omit division in
theorem askSlotWithin (divided : w.Divided scope) {slot : Nat} {act act' : Handle → Answer × World σ}
    (kept : ((w.handle? slot).any fun h => scope.pool h.pool) = true)
    (acts : ∀ {h}, w.handle? slot = some h → scope.pool h.pool = true →
      act' (h.within scope) = (act h).map (Answer.within scope) (within scope f)) :
    (w.within scope f).askSlot (rank scope.slot slot) act' =
      (w.askSlot slot act).map (Answer.within scope) (within scope f) := by
  obtain ⟨h,held,mine⟩ := Option.any_eq_true .. |>.mp kept
  have there := withinHandle (f := f) ((divided.slots held).trans mine) w
  rw [held] at there
  simp only [askSlot,held,there,Option.map_some]
  exact acts held mine

section Moves
variable {m : Move σ} (divided : w.Divided scope) (numbered : w.Numbered)
  (kept : scope.keeps w m = true) (grants : scope.Grants true w (w.move P m))
include divided numbered kept grants

theorem doorMoveWithin (sized : division.Sized w.shared) {door : Nat}
    (through : m.door? = some door) :
    (w.within scope division.part).answer P (m.within scope w) =
      (w.answer P m).map (Answer.within scope) (within scope division.part) := by
  cases m with
  | share door =>
    refine askDoorWithin divided numbered kept fun {p} found mine _ => ?_
    simp only [move,atDoor,found] at grants
    have own : scope.door w.doors.length = true := grants.door (Nat.le_refl _) (by simp [share])
    exact Prod.ext (congrArg (Answer.door ∘ Except.ok) (withinDoors w))
      (withinNewDoor own (some p.number))
  | leave door =>
    exact askDoorWithin divided numbered kept fun found mine _ => Prod.ext rfl
      (withinLeave division divided numbered found mine)
  | get door =>
    refine askDoorWithin divided numbered kept fun {p} found mine owns => ?_
    simp only [move,atDoor,found] at grants
    have slot : scope.slot w.slots.length = true := grants.slot (Nat.le_refl _) (by simp [get,consult])
    have told : (w.within scope division.part).get P (rank scope.door door) (p.within scope) = _ :=
      withinGet division mine owns sized slot grants.numbers
    rw [told]
    exact Prod.ext (congrArg (Answer.stay _) (outcomeVeilWithin _)) rfl
  | closeAll =>
    refine askDoorWithin divided numbered kept fun _ mine owns => Prod.ext rfl ?_
    exact withinVisit mine (Pool.withinCloseAll division mine owns w.shared)
  | close =>
    refine askDoorWithin divided numbered kept fun _ mine owns => Prod.ext rfl ?_
    exact withinVisit mine (Pool.withinClose division mine owns w.shared)
  | configure _ change =>
    refine askDoorWithin divided numbered kept fun _ mine owns => spokenWithin ?_ fun _ => rfl
    exact withinConsult mine (Pool.withinConfigure division mine owns change w.shared)
  | setTolerance _ count =>
    refine askDoorWithin divided numbered kept fun {p} _ mine _ => Prod.ext rfl ?_
    change (w.within scope division.part).visit (p.within scope) (fun p s =>
      (p.setTolerance count,s)) = (w.visit p fun p s => (p.setTolerance count,s)).within scope _
    exact withinVisit mine rfl
  | _ => cases through

theorem slotMoveWithin {slot : Nat} (uses : m.slot? = some slot) :
    (w.within scope division.part).answer P (m.within scope w) =
      (w.answer P m).map (Answer.within scope) (within scope division.part) := by
  cases m with
  | release =>
    refine askSlotWithin divided kept fun held mine => Prod.ext rfl ?_
    simp only [move,atSlot,held] at grants
    exact withinRelease division divided numbered held mine grants.numbers
  | drop =>
    refine askSlotWithin divided kept fun held mine => Prod.ext rfl ?_
    simp only [move,atSlot,held] at grants
    exact withinDrop division divided numbered held mine grants.numbers
  | forward _ request =>
    refine askSlotWithin divided kept fun held mine => spokenWithin ?_ fun _ => rfl
    exact withinForward division (mine ▸ divided.handles held) request w
  | raw _ request =>
    refine askSlotWithin divided kept fun held mine => spokenWithin ?_ fun _ => rfl
    exact withinRaw division (mine ▸ divided.handles held) request w
  | isClosed =>
    refine askSlotWithin divided kept fun held mine => spokenWithin ?_ fun _ => rfl
    exact withinIsClosed division (mine ▸ divided.handles held) w
  | _ => cases uses

theorem answerWithin (sized : division.Sized w.shared) (inside : ∀ change, m ≠ .tamper change) :
    (w.within scope division.part).answer P (m.within scope w) =
      (w.answer P m).map (Answer.within scope) (within scope division.part) := by
  cases m with
  | create source settings =>
    exact congrArg (Prod.map Answer.door id) (withinCreate source settings kept fun more =>
      grants.pool (Nat.le_refl _) more)
  | createFrom text =>
    exact congrArg (Prod.map Answer.door id) (withinCreateFrom text kept fun more =>
      grants.pool (Nat.le_refl _) more)
  | share | leave | get | closeAll | close | configure | setTolerance =>
    exact doorMoveWithin division divided numbered kept grants sized rfl
  | release | drop | forward | raw | isClosed =>
    exact slotMoveWithin division divided numbered kept grants rfl
  | resume index =>
    obtain ⟨wait,awake,mine⟩ := Option.any_eq_true .. |>.mp kept
    have told := withinResumeAt division divided numbered sized awake mine grants.numbers
    have veils (answer : Option Finished) :
        (answer.map (Finished.within scope)).map Finished.veil =
          (answer.map Finished.veil).map (Finished.within scope) := by
      cases answer with
      | none => rfl
      | some answer => exact congrArg some (finishedVeilWithin answer)
    obtain ⟨finished,left⟩ := Prod.ext_iff.mp told
    refine Prod.ext (congrArg Answer.resumed ?_) left
    exact (congrArg (Option.map Finished.veil) finished).trans (veils _)
  | advance time =>
    refine Prod.ext rfl ?_
    exact congrArg (fun shared => ({ w.within scope division.part with shared } : World σ))
      (Shared.advanceWithin time)
  | tamper change => exact absurd rfl (inside change)

end Moves

end Acts

theorem withinPoolSight (scope : Scope) (now : Nat) (p : Pool) :
    (p.within scope).sight now = p.sight now := by
  have status : (p.within scope).status = p.status := by
    simp only [Pool.status,Pool.within,List.length_map]
  have metrics : (p.within scope).metrics = p.metrics := by
    simp only [Pool.metrics,Pool.within,List.length_map]
  have dump : (p.within scope).dump = p.dump := by
    unfold Pool.dump
    rw [status]
    rfl
  unfold Pool.sight
  rw [status,metrics,dump]
  rfl

theorem withinDoorSight {door : Nat} (divided : w.Divided scope) (mine : scope.door door = true)
    (now : Nat) :
    ((w.within scope f).doorPool? (rank scope.door door)).map (Pool.sight now) =
      (w.doorPool? door).map (Pool.sight now) := by
  rw [withinDoorPool divided mine,Option.map_map]
  exact congrArg (Option.map · _) (funext (withinPoolSight scope now))

end World
end ConnectionPool
