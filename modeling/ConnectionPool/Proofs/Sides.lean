import ConnectionPool.Proofs.Aside
import ConnectionPool.Proofs.Ownership
/-! A world falls into two sides: doors, slots, callers and wrappers go with their pools. What is done
on one side leaves the world divided, and what is done out of view does not show. -/
namespace ConnectionPool
variable {σ : Type} {P : Platform σ} {scope : Scope} {own : Bool}

namespace Scope

structure Grants (scope : Scope) (own : Bool) (w w' : World σ) : Prop where
  numbers : scope.Issues own w.shared w'.shared
  pool {n : Nat} (above : w.pools.length ≤ n) (below : n < w'.pools.length) : scope.pool n = own
  door {i : Nat} (above : w.doors.length ≤ i) (below : i < w'.doors.length) : scope.door i = own
  slot {i : Nat} (above : w.slots.length ≤ i) (below : i < w'.slots.length) : scope.slot i = own

instance (scope : Scope) (own : Bool) (w w' : World σ) : Decidable (scope.Grants own w w') :=
  decidable_of_iff (scope.Issues own w.shared w'.shared ∧
      (∀ n < w'.pools.length, w.pools.length ≤ n → scope.pool n = own) ∧
      (∀ i < w'.doors.length, w.doors.length ≤ i → scope.door i = own) ∧
      ∀ i < w'.slots.length, w.slots.length ≤ i → scope.slot i = own)
    ⟨fun ⟨numbers,pool,door,slot⟩ => ⟨numbers,fun above below => pool _ below above,
      fun above below => door _ below above,fun above below => slot _ below above⟩,
     fun grants => ⟨grants.numbers,fun _ below above => grants.pool above below,
      fun _ below above => grants.door above below,fun _ below above => grants.slot above below⟩⟩

/-- Whether a move is made in view: on a pool in view, by a door, a handle or a caller of one, or to
make what will be one. Time passes for all. -/
def keeps (scope : Scope) (w : World σ) : Move σ → Bool
  | .create _ _ | .createFrom _ => scope.door w.doors.length
  | .share door | .leave door | .get door | .closeAll door | .close door | .configure door _
  | .setTolerance door _ => (w.doorPool? door).any fun p => scope.pool p.number
  | .release slot | .drop slot | .forward slot _ | .raw slot _ | .isClosed slot =>
      (w.handle? slot).any fun h => scope.pool h.pool
  | .resume index => (w.shared.woken[index]?).any scope.awaits
  | .advance _ | .tamper _ => true

end Scope

namespace Pool
variable {p q : Pool} {s t : Shared σ}

theorem sweepGrows (P : Platform σ) (p : Pool) (s : Shared σ) : s.Grows (p.sweep P s).2 := by
  refine discardAllKeeps (P := P) (fun _ _ t => s.Grows t) ?_ (s.noteBooks _).grows
  intro w ws q t grows
  have books := (t.invalidate w).disposeBooks P q.number w.conn
  exact grows.trans ⟨books.grows.opened,books.grows.ids,books.grows.keys⟩

theorem closeAllCallers (P : Platform σ) (p : Pool) (s : Shared σ) :
    (p.closeAll P s).2.unfinished ⊆ s.unfinished := fun _ member =>
  Pool.sweepUnfinished P p s ▸ (Shared.notifyUnfinished _ _).subset member

end Pool

namespace World
variable {w w' w'' : World σ} {n i : Nat} {p q : Pool} {t : Shared σ} {f : σ → σ}

structure Divided (scope : Scope) (w : World σ) : Prop where
  doors {i n : Nat} (there : w.doors[i]? = some (some n)) : scope.door i = scope.pool n
  slots {i : Nat} {h : Handle} (held : w.handle? i = some h) : scope.slot i = scope.pool h.pool
  handles {i : Nat} {h : Handle} (held : w.handle? i = some h) :
    scope.Owns (scope.pool h.pool) h.wrapper
  callers {x : Wait} (member : x ∈ w.shared.unfinished) :
    scope.slot x.seeker.ticket = scope.pool x.seeker.pool
  pools {n : Nat} {p : Pool} (here : w.pools[n]? = some p) {x : Wrapper} (member : x ∈ p.tracked) :
    scope.Owns (scope.pool n) x

structure Sided (scope : Scope) (f : σ → σ) (own : Bool) (w w' : World σ) : Prop where
  grows : w.shared.Grows w'.shared
  divided : w'.Divided scope
  aside : own = false → w'.within scope f = w.within scope f

theorem Sided.none (divided : w.Divided scope) : Sided scope f own w w :=
  ⟨.refl _,divided,fun _ => rfl⟩

theorem Sided.trans (first : Sided scope f own w w') (second : Sided scope f own w' w'') :
    Sided scope f own w w'' :=
  ⟨first.grows.trans second.grows,second.divided,
    fun away => (second.aside away).trans (first.aside away)⟩

theorem letGoGrows (numbered : w.Numbered) (n : Nat) : w.shared.Grows (w.letGo P n).shared :=
  letGoKeeps (fun t => w.shared.Grows t) numbered (.refl _) (fun p => p.sweepGrows P w.shared) n

theorem sidedPut (divided : w.Divided scope) (mine : scope.pool n = own)
    (callers : ∀ x ∈ t.unfinished, x ∈ w.shared.unfinished ∨
      scope.slot x.seeker.ticket = scope.pool x.seeker.pool)
    (confined : Pool.Confined scope f own w.shared q t) (issues : scope.Issues own w.shared t) :
    Sided scope f own w (w.put n q t) where
  grows := confined.grows
  divided := {
    doors := divided.doors
    slots := divided.slots
    handles := divided.handles
    callers := fun {x} member => (callers x member).elim divided.callers id
    pools := fun there x member => by
      rcases poolAtPut there with ⟨rfl,rfl⟩ | ⟨_,old⟩
      · rw [mine]
        exact confined.owns issues _ member
      · exact divided.pools old member }
  aside away := by
    subst away
    exact congrArg₂ (fun shared pools => { w.within scope f with shared, pools })
      (confined.spares rfl issues) (thinImageSetOut mine q)

def Fits (scope : Scope) (own : Bool) (content : Slot) : Prop :=
  ∀ h, content = .held h → scope.pool h.pool = own ∧ scope.Owns own h.wrapper

theorem sidedSet (divided : w.Divided scope) (mine : scope.slot i = own) {content : Slot}
    (fits : Fits scope own content) : Sided scope f own w (w.setSlot i content) where
  grows := .refl _
  divided := {
    doors := divided.doors
    slots := fun held => by
      rcases handleAtSet held with ⟨rfl,same⟩ | ⟨_,old⟩
      · exact mine.trans (fits _ same).1.symm
      · exact divided.slots old
    handles := fun held => by
      rcases handleAtSet held with ⟨_,same⟩ | ⟨_,old⟩
      · exact (fits _ same).1.symm ▸ (fits _ same).2
      · exact divided.handles old
    callers := divided.callers
    pools := divided.pools }
  aside away :=
    congrArg (fun slots => { w.within scope f with slots })
      (thinImageSetOut (mine.trans away) content)

theorem sidedAppend (divided : w.Divided scope) (mine : scope.slot w.slots.length = own)
    {content : Slot} (fits : Fits scope own content) :
    Sided scope f own w { w with slots := w.slots ++ [content] } := by
  have cases {i : Nat} {h : Handle}
      (held : handle? { w with slots := w.slots ++ [content] } i = some h) :
      (i = w.slots.length ∧ content = .held h) ∨ w.handle? i = some h := by
    rw [handleAt,List.getElem?_append] at held
    split at held
    · exact .inr (handleAt.mpr held)
    · obtain ⟨place,there⟩ := List.getElem?_eq_some_iff.mp held
      simp only [List.length_singleton] at place
      simp only [List.getElem_singleton] at there
      exact .inl ⟨by omega,there⟩
  refine ⟨.refl _,?_,?_⟩
  · exact {
      doors := divided.doors
      slots := fun held => by
        rcases cases held with ⟨rfl,same⟩ | old
        · exact mine.trans (fits _ same).1.symm
        · exact divided.slots old
      handles := fun held => by
        rcases cases held with ⟨_,same⟩ | old
        · exact (fits _ same).1.symm ▸ (fits _ same).2
        · exact divided.handles old
      callers := divided.callers
      pools := divided.pools }
  · intro away
    exact congrArg (fun slots => { w.within scope f with slots })
      (thinImageAddOut (mine.trans away) content)

theorem sidedDoor (divided : w.Divided scope) (mine : scope.door w.doors.length = own)
    {door : Option Nat} (same : ∀ n, door = some n → scope.pool n = own) :
    Sided scope f own w { w with doors := w.doors ++ [door] } where
  grows := .refl _
  divided := {
    doors := fun {i n} there => by
      rw [List.getElem?_append] at there
      split at there
      · exact divided.doors there
      · obtain ⟨place,made⟩ := List.getElem?_eq_some_iff.mp there
        simp only [List.length_singleton] at place
        simp only [List.getElem_singleton] at made
        obtain rfl : i = w.doors.length := by omega
        exact mine.trans (same n made).symm
    slots := divided.slots
    handles := divided.handles
    callers := divided.callers
    pools := divided.pools }
  aside away :=
    congrArg (fun doors => { w.within scope f with doors })
      (thinImageAddOut (mine.trans away) door)

theorem sidedShut (divided : w.Divided scope) (mine : scope.door i = own) :
    Sided scope f own w { w with doors := w.doors.set i none } where
  grows := .refl _
  divided := {
    doors := fun {j n} there => by
      rw [List.getElem?_set] at there
      split at there
      · split at there <;> simp at there
      · exact divided.doors there
    slots := divided.slots
    handles := divided.handles
    callers := divided.callers
    pools := divided.pools }
  aside away :=
    congrArg (fun doors => { w.within scope f with doors })
      (thinImageSetOut (mine.trans away) none)

theorem sidedFound (divided : w.Divided scope) (mine : scope.pool w.pools.length = own)
    (none : p.tracked = []) : Sided scope f own w { w with pools := w.pools ++ [p] } where
  grows := .refl _
  divided := {
    doors := divided.doors
    slots := divided.slots
    handles := divided.handles
    callers := divided.callers
    pools := fun there x member => by
      rw [List.getElem?_append] at there
      split at there
      · exact divided.pools there member
      · have new := List.mem_singleton.mp (List.mem_of_getElem? there)
        rw [new,none] at member
        cases member }
  aside away :=
    congrArg (fun pools => { w.within scope f with pools }) (thinImageAddOut (mine.trans away) p)

theorem sidedRouse (divided : w.Divided scope) {wait : Wait}
    (awake : w.shared.woken[i]? = some wait) (mine : scope.awaits wait = own) :
    Sided scope f own w (w.rouse i) where
  grows := ⟨Nat.le_refl _,Nat.le_refl _,Nat.le_refl _⟩
  divided := {
    doors := divided.doors
    slots := divided.slots
    handles := divided.handles
    callers := fun member => divided.callers (rouseLess member)
    pools := divided.pools }
  aside away := by
    have others (xs : List Wait) (i : Nat) (there : xs[i]? = some wait) :
        (xs.eraseIdx i).filter scope.awaits = xs.filter scope.awaits := by
      induction xs generalizing i with
      | nil => cases there
      | cons x xs ih =>
        cases i with
        | zero =>
          obtain rfl : x = wait := Option.some.inj there
          rw [List.eraseIdx_cons_zero,List.filter_cons,mine,away]
          rfl
        | succ i => rw [List.eraseIdx_cons_succ,List.filter_cons,List.filter_cons,ih i there]
    have woken : scope.callers (w.shared.woken.eraseIdx i) = scope.callers w.shared.woken :=
      congrArg (List.map (Wait.within scope)) (others w.shared.woken i awake)
    exact congrArg (fun woken => { w.within scope f with
      shared := { w.shared.within scope f with woken } }) woken

variable (division : P.Division scope.conn)

theorem sidedLetGo (divided : w.Divided scope) (numbered : w.Numbered) (mine : scope.pool n = own)
    (issues : scope.Issues own w.shared (w.letGo P n).shared) :
    Sided scope division.part own w (w.letGo P n) := by
  rcases letGoCases (P := P) numbered n with ⟨same,_⟩ | ⟨p,_,here,_,swept⟩
  · rw [same]
    exact .none divided
  · rw [swept] at issues ⊢
    have owns : ∀ x ∈ p.tracked, scope.Owns own x := fun x member =>
      mine ▸ divided.pools here member
    have numbered := (congrArg scope.pool (numbered here)).trans mine
    refine sidedPut divided mine ?_ (Pool.sweepConfined division owns numbered) issues
    exact fun x member => .inl (Pool.sweepUnfinished P p w.shared ▸ member)

theorem fitsAfter {outcome : Outcome} (mine : scope.pool n = own)
    (owns : ∀ x, outcome.wrapper? = some x → scope.Owns own x) :
    Fits scope own (slotAfter n outcome) := by
  intro h held
  cases outcome with
  | granted x =>
    obtain rfl := Slot.held.inj held
    exact ⟨mine,owns x rfl⟩
  | failed | blocked | overrun => cases held

theorem queuesCallers {seeker : Seeker} {others : List Wait} {outcome : Outcome}
    (queues : Pool.Queues seeker others outcome t)
    (same : scope.slot seeker.ticket = scope.pool seeker.pool) :
    ∀ x ∈ t.unfinished, x ∈ others ∨ scope.slot x.seeker.ticket = scope.pool x.seeker.pool := by
  intro x member
  cases outcome with
  | granted | failed | overrun => exact .inl (queues.mem_iff.mp member)
  | blocked =>
    obtain ⟨y,ticket,pool,joined⟩ := queues
    rcases List.mem_cons.mp (joined.mem_iff.mp member) with rfl | other
    · rw [ticket,pool]
      exact .inr same
    · exact .inl other

section Stays
variable (divided : w.Divided scope) (numbered : w.Numbered) (sized : division.Sized w.shared)
include divided numbered sized

theorem sidedGet {door : Nat} (here : w.pools[n]? = some p) (mine : scope.pool n = own)
    (grants : scope.Grants own w
      (w.seat n (p.enter P (w.newSeeker door n) w.shared) fun slot => w.slots ++ [slot])) :
    Sided scope division.part own w
      (w.seat n (p.enter P (w.newSeeker door n) w.shared) fun slot => w.slots ++ [slot]) := by
  have slot : scope.slot w.slots.length = own :=
    grants.slot (Nat.le_refl _) (by simp [seat])
  have owns : ∀ x ∈ p.tracked, scope.Owns own x := fun x member => mine ▸ divided.pools here member
  have confined : Pool.Confined scope division.part own w.shared
      (p.enter P (w.newSeeker door n) w.shared).2.1 (p.enter P (w.newSeeker door n) w.shared).2.2 :=
    Pool.enterConfined division owns ((congrArg scope.pool (numbered here)).trans mine) sized mine
  have lends := p.enterLends P (w.newSeeker door n) w.shared
  have seat : scope.slot (w.newSeeker door n).ticket = scope.pool (w.newSeeker door n).pool :=
    slot.trans mine.symm
  have callers := queuesCallers (p.enterQueues P (w.newSeeker door n) w.shared) seat
  have entered := sidedPut divided mine callers confined grants.numbers
  refine entered.trans (sidedAppend entered.divided slot ?_)
  exact fitsAfter mine fun x granted => confined.owns grants.numbers x
    (List.mem_append_right _ (lends.granted x granted).1)

theorem sidedSeat {wait : Wait} (awake : w.shared.woken[i]? = some wait)
    (here : w.pools[wait.seeker.pool]? = some p) (mine : scope.awaits wait = own)
    (issues : scope.Issues own (w.rouse i).shared (p.resume P wait (w.rouse i).shared).2.2) :
    Sided scope division.part own w (w.seatResumed P i wait p) := by
  have ticket : scope.slot wait.seeker.ticket = scope.pool wait.seeker.pool :=
    divided.callers (List.mem_append_right _ (List.mem_of_getElem? awake))
  have roused := sidedRouse (f := division.part) divided awake mine
  have awoken : division.Sized (w.rouse i).shared := division.endures.quiet sized ⟨rfl,rfl,rfl⟩
  have owns : ∀ x ∈ p.tracked, scope.Owns own x := fun x member => mine ▸ divided.pools here member
  have confined : Pool.Confined scope division.part own (w.rouse i).shared
      (p.resume P wait (w.rouse i).shared).2.1 (p.resume P wait (w.rouse i).shared).2.2 :=
    Pool.resumeConfined division owns ((congrArg scope.pool (numbered here)).trans mine) awoken mine
  have lends := p.resumeLends P wait (w.rouse i).shared
  have callers := queuesCallers (p.resumeQueues P wait (w.rouse i).shared) ticket
  have resumed := sidedPut roused.divided mine callers confined issues
  exact (roused.trans resumed).trans (sidedSet resumed.divided (ticket.trans mine)
    (fitsAfter mine fun x granted => confined.owns issues x
      (List.mem_append_right _ (lends.granted x granted).1)))

omit divided sized in
theorem issuedResume {wait : Wait} (here : w.pools[wait.seeker.pool]? = some p)
    (issues : scope.Issues own w.shared
      ((w.seatResumed P i wait p).letGo P wait.seeker.pool).shared) :
    scope.Issues own (w.rouse i).shared (p.resume P wait (w.rouse i).shared).2.2 := by
  have after : (w.seatResumed P i wait p).Numbered := numberedResumed numbered here i
  have grown := letGoGrows (P := P) after wait.seeker.pool
  exact (issues.upTo grown).since ⟨Nat.le_refl _,Nat.le_refl _,Nat.le_refl _⟩

theorem sidedResume {wait : Wait} (awake : w.shared.woken[i]? = some wait)
    (here : w.pools[wait.seeker.pool]? = some p) (mine : scope.awaits wait = own)
    (issues : scope.Issues own w.shared
      ((w.seatResumed P i wait p).letGo P wait.seeker.pool).shared) :
    Sided scope division.part own w ((w.seatResumed P i wait p).letGo P wait.seeker.pool) := by
  have stayed := sidedSeat division divided numbered sized awake here mine
    (issuedResume numbered here issues)
  exact stayed.trans (sidedLetGo division stayed.divided (numberedResumed numbered here i) mine
    (issues.since stayed.grows))

end Stays

section Handles
variable (divided : w.Divided scope) (numbered : w.Numbered) {h : Handle}
  (held : w.handle? i = some h) (mine : scope.pool h.pool = own)
include divided held mine

theorem sidedCalled (request : Request) :
    Sided scope division.part own w (w.called P h request) where
  grows := (Shared.Talks.one P (.holder h.wrapper.key) h.wrapper.conn request _).books.grows
  divided := ⟨divided.doors,divided.slots,divided.handles,divided.callers,divided.pools⟩
  aside away := by
    have conn := (divided.handles held).conn.trans (mine.trans away)
    exact congrArg (fun shared => { w.within scope division.part with shared })
      (Shared.talksAside division conn (.one P (.holder h.wrapper.key) h.wrapper.conn request _))

include numbered

theorem sidedRelease (issues : scope.Issues own w.shared (w.release P i h).shared) :
    Sided scope division.part own w (w.release P i h) := by
  unfold release at issues ⊢
  split
  · exact .none divided
  · rename_i first
    rw [if_neg first] at issues
    cases here : w.pools[h.pool]? with
    | none => exact .none divided
    | some p =>
      simp only [here,visitPut numbered here] at issues ⊢
      have owns : ∀ x ∈ p.tracked, scope.Owns own x := fun x member =>
        mine ▸ divided.pools here member
      have wrapper : scope.Owns own h.wrapper := mine ▸ divided.handles held
      have returns := p.releaseReturns P h.wrapper w.shared
      have confined := Pool.returnsConfined division owns
        ((congrArg scope.pool (numbered here)).trans mine) wrapper returns
      have taken := sidedPut divided mine
        (fun x member => .inl ((Pool.returnsUnfinished returns).subset member)) confined issues
      refine taken.trans (sidedSet taken.divided ((divided.slots held).trans mine) ?_)
      rintro _ ⟨⟩
      exact ⟨mine,wrapper⟩

theorem sidedDrop (issues : scope.Issues own w.shared (w.drop P i h).shared) :
    Sided scope division.part own w (w.drop P i h) := by
  have given : Turns P (fun _ => True) w (w.release P i h) := releaseTurns numbered held
  have after : (w.release P i h).Numbered := numberedTurns numbered given
  have emptied : ((w.release P i h).setSlot i .empty).Numbered := after
  have left := letGoGrows (P := P) emptied h.pool
  have released := sidedRelease division divided numbered held mine (issues.upTo left)
  have vacant := sidedSet (f := division.part) released.divided ((divided.slots held).trans mine)
    (show Fits scope own .empty by rintro _ ⟨⟩)
  exact (released.trans vacant).trans
    (sidedLetGo division vacant.divided emptied mine (issues.since released.grows))

end Handles

section Moves
variable {m : Move σ}

theorem keepsOrder {order} (ordered : m.order? = some order) :
    scope.keeps w m = scope.door w.doors.length := by
  cases m <;> first | rfl | cases ordered

theorem keepsDoor {door : Nat} (through : m.door? = some door) (numbered : w.Numbered)
    (behind : w.doors[door]? = some (some n)) (here : w.pools[n]? = some p) :
    scope.keeps w m = scope.pool n := by
  have found : ((w.doorPool? door).any fun p => scope.pool p.number) = scope.pool n := by
    rw [doorPoolSome behind here,Option.any_some,numbered here]
  cases m <;> cases through <;> exact found

theorem keepsSlot {h : Handle} (uses : m.slot? = some i) (held : w.handle? i = some h) :
    scope.keeps w m = scope.pool h.pool := by
  have found : ((w.handle? i).any fun h => scope.pool h.pool) = scope.pool h.pool := by
    rw [held,Option.any_some]
  cases m <;> cases uses <;> exact found

theorem keepsCaller {wait : Wait} (awake : w.shared.woken[i]? = some wait) :
    scope.keeps w (.resume i) = scope.awaits wait := by
  simp only [Scope.keeps,awake,Option.any_some]

variable (divided : w.Divided scope) (numbered : w.Numbered)
include divided numbered

theorem makesSided (sized : division.Sized w.shared) (makes : w.Makes P m w')
    (inside : ∀ change, m ≠ .tamper change) (grants : scope.Grants (scope.keeps w m) w w') :
    Sided scope division.part (scope.keeps w m) w w' := by
  have owns {n : Nat} {p : Pool} (here : w.pools[n]? = some p) :
      (∀ x ∈ p.tracked, scope.Owns (scope.pool n) x) ∧ scope.pool p.number = scope.pool n :=
    ⟨fun _ member => divided.pools here member,congrArg scope.pool (numbered here)⟩
  cases makes with
  | nothing => exact .none divided
  | noPool ordered =>
    rw [keepsOrder ordered]
    exact sidedDoor divided rfl (by rintro _ ⟨⟩)
  | @found m source settings ordered =>
    have own : scope.pool w.pools.length = scope.keeps w m :=
      grants.pool (Nat.le_refl _) (by simp)
    have found := sidedFound (f := division.part)
      (p := .create P w.pools.length source settings w.shared.now) divided own rfl
    have door : scope.door w.doors.length = scope.keeps w m := (keepsOrder ordered).symm
    refine found.trans (sidedDoor found.divided door ?_)
    rintro _ ⟨⟩
    exact own
  | share behind here =>
    refine sidedDoor divided (grants.door (Nat.le_refl _) (by simp)) ?_
    rintro _ ⟨⟩
    exact (keepsDoor rfl numbered behind here).symm
  | leave behind here =>
    rw [keepsDoor rfl numbered behind here] at grants ⊢
    have shut := sidedShut (f := division.part) divided (divided.doors behind)
    exact shut.trans (sidedLetGo division shut.divided numbered rfl grants.numbers)
  | get behind here =>
    rw [keepsDoor rfl numbered behind here] at grants ⊢
    exact sidedGet division divided numbered sized here rfl grants
  | stray awake => exact sidedRouse divided awake (keepsCaller awake).symm
  | resume awake here =>
    rw [keepsCaller awake] at grants ⊢
    exact sidedResume division divided numbered sized awake here rfl grants.numbers
  | @renew _ n p _ here renews =>
    obtain ⟨door,through,behind⟩ := renewsBehind renews
    obtain ⟨source,settings,closed,rfl,_⟩ := renewsFrom renews
    rw [keepsDoor through numbered behind here] at grants ⊢
    exact sidedPut divided rfl (fun _ member => .inl (Pool.closeAllCallers P _ _ member))
      (Pool.closeAllConfined (p := { p with source, settings, closed }) division (owns here).1
        (owns here).2) grants.numbers
  | tolerance behind here =>
    rw [keepsDoor rfl numbered behind here] at grants ⊢
    exact sidedPut divided rfl (fun _ member => .inl member)
      ((Pool.Confined.start (owns here).1 w.shared).lists (List.Subset.refl _)) grants.numbers
  | release held =>
    rw [keepsSlot rfl held] at grants ⊢
    exact sidedRelease division divided numbered held rfl grants.numbers
  | drop held =>
    rw [keepsSlot rfl held] at grants ⊢
    exact sidedDrop division divided numbered held rfl grants.numbers
  | call calls held =>
    rw [keepsSlot (Move.callUses calls) held]
    exact sidedCalled division divided held rfl _
  | advance time =>
    refine ⟨⟨Nat.le_refl _,Nat.le_refl _,Nat.le_refl _⟩,?_,by rintro ⟨⟩⟩
    exact ⟨divided.doors,divided.slots,divided.handles,fun member =>
      divided.callers ((w.shared.advanceUnfinished time).subset member),divided.pools⟩
  | tamper change => exact absurd rfl (inside change)

end Moves

end World
end ConnectionPool
