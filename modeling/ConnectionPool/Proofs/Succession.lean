import ConnectionPool.Proofs.Standing
import ConnectionPool.Proofs.Vetting
/-! The lists of a pool keep the order in which things happened. Those lent stand as the journal has
their grants, and those kept stand as they came back, for a connection gets the next key when it comes
back. -/
namespace ConnectionPool

def lentBy (n : Nat) (journal : List Event) : List Wrapper :=
  journal.filterMap fun
    | .granted m _ x _ => if m = n then some x else none
    | _ => none

namespace Pool
variable {σ : Type} {P : Platform σ} {seeker : Seeker} {w : Wrapper} {p q : Pool} {s t : Shared σ}

structure InTurn (p : Pool) (s : Shared σ) : Prop where
  lent : p.active.reverse.Sublist (lentBy p.number s.journal)
  kept : p.idle.Pairwise (·.key < ·.key)
  used : ∀ x ∈ p.idle, x.key < s.nextKey

theorem InTurn.onward (before : p.InTurn s) (number : q.number = p.number)
    (active : q.active.Sublist p.active) (idle : q.idle.Sublist p.idle)
    (grown : s.journal <:+ t.journal) (keys : s.nextKey ≤ t.nextKey) : q.InTurn t where
  lent := by
    have more : (lentBy p.number s.journal).Sublist (lentBy p.number t.journal) :=
      (grown.filterMap _).sublist
    rw [number]
    exact (active.reverse.trans before.lent).trans more
  kept := before.kept.sublist idle
  used x member := Nat.lt_of_lt_of_le (before.used x (idle.subset member)) keys

theorem picksInTurn (before : p.InTurn s) {pick : Pick} (picks : Picks P p s pick q t) :
    q.InTurn t := by
  have acts := (picksActs (.same _) (.same _ _) picks).1
  refine before.onward (picksAlike picks).number ?_ ?_ acts.writes.suffix acts.keys <;>
    cases picks <;> simp_all [count]

theorem stayInTurn (P : Platform σ) (seeker : Seeker) :
    StayRule P seeker InTurn (fun _ => InTurn) (fun _ => InTurn) where
  finds before picks := picksInTurn before picks
  misses before picks := picksInTurn before picks
  blocks {q t} before _ bad := by
    unfold block
    split <;> exact before.onward rfl (.refl _) (.refl _) (List.suffix_cons ..) (Nat.le_refl _)
  grants {w q t u} holding good := by
    have talks := (admitsTalks ..).ends good
    have tried : t.Writes (fun _ => True) u := talks.writes fun _ _ => trivial
    have before : q.InTurn u := holding.onward rfl (.refl _) (.refl _) tried.suffix
      (Nat.le_of_eq talks.books.nextKey.symm)
    refine { before with lent := ?_ }
    have first : lentBy q.number (q.grant seeker w u).2.2.journal =
        w.stamped q.expected u.now :: lentBy q.number u.journal := by
      simp [lentBy,grant,Shared.note]
    have lent : (q.grant seeker w u).2.1.active.reverse =
        w.stamped q.expected u.now :: q.active.reverse := List.reverse_concat ..
    rw [lent]
    exact first ▸ before.lent.cons_cons _
  rejects {w q t u} holding bad := by
    have talks := (admitsTalks ..).ends bad
    have tried : t.Writes (fun _ => True) u := talks.writes fun _ _ => trivial
    have noted : t.Writes (fun _ => True) ((u.note (.rejected q.number w)).invalidate w) :=
      tried.trans ⟨[_],rfl,by simp⟩
    have disposed : Shared.Writes (fun _ => True) _ (q.reject P w u).2 :=
      Shared.disposeWrites P q.number w.conn _ (fun _ _ => trivial) trivial
    have books := ((u.note (.rejected q.number w)).invalidate w).disposeBooks P q.number w.conn
    exact holding.onward rfl (.refl _) (.refl _) (noted.trans disposed).suffix
      (Nat.le_of_eq (books.nextKey.trans talks.books.nextKey).symm)
  fails before _ := before.onward rfl (.refl _) (.refl _) (List.suffix_cons ..) (Nat.le_refl _)
  overruns before := before

theorem enterInTurn (before : p.InTurn s) (seeker : Seeker) :
    (p.enter P seeker s).2.1.InTurn (p.enter P seeker s).2.2 :=
  (stayInTurn P seeker).enter
    (fun _ => before.onward rfl (.refl _) (.refl _) (List.suffix_cons ..) (Nat.le_refl _))
    fun _ => before

theorem resumeInTurn (before : p.InTurn s) (wait : Wait) :
    (p.resume P wait s).2.1.InTurn (p.resume P wait s).2.2 := by
  have rises : (p.lingered (s.now - wait.since)).InTurn (p.rises wait s) :=
    before.onward rfl (.refl _) (.refl _) (List.suffix_cons ..) (Nat.le_refl _)
  refine (stayInTurn P wait.seeker).resume (fun _ => ?_) fun _ => rises
  exact rises.onward rfl (.refl _) (.refl _) (List.suffix_cons ..) (Nat.le_refl _)

theorem returnsInTurn (own : ∀ y ∈ p.active, y.key = w.key → y = w) (before : p.InTurn s)
    (returns : Returns P w p s q t) : q.InTurn t := by
  have acts := returnsActs own returns
  have grown := acts.writes.suffix
  cases returns with
  | stale => exact before.onward rfl (.refl _) (.refl _) grown acts.keys
  | unfit | dropped => exact before.onward rfl List.eraseP_sublist (.refl _) grown acts.keys
  | @kept v u lent found welcome cleared =>
    have removed := before.onward (q := p.removeActive w) rfl List.eraseP_sublist (.refl _) grown
      acts.keys
    have keys : u.nextKey = s.nextKey := ((Shared.rollbackTalks ..).ends cleared).books.nextKey.trans
      ((inspectTalks ..).ends found).books.nextKey
    refine { removed with kept := ?_, used := ?_ }
    · refine List.pairwise_append.mpr ⟨before.kept,List.pairwise_singleton ..,fun y member z last => ?_⟩
      rw [List.mem_singleton.mp last]
      exact keys ▸ before.used y member
    · intro y member
      rcases List.mem_append.mp member with old | new
      · exact removed.used y old
      · rw [List.mem_singleton.mp new]
        exact Nat.lt_succ_self _

theorem bareInTurn (bare : p.tracked = []) (s : Shared σ) : p.InTurn s := by
  obtain ⟨idle,active⟩ := List.append_eq_nil_iff.mp bare
  constructor <;> simp [idle,active]

end Pool

namespace World
variable {σ : Type} {P : Platform σ} {Alters : (σ → σ) → Prop} {outside : σ} {w w' : World σ}
  {n : Nat} {p r : Pool} {s : Shared σ}

theorem inTurnFrame (before : w.Stands Pool.InTurn) (pools : w'.pools = w.pools)
    (grown : w.shared.journal <:+ w'.shared.journal) (keys : w.shared.nextKey ≤ w'.shared.nextKey) :
    w'.Stands Pool.InTurn := by
  intro n p here
  rw [pools] at here
  exact (before here).onward rfl (.refl _) (.refl _) grown keys

theorem inTurnPut (slots : List Slot) (before : w.Stands Pool.InTurn) (acts : r.Acts w.shared p s)
    (own : p.InTurn s) : Stands Pool.InTurn { w.put n p s with slots } := by
  intro m q there
  rcases poolAtPut (s := s) there with ⟨_,rfl⟩ | ⟨_,old⟩
  · exact own
  · exact (before old).onward rfl (.refl _) (.refl _) acts.writes.suffix acts.keys

theorem inTurnLetGo (before : w.Stands Pool.InTurn) (numbered : w.Numbered) (n : Nat) :
    (w.letGo P n).Stands Pool.InTurn := by
  rcases letGoCases (P := P) numbered n with ⟨same,_⟩ | ⟨p,_,_,_,swept⟩
  · rwa [same]
  · rw [swept]
    exact inTurnPut w.slots before (p.sweepActs P w.shared)
      (Pool.bareInTurn (p.sweepTracked P w.shared) _)

theorem inTurnResumed {index : Nat} {wait : Wait} (before : w.Stands Pool.InTurn)
    (numbered : w.Numbered) (here : w.pools[wait.seeker.pool]? = some p) :
    (w.seatResumed P index wait p).Stands Pool.InTurn := by
  have roused : (w.rouse index).Stands Pool.InTurn := inTurnFrame before rfl List.suffix_rfl (Nat.le_refl _)
  exact inTurnPut _ roused (p.resumeActs P (numbered here).symm (w.rouse index).shared)
    (Pool.resumeInTurn (roused here) wait)

theorem inTurnTurn (numbered : w.Numbered) (owned : w.Owned) (before : w.Stands Pool.InTurn)
    (turn : Turn P Alters w w') : w'.Stands Pool.InTurn := by
  cases turn with
  | found source valid =>
    intro n p here
    simp only [List.getElem?_append] at here
    split at here
    · exact before here
    · rw [List.mem_singleton.mp (List.mem_of_getElem? here)]
      exact Pool.bareInTurn rfl w.shared
  | noDoor | share => exact before
  | stray | tamper | advance => exact inTurnFrame before rfl List.suffix_rfl (Nat.le_refl _)
  | ask => exact inTurnFrame before rfl (List.suffix_cons ..) (Nat.le_refl _)
  | @leave door n =>
    exact inTurnLetGo (w := { w with doors := w.doors.set door none }) before numbered n
  | @vacate slot h => exact inTurnLetGo (w := w.setSlot slot .empty) before numbered h.pool
  | @get door n p _ here =>
    have own : (w.newSeeker door n).pool = p.number := (numbered here).symm
    exact inTurnPut _ before (p.enterActs P own w.shared) (Pool.enterInTurn (before here) _)
  | @resume index wait p awake here =>
    exact inTurnLetGo (inTurnResumed before numbered here) (numberedResumed numbered here index) _
  | @renew n p source settings closed =>
    exact inTurnPut (r := { p with source, settings, closed }) w.slots before
      (Pool.closeAllActs P _ w.shared) (Pool.bareInTurn (Pool.sweepTracked P _ w.shared) _)
  | @tolerance n p count _ here =>
    exact inTurnPut w.slots before ((Pool.Acts.same p w.shared).lists (List.Subset.refl _))
      ((before here).onward rfl (.refl _) (.refl _) List.suffix_rfl (Nat.le_refl _))
  | @giveBack slot h p held first here =>
    have own := holderOwns owned held here
    have returns := p.releaseReturns P h.wrapper w.shared
    exact inTurnPut _ before (Pool.returnsActs own returns)
      (Pool.returnsInTurn own (before here) returns)

theorem everyPoolInTurn (attained : Attained P Alters outside w) : w.Stands Pool.InTurn :=
  everyAttained (by intro n p here; simp [World.initial] at here)
    (fun before => inTurnTurn (numbered before) (everyOwned before)) attained

end World
end ConnectionPool
