import ConnectionPool.Proofs.Ownership
/-! A pool that nobody refers to has no connections. References are lost in four ways only, and after
each of them the pool that may have lost its last one is let go. -/
namespace ConnectionPool.World
variable {σ : Type} {P : Platform σ} {Alters : (σ → σ) → Prop} {outside : σ} {w w' : World σ}
  {n m : Nat}

theorem slotsRefer : w.slots.any (Slot.refersTo m) = true ↔
    ∃ (i : Nat) (h : Handle), w.handle? i = some h ∧ h.pool = m := by
  simp only [List.any_eq_true,handleAt]
  constructor
  · rintro ⟨content,known,refers⟩
    obtain ⟨i,here⟩ := List.mem_iff_getElem?.mp known
    cases content with
    | held h => exact ⟨i,h,here,by simpa [Slot.refersTo] using refers⟩
    | pending | empty => cases refers
  · rintro ⟨i,h,here,rfl⟩
    exact ⟨.held h,List.mem_of_getElem? here,by simp [Slot.refersTo]⟩

theorem handleRefers {slot : Nat} {h : Handle} (held : w.handle? slot = some h) :
    w.IsReferred h.pool :=
  .inr (.inl (slotsRefer.mpr ⟨slot,h,held,rfl⟩))

theorem referredKept (referred : w.IsReferred m) (doors : some m ∈ w.doors → some m ∈ w'.doors)
    (slots : ∀ {i : Nat} {h : Handle}, w.handle? i = some h → h.pool = m →
      ∃ (j : Nat) (k : Handle), w'.handle? j = some k ∧ k.pool = m)
    (callers : ∀ x ∈ w.shared.unfinished, x.seeker.pool = m → x ∈ w'.shared.unfinished) :
    w'.IsReferred m := by
  rcases referred with door | slot | caller
  · exact .inl (doors door)
  · obtain ⟨i,h,held,own⟩ := slotsRefer.mp slot
    exact .inr (.inl (slotsRefer.mpr (slots held own)))
  · obtain ⟨x,member,own⟩ := List.mem_map.mp caller
    exact .inr (.inr (List.mem_map.mpr ⟨x,callers x member own,own⟩))

section Kept
variable (referred : w.IsReferred m)
include referred

theorem referredMore (doors : w.doors ⊆ w'.doors) (slots : w'.slots = w.slots)
    (callers : w.shared.unfinished ⊆ w'.shared.unfinished) : w'.IsReferred m := by
  refine referredKept referred (@doors _) (fun {i h} held own => ⟨i,h,?_,own⟩) fun _ member _ =>
    callers member
  rw [handleAt] at held ⊢
  rwa [slots]

theorem referredPut {p : Pool} {s : Shared σ} (callers : w.shared.unfinished ⊆ s.unfinished) :
    (w.put n p s).IsReferred m :=
  referredMore referred (List.Subset.refl _) rfl callers

theorem referredLetGo (numbered : w.Numbered) (n : Nat) : (w.letGo P n).IsReferred m := by
  rcases letGoCases (P := P) numbered n with ⟨same,_⟩ | ⟨p,_,_,_,swept⟩
  · rwa [same]
  · rw [swept]
    exact referredPut referred (p.sweepUnfinished P w.shared ▸ List.Subset.refl _)

theorem referredLeft {door : Nat} (known : w.doors[door]? = some (some n)) (other : m ≠ n) :
    IsReferred { w with doors := w.doors.set door none } m := by
  refine referredKept referred (fun member => ?_) (fun held own => ⟨_,_,held,own⟩)
    fun _ member _ => member
  obtain ⟨i,there⟩ := List.mem_iff_getElem?.mp member
  have apart : door ≠ i := by
    rintro rfl
    cases known.symm.trans there
    exact other rfl
  exact List.mem_of_getElem? ((List.getElem?_set_ne apart).trans there)

theorem referredEntered (door n : Nat) (p : Pool) : (w.seat n
    (p.enter P (w.newSeeker door n) w.shared) fun slot => w.slots ++ [slot]).IsReferred m := by
  have queues := p.enterQueues P (w.newSeeker door n) w.shared
  exact referredKept referred id (fun held own => ⟨_,_,(getSeated n _).stays held,own⟩)
    fun _ member _ => Pool.queuesKeep queues member

theorem referredRoused {index : Nat} {wait : Wait} (awake : w.shared.woken[index]? = some wait)
    (other : m ≠ wait.seeker.pool) : (w.rouse index).IsReferred m := by
  refine referredKept referred id (fun held own => ⟨_,_,held,own⟩) fun x member own => ?_
  rcases List.mem_cons.mp ((rousePerm awake).mem_iff.mp member) with rfl | others
  · exact absurd own.symm other
  · exact others

theorem referredResumed {index : Nat} {wait : Wait} (queued : w.Queued)
    (awake : w.shared.woken[index]? = some wait) (other : m ≠ wait.seeker.pool) (p : Pool) :
    (w.seatResumed P index wait p).IsReferred m := by
  have queues := p.resumeQueues P wait (w.rouse index).shared
  have seated := resumeSeated (P := P) queued awake p
  exact referredKept (referredRoused referred awake other) id
    (fun held own => ⟨_,_,seated.stays held,own⟩) fun _ member _ => Pool.queuesKeep queues member

theorem referredClosed (p : Pool) :
    (w.put n (p.closeAll P w.shared).1 (p.closeAll P w.shared).2).IsReferred m := by
  refine referredPut referred fun x member => ?_
  have same := Pool.sweepUnfinished P p w.shared
  exact (Shared.notifyUnfinished _ _).mem_iff.mpr (same ▸ member)

theorem referredGivenBack {slot : Nat} {h : Handle} (held : w.handle? slot = some h) (p : Pool) :
    ((w.put h.pool (p.release P h.wrapper w.shared).1 (p.release P h.wrapper w.shared).2).setSlot
      slot (.held { h with released := true })).IsReferred m := by
  have same := Pool.returnsUnfinished (p.releaseReturns P h.wrapper w.shared)
  have inside := (List.getElem?_eq_some_iff.mp (handleAt.mp held)).1
  refine referredKept referred id (fun {i k} there own => ?_) fun _ member _ => same.mem_iff.mpr member
  by_cases mine : i = slot
  · subst mine
    obtain rfl := Option.some.inj (held.symm.trans there)
    exact ⟨i,{ h with released := true },handleAt.mpr (List.getElem?_set_self inside),own⟩
  · exact ⟨i,k,(handleElsewhere _ mine).trans there,own⟩

theorem referredVacated {slot : Nat} {h : Handle} (held : w.handle? slot = some h)
    (other : m ≠ h.pool) : (w.setSlot slot .empty).IsReferred m := by
  refine referredKept referred id (fun {i k} there own => ⟨i,k,?_,own⟩) fun _ member _ => member
  have apart : i ≠ slot := by
    rintro rfl
    cases held.symm.trans there
    exact other own.symm
  exact (handleElsewhere .empty apart).trans there

end Kept

def Settled (w : World σ) : Prop :=
  ∀ ⦃m : Nat⦄ ⦃p : Pool⦄, w.pools[m]? = some p → w.IsReferred m ∨ p.tracked = []

def SettledElsewhere (w : World σ) (n : Nat) : Prop :=
  ∀ ⦃m : Nat⦄ ⦃p : Pool⦄, m ≠ n → w.pools[m]? = some p → w.IsReferred m ∨ p.tracked = []

theorem settledLetGo (numbered : w.Numbered) (elsewhere : w.SettledElsewhere n) :
    (w.letGo P n).Settled := by
  have still {k : Nat} (referred : w.IsReferred k) : (w.letGo P n).IsReferred k :=
    referredLetGo referred numbered n
  rcases letGoCases (P := P) numbered n with ⟨same,done⟩ | ⟨p,_,_,_,swept⟩
  · rw [same]
    intro m q there
    by_cases own : m = n
    · subst own
      exact done.imp_right fun empty => empty q there
    · exact elsewhere own there
  · rw [swept] at still ⊢
    intro m q there
    rcases poolAtPut there with ⟨rfl,rfl⟩ | ⟨other,old⟩
    · exact .inr (p.sweepTracked P w.shared)
    · exact (elsewhere other old).imp_left still

theorem settledActs (slots : List Slot) (settled : w.Settled) {p : Pool} {s : Shared σ}
    (referred : w.IsReferred n)
    (kept : ∀ {m : Nat}, w.IsReferred m → IsReferred { w.put n p s with slots } m) :
    Settled { w.put n p s with slots } := by
  intro m q there
  rcases poolAtPut (s := s) there with ⟨rfl,_⟩ | ⟨_,old⟩
  · exact .inl (kept referred)
  · exact (settled old).imp_left kept

theorem settledFrame (settled : w.Settled) (pools : w'.pools = w.pools)
    (kept : ∀ {m : Nat} {p : Pool}, w.pools[m]? = some p → w.IsReferred m → w'.IsReferred m) :
    w'.Settled := by
  intro m p here
  rw [pools] at here
  exact (settled here).imp_left (kept here)

theorem settledTurn (numbered : w.Numbered) (queued : w.Queued) (settled : w.Settled)
    (turn : Turn P Alters w w') : w'.Settled := by
  cases turn with
  | found source valid =>
    intro m p here
    simp only [List.getElem?_append] at here
    split at here
    · refine (settled here).imp_left fun referred : w.IsReferred m => ?_
      exact referredMore referred (List.subset_append_left ..) rfl (List.Subset.refl _)
    · rw [List.mem_singleton.mp (List.mem_of_getElem? here)]
      exact .inr rfl
  | noDoor | share =>
    exact settledFrame settled rfl fun _ referred =>
      referredMore referred (List.subset_append_left ..) rfl (List.Subset.refl _)
  | ask | tamper =>
    exact settledFrame settled rfl fun _ referred =>
      referredMore referred (List.Subset.refl _) rfl (List.Subset.refl _)
  | advance time =>
    refine settledFrame settled rfl fun _ referred =>
      referredMore referred (List.Subset.refl _) rfl fun _ member => ?_
    exact (w.shared.advanceUnfinished time).mem_iff.mpr member
  | stray awake away =>
    refine settledFrame settled rfl fun here referred => referredRoused referred awake ?_
    rintro rfl
    cases away.symm.trans here
  | leave known =>
    apply settledLetGo
    · exact numbered
    · intro m p other here
      exact (settled here).imp_left fun referred : w.IsReferred m => referredLeft referred known other
  | @get door n p known here =>
    exact settledActs _ settled (.inl known) fun referred => referredEntered referred door n p
  | @resume index wait p awake here =>
    apply settledLetGo
    · exact numberedResumed numbered here index
    · intro m q other there
      rcases poolAtSeat there with ⟨own,_⟩ | ⟨_,old⟩
      · exact absurd own other
      · exact (settled old).imp_left fun referred : w.IsReferred m =>
          referredResumed referred queued awake other p
  | renew source settings closed known here =>
    exact settledActs w.slots settled (.inl known) fun referred => referredClosed referred _
  | tolerance count known here =>
    exact settledActs w.slots settled (.inl known) fun referred =>
      referredPut referred (List.Subset.refl _)
  | @giveBack slot h p held first here =>
    exact settledActs _ settled (handleRefers held) fun referred => referredGivenBack referred held p
  | vacate held spent =>
    apply settledLetGo
    · exact numbered
    · intro m p other here
      exact (settled here).imp_left fun referred : w.IsReferred m =>
        referredVacated referred held other

theorem everyPoolSettled (attained : Attained P Alters outside w) : w.Settled :=
  everyAttained (by intro m p here; simp [World.initial] at here)
    (fun before => settledTurn (numbered before) (everyCallerQueued before)) attained

end ConnectionPool.World
