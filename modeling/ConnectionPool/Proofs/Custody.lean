import ConnectionPool.Proofs.Ledger
/-! Through whose hands wrappers go. Nothing is lent but to the caller that is granted it, and that
was idle before or has a key that nobody has seen yet. -/
namespace ConnectionPool

def Outcome.wrapper? : Outcome → Option Wrapper
  | granted w => some w
  | _ => none

namespace Pool
variable {σ : Type} {P : Platform σ} {p q q' : Pool} {s t t' : Shared σ} {w : Wrapper}
  {granted? : Option Wrapper}

def Unlent (p : Pool) (s : Shared σ) (w : Wrapper) : Prop :=
  w.key ∈ p.idle.map Wrapper.key ∨ s.nextKey ≤ w.key

structure Lends (p : Pool) (s : Shared σ) (granted? : Option Wrapper) (q : Pool) (t : Shared σ) :
    Prop where
  keys : s.nextKey ≤ t.nextKey
  idle : ∀ x ∈ q.idle, x ∈ p.idle ∨ s.nextKey ≤ x.key
  active : ∀ x ∈ q.active, x ∈ p.active ∨ granted? = some x
  granted : ∀ x, granted? = some x → x ∈ q.active ∧ p.Unlent s x

theorem lendsNothing (keys : s.nextKey ≤ t.nextKey) (idle : q.idle ⊆ p.idle)
    (active : q.active ⊆ p.active) : Lends p s none q t where
  keys := keys
  idle _ member := .inl (idle member)
  active _ member := .inl (active member)
  granted _ none := nomatch none

theorem Lends.shrink (lends : Lends p s none q t) (keys : t.nextKey ≤ t'.nextKey)
    (idle : q'.idle ⊆ q.idle) (active : q'.active ⊆ q.active) : Lends p s none q' t' where
  keys := Nat.le_trans lends.keys keys
  idle x member := lends.idle x (idle member)
  active x member := lends.active x (active member)
  granted _ none := nomatch none

theorem Lends.keep (lends : Lends p s none q t) (keys : t.nextKey ≤ t'.nextKey)
    (idle : q'.idle = q.idle) (active : q'.active = q.active) : Lends p s none q' t' :=
  lends.shrink keys (idle ▸ List.Subset.refl _) (active ▸ List.Subset.refl _)

theorem discardLends (lends : Lends p s none q t) (P : Platform σ) (w : Wrapper) :
    Lends p s none (q.discard P w t).1 (q.discard P w t).2 :=
  have same := ((t.invalidate w).disposeBooks P q.number w.conn).nextKey
  lends.keep (Nat.le_of_eq same.symm) rfl rfl

theorem picksLends (lends : Lends p s none q t) (picks : Picks P q t (.candidate w) q' t') :
    Lends p s none q' t' ∧ p.Unlent s w := by
  cases picks with
  | kept first =>
    refine ⟨lends.shrink (Nat.le_refl _) ?_ (List.Subset.refl _),?_⟩
    · rw [first]
      exact List.subset_cons_self ..
    · rcases lends.idle w (first ▸ List.mem_cons_self) with old | new
      · exact .inl (List.mem_map_of_mem old)
      · exact .inr new
  | @fresh outside u none room connect setUp =>
    have same : u.nextKey = t.nextKey := ((Shared.setUpTalks ..).ends setUp).books.nextKey
    refine ⟨lends.keep ?_ rfl rfl,.inr ?_⟩
    · exact same ▸ Nat.le_succ _
    · exact same ▸ lends.keys
  | @overdue oldest rest none full lent late =>
    have same : (q.seize P oldest t).nextKey = t.nextKey := (q.seizeTalks P oldest t).books.nextKey
    refine ⟨lends.shrink ?_ (List.Subset.refl _) ?_,.inr ?_⟩
    · exact same ▸ Nat.le_succ _
    · rw [lent]
      exact List.subset_cons_self ..
    · simp only [Shared.rewrap,Shared.newKey,Wrapper.rewrapped,Wrapper.fresh,same]
      exact lends.keys

theorem missesLends (lends : Lends p s none q t) {error : PoolError}
    (picks : Picks P q t (.failed error) q' t') : Lends p s none q' t' := by
  cases picks with
  | refused => exact lends.keep (Nat.le_refl _) rfl rfl
  | @unfit cause outside u none room connect setUp =>
    have opened := ((Shared.setUpTalks ..).ends setUp).books
    have same := (opened.trans (u.disposeBooks P q.number t.opened)).nextKey
    exact lends.keep (Nat.le_of_eq same.symm) rfl rfl

theorem stayLends (P : Platform σ) (seeker : Seeker) (p : Pool) (s : Shared σ) :
    StayRule P seeker (Lends p s none) (fun w q t => Lends p s none q t ∧ p.Unlent s w)
      (fun outcome q t => Lends p s outcome.wrapper? q t) where
  finds lends picks := picksLends lends picks
  misses lends picks := missesLends lends picks
  blocks {q t} lends _ bad := by
    have slept : Lends p s none q (q.block seeker bad t).2.2 :=
      lends.keep (Nat.le_refl _) rfl rfl
    unfold block
    split <;> exact ⟨slept.keys,slept.idle,slept.active,slept.granted⟩
  grants {w q t u} holding good := by
    obtain ⟨lends,unlent⟩ := holding
    have same := ((admitsTalks ..).ends good).books.nextKey
    constructor
    · exact same ▸ lends.keys
    · exact lends.idle
    · intro x member
      rcases List.mem_append.mp member with old | new
      · exact .inl ((lends.active x old).resolve_right (by simp))
      · exact .inr (congrArg some (List.mem_singleton.mp new).symm)
    · intro x same
      cases same
      exact ⟨List.mem_append_right _ List.mem_cons_self,unlent⟩
  rejects {w q t u} holding bad := by
    have same := ((admitsTalks ..).ends bad).books.nextKey
    have rejected : Lends p s none (q.count fun c => { c with bad := c.bad + 1 })
        (u.note (.rejected q.number w)) := holding.1.keep (Nat.le_of_eq same.symm) rfl rfl
    exact discardLends rejected P w
  fails lends _ := ⟨lends.keys,lends.idle,lends.active,lends.granted⟩
  overruns lends := lends

theorem wrapperGranted {outcome : Outcome} (granted : outcome.wrapper? = some w) :
    outcome = .granted w := by
  cases outcome with
  | granted => exact congrArg Outcome.granted (Option.some.inj granted)
  | failed | blocked | overrun => cases granted

theorem enterLends (P : Platform σ) (seeker : Seeker) (p : Pool) (s : Shared σ) :
    Lends p s (p.enter P seeker s).1.wrapper? (p.enter P seeker s).2.1 (p.enter P seeker s).2.2 :=
  (stayLends P seeker p s).enter
    (fun _ => lendsNothing (Nat.le_refl _) (List.Subset.refl _) (List.Subset.refl _))
    (fun _ => lendsNothing (Nat.le_refl _) (List.Subset.refl _) (List.Subset.refl _))

theorem resumeLends (P : Platform σ) (wait : Wait) (p : Pool) (s : Shared σ) :
    Lends p s (p.resume P wait s).1.wrapper? (p.resume P wait s).2.1 (p.resume P wait s).2.2 :=
  (stayLends P wait.seeker p s).resume
    (fun _ => lendsNothing (Nat.le_refl _) (List.Subset.refl _) (List.Subset.refl _))
    (fun _ => lendsNothing (Nat.le_refl _) (List.Subset.refl _) (List.Subset.refl _))

theorem removeActiveSubset (p : Pool) (w : Wrapper) : (p.removeActive w).active ⊆ p.active :=
  fun _ => List.mem_of_mem_eraseP

theorem returnsLends (returns : Returns P w p s q t) : Lends p s none q t := by
  have taken {u : Shared σ} (keys : u.nextKey = s.nextKey) : Lends p s none (p.removeActive w) u :=
    lendsNothing (Nat.le_of_eq keys.symm) (List.Subset.refl _) (p.removeActiveSubset w)
  cases returns with
  | stale => exact lendsNothing (Nat.le_refl _) (List.Subset.refl _) (List.Subset.refl _)
  | @unfit u lent found =>
    have inspected := ((inspectTalks ..).ends found).books.nextKey
    have counted : Lends p s none ((p.removeActive w).count fun c => { c with bad := c.bad + 1 })
        (u.note (.returned p.number w false (w.heldFor s.now))) :=
      (taken inspected).keep (Nat.le_refl _) rfl rfl
    exact (discardLends counted P w).keep (Nat.le_refl _) rfl rfl
  | @dropped u v lent found unwelcome =>
    have inspected := ((inspectTalks ..).ends found).books.nextKey
    have called := (droppedTalks unwelcome).books.nextKey.trans inspected
    have counted : Lends p s none (p.checkIn w s.now) v :=
      (taken called).keep (Nat.le_refl _) rfl rfl
    exact (discardLends counted P w).keep (Nat.le_refl _) rfl rfl
  | @kept u v lent found welcome cleared =>
    have inspected := ((inspectTalks ..).ends found).books.nextKey
    have same : v.nextKey = s.nextKey :=
      ((Shared.rollbackTalks ..).ends cleared).books.nextKey.trans inspected
    constructor
    · exact same ▸ Nat.le_succ _
    · intro x member
      rcases List.mem_append.mp member with old | new
      · exact .inl old
      · rw [List.mem_singleton.mp new]
        exact .inr (Nat.le_of_eq same.symm)
    · exact fun _ member => .inl (p.removeActiveSubset w member)
    · exact fun _ none => nomatch none

theorem removeActiveAway (once : (p.active.map Wrapper.key).Nodup) (lent : p.IsActive w) :
    w.key ∉ (p.removeActive w).active.map Wrapper.key := by
  obtain ⟨x,_,same,apart⟩ := lentApart lent
  exact same ▸ (List.nodup_cons.mp ((apart.map Wrapper.key).nodup_iff.mp once)).1

theorem returnsAway (once : (p.active.map Wrapper.key).Nodup) (returns : Returns P w p s q t) :
    w.key ∉ q.active.map Wrapper.key := by
  cases returns with
  | stale away => exact away
  | unfit lent | kept lent | dropped lent => exact removeActiveAway once lent

theorem sweepNextKey (P : Platform σ) (p : Pool) (s : Shared σ) :
    (p.sweep P s).2.nextKey = s.nextKey := by
  refine discardAllKeeps (fun _ _ t => t.nextKey = s.nextKey) ?_ rfl
  intro w ws q t left
  exact ((t.invalidate w).disposeBooks P q.number w.conn).nextKey.trans left

theorem sweepLends (P : Platform σ) (p q : Pool) (s : Shared σ) :
    Lends q s none (p.sweep P s).1 (p.sweep P s).2 := by
  refine lendsNothing (Nat.le_of_eq (sweepNextKey P p s).symm) ?_ ?_
  all_goals
    rw [sweepAlike]
    exact List.nil_subset _

theorem closeAllLends (P : Platform σ) (p q : Pool) (s : Shared σ) :
    Lends q s none (p.closeAll P s).1 (p.closeAll P s).2 :=
  (sweepLends P p q s).keep (Nat.le_refl _) rfl rfl

end Pool
end ConnectionPool
