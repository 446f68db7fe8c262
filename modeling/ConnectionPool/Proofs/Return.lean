import ConnectionPool.Proofs.Stay
/-! What becomes of a wrapper that is given back, told once, and how an invariant outlasts a sweep. -/
namespace ConnectionPool.Pool
variable {σ : Type} {P : Platform σ}

def checkIn (w : Wrapper) (now : Nat) (p : Pool) : Pool :=
  (p.removeActive w).count fun c => { c with checkoutTime := c.checkoutTime + w.heldFor now }

def Welcomes (p : Pool) (w : Wrapper) : Prop := p.HasIdleRoom ∧ w.typeCode = some p.expected

theorem lentApart {w : Wrapper} {p : Pool} (lent : p.IsActive w) :
    ∃ x ∈ p.active, x.key = w.key ∧ p.active.Perm (x :: (p.removeActive w).active) := by
  obtain ⟨y,member,same⟩ := List.mem_map.mp lent
  obtain ⟨x,front,back,_,found,whole,left⟩ :=
    List.exists_of_eraseP (p := fun x => decide (x.key = w.key)) member (by simpa using same)
  refine ⟨x,by simp [whole],by simpa using found,?_⟩
  simp only [removeActive]
  rw [left,whole]
  exact List.perm_middle

theorem trackedApart {w : Wrapper} {p : Pool} (lent : p.IsActive w) :
    ∃ x ∈ p.active, x.key = w.key ∧ p.tracked.Perm (x :: (p.removeActive w).tracked) := by
  obtain ⟨x,member,same,apart⟩ := lentApart lent
  exact ⟨x,member,same,(apart.append_left p.idle).trans List.perm_middle⟩

inductive Returns (P : Platform σ) (w : Wrapper) (p : Pool) (s : Shared σ) :
    Pool → Shared σ → Prop
  | stale (away : ¬p.IsActive w) :
      Returns P w p s (p.count fun c => { c with bad := c.bad + 1 })
        (s.note (.staleReturn p.number w))
  | unfit {t} (lent : p.IsActive w) (found : (p.removeActive w).inspect P w s = (false,t)) :
      Returns P w p s
        (((p.removeActive w).count fun c => { c with bad := c.bad + 1 }).discard P w
          (t.note (.returned p.number w false (w.heldFor s.now)))).1
        ((((p.removeActive w).count fun c => { c with bad := c.bad + 1 }).discard P w
          (t.note (.returned p.number w false (w.heldFor s.now)))).2.notify p.number)
  | kept {t u} (lent : p.IsActive w) (found : (p.removeActive w).inspect P w s = (true,t))
      (welcome : (p.checkIn w s.now).Welcomes w)
      (cleared : (t.note (.returned p.number w true (w.heldFor s.now))).rollbackUnlessAutoCommit P
        (.pool p.number) w.conn = (.ok (),u)) :
      Returns P w p s ((p.checkIn w s.now).keep w u).1
        (((p.checkIn w s.now).keep w u).2.notify p.number)
  | dropped {t u} (lent : p.IsActive w) (found : (p.removeActive w).inspect P w s = (true,t))
      (unwelcome : (¬(p.checkIn w s.now).Welcomes w ∧
          u = t.note (.returned p.number w true (w.heldFor s.now))) ∨
        ((p.checkIn w s.now).Welcomes w ∧ ∃ cause,
          (t.note (.returned p.number w true (w.heldFor s.now))).rollbackUnlessAutoCommit P
            (.pool p.number) w.conn = (.error cause,u))) :
      Returns P w p s ((p.checkIn w s.now).discard P w u).1
        (((p.checkIn w s.now).discard P w u).2.notify p.number)

theorem releaseReturns (P : Platform σ) (w : Wrapper) (p : Pool) (s : Shared σ) :
    Returns P w p s (p.release P w s).1 (p.release P w s).2 := by
  unfold release
  split
  · rename_i lent
    rcases found : (p.removeActive w).inspect P w s with ⟨healthy,t⟩
    cases healthy with
    | false =>
      simp only [found]
      exact .unfit lent found
    | true =>
      simp only [found,store]
      split
      · rename_i welcome
        rcases cleared : (t.note (.returned p.number w true (w.heldFor s.now))).rollbackUnlessAutoCommit
          P (.pool p.number) w.conn with ⟨reply,u⟩
        cases reply with
        | ok =>
          simp only [count,removeActive,cleared]
          exact .kept lent found welcome cleared
        | error cause =>
          simp only [count,removeActive,cleared]
          exact .dropped lent found (.inr ⟨welcome,cause,cleared⟩)
      · rename_i unwelcome
        exact .dropped lent found (.inl ⟨unwelcome,rfl⟩)
  · rename_i away
    exact .stale away

theorem droppedTalks {w : Wrapper} {p : Pool} {s t u : Shared σ}
    (unwelcome : (¬(p.checkIn w s.now).Welcomes w ∧
        u = t.note (.returned p.number w true (w.heldFor s.now))) ∨
      ((p.checkIn w s.now).Welcomes w ∧ ∃ cause,
        (t.note (.returned p.number w true (w.heldFor s.now))).rollbackUnlessAutoCommit P
          (.pool p.number) w.conn = (.error cause,u))) :
    (t.note (.returned p.number w true (w.heldFor s.now))).Talks P (.pool p.number) w.conn u := by
  rcases unwelcome with ⟨_,rfl⟩ | ⟨_,cause,failed⟩
  · exact .silent
  · exact (Shared.rollbackTalks ..).ends failed

theorem returnsAlike {w : Wrapper} {p p' : Pool} {s s' : Shared σ} (returns : Returns P w p s p' s') :
    p.Alike p' := by
  cases returns <;> rfl

theorem discardAllKeeps (Left : List Wrapper → Pool → Shared σ → Prop)
    (step : ∀ {w ws p s}, Left (w :: ws) p s → Left ws (p.discard P w s).1 (p.discard P w s).2)
    {ws : List Wrapper} {p : Pool} {s : Shared σ} (left : Left ws p s) :
    Left [] (discardAll P ws p s).1 (discardAll P ws p s).2 := by
  induction ws generalizing p s with
  | nil => exact left
  | cons w ws ih => exact ih (step left)

theorem sweepOrder (p : Pool) : p.tracked.Perm (p.active.reverse ++ p.idle.reverse) :=
  List.perm_append_comm.trans
    ((List.reverse_perm p.active).symm.append (List.reverse_perm p.idle).symm)

def swept (P : Platform σ) (p : Pool) : Pool :=
  { p with expected := P.typeCode p.source, active := [], idle := [] }

theorem discardAllCounts (P : Platform σ) (ws : List Wrapper) (p : Pool) (s : Shared σ) :
    (discardAll P ws p s).1 = p.count fun c => { c with closed := c.closed + ws.length } := by
  induction ws generalizing p s with
  | nil => rfl
  | cons w ws ih =>
    simp only [discardAll,ih,discard,count,List.length_cons]
    rw [Nat.add_right_comm,Nat.add_assoc]

theorem sweepCounts (P : Platform σ) (p : Pool) (s : Shared σ) :
    (p.sweep P s).1 =
      (p.swept P).count fun c => { c with closed := c.closed + p.tracked.length } := by
  rw [p.sweepOrder.length_eq]
  exact discardAllCounts ..

theorem sweepAlike (P : Platform σ) (p : Pool) (s : Shared σ) :
    (p.sweep P s).1 = { p.swept P with counters := (p.sweep P s).1.counters } := by
  rw [sweepCounts]
  rfl

theorem sweepTracked (P : Platform σ) (p : Pool) (s : Shared σ) : (p.sweep P s).1.tracked = [] := by
  rw [sweepAlike]
  rfl

theorem configureCases (P : Platform σ) (change : Change) (p : Pool) (s : Shared σ) :
    (∃ fault, p.configure P change s = (.error (.ofMisconfiguration fault),p,s)) ∨
    ∃ source settings, change.apply (p.source,p.settings) = (source,settings) ∧ settings.Valid ∧
      p.configure P change s = (.ok (),{ p with source, settings }.closeAll P s) := by
  rcases changed : change.apply (p.source,p.settings) with ⟨source,settings⟩
  simp only [configure,changed]
  split
  · exact .inl ⟨_,rfl⟩
  · rename_i valid
    exact .inr ⟨source,settings,rfl,(Settings.validateOk settings).mp valid,rfl⟩

theorem sweepNumber (P : Platform σ) (p : Pool) (s : Shared σ) :
    (p.sweep P s).1.number = p.number := by
  rw [sweepAlike]
  rfl

end ConnectionPool.Pool
