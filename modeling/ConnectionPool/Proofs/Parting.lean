import ConnectionPool.Proofs.Flow
/-! Who gives up references to a pool: those that leave by a door, those that let a handle go and those
that have been waiting. No other move makes a pool lose its last reference. -/
namespace ConnectionPool.World
variable {σ : Type} {P : Platform σ} {Alters : (σ → σ) → Prop} {outside : σ} {w v : World σ}
  {n : Nat} {p : Pool} {m : Move σ}

/-- The moves by which a reference to a pool is given up, and the world in which it has been, but the
pool has not been let go yet. -/
inductive Loosens (P : Platform σ) (w : World σ) : Move σ → Nat → World σ → Prop
  | leave {door n : Nat} {p : Pool} (known : w.doors[door]? = some (some n))
      (here : w.pools[n]? = some p) :
      Loosens P w (.leave door) n { w with doors := w.doors.set door none }
  | drop {slot : Nat} {h : Handle} (held : w.handle? slot = some h) :
      Loosens P w (.drop slot) h.pool ((w.release P slot h).setSlot slot .empty)
  | resume {index : Nat} {wait : Wait} {p : Pool} (awake : w.shared.woken[index]? = some wait)
      (here : w.pools[wait.seeker.pool]? = some p) :
      Loosens P w (.resume index) wait.seeker.pool (w.seatResumed P index wait p)

theorem loosensMove (numbered : w.Numbered) (loosens : w.Loosens P m n v) :
    w.move P m = v.letGo P n := by
  cases loosens with
  | @leave door n p known here =>
    have found : w.doorPool? door = some p := doorPoolSome known here
    simp only [World.move,leave,found,numbered here]
  | drop held =>
    simp only [World.move,atSlot,held]
    rfl
  | resume awake here => exact resumeMove numbered awake here

theorem loosensNumbered (known : w.Numbered) (loosens : w.Loosens P m n v) : v.Numbered := by
  cases loosens with
  | leave => exact known
  | @drop slot h held =>
    have given : Turns P (fun _ => True) w (w.release P slot h) := releaseTurns known held
    have after := numberedTurns known given
    exact after
  | @resume index wait p awake here => exact numberedResumed known here index

theorem loosensOwned (attained : Attained P Alters outside w) (loosens : w.Loosens P m n v) :
    v.Owned := by
  have owned := everyOwned attained
  cases loosens with
  | leave => exact ⟨owned.ledger,owned.lent,owned.valid,owned.used,owned.apart⟩
  | drop held => exact emptiedOwned attained held
  | resume awake here => exact ownedSeatResumed (everyCallerQueued attained) owned awake here

theorem referredReleased (numbered : w.Numbered) {slot : Nat} {h : Handle}
    (held : w.handle? slot = some h) (referred : w.IsReferred n) :
    (w.release P slot h).IsReferred n := by
  unfold release
  split
  · exact referred
  · cases here : w.pools[h.pool]? with
    | none => exact referred
    | some p =>
      simp only [visitPut numbered here]
      exact referredGivenBack referred held p

theorem releasedHandle {slot : Nat} {h : Handle} (held : w.handle? slot = some h) :
    ∃ k, (w.release P slot h).handle? slot = some k ∧ k.pool = h.pool := by
  cases here : w.pools[h.pool]? with
  | none => exact ⟨h,by rwa [releaseHomeless slot here],rfl⟩
  | some p => exact ⟨_,releaseSpends held here,rfl⟩

theorem loosensKeeps {k : Nat} (attained : Attained P Alters outside w) (loosens : w.Loosens P m k v)
    (other : n ≠ k) (referred : w.IsReferred n) : v.IsReferred n := by
  cases loosens with
  | leave behind there => exact referredLeft referred behind other
  | drop held =>
    obtain ⟨k,spent,own⟩ := releasedHandle (P := P) held
    exact referredVacated (referredReleased (numbered attained) held referred) spent (own ▸ other)
  | @resume index wait q awake there =>
    exact referredResumed referred (everyCallerQueued attained) awake other q

theorem referredMakes (known : w.Numbered) (here : w.pools[n]? = some p)
    (none : ∀ k v, ¬w.Loosens P m k v) (referred : w.IsReferred n) (makes : w.Makes P m v) :
    v.IsReferred n := by
  cases makes with
  | nothing | call | tolerance | tamper => exact referred
  | noPool | found | share =>
    exact referredMore referred (List.subset_append_left ..) rfl (List.Subset.refl _)
  | leave behind there => exact absurd (.leave behind there) (none _ _)
  | @get door k q => exact referredEntered referred door k q
  | stray awake away =>
    refine referredRoused referred awake ?_
    rintro rfl
    cases away.symm.trans here
  | resume awake there => exact absurd (.resume awake there) (none _ _)
  | renew => exact referredClosed referred _
  | release held => exact referredReleased known held referred
  | drop held => exact absurd (.drop held) (none _ _)
  | advance time =>
    exact referredMore referred (List.Subset.refl _) rfl
      fun _ => (w.shared.advanceUnfinished time).mem_iff.mpr

theorem lastLoosened (attained : Attained P Alters outside w) (here : w.pools[n]? = some p)
    (referred : w.IsReferred n) (gone : ¬(w.move P m).IsReferred n) :
    ∃ v, w.Loosens P m n v ∧ ¬v.IsReferred n := by
  have known := numbered attained
  by_cases some : ∃ k v, w.Loosens P m k v
  · obtain ⟨k,v,loosens⟩ := some
    rw [loosensMove known loosens] at gone
    have alone : ¬v.IsReferred n := fun still =>
      gone (referredLetGo still (loosensNumbered known loosens) k)
    have own : n = k := by
      by_contra other
      exact alone (loosensKeeps attained loosens other referred)
    exact ⟨v,own ▸ loosens,alone⟩
  · have none (k : Nat) (v : World σ) : ¬w.Loosens P m k v := fun loosens => some ⟨k,v,loosens⟩
    exact absurd (referredMakes known here none referred (moveMakes known m)) gone

end ConnectionPool.World
