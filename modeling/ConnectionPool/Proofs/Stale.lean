import ConnectionPool.Proofs.Ages
import ConnectionPool.Memory
/-! Handles as their holders meet them. A valid one passes each request on as one call. One that is
no longer valid never gets valid again, reaches nothing, and leaves no trace when it is given back
but one more bad connection in the books of its pool. -/
namespace ConnectionPool.World
variable {σ : Type} {P : Platform σ} {Alters : (σ → σ) → Prop} {outside : σ} {w w' : World σ}
  {slot : Nat} {h k : Handle}

structure Attached (P : Platform σ) (w : World σ) (h : Handle) : Prop where
  raw (request : Request) : w.raw P h request = (.ok (w.reply P h request),w.called P h request)
  forward (request : Request) :
    w.forward P h request = ((w.reply P h request).mapError .connection,w.called P h request)
  isClosed : w.isClosed P h = w.forward P h .isClosed

theorem attached (live : w.shared.IsLive h.wrapper) : w.Attached P h :=
  ⟨rawCalled live,forwardCalled live,(isClosedForward P h w).trans (if_pos live)⟩

/-- What is left of giving a handle back after its time: the first time, it counts as bad. -/
def writeOff (slot : Nat) (h : Handle) (w : World σ) : World σ :=
  if h.released then w
  else { w with
    shared := w.shared.note (.staleReturn h.pool h.wrapper)
    pools := w.pools.modify h.pool fun p => p.count fun c => { c with bad := c.bad + 1 }
    slots := w.slots.set slot (.held { h with released := true }) }

/-- Nothing can be done with a handle but to give it back or let it go. If others refer to the pool,
that changes nothing else. -/
structure Detached (P : Platform σ) (w : World σ) (slot : Nat) (h : Handle) : Prop where
  housed : ∃ p, w.pools[h.pool]? = some p
  raw (request : Request) : w.raw P h request = (.error .illegalState,w)
  forward (request : Request) : w.forward P h request = (.error .illegalState,w)
  isClosed : w.isClosed P h = (.ok true,w)
  release : w.release P slot h = w.writeOff slot h
  drop (others : (w.setSlot slot .empty).IsReferred h.pool) :
    w.drop P slot h = (w.writeOff slot h).setSlot slot .empty

theorem staleAway {n : Nat} {p : Pool} (owned : w.Owned) (here : w.pools[n]? = some p)
    (dead : ¬w.shared.IsLive h.wrapper) : ¬p.IsActive h.wrapper := by
  intro lent
  obtain ⟨x,member,same⟩ := List.mem_map.mp lent
  have live := owned.ledger.live (memTracked.mpr ⟨n,p,here,List.mem_append_right _ member⟩)
  unfold Shared.IsLive at live dead
  exact dead (same ▸ live)

theorem staleRelease (numbered : w.Numbered) (owned : w.Owned) (housed : w.Housed)
    (held : w.handle? slot = some h) (dead : ¬w.shared.IsLive h.wrapper) :
    w.release P slot h = w.writeOff slot h := by
  obtain ⟨p,here⟩ := housed held
  have away := staleAway owned here dead
  have number := numbered here
  unfold World.release writeOff
  split
  · rfl
  · simp only [here,visit,Pool.release,if_neg away,setSlot,number]
    congr 1
    rw [List.modify_eq_set_getElem?,here]
    rfl

theorem staleDrop (release : w.release P slot h = w.writeOff slot h)
    (others : (w.setSlot slot .empty).IsReferred h.pool) :
    w.drop P slot h = (w.writeOff slot h).setSlot slot .empty := by
  unfold World.drop letGo
  rw [release,if_pos]
  unfold writeOff
  split
  · exact others
  · simp only [IsReferred,setSlot,List.set_set] at others ⊢
    exact others

theorem detached (attained : Attained P Alters outside w) (held : w.handle? slot = some h)
    (dead : ¬w.shared.IsLive h.wrapper) : w.Detached P slot h := by
  have housed := everyHandleHoused attained
  have release : w.release P slot h = w.writeOff slot h :=
    staleRelease (numbered attained) (everyOwned attained) housed held dead
  exact ⟨housed held,rawStuck dead,forwardStuck dead,(isClosedForward P h w).trans (if_neg dead),
    release,staleDrop release⟩

theorem staysStale (owned : w.Owned) (ages : w.Ages w') (held : w.handle? slot = some h)
    (dead : ¬w.shared.IsLive h.wrapper) : ¬w'.shared.IsLive h.wrapper := by
  intro live
  rcases ages.live _ live with old | new
  · exact dead old
  · exact absurd (owned.used held) (Nat.not_lt.mpr new)

theorem sameHandle (ages : w.Ages w') (held : w.handle? slot = some h)
    (later : w'.handle? slot = some k) : k = h ∨ k = { h with released := true } := by
  obtain ⟨content,there,becomes⟩ := ages.slots (handleAt.mp held)
  obtain rfl := Option.some.inj (there.symm.trans (handleAt.mp later))
  cases becomes with
  | same => exact .inl rfl
  | spent => exact .inr rfl

/-- A valid handle passes each request on to its connection. One that has been given back, or taken
away otherwise, stays invalid whatever happens, and nothing can be reached or changed through it. -/
theorem staleHandlesDetached (reachable : w.Reachable P) (held : w.handle? slot = some h) :
    (w.shared.IsLive h.wrapper → w.Attached P h ∧ h.released = false) ∧
    (¬w.shared.IsLive h.wrapper → ∀ moves : List (Move σ),
      let later := w.run P moves
      ¬later.shared.IsLive h.wrapper ∧ ∀ k, later.handle? slot = some k →
        (k = h ∨ k = { h with released := true }) ∧ later.Detached P slot k) := by
  obtain ⟨_,attained⟩ := reachableAttained reachable
  have owned := everyOwned attained
  refine ⟨fun live => ⟨attached live,(owned.valid held live).1⟩,fun dead moves => ?_⟩
  have turns := runTurns attained moves
  have ages := agesTurns attained turns
  have stays := staysStale owned ages held dead
  refine ⟨stays,fun k later => ?_⟩
  have same := sameHandle ages held later
  have wrapper : k.wrapper = h.wrapper := by rcases same with rfl | rfl <;> rfl
  exact ⟨same,detached (attained.trans turns) later (wrapper ▸ stays)⟩

def reclaimedOnce : World Memory.Server :=
  World.run Memory.platform
    [.create {} { maxActive := 1, maxCheckoutTime := 0 },.get 0,.advance 1,.get 0] (.initial {})

theorem staleHandlesDetachedReclaimed : ∃ h, reclaimedOnce.handle? 0 = some h ∧
    reclaimedOnce.Detached Memory.platform 0 h ∧ ∀ moves : List (Move Memory.Server),
      ¬(reclaimedOnce.run Memory.platform moves).shared.IsLive h.wrapper := by
  have holder : ∃ h, reclaimedOnce.handle? 0 = some h ∧ ¬reclaimedOnce.shared.IsLive h.wrapper :=
    ⟨_,rfl,by decide⟩
  obtain ⟨h,held,dead⟩ := holder
  have reachable : reclaimedOnce.Reachable Memory.platform := reachableRun (.initial _) _
  have stale := (staleHandlesDetached reachable held).2 dead
  exact ⟨h,held,((stale []).2 h held).2,fun moves => (stale moves).1⟩

end ConnectionPool.World
