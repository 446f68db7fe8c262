import ConnectionPool.Proofs.Fate
import ConnectionPool.Proofs.Stale
import ConnectionPool.Proofs.Referral
/-! What is lent stays with its holder. A pool takes a connection back from a valid handle only when
it is full and that connection has been out longest and for too long, or when it closes all it has;
until then nobody else calls the connection. -/
namespace ConnectionPool
namespace World
variable {σ : Type} {P : Platform σ} {Alters : (σ → σ) → Prop} {outside : σ} {w w' : World σ}
  {n m slot i : Nat} {p q q' r : Pool} {s' : Shared σ} {x : Wrapper} {h k : Handle}

inductive Loses (P : Platform σ) (w : World σ) (slot : Nat) (h : Handle) : Move σ → Prop
  | release : Loses P w slot h (.release slot)
  | drop : Loses P w slot h (.drop slot)
  | reclaim {m q t} (seeks : w.Seeks P h.pool m q t) (overdue : q.Overdue h.wrapper t.now)
      (taken : q.pick P t = q.reclaim P t) : Loses P w slot h m
  | closeAll {door} (behind : w.doors[door]? = some (some h.pool)) :
      Loses P w slot h (.closeAll door)
  | close {door} (behind : w.doors[door]? = some (some h.pool)) : Loses P w slot h (.close door)
  | configure {door change p} (behind : w.doors[door]? = some (some h.pool))
      (here : w.pools[h.pool]? = some p) (accepted : (p.configure P change w.shared).1 = .ok ()) :
      Loses P w slot h (.configure door change)

structure Spares (n : Nat) (x : Wrapper) (w w' : World σ) : Prop where
  lent : ∃ p, w'.pools[n]? = some p ∧ x ∈ p.active
  calls : w.shared.Spares x.conn w'.shared

section Lent
variable (here : w.pools[n]? = some p) (lent : x ∈ p.active)
include here lent

theorem sparesFrame (pools : w'.pools[n]? = w.pools[n]?)
    (same : w'.shared.journal = w.shared.journal) : w.Spares n x w' :=
  ⟨⟨p,pools.trans here,lent⟩,.nothing same⟩

variable (ledger : Ledger w.tracked w.shared)
include ledger

theorem sparesPut (slots : List Slot) (there : w.pools[m]? = some q) (lists : r.tracked = q.tracked)
    (acts : r.Acts w.shared q' s') (own : m = n → q'.Keeps x w.shared s') :
    w.Spares n x { w.put m q' s' with slots } := by
  by_cases same : m = n
  · subst same
    have inside := (List.getElem?_eq_some_iff.mp here).1
    exact ⟨⟨q',List.getElem?_set_self inside,(own rfl).1⟩,(own rfl).2⟩
  · have away : ¬r.Reaches w.shared x.conn := by
      unfold Pool.Reaches
      rw [lists]
      exact unreached here (List.mem_append_right _ lent) ledger there same
    refine ⟨⟨p,(List.getElem?_set_ne same).trans here,lent⟩,?_⟩
    exact acts.writes.imp fun _ => Pool.signsSpare away

theorem sparesLetGo (numbered : w.Numbered) (refers : w.IsReferred n) (m : Nat) :
    w.Spares n x (w.letGo P m) := by
  rcases letGoCases (P := P) numbered m with ⟨same,_⟩ | ⟨q,alone,there,_,swept⟩
  · rw [same]
    exact sparesFrame here lent rfl rfl
  · have apart : m ≠ n := by
      rintro rfl
      exact alone refers
    rw [swept]
    exact sparesPut here lent ledger w.slots there rfl (q.sweepActs P w.shared)
      fun same => absurd same apart

end Lent

inductive Fares (P : Platform σ) (w : World σ) (slot : Nat) (h : Handle) (m : Move σ)
    (w' : World σ) : Prop
  | spared (spares : w.Spares h.pool h.wrapper w')
  | lost (dead : ¬w'.shared.IsLive h.wrapper) (loses : w.Loses P slot h m)
  | used {request} (calls : m.call? = some (slot,request)) (same : w' = w.called P h request)

theorem renewsLoses {a : Move σ} (there : w.pools[h.pool]? = some q)
    (renews : w.Renews P h.pool q a r) : w.Loses P slot h a := by
  cases renews with
  | closeAll behind => exact .closeAll behind
  | close behind => exact .close behind
  | configure behind _ accepted => exact .configure behind there (by rw [accepted])

section Held
variable (attained : Attained P Alters outside w) (here : w.pools[h.pool]? = some p)
  (lent : h.wrapper ∈ p.active)
include attained here lent

theorem getFares {door : Nat} (behind : w.doors[door]? = some (some m))
    (there : w.pools[m]? = some q) :
    w.Fares P slot h (.get door)
      (w.seat m (q.enter P (w.newSeeker door m) w.shared) fun slot => w.slots ++ [slot]) := by
  have ledger := (everyOwned attained).ledger
  have number : (w.newSeeker door m).pool = q.number := (numbered attained there).symm
  let stay := q.enter P (w.newSeeker door m) w.shared
  have spares (own : m = h.pool → stay.2.1.Keeps h.wrapper w.shared stay.2.2) :=
    sparesPut here lent ledger (w.slots ++ [slotAfter m stay.1]) there rfl
      (q.enterActs P number w.shared) own
  by_cases own : m = h.pool
  · subst own
    obtain rfl := Option.some.inj (there.symm.trans here)
    have books := ledger.perm (trackedPerm here)
    have places := Pool.everyRoom attained here
    rcases Pool.enterFate books places lent (w.newSeeker door h.pool) with
      keeps | ⟨gone,unshut,u,t,looks,overdue⟩
    · exact .spared (spares fun _ => keeps)
    · refine .lost gone.dead (.reclaim ?_ overdue (Pool.overdueReclaimed overdue))
      exact ⟨_,q,_,.get behind here unshut,rfl,looks⟩
  · exact .spared (spares fun same => absurd same own)

variable (held : w.handle? slot = some h)
include held

theorem resumeFares {index : Nat} {wait : Wait} (awake : w.shared.woken[index]? = some wait)
    (there : w.pools[wait.seeker.pool]? = some q) :
    w.Fares P slot h (.resume index)
      ((w.seatResumed P index wait q).letGo P wait.seeker.pool) := by
  have owned := everyOwned attained
  have number : wait.seeker.pool = q.number := (numbered attained there).symm
  let stay := q.resume P wait (w.rouse index).shared
  let seated := w.seatResumed P index wait q
  have queued := everyCallerQueued attained
  have refers : seated.IsReferred h.pool :=
    handleRefers ((resumeSeated (P := P) queued awake q).stays held)
  have before : Ledger (w.rouse index).tracked (w.rouse index).shared :=
    owned.ledger.frame rfl rfl (Nat.le_refl _) (Nat.le_refl _)
  have after : Ledger seated.tracked seated.shared :=
    ledgerPut before there fun _ => Pool.resumeLedger P wait
  have spares (own : wait.seeker.pool = h.pool →
      stay.2.1.Keeps h.wrapper (w.rouse index).shared stay.2.2) :
      w.Spares h.pool h.wrapper (seated.letGo P wait.seeker.pool) := by
    have put : (w.rouse index).Spares h.pool h.wrapper seated :=
      sparesPut (w := w.rouse index) here lent before _ there rfl (q.resumeActs P number _) own
    obtain ⟨p',here',lent'⟩ := put.lent
    have kept : seated.Spares h.pool h.wrapper (seated.letGo P wait.seeker.pool) :=
      sparesLetGo here' lent' after (numberedResumed (numbered attained) there index) refers _
    exact ⟨kept.lent,put.calls.trans kept.calls⟩
  by_cases own : wait.seeker.pool = h.pool
  · rw [own] at there
    obtain rfl := Option.some.inj (there.symm.trans here)
    have books := before.perm (trackedPerm (w := w.rouse index) here)
    have places := Pool.everyRoom attained here
    rcases Pool.resumeFate books places lent wait with keeps | ⟨gone,unshut,u,t,looks,overdue⟩
    · exact .spared (spares fun _ => keeps)
    · have same : seated.letGo P wait.seeker.pool = seated := if_pos (own ▸ refers)
      refine .lost ?_ (.reclaim ?_ overdue (Pool.overdueReclaimed overdue))
      · exact same ▸ gone.dead
      · exact ⟨_,_,_,.resume awake (own ▸ here) unshut,own,looks⟩
  · exact .spared (spares fun same => absurd same own)

theorem releaseSpares (given : w.handle? i = some k) (other : i ≠ slot) :
    w.Spares h.pool h.wrapper (w.release P i k) := by
  have owned := everyOwned attained
  unfold release
  split
  · exact sparesFrame here lent rfl rfl
  · cases there : w.pools[k.pool]? with
    | none => exact sparesFrame here lent rfl rfl
    | some q =>
      have mine := holderOwns owned given there
      have returns := q.releaseReturns P k.wrapper w.shared
      simp only [visitPut (numbered attained) there]
      refine sparesPut here lent owned.ledger (w.slots.set i _) there rfl
        (Pool.returnsActs mine returns) fun same => ?_
      rw [same] at there
      obtain rfl := Option.some.inj (there.symm.trans here)
      refine Pool.returnsKeeps (owned.ledger.perm (trackedPerm here)) mine lent ?_ returns
      exact fun alike => other (owned.apart given held alike.symm)

theorem dropSpares (given : w.handle? i = some k) (other : i ≠ slot) :
    w.Spares h.pool h.wrapper (w.drop P i k) := by
  have released := releaseSpares attained here lent held given other
  have after := attained.trans (releaseTurns (P := P) (numbered attained) given)
  obtain ⟨p',here',lent'⟩ := released.lent
  have still : ((w.release P i k).setSlot i .empty).handle? slot = some h := by
    rw [handleElsewhere .empty (Ne.symm other),releaseElsewhere (Ne.symm other)]
    exact held
  have ledger := (everyOwned after).ledger
  have known := numbered after
  have kept : ((w.release P i k).setSlot i .empty).Spares h.pool h.wrapper (w.drop P i k) :=
    sparesLetGo (w := (w.release P i k).setSlot i .empty) here' lent' ledger known
      (handleRefers still) k.pool
  exact ⟨kept.lent,released.calls.trans kept.calls⟩

omit lent in
theorem releaseEnds : ¬(w.release P slot h).shared.IsLive h.wrapper := by
  intro live
  have after := attained.trans (releaseTurns (P := P) (numbered attained) held)
  cases ((everyOwned after).valid (releaseSpends held here) live).1

omit lent in
theorem dropEnds : ¬(w.drop P slot h).shared.IsLive h.wrapper := by
  have after := attained.trans (releaseTurns (P := P) (numbered attained) held)
  have spent := releaseSpends (P := P) held here
  have owned := everyOwned after
  have vacates : Turn P Alters (w.release P slot h) (w.drop P slot h) :=
    .vacate (h := { h with released := true }) spent (.inl rfl)
  have ages := agesTurn (numbered after) (everyCallerQueued after) owned vacates
  exact staysStale (h := { h with released := true }) owned ages spent
    (releaseEnds attained here held)

theorem renewFares {a : Move σ} (there : w.pools[m]? = some q) (renews : w.Renews P m q a r) :
    w.Fares P slot h a (w.put m (r.closeAll P w.shared).1 (r.closeAll P w.shared).2) := by
  have after := everyOwned (attained.tail (renewsTurn there renews))
  obtain ⟨source,settings,closed,same,_⟩ := renewsFrom renews
  have lists : r.tracked = q.tracked := by rw [same]; rfl
  by_cases own : m = h.pool
  · subst own
    refine .lost (fun live => ?_) (renewsLoses there renews)
    obtain ⟨_,p',here',lent'⟩ := after.valid held live
    rcases poolAtPut here' with ⟨_,rfl⟩ | ⟨apart,_⟩
    · have tracked : h.wrapper ∈ (r.sweep P w.shared).1.tracked := List.mem_append_right _ lent'
      exact absurd (r.sweepTracked P w.shared ▸ tracked) List.not_mem_nil
    · exact apart rfl
  · exact .spared (sparesPut here lent (everyOwned attained).ledger w.slots there lists
      (r.closeAllActs P w.shared) fun same => absurd same own)

theorem calledSpares (given : w.handle? i = some k) (live : w.shared.IsLive k.wrapper)
    (other : i ≠ slot) (request : Request) : w.Spares h.pool h.wrapper (w.called P k request) := by
  have owned := everyOwned attained
  have apart : k.wrapper.conn ≠ h.wrapper.conn := by
    intro same
    obtain ⟨_,q,there,lent'⟩ := owned.valid given live
    have alike := sameConn owned (memTracked.mpr ⟨_,q,there,List.mem_append_right _ lent'⟩)
      (memTracked.mpr ⟨_,p,here,List.mem_append_right _ lent⟩) same
    exact other (owned.apart given held (congrArg Wrapper.key alike))
  exact ⟨⟨p,here,lent⟩,[_],rfl,by simpa [Event.concerns] using apart⟩

theorem calledFares {a : Move σ} {request : Request} (calls : a.call? = some (i,request))
    (given : w.handle? i = some k) (live : w.shared.IsLive k.wrapper) :
    w.Fares P slot h a (w.called P k request) := by
  by_cases own : i = slot
  · subst own
    obtain rfl := Option.some.inj (given.symm.trans held)
    exact .used calls rfl
  · exact .spared (calledSpares attained here lent held given live own request)

theorem releaseFares (given : w.handle? i = some k) :
    w.Fares P slot h (.release i) (w.release P i k) := by
  by_cases own : i = slot
  · subst own
    obtain rfl := Option.some.inj (given.symm.trans held)
    exact .lost (releaseEnds attained here held) .release
  · exact .spared (releaseSpares attained here lent held given own)

theorem dropFares (given : w.handle? i = some k) :
    w.Fares P slot h (.drop i) (w.drop P i k) := by
  by_cases own : i = slot
  · subst own
    obtain rfl := Option.some.inj (given.symm.trans held)
    exact .lost (dropEnds attained here held) .drop
  · exact .spared (dropSpares attained here lent held given own)

theorem makesFares {a : Move σ} (makes : w.Makes P a w') : w.Fares P slot h a w' := by
  have owned := everyOwned attained
  have known := numbered attained
  cases makes with
  | nothing | noPool | share | stray | advance | tamper =>
    exact .spared (sparesFrame here lent rfl rfl)
  | found =>
    have inside := (List.getElem?_eq_some_iff.mp here).1
    exact .spared (sparesFrame here lent (List.getElem?_append_left inside) rfl)
  | @leave door =>
    have kept := sparesLetGo (P := P) (w := { w with doors := w.doors.set door none }) here lent
      owned.ledger known (handleRefers held)
    exact .spared ⟨(kept _).lent,(kept _).calls⟩
  | get behind there => exact getFares attained here lent behind there
  | resume awake there => exact resumeFares attained here lent held awake there
  | renew there renews => exact renewFares attained here lent held there renews
  | @tolerance door count m q behind there =>
    refine .spared (sparesPut here lent owned.ledger w.slots there rfl
      ((Pool.Acts.same q w.shared).lists (List.Subset.refl _)) ?_)
    rintro rfl
    obtain rfl := Option.some.inj (there.symm.trans here)
    exact ⟨lent,.nothing rfl⟩
  | release given => exact releaseFares attained here lent held given
  | drop given => exact dropFares attained here lent held given
  | call calls given live => exact calledFares attained here lent held calls given live

end Held

/-- A valid handle loses its connection only in the ways that are told. In a move that leaves it
valid, nothing happens to its connection but the call that the move makes through the handle. -/
theorem lentUntilLost (reachable : w.Reachable P) (held : w.handle? slot = some h)
    (live : w.shared.IsLive h.wrapper) (a : Move σ) :
    (¬(w.move P a).shared.IsLive h.wrapper → w.Loses P slot h a) ∧
    ((w.move P a).shared.IsLive h.wrapper → w.shared.Writes (fun event =>
      event.concerns h.wrapper.conn = true → ∃ request reply, a.call? = some (slot,request) ∧
        event = .call (.holder h.wrapper.key) h.wrapper.conn request reply)
      (w.move P a).shared) := by
  obtain ⟨_,attained⟩ := reachableAttained reachable
  obtain ⟨_,after⟩ := reachableAttained (reachable.move a)
  obtain ⟨_,p,here,lent⟩ := (everyOwned attained).valid held live
  cases makesFares attained here lent held (moveMakes (numbered attained) a) with
  | spared spares =>
    obtain ⟨p',here',lent'⟩ := spares.lent
    have tracked := memTracked.mpr ⟨_,p',here',List.mem_append_right _ lent'⟩
    have valid := (everyOwned after).ledger.live tracked
    refine ⟨fun dead => absurd valid dead,fun _ => spares.calls.imp fun event silent about => ?_⟩
    rw [silent] at about
    cases about
  | lost dead loses => exact ⟨fun _ => loses,fun alive => absurd alive dead⟩
  | used calls same =>
    rw [same]
    exact ⟨fun dead => absurd live dead,fun _ => .one fun _ => ⟨_,_,calls,rfl⟩⟩

def lentTooLong : World Memory.Server :=
  World.run Memory.platform
    [.create {} { maxActive := 1, maxCheckoutTime := 0 },.get 0,.advance 1] (.initial {})

theorem lentUntilLostReclaimed : ∃ h, lentTooLong.handle? 0 = some h ∧
    ¬(lentTooLong.move Memory.platform (.get 0)).shared.IsLive h.wrapper ∧
    lentTooLong.Loses Memory.platform 0 h (.get 0) := by
  have lent : ∃ h, lentTooLong.handle? 0 = some h ∧ lentTooLong.shared.IsLive h.wrapper ∧
      ¬(lentTooLong.move Memory.platform (.get 0)).shared.IsLive h.wrapper :=
    ⟨_,rfl,by decide,by decide⟩
  obtain ⟨h,held,live,dead⟩ := lent
  have reachable : lentTooLong.Reachable Memory.platform := reachableRun (.initial _) _
  exact ⟨h,held,dead,(lentUntilLost reachable held live (.get 0)).1 dead⟩

end World
end ConnectionPool
