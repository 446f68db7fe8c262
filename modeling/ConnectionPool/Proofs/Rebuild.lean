import ConnectionPool.Proofs.Checks
import ConnectionPool.Proofs.Cleared
/-! To change the configuration of a pool is to build it anew or, if the new settings are not valid,
to do nothing at all. What the pool had is discarded, whatever the clean-up calls bring back; only
its totals and its being closed outlive the change. -/
namespace ConnectionPool

namespace Pool
variable {σ : Type} {P : Platform σ} {p : Pool} {s t : Shared σ} {ws rest : List Wrapper}
  {conn : Nat}

theorem discardDiscards (P : Platform σ) (x : Wrapper) (p : Pool) (s : Shared σ) :
    discards (p.discard P x s).2.journal = (p.number,x.conn) :: discards s.journal :=
  Shared.disposeDiscards ..

theorem discardParts (P : Platform σ) (x : Wrapper) (p : Pool) (s : Shared σ) :
    Parted p.number x.conn (p.discard P x s).2.journal := by
  obtain ⟨t,_,parted,same⟩ := (s.invalidate x).disposeParts P p.number x.conn
  have disposed : (p.discard P x s).2 = t.note (.discarded p.number x.conn) := same
  rw [disposed]
  exact Shared.Writes.parted (.one rfl) parted

theorem discardAllDiscards (P : Platform σ) (ws : List Wrapper) (p : Pool) (s : Shared σ) :
    discards (discardAll P ws p s).2.journal =
      ws.reverse.map (fun x => (p.number,x.conn)) ++ discards s.journal := by
  induction ws generalizing p s with
  | nil => rfl
  | cons x ws ih =>
    rw [discardAll,ih,discardDiscards]
    simp [discard,count]

theorem discardAllSpares (P : Platform σ) (apart : conn ∉ ws.map Wrapper.conn) (p : Pool)
    (s : Shared σ) : s.Spares conn (discardAll P ws p s).2 := by
  induction ws generalizing p s with
  | nil => exact .nothing rfl
  | cons x ws ih =>
    simp only [List.map_cons,List.mem_cons,not_or] at apart
    have dead : s.Spares conn (s.invalidate x) := .nothing rfl
    have first : (s.invalidate x).Spares conn (p.discard P x s).2 :=
      Shared.disposeSpares P p.number _ (Ne.symm apart.1)
    exact dead.trans (first.trans (ih apart.2 _ _))

theorem discardAllParts (P : Platform σ) (once : (ws.map Wrapper.conn).Nodup) (p : Pool)
    (s : Shared σ) {x : Wrapper} (member : x ∈ ws) :
    Parted p.number x.conn (discardAll P ws p s).2.journal := by
  induction ws generalizing p s with
  | nil => cases member
  | cons y ws ih =>
    obtain ⟨other,others⟩ := List.nodup_cons.mp once
    rcases List.mem_cons.mp member with rfl | later
    · -- The calls on the connections that follow do not concern the one that is gone.
      exact (discardAllSpares P other _ _).parted (discardParts P x p s)
    · exact ih others _ _ later

theorem sweepDiscards (P : Platform σ) (p : Pool) (s : Shared σ) :
    discards (p.sweep P s).2.journal =
      p.tracked.map (fun x => (p.number,x.conn)) ++ discards s.journal := by
  have silent : discards (s.note (.swept p.number p.active.length p.idle.length)).journal =
      discards s.journal := rfl
  refine (discardAllDiscards P _ (p.swept P) _).trans ?_
  rw [silent]
  simp [tracked,swept]

theorem sweepParts (P : Platform σ) (ledger : Ledger (p.tracked ++ rest) s) {x : Wrapper}
    (member : x ∈ p.tracked) : Parted p.number x.conn (p.sweep P s).2.journal := by
  have order := p.sweepOrder
  have once := (List.nodup_append.mp (List.map_append ▸ ledger.conns)).1
  exact discardAllParts P ((order.map _).nodup_iff.mp once) (p.swept P) _ (order.mem_iff.mp member)

theorem sweepShared (P : Platform σ) (p : Pool) (s : Shared σ) :
    (p.sweep P s).2 = { s with
      outside := (p.sweep P s).2.outside
      live := (p.sweep P s).2.live
      journal := (p.sweep P s).2.journal } := by
  refine discardAllKeeps (fun _ _ t =>
    t = { s with outside := t.outside, live := t.live, journal := t.journal }) ?_ rfl
  intro x ws q t left
  have books : (t.invalidate x).SameBooks (q.discard P x t).2 := Shared.disposeBooks ..
  unfold Shared.SameBooks at books
  rw [books,left]
  rfl

end Pool

namespace World
variable {σ : Type} {P : Platform σ} {Alters : (σ → σ) → Prop} {outside : σ} {w w' : World σ}
  {n door : Nat} {p : Pool} {change : Change} {source : DataSource} {settings : Settings}

/-- The pool as it would be made now, with its totals and the mark that it is closed. -/
def renewed (P : Platform σ) (n : Nat) (p : Pool) (source : DataSource) (settings : Settings) : Pool :=
  { Pool.create P n source settings p.createdAt with
    closed := p.closed
    counters := { p.counters with closed := p.counters.closed + p.tracked.length } }

structure Rebuilt (P : Platform σ) (w : World σ) (n : Nat) (p : Pool) (source : DataSource)
    (settings : Settings) (w' : World σ) : Prop where
  pools : w'.pools = w.pools.set n (renewed P n p source settings)
  doors : w'.doors = w.doors
  slots : w'.slots = w.slots
  shared : w'.shared = { w.shared with
    outside := w'.shared.outside
    live := w'.shared.live
    journal := w'.shared.journal
    waiting := w.shared.waiting.filter (!Wait.isFor n ·)
    woken := w.shared.woken ++ w.shared.waiting.filter (Wait.isFor n) }
  notified : w'.shared.journal.head? = some (.notified n)
  valid {slot : Nat} {h : Handle} (held : w.handle? slot = some h) :
    w'.shared.IsLive h.wrapper ↔ w.shared.IsLive h.wrapper ∧ h.pool ≠ n
  once : (p.tracked.map Wrapper.conn).Nodup
  discarded : discards w'.shared.journal =
    p.tracked.map (fun x => (n,x.conn)) ++ discards w.shared.journal
  parted : ∀ x ∈ p.tracked, Parted n x.conn w'.shared.journal

theorem closeAllRenews (source : DataSource) (settings : Settings) (numbered : p.number = n) :
    ({ p with source, settings }.closeAll P w.shared).1 = renewed P n p source settings := by
  subst numbered
  exact Pool.sweepCounts P { p with source, settings } w.shared

theorem validElsewhere (owned : w.Owned) (after : w'.Owned) (slots : w'.slots = w.slots)
    (others : ∀ m : Nat, m ≠ n → w'.pools[m]? = w.pools[m]?)
    (empty : ∀ q, w'.pools[n]? = some q → q.active = []) {slot : Nat} {h : Handle}
    (held : w.handle? slot = some h) :
    w'.shared.IsLive h.wrapper ↔ w.shared.IsLive h.wrapper ∧ h.pool ≠ n := by
  have still : w'.handle? slot = some h := by simpa only [handle?,slots] using held
  constructor
  · intro live
    obtain ⟨_,q,there,lent⟩ := after.valid still live
    have apart : h.pool ≠ n := by
      intro own
      rw [empty q (own ▸ there)] at lent
      cases lent
    have before := (others h.pool apart).symm.trans there
    exact ⟨owned.ledger.live (memTracked.mpr ⟨_,q,before,List.mem_append_right _ lent⟩),apart⟩
  · rintro ⟨live,apart⟩
    obtain ⟨_,q,there,lent⟩ := owned.valid held live
    have later := (others h.pool apart).trans there
    exact after.ledger.live (memTracked.mpr ⟨_,q,later,List.mem_append_right _ lent⟩)

theorem configureMove (change : Change) (numbered : w.Numbered)
    (behind : w.doors[door]? = some (some n)) (here : w.pools[n]? = some p) :
    w.consult p (Pool.configure P change) =
      ((p.configure P change w.shared).1,w.move P (.configure door change)) := by
  have found : w.doorPool? door = some p := doorPoolSome behind here
  simp only [World.move,atDoor,found,consultPut numbered here]

theorem rebuilt (attained : Attained P Alters outside w) (behind : w.doors[door]? = some (some n))
    (here : w.pools[n]? = some p) (accepted : p.configure P change w.shared =
      (.ok (),{ p with source, settings }.closeAll P w.shared)) :
    w.Rebuilt P n p source settings (w.move P (.configure door change)) := by
  have number := numbered attained here
  have turns : Turns P Alters w (w.move P (.configure door change)) :=
    moveTurns (numbered attained) _ nofun
  have after := everyOwned (attained.trans turns)
  have moved : w.move P (.configure door change) =
      w.put n (renewed P n p source settings) ({ p with source, settings }.closeAll P w.shared).2 := by
    have same := configureMove (P := P) change (numbered attained) behind here
    rw [consultPut (numbered attained) here,accepted] at same
    rw [← (Prod.mk.inj same).2,closeAllRenews source settings number]
  let r : Pool := { p with source, settings }
  have ledger := (everyOwned attained).ledger.perm (trackedPerm here)
  have inside := (List.getElem?_eq_some_iff.mp here).1
  have books := Pool.sweepShared P r w.shared
  rw [moved] at after ⊢
  constructor
  case pools | doors | slots => rfl
  case shared =>
    have own : (r.sweep P w.shared).1.number = n := (r.sweepNumber P w.shared).trans number
    have closed : (r.closeAll P w.shared).2 = (r.sweep P w.shared).2.notify n := by rw [← own]; rfl
    change (r.closeAll P w.shared).2 = _
    rw [closed,books]
    rfl
  case notified => simp [put,Pool.closeAll,Shared.notify,Shared.note,Pool.sweepNumber,number]
  case valid =>
    refine validElsewhere (everyOwned attained) after rfl (fun m apart => ?_) fun q there => ?_
    · exact List.getElem?_set_ne (Ne.symm apart)
    · obtain rfl := Option.some.inj ((List.getElem?_set_self inside).symm.trans there)
      rfl
  case once => exact (List.nodup_append.mp (List.map_append ▸ ledger.conns)).1
  case discarded =>
    have swept := Pool.sweepDiscards P r w.shared
    rw [← number]
    exact swept
  case parted =>
    intro x member
    have swept := Pool.sweepParts (p := r) P ledger member
    rw [← number]
    exact Shared.Writes.parted (.one rfl) swept

theorem tolerated (numbered : w.Numbered) (behind : w.doors[door]? = some (some n))
    (here : w.pools[n]? = some p) (count : UInt32) : w.move P (.setTolerance door count) =
      { w with pools := w.pools.set n { p with settings := { p.settings with tolerance := count } } } := by
  have found : w.doorPool? door = some p := doorPoolSome behind here
  simp only [World.move,atDoor,found,visitPut numbered here]
  rfl

theorem validLasts (P : Platform σ) : Lasting P fun p => p.settings.Valid where
  created _ _ _ valid _ := valid
  enters {p} before seeker s := by rwa [(p.enterAlike P seeker s).settings]
  resumes {p} before wait s := by rwa [(p.resumeAlike P wait s).settings]
  releases {p} before x s := by rwa [(Pool.returnsAlike (p.releaseReturns P x s)).settings]
  renewed before _ _ _ valid _ s := by
    rw [Pool.sweepAlike]
    exact valid before
  tolerates before _ := before

/-- A change to settings that are not valid is refused with what is wrong with them and leaves
everything as it was; any other succeeds, and what it makes of the pool is what making it anew would,
but for its totals and the mark that it is closed. The tolerance alone is changed without all that. -/
structure Reconfigures (P : Platform σ) (w : World σ) (door n : Nat) (p : Pool) : Prop where
  tolerance (count : UInt32) : w.move P (.setTolerance door count) =
    { w with pools := w.pools.set n { p with settings := { p.settings with tolerance := count } } }
  refuses {change : Change} {source : DataSource} {settings : Settings} {fault : Misconfiguration}
    (changed : change.apply (p.source,p.settings) = (source,settings))
    (invalid : settings.validate = .error fault) :
    w.consult p (Pool.configure P change) = (.error (.ofMisconfiguration fault),w) ∧
      w.move P (.configure door change) = w
  accepts {change : Change} {source : DataSource} {settings : Settings}
    (changed : change.apply (p.source,p.settings) = (source,settings))
    (valid : settings.validate = .ok ()) :
    w.consult p (Pool.configure P change) = (.ok (),w.move P (.configure door change)) ∧
      w.Rebuilt P n p source settings (w.move P (.configure door change))

theorem configureRebuilds (reachable : w.Reachable P) :
    (∀ p ∈ w.pools, p.settings.validate = .ok ()) ∧
    ∀ {door n : Nat} {p : Pool}, w.doors[door]? = some (some n) → w.pools[n]? = some p →
      Reconfigures P w door n p := by
  obtain ⟨_,attained⟩ := reachableAttained reachable
  have known := numbered attained
  constructor
  · intro p member
    exact (Settings.validateOk p.settings).mpr (everyPool (validLasts P) attained p member)
  intro door n p behind here
  have moved (change : Change) := configureMove (P := P) change known behind here
  constructor
  case tolerance => exact tolerated known behind here
  case refuses =>
    intro change source settings fault changed invalid
    have refused : p.configure P change w.shared = (.error (.ofMisconfiguration fault),p,w.shared) := by
      simp only [Pool.configure,changed,invalid]
    have same : w.consult p (Pool.configure P change) = (.error (.ofMisconfiguration fault),w) := by
      rw [consultPut known here,refused,putSame here]
    exact ⟨same,(Prod.mk.inj ((moved change).symm.trans same)).2⟩
  case accepts =>
    intro change source settings changed valid
    have accepted : p.configure P change w.shared =
        (.ok (),{ p with source, settings }.closeAll P w.shared) := by
      simp only [Pool.configure,changed,valid]
    exact ⟨(moved change).trans (by rw [accepted]),rebuilt attained behind here accepted⟩

def crowded : World Memory.Server :=
  World.run Memory.platform
    [.create {} { maxActive := 2 },.get 0,.get 0,.get 0,.tamper (·.tamper (.failClose 0 true)),
      .tamper (·.tamper (.failRollback 1 true))] (.initial {})

theorem configureRebuildsCrowded : ∃ p, crowded.pools[0]? = some p ∧ p.tracked.map Wrapper.conn = [0,1] ∧
    crowded.shared.waiting.length = 1 ∧
    crowded.move Memory.platform (.configure 0 (.settings (.maxActive 0))) = crowded ∧
    crowded.Rebuilt Memory.platform 0 p {} { maxActive := 5 }
      (crowded.move Memory.platform (.configure 0 (.settings (.maxActive 5)))) := by
  have here : ∃ p, crowded.pools[0]? = some p ∧ p.tracked.map Wrapper.conn = [0,1] ∧
      (p.source,p.settings) = (({} : DataSource),({ maxActive := 2 } : Settings)) := ⟨_,rfl,by decide +kernel⟩
  obtain ⟨p,here,conns,same⟩ := here
  have reachable : crowded.Reachable Memory.platform := reachableRun (.initial _) _
  have changes : Reconfigures Memory.platform crowded 0 0 p := (configureRebuilds reachable).2 rfl here
  have none : (Change.settings (.maxActive 0)).apply (p.source,p.settings) =
      (p.source,{ p.settings with maxActive := 0 }) := rfl
  have more : (Change.settings (.maxActive 5)).apply (p.source,p.settings) =
      ({},{ maxActive := 5 }) := by
    rw [same]
    rfl
  exact ⟨p,here,conns,by decide,(changes.refuses none rfl).2,(changes.accepts more rfl).2⟩

end World
end ConnectionPool
