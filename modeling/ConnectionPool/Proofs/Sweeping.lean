import ConnectionPool.Proofs.Disposal
import ConnectionPool.Proofs.Earlier
import ConnectionPool.Proofs.Parting
import ConnectionPool.Proofs.Succession
/-! All connections of a pool are closed at once: on demand, to shut the pool down, or because nobody
refers to it any more. Nothing that a connection answers stops that, and what is left is a pool without
connections. -/
namespace ConnectionPool
namespace Pool
variable {σ : Type} {s : Shared σ} {p : Pool} {key : Nat}

theorem sweepJournal (P : Platform σ) (p : Pool) (s : Shared σ) : (p.sweep P s).2.journal =
    (P.disposals p.number (p.active.reverse ++ p.idle.reverse) s.outside).reverse.flatten ++
      .swept p.number p.active.length p.idle.length :: s.journal :=
  discardAllJournal P _ (p.swept P) _

theorem sweepLive (P : Platform σ) (p : Pool) (s : Shared σ) :
    key ∈ (p.sweep P s).2.live ↔ key ∈ s.live ∧ key ∉ p.tracked.map Wrapper.key := by
  have swept : key ∈ (p.sweep P s).2.live ↔ _ :=
    discardAllLive P (p.active.reverse ++ p.idle.reverse) (p.swept P) _
  rwa [← (p.sweepOrder.map Wrapper.key).mem_iff] at swept

end Pool

namespace World
variable {σ : Type} {P : Platform σ} {Alters : (σ → σ) → Prop} {outside : σ} {w v : World σ}
  {n door : Nat} {p q : Pool} {m : Move σ} {told : List Event} {rest : List Wrapper}

/-- All connections of a pool have been discarded, the lent ones first and the newest of each kind
first, each with the calls that it would get alone. What is told has been written last. -/
structure Swept (P : Platform σ) (n : Nat) (p : Pool) (told : List Event) (w w' : World σ) : Prop where
  pools : w'.pools = w.pools.set n (renewed P n p p.source p.settings)
  doors : w'.doors = w.doors
  slots : w'.slots = w.slots
  valid (key : Nat) :
    key ∈ w'.shared.live ↔ key ∈ w.shared.live ∧ key ∉ p.tracked.map Wrapper.key
  inTurn : p.InTurn w.shared
  once : (p.tracked.map Wrapper.conn).Nodup
  discarded : discards w'.shared.journal =
    ((p.active.reverse ++ p.idle.reverse).map fun x => (n,x.conn)).reverse ++ discards w.shared.journal
  written : w'.shared.journal = told ++
    ((P.disposals n (p.active.reverse ++ p.idle.reverse) w.shared.outside).reverse.flatten ++
      .swept n p.active.length p.idle.length :: w.shared.journal)
  each : List.Forall₂ (fun x part => Disposal n x.conn part) (p.active.reverse ++ p.idle.reverse)
    (P.disposals n (p.active.reverse ++ p.idle.reverse) w.shared.outside)
  alone (τ : Type) (own : Nat → σ → τ) (apart : P.Apart own) :
    P.disposals n (p.active.reverse ++ p.idle.reverse) w.shared.outside =
      (p.active.reverse ++ p.idle.reverse).map fun x => (P.disposal n x.conn w.shared.outside).1

theorem sweptPut {t : Shared σ} (numbered : p.number = n)
    (ledger : Ledger (p.tracked ++ rest) w.shared) (inTurn : p.InTurn w.shared)
    (live : t.live = (p.sweep P w.shared).2.live)
    (journal : t.journal = told ++ (p.sweep P w.shared).2.journal) (silent : discards told = []) :
    Swept P n p told w (w.put n (p.sweep P w.shared).1 t) := by
  have order := p.sweepOrder
  have once := (List.nodup_append.mp (List.map_append ▸ ledger.conns)).1
  subst numbered
  constructor
  case pools => exact congrArg (w.pools.set p.number) (closeAllRenews p.source p.settings rfl)
  case doors | slots => rfl
  case valid => exact fun key => live ▸ p.sweepLive P w.shared
  case inTurn => exact inTurn
  case once => exact once
  case discarded =>
    have swept := p.sweepDiscards P w.shared
    have journal : (w.put p.number (p.sweep P w.shared).1 t).shared.journal = _ := journal
    rw [journal,discards,List.filterMap_append]
    change discards told ++ discards _ = _
    rw [silent,swept]
    simp [Pool.tracked]
  case written => exact journal.trans (congrArg (told ++ ·) (p.sweepJournal P w.shared))
  case each => exact disposalsEach ..
  case alone =>
    intro τ own apart
    exact apart.disposals ((order.map Wrapper.conn).nodup_iff.mp once) (fun _ _ => rfl) p.number

theorem closeAllSwept (numbered : p.number = n) (ledger : Ledger (p.tracked ++ rest) w.shared)
    (inTurn : p.InTurn w.shared) : Swept P n p [.notified n] w
      (w.put n (p.closeAll P w.shared).1 (p.closeAll P w.shared).2) := by
  have number := p.sweepNumber P w.shared
  refine sweptPut numbered ledger inTurn rfl ?_ rfl
  rw [← numbered,← number]
  rfl

theorem loosensInTurn (attained : Attained P Alters outside w) (loosens : w.Loosens P m n v) :
    v.Stands Pool.InTurn := by
  have known := numbered attained
  have inTurn := everyPoolInTurn attained
  cases loosens with
  | leave => exact inTurn
  | drop held =>
    have released := everyPoolInTurn (attained.trans (releaseTurns (P := P) known held))
    exact released
  | resume awake here => exact inTurnResumed inTurn known here

theorem lastSwept (attained : Attained P Alters outside w) (here : w.pools[n]? = some p)
    (referred : w.IsReferred n) (gone : ¬(w.move P m).IsReferred n) :
    ∃ v q, w.Loosens P m n v ∧ v.pools[n]? = some q ∧ q.active = [] ∧
      ((q.idle = [] ∧ w.move P m = v) ∨ (q.idle ≠ [] ∧ Swept P n q [] v (w.move P m))) := by
  obtain ⟨v,loosens,alone⟩ := lastLoosened attained here referred gone
  have known := loosensNumbered (numbered attained) loosens
  have owned := loosensOwned attained loosens
  have moved := loosensMove (numbered attained) loosens
  have inside : n < v.pools.length := by
    have before := (List.getElem?_eq_some_iff.mp here).1
    have after := poolsStay (moveMakes (P := P) (numbered attained) m)
    rw [moved,(Extends.letGo P v n).pools] at after
    exact Nat.lt_of_lt_of_le before after
  have there := List.getElem?_eq_getElem inside
  -- Whoever holds a connection refers to its pool.
  have none : v.pools[n].active = [] := List.eq_nil_iff_forall_not_mem.mpr fun x lent =>
    alone (lentRefers owned there lent)
  refine ⟨v,v.pools[n],loosens,there,none,?_⟩
  rw [moved]
  rcases letGoCases (P := P) known n with ⟨same,still | empty⟩ | ⟨q,_,present,some,swept⟩
  · exact absurd still alone
  · exact .inl ⟨(List.append_eq_nil_iff.mp (empty _ there)).1,same⟩
  · obtain rfl := Option.some.inj (there.symm.trans present)
    refine .inr ⟨fun idle => some (by simp [Pool.tracked,idle,none]),?_⟩
    rw [swept]
    exact sweptPut (known there) (owned.ledger.perm (trackedPerm there))
      (loosensInTurn attained loosens there) rfl rfl rfl

def remade (P : Platform σ) (n : Nat) (source : DataSource) (settings : Settings) (made : Nat)
    (w : World σ) : World σ :=
  w.put n (.create P n source settings made) w.shared

theorem renewedServes {source : DataSource} {settings : Settings} (known : w.Numbered)
    (here : w.pools[n]? = some (renewed P n p source settings)) (unshut : p.closed = false)
    (made : Nat) (moves : List (Move σ)) : w.run P moves =
      ((w.remade P n source settings made).run P moves).older n
        (renewed P n p source settings).counters p.createdAt := by
  have fresh : (Pool.create P n source settings made).older
      (renewed P n p source settings).counters p.createdAt = renewed P n p source settings := by
    unfold renewed
    rw [unshut]
    rfl
  have whole : (w.remade P n source settings made).older n
      (renewed P n p source settings).counters p.createdAt = w := by
    have own : (Pool.create P n source settings made).number = n := rfl
    rw [remade,olderPut known _ own,fresh,putSame here]
  have inside : n < (w.remade P n source settings made).pools.length := by
    simpa [remade,put] using (List.getElem?_eq_some_iff.mp here).1
  have apart : (w.remade P n source settings made).Numbered :=
    numberedPut (s := w.shared) known here rfl
  exact (congrArg (run P moves) whole.symm).trans (olderRun apart inside moves)

/-- Closing all connections of a pool and closing the pool end with no connection left, whatever the
connections answer. An open pool goes on as one just made would, on top of its totals. -/
structure SweepsEach (P : Platform σ) (w : World σ) (door n : Nat) (p : Pool) : Prop where
  closeAll : Swept P n p [.notified n] w (w.move P (.closeAll door))
  close (unshut : p.closed = false) :
    Swept P n { p with closed := true } [.notified n] w (w.move P (.close door))
  serves (unshut : p.closed = false) (made : Nat) (moves : List (Move σ)) :
    (w.move P (.closeAll door)).run P moves =
      (((w.move P (.closeAll door)).remade P n p.source p.settings made).run P moves).older n
        (renewed P n p p.source p.settings).counters p.createdAt

/-- So does losing the last reference to a pool, and then no connection is lent. -/
theorem sweepsCloseEach (reachable : w.Reachable P) :
    (∀ {door n : Nat} {p : Pool}, w.doors[door]? = some (some n) → w.pools[n]? = some p →
      SweepsEach P w door n p) ∧
    ∀ {m : Move σ} {n : Nat} {p : Pool}, w.pools[n]? = some p → w.IsReferred n →
      ¬(w.move P m).IsReferred n → ∃ v q, w.Loosens P m n v ∧ v.pools[n]? = some q ∧
        q.active = [] ∧ ((q.idle = [] ∧ w.move P m = v) ∨
          (q.idle ≠ [] ∧ Swept P n q [] v (w.move P m))) := by
  obtain ⟨_,attained⟩ := reachableAttained reachable
  have known := numbered attained
  refine ⟨fun {door n p} behind here => ?_,lastSwept attained⟩
  have found : w.doorPool? door = some p := doorPoolSome behind here
  have number := known here
  have ledger := (everyOwned attained).ledger.perm (trackedPerm here)
  have inTurn := everyPoolInTurn attained here
  have swept : Swept P n p [.notified n] w (w.move P (.closeAll door)) := by
    simp only [World.move,atDoor,found,visitPut known here]
    exact closeAllSwept number ledger inTurn
  constructor
  case closeAll => exact swept
  case close =>
    intro unshut
    have closing : p.close P w.shared = { p with closed := true }.closeAll P w.shared :=
      if_neg (by simp [unshut])
    simp only [World.move,atDoor,found,visitPut known here,closing]
    exact closeAllSwept (p := { p with closed := true }) number ledger
      (inTurn.onward rfl (.refl _) (.refl _) List.suffix_rfl (Nat.le_refl _))
  case serves =>
    intro unshut made moves
    have inside := (List.getElem?_eq_some_iff.mp here).1
    have there : (w.move P (.closeAll door)).pools[n]? = some (renewed P n p p.source p.settings) := by
      rw [swept.pools]
      exact List.getElem?_set_self inside
    exact renewedServes (numberedMove known _) there unshut made moves

def strained : World Memory.Server :=
  World.run Memory.platform
    [.create { autoCommit := some false } {},.create {} {},.get 0,.get 0,.get 0,.get 1,.drop 1,.drop 3,
      .tamper (·.tamper (.failClose 0 true)),.tamper (·.tamper (.failRollback 0 true)),
      .tamper (·.tamper (.faults 1 [⟨"is_closed",0,none⟩,⟨"auto_commit",0,none⟩]))] (.initial {})

theorem sweepsCloseEachStrained : ∃ p q v,
    strained.pools[0]? = some p ∧ p.active.map Wrapper.conn = [0,2] ∧ p.idle.map Wrapper.conn = [1] ∧
    Swept Memory.platform 0 p [.notified 0] strained
      (strained.move Memory.platform (.closeAll 0)) ∧
    Memory.platform.disposals 0 (p.active.reverse ++ p.idle.reverse) strained.shared.outside =
      (p.active.reverse ++ p.idle.reverse).map
        (fun x => (Memory.platform.disposal 0 x.conn strained.shared.outside).1) ∧
    Swept Memory.platform 0 { p with closed := true } [.notified 0] strained
      (strained.move Memory.platform (.close 0)) ∧
    strained.Loosens Memory.platform (.leave 1) 1 v ∧ v.pools[1]? = some q ∧
    q.idle.map Wrapper.conn = [3] ∧ Swept Memory.platform 1 q [] v
      (strained.move Memory.platform (.leave 1)) := by
  have here : ∃ p, strained.pools[0]? = some p ∧ p.active.map Wrapper.conn = [0,2] ∧
      p.idle.map Wrapper.conn = [1] ∧ p.closed = false := ⟨_,rfl,by decide +kernel⟩
  have there : ∃ q, strained.pools[1]? = some q ∧ q.idle.map Wrapper.conn = [3] :=
    ⟨_,rfl,by decide +kernel⟩
  obtain ⟨p,here,active,idle,unshut⟩ := here
  obtain ⟨q,there,kept⟩ := there
  have reachable : strained.Reachable Memory.platform := reachableRun (.initial _) _
  have sweeps : SweepsEach Memory.platform strained 0 0 p := (sweepsCloseEach reachable).1 rfl here
  obtain ⟨v,r,loosens,present,_,ends⟩ := (sweepsCloseEach reachable).2 (m := .leave 1) there
    (by decide +kernel) (by decide +kernel)
  have same : r = q := by
    cases loosens
    exact Option.some.inj (present.symm.trans there)
  subst same
  have some : r.idle ≠ [] := by
    intro none
    rw [none] at kept
    cases kept
  exact ⟨p,r,v,here,active,idle,sweeps.closeAll,sweeps.closeAll.alone _ _ Memory.connectionsApart,
    sweeps.close unshut,loosens,present,kept,(ends.resolve_left fun empty => some empty.1).2⟩

end World
end ConnectionPool
