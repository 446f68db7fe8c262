import ConnectionPool.Proofs.Accounts
import ConnectionPool.Proofs.Referral
import ConnectionPool.Proofs.Server
/-! No connection is forgotten: the pool that opened it has it or has parted with it, and a pool that
nobody refers to has none. In memory, what stays open unnoticed is only what a fault kept from being
closed. -/
namespace ConnectionPool

namespace World
variable {σ : Type} {P : Platform σ} {Alters : (σ → σ) → Prop} {outside : σ} {w w' : World σ}
  {n conn : Nat} {p p' : Pool} {s : Shared σ}

def holdings (w : World σ) : List (Nat × Nat) := w.pools.flatMap Pool.holdings

def Accounted (w : World σ) : Prop := Accounts w.holdings w.shared

theorem accountsPut (accounted : w.Accounted) (here : w.pools[n]? = some p)
    (acts : ∀ rest, Accounts (p.holdings ++ rest) w.shared → Accounts (p'.holdings ++ rest) s) :
    (w.put n p' s).Accounted := by
  have before := accounted.perm ((poolsPerm here).flatMap_right Pool.holdings)
  exact (acts _ before).perm ((poolsPut here p' s).flatMap_right Pool.holdings).symm

theorem accountsLetGo (accounted : w.Accounted) (numbered : w.Numbered) (n : Nat) :
    (w.letGo P n).Accounted := by
  rcases letGoCases (P := P) numbered n with ⟨same,_⟩ | ⟨p,_,here,_,swept⟩
  · rwa [same]
  · rw [swept]
    exact accountsPut accounted here fun _ before => Pool.sweepAccounts P before

theorem accountsTurn (numbered : w.Numbered) (owned : w.Owned) (accounted : w.Accounted)
    (turn : Turn P Alters w w') : w'.Accounted := by
  cases turn with
  | found source valid =>
    refine accounted.perm (.of_eq ?_)
    simp [holdings,Pool.holdings,Pool.tracked,Pool.create]
  | noDoor | share => exact accounted
  | stray | advance | tamper => exact accounted.quiet rfl rfl
  | leave =>
    apply accountsLetGo
    · exact accounted
    · exact numbered
  | get door known here => exact accountsPut accounted here fun _ => Pool.enterAccounts P _
  | @resume index wait p awake here =>
    have roused : (w.rouse index).Accounted := accounted.quiet rfl rfl
    apply accountsLetGo
    · exact accountsPut roused here fun _ => Pool.resumeAccounts P wait
    · exact numberedResumed numbered here index
  | @renew n p source settings closed known here =>
    refine accountsPut accounted here fun _ before => ?_
    have swept := Pool.sweepAccounts (p := { p with source, settings, closed }) P before
    exact swept.quiet rfl rfl
  | tolerance count known here => exact accountsPut accounted here fun _ before => before
  | @giveBack slot h p held first here =>
    have returned := p.releaseReturns P h.wrapper w.shared
    have own := holderOwns owned held here
    exact accountsPut accounted here fun _ before => Pool.returnsAccounts before own returned
  | vacate =>
    apply accountsLetGo
    · exact accounted
    · exact numbered
  | @ask slot h held live request =>
    obtain ⟨_,p,here,active⟩ := owned.valid held live
    have has : (p.number,h.wrapper.conn) ∈ w.holdings := by
      refine List.mem_flatMap.mpr ⟨p,List.mem_of_getElem? here,List.mem_map.mpr ⟨h.wrapper,?_,rfl⟩⟩
      exact List.mem_append_right _ active
    exact Accounts.talks accounted has (.one P (.holder h.wrapper.key) h.wrapper.conn request _)

theorem everyAccounted (attained : Attained P Alters outside w) : w.Accounted := by
  refine everyAttained ?_ (fun before => accountsTurn (numbered before) (everyOwned before)) attained
  constructor <;> simp [holdings,World.initial,Shared.initial]

/-- A pool has a connection, and has it once, and nobody else does. -/
def Has (w : World σ) (n conn : Nat) : Prop :=
  ∃ p, w.pools[n]? = some p ∧ conn ∈ p.tracked.map Wrapper.conn ∧
    (w.tracked.map Wrapper.conn).count conn = 1

theorem hasOrParted (attained : Attained P Alters outside w) (inside : conn < w.shared.opened) :
    ∃ n id source, .opened n conn id source ∈ w.shared.journal ∧
      (w.Has n conn ∨ Parted n conn w.shared.journal) := by
  have accounted := everyAccounted attained
  obtain ⟨n,id,source,opened⟩ := accounted.recorded conn inside
  refine ⟨n,id,source,opened,(accounted.settled opened).imp_left fun had => ?_⟩
  obtain ⟨p,member,mine⟩ := List.mem_flatMap.mp had
  obtain ⟨x,tracked,same⟩ := List.mem_map.mp mine
  cases same
  obtain ⟨m,here⟩ := List.mem_iff_getElem?.mp member
  rw [numbered attained here]
  refine ⟨p,here,List.mem_map_of_mem tracked,?_⟩
  refine List.count_eq_one_of_mem (everyOwned attained).ledger.conns ?_
  exact List.mem_map_of_mem (memTracked.mpr ⟨m,p,here,tracked⟩)

theorem abandonedEmpty (attained : Attained P Alters outside w) (alone : ∀ n, ¬w.IsReferred n) :
    w.tracked = [] := by
  refine List.flatMap_eq_nil_iff.mpr fun p member => ?_
  obtain ⟨n,here⟩ := List.mem_iff_getElem?.mp member
  exact (everyPoolSettled attained here).resolve_left (alone n)

theorem hasTracked (has : w.Has n conn) : ∃ x ∈ w.tracked, x.conn = conn := by
  obtain ⟨p,here,known,_⟩ := has
  obtain ⟨x,member,same⟩ := List.mem_map.mp known
  exact ⟨x,memTracked.mpr ⟨n,p,here,member⟩,same⟩

theorem untrackedStruck {server : Memory.Server} {w : World Memory.Server} {c : Memory.Connection}
    (empty : server.connections = [])
    (attained : Attained Memory.platform Memory.Tampers server w)
    (here : w.shared.outside.connections[conn]? = some c) (isOpen : c.isOpen = true)
    (untracked : ∀ x ∈ w.tracked, x.conn ≠ conn) : Memory.CloseStruck conn w.shared.journal := by
  have heard := Memory.everyHeard empty attained
  have inside := heard.numbered ▸ (List.getElem?_eq_some_iff.mp here).1
  obtain ⟨n,_,_,_,has | parted⟩ := hasOrParted attained inside
  · obtain ⟨x,tracked,same⟩ := hasTracked has
    exact absurd same (untracked x tracked)
  · exact Memory.partedStruck parted fun _ newest => heard.stays here isOpen newest

/-- Every connection that was ever opened is had, once, by the pool that opened it, or that pool was
the last to call it and closed it or found it closed. Pools that nobody refers to have none. What
stays open in memory though no pool has it was to be closed by a call that a fault struck. -/
theorem noLeak :
    (∀ {σ : Type} {P : Platform σ} {w : World σ}, w.Reachable P →
      (∀ conn < w.shared.opened, ∃ n id source, .opened n conn id source ∈ w.shared.journal ∧
        (w.Has n conn ∨ Parted n conn w.shared.journal)) ∧
      ((∀ n, ¬w.IsReferred n) → w.tracked = [] ∧
        ∀ conn < w.shared.opened, ∃ n id source, .opened n conn id source ∈ w.shared.journal ∧
          Parted n conn w.shared.journal)) ∧
    ∀ (server : Memory.Server) (moves : List (Move Memory.Server)), server.connections = [] →
      (∀ change, .tamper change ∈ moves → Memory.Tampers change) →
      let w := World.run Memory.platform moves (.initial server)
      ∀ conn c, w.shared.outside.connections[conn]? = some c → c.isOpen = true →
        (∀ x ∈ w.tracked, x.conn ≠ conn) ∨ (∀ n, ¬w.IsReferred n) →
        Memory.CloseStruck conn w.shared.journal := by
  refine ⟨fun reachable => ?_,fun server moves empty allowed => ?_⟩
  · obtain ⟨_,attained⟩ := reachableAttained reachable
    refine ⟨fun conn inside => hasOrParted attained inside,fun alone => ?_⟩
    have none := abandonedEmpty attained alone
    refine ⟨none,fun conn inside => ?_⟩
    obtain ⟨n,id,source,opened,has | parted⟩ := hasOrParted attained inside
    · obtain ⟨x,tracked,_⟩ := hasTracked has
      exact absurd (none ▸ tracked) List.not_mem_nil
    · exact ⟨n,id,source,opened,parted⟩
  · intro w conn c here isOpen away
    have attained : Attained Memory.platform Memory.Tampers server w := runAttained allowed .refl
    rcases away with untracked | alone
    · exact untrackedStruck empty attained here isOpen untracked
    · refine untrackedStruck empty attained here isOpen ?_
      rw [abandonedEmpty attained alone]
      exact fun x member => absurd member List.not_mem_nil

def struckMoves : List (Move Memory.Server) :=
  [.create {} {},.get 0,.tamper (·.tamper (.faults 0 [⟨"close",0,none⟩])),.leave 0,.drop 0]

def struck : World Memory.Server := World.run Memory.platform struckMoves (.initial {})

theorem noLeakStruck :
    struck.tracked = [] ∧ struck.shared.outside.openCount = 1 ∧
      Memory.CloseStruck 0 struck.shared.journal := by
  have alone : ∀ n, ¬struck.IsReferred n := by
    intro n
    have doors : struck.doors = [none] := by decide
    have slots : struck.slots = [.empty] := by decide
    have unfinished : struck.shared.unfinished = [] := by decide
    simp [IsReferred,doors,slots,unfinished,Slot.refersTo]
  have isOpen : ∃ c, struck.shared.outside.connections[0]? = some c ∧ c.isOpen = true :=
    ⟨_,rfl,by decide⟩
  obtain ⟨c,here,isOpen⟩ := isOpen
  have tampers : ∀ change, .tamper change ∈ struckMoves → Memory.Tampers change := by
    intro change member
    simp only [struckMoves,List.mem_cons,reduceCtorEq,List.not_mem_nil,or_false,false_or,
      Move.tamper.injEq] at member
    exact ⟨_,member⟩
  have reachable : struck.Reachable Memory.platform := reachableRun (.initial _) _
  refine ⟨(noLeak.1 reachable).2 alone |>.1,by decide,?_⟩
  exact noLeak.2 {} struckMoves rfl tampers 0 c here isOpen (.inr alone)

end World
end ConnectionPool
