import ConnectionPool.Proofs.Turn
import ConnectionPool.Pool.Report
import ConnectionPool.Memory
/-! A pool never has more connections than its limits allow. Lending an idle connection checks no
limit, and opening one does not look at the idle ones; the bound rests on the order of the choices,
and a candidate in hand has its place all the time. -/
namespace ConnectionPool.Pool
variable {σ : Type} {P : Platform σ}

structure Room (inHand : Nat) (p : Pool) : Prop where
  all : p.idle.length + p.active.length + inHand ≤ p.settings.maxActive.toNat
  idle : p.idle.length ≤ p.settings.maxIdle.toNat

theorem picksRoom {p p' : Pool} {s s' : Shared σ} {w : Wrapper} (room : p.Room 0)
    (picks : Picks P p s (.candidate w) p' s') : p'.Room 1 := by
  obtain ⟨all,idle⟩ := room
  cases picks with
  | kept first =>
    simp only [first,List.length_cons] at all idle
    constructor <;> simp only <;> omega
  | fresh none free =>
    unfold HasActiveRoom at free
    constructor <;> simp only [count,none,List.length_nil] <;> omega
  | overdue none full lent =>
    simp only [lent,List.length_cons] at all
    constructor <;> simp only [count] <;> omega

theorem stayRoom (P : Platform σ) (seeker : Seeker) :
    StayRule P seeker (fun p _ => p.Room 0) (fun _ p _ => p.Room 1) (fun _ p _ => p.Room 0) where
  finds room picks := picksRoom room picks
  misses room picks := by cases picks <;> exact room
  blocks room _ bad := by unfold block; split <;> exact ⟨room.all,room.idle⟩
  grants holding _ := by
    have all := holding.all
    refine ⟨?_,holding.idle⟩
    simp only [grant,count,List.length_append,List.length_singleton]
    omega
  rejects holding _ := by
    have all := holding.all
    refine ⟨?_,holding.idle⟩
    simp only [reject,discard,count]
    omega
  fails room _ := room
  overruns room := room

theorem removeActiveRoom {p : Pool} {w : Wrapper} (room : p.Room 0) (lent : p.IsActive w) :
    (p.removeActive w).Room 1 := by
  obtain ⟨x,member,same⟩ := List.mem_map.mp lent
  have shorter := List.length_eraseP_of_mem (p := fun x => decide (x.key = w.key)) member
    (by simpa using same)
  have some := List.length_pos_of_mem member
  have all := room.all
  refine ⟨?_,room.idle⟩
  simp only [removeActive,shorter]
  omega

theorem returnsRoom {p p' : Pool} {s s' : Shared σ} {w : Wrapper} (room : p.Room 0)
    (returns : Returns P w p s p' s') : p'.Room 0 := by
  cases returns with
  | stale => exact ⟨room.all,room.idle⟩
  | unfit lent | dropped lent =>
    have ⟨all,idle⟩ := removeActiveRoom room lent
    refine ⟨?_,idle⟩
    simp only [discard,checkIn,count] at all ⊢
    omega
  | kept lent found welcome =>
    have ⟨all,idle⟩ := removeActiveRoom room lent
    have free := welcome.1
    simp only [HasIdleRoom,checkIn,count,removeActive] at free all
    constructor <;>
      simp only [keep,checkIn,count,removeActive,List.length_append,List.length_singleton] <;> omega

theorem emptyRoom {p : Pool} (idle : p.idle = []) (active : p.active = []) : p.Room 0 := by
  constructor <;> simp [idle,active]

theorem roomLasts (P : Platform σ) : World.Lasting P (Pool.Room 0) where
  created _ _ _ _ _ := emptyRoom rfl rfl
  enters room seeker s := (stayRoom P seeker).enter (fun _ => room) (fun _ => room)
  resumes room wait s :=
    (stayRoom P wait.seeker).resume (fun _ => ⟨room.all,room.idle⟩) (fun _ => ⟨room.all,room.idle⟩)
  releases room x s := returnsRoom room (releaseReturns ..)
  renewed _ _ _ _ _ _ s := by
    rw [sweepAlike]
    exact emptyRoom rfl rfl
  tolerates room _ := ⟨room.all,room.idle⟩

theorem everyRoom {Alters : (σ → σ) → Prop} {outside : σ} {w : World σ} {n : Nat} {p : Pool}
    (attained : World.Attained P Alters outside w) (here : w.pools[n]? = some p) : p.Room 0 :=
  World.everyPool (roomLasts P) attained p (List.mem_of_getElem? here)

theorem cappedCountExact {n : Nat} (small : n < UInt32.size) : (cappedCount n).toNat = n := by
  simp only [cappedCount,UInt32.toNat_ofNat',UInt32.size] at small ⊢
  omega

/-- The connections of a pool are within its limits, and its status tells their exact numbers, whose
sum does not overflow. -/
structure WithinLimits (p : Pool) : Prop where
  all : p.idle.length + p.active.length ≤ p.settings.maxActive.toNat
  idle : p.idle.length ≤ p.settings.maxIdle.toNat
  toldIdle : p.status.idle.toNat = p.idle.length
  toldActive : p.status.active.toNat = p.active.length
  countable : p.status.idle.toNat + p.status.active.toNat < UInt32.size
  toldTotal : p.status.total.toNat = p.idle.length + p.active.length

theorem withinLimits {w : World σ} (reachable : w.Reachable P) {p : Pool} (member : p ∈ w.pools) :
    p.WithinLimits := by
  obtain ⟨_,attained⟩ := World.reachableAttained reachable
  obtain ⟨all,idle⟩ := World.everyPool (roomLasts P) attained p member
  have bound := p.settings.maxActive.toNat_lt
  have exactIdle : p.status.idle.toNat = p.idle.length :=
    cappedCountExact (by simp only [UInt32.size]; omega)
  have exactActive : p.status.active.toNat = p.active.length :=
    cappedCountExact (by simp only [UInt32.size]; omega)
  refine ⟨all,idle,exactIdle,exactActive,?_,?_⟩
  · rw [exactIdle,exactActive]
    simp only [UInt32.size]
    omega
  · simp only [Status.total,UInt32.toNat_add,exactIdle,exactActive]
    omega

def shrunk : World Memory.Server :=
  World.run Memory.platform
    [.create {} {},.get 0,.get 0,.get 0,.configure 0 (.settings (.maxActive 2)),
      .configure 0 (.settings (.maxIdle 1)),.get 0,.get 0,.release 3]
    (.initial {})

theorem withinLimitsShrunk :
    ∃ p ∈ shrunk.pools, p.settings.maxActive = 2 ∧ p.settings.maxIdle = 1 ∧ p.idle.length = 1 ∧
      p.active.length = 1 ∧ p.status.total.toNat = p.idle.length + p.active.length := by
  have used : ∃ p ∈ shrunk.pools, p.settings.maxActive = 2 ∧ p.settings.maxIdle = 1 ∧
      p.idle.length = 1 ∧ p.active.length = 1 := by decide
  obtain ⟨p,member,maxActive,maxIdle,idle,active⟩ := used
  have reachable : shrunk.Reachable Memory.platform := World.reachableRun (.initial _) _
  exact ⟨p,member,maxActive,maxIdle,idle,active,(withinLimits reachable member).toldTotal⟩

end ConnectionPool.Pool
