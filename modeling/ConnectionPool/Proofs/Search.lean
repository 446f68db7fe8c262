import ConnectionPool.Proofs.Turn
/-! Which moves make a caller search a pool, how the pool is at each of its looks, and why a search
in an open pool can fail. -/
namespace ConnectionPool
namespace Pool
variable {σ : Type} {P : Platform σ} {seeker : Seeker} {p : Pool} {s : Shared σ}

def Looks (P : Platform σ) (seeker : Seeker) (p : Pool) (s : Shared σ) (q : Pool) (t : Shared σ) :
    Prop :=
  ∃ n ≤ p.settings.badConnectionLimit.toNat - seeker.bad.toNat, Passed P p s n q t

inductive Thwarts (P : Platform σ) (q : Pool) (t : Shared σ) : PoolError → Prop
  | connect {cause q' t'} (picks : Picks P q t (.failed (.connect cause)) q' t') :
      Thwarts P q t (.connect cause)
  | exhausted {w q' t' u attempts} (picks : Picks P q t (.candidate w) q' t')
      (bad : q'.admits P w t' = (false,u)) (many : q.settings.badConnectionLimit < attempts) :
      Thwarts P q t (.exhaustedRetries attempts)

theorem stayThwarts {error : PoolError} (failed : (p.stay P seeker s).1 = .failed error) :
    ∃ q t, p.Looks P seeker s q t ∧ q.Thwarts P t error := by
  have ends := stayEnds P seeker p s
  generalize p.stay P seeker s = result at ends failed
  cases ends with
  | @misses n q t other q' t' inTime passed picks =>
    obtain rfl : other = error := Outcome.failed.inj failed
    refine ⟨q,t,⟨n,inTime,passed⟩,?_⟩
    have picked := picks
    cases picks with
    | refused | unfit => exact .connect picked
  | sleeps | finds => cases failed
  | @givesUp q t w q' t' u passed picks spoilt =>
    refine ⟨q,t,⟨_,Nat.le_refl _,passed⟩,?_⟩
    unfold giveUp at failed
    split at failed
    · rename_i small
      obtain rfl := Outcome.failed.inj failed
      refine .exhausted picks spoilt ?_
      rw [(passedAlike passed).settings,UInt32.lt_iff_toNat_lt,UInt32.toNat_ofNat_of_lt' small]
      omega
    · cases failed

end Pool

namespace World
variable {σ : Type}

inductive Searches (w : World σ) : Move σ → Seeker → Pool → Shared σ → Prop
  | get {door n p} (behind : w.doors[door]? = some (some n)) (here : w.pools[n]? = some p)
      (unshut : p.closed = false) : Searches w (.get door) (w.newSeeker door n) p w.shared
  | resume {index wait p} (awake : w.shared.woken[index]? = some wait)
      (here : w.pools[wait.seeker.pool]? = some p) (unshut : p.closed = false) :
      Searches w (.resume index) wait.seeker (p.lingered (w.shared.now - wait.since))
        (p.rises wait (w.rouse index).shared)

def Seeks (P : Platform σ) (w : World σ) (n : Nat) (m : Move σ) (q : Pool) (t : Shared σ) : Prop :=
  ∃ seeker p s, w.Searches m seeker p s ∧ seeker.pool = n ∧ p.Looks P seeker s q t

end World
end ConnectionPool
