import ConnectionPool.Health
/-! A pool: the connections it lends and keeps, how it is configured, and what it has counted; how it
takes connections back, and how it closes all of them: by itself, to shut down, and with every change
of its configuration but one. -/
namespace ConnectionPool

/-- Running totals, which never decrease; times are in nanoseconds. -/
structure Counters where
  requests : Nat := 0
  requestTime : Nat := 0
  hadToWait : Nat := 0
  waitTime : Nat := 0
  checkoutTime : Nat := 0
  claimedOverdue : Nat := 0
  overdueTime : Nat := 0
  bad : Nat := 0
  created : Nat := 0
  closed : Nat := 0
  deriving DecidableEq, Repr

structure Pool where
  number : Nat
  source : DataSource
  settings : Settings
  expected : TypeCode
  /-- Connections to lend, the one that came back first in front. -/
  idle : List Wrapper
  /-- Lent connections, the one lent first in front. -/
  active : List Wrapper
  closed : Bool
  counters : Counters
  createdAt : Nat
  deriving DecidableEq, Repr

namespace Pool
variable {σ : Type}

def create (P : Platform σ) (number : Nat) (source : DataSource) (settings : Settings) (now : Nat) :
    Pool :=
  { number, source, settings, expected := P.typeCode source, idle := [], active := [],
    closed := false, counters := {}, createdAt := now }

def HasIdleRoom (p : Pool) : Prop := p.idle.length < p.settings.maxIdle.toNat

instance (p : Pool) : Decidable p.HasIdleRoom := by unfold HasIdleRoom; infer_instance

def HasActiveRoom (p : Pool) : Prop := p.active.length < p.settings.maxActive.toNat

instance (p : Pool) : Decidable p.HasActiveRoom := by unfold HasActiveRoom; infer_instance

def tracked (p : Pool) : List Wrapper := p.idle ++ p.active

def count (p : Pool) (change : Counters → Counters) : Pool :=
  { p with counters := change p.counters }

def inspect (P : Platform σ) (p : Pool) (w : Wrapper) (s : Shared σ) : Bool × Shared σ :=
  if s.IsLive w then
    let (health,s) := s.checkHealth P (.pool p.number) w.conn (w.unusedFor s.now) p.settings
    (health.isHealthy,s)
  else (false,s)

def discard (P : Platform σ) (w : Wrapper) (p : Pool) (s : Shared σ) : Pool × Shared σ :=
  (p.count fun c => { c with closed := c.closed + 1 },
    (s.invalidate w).dispose P p.number w.conn)

def discardAll (P : Platform σ) : List Wrapper → Pool → Shared σ → Pool × Shared σ
  | [],p,s => (p,s)
  | w :: ws,p,s =>
      let (p,s) := p.discard P w s
      discardAll P ws p s

def IsActive (p : Pool) (w : Wrapper) : Prop := w.key ∈ p.active.map Wrapper.key

instance (p : Pool) (w : Wrapper) : Decidable (p.IsActive w) := by unfold IsActive; infer_instance

def removeActive (p : Pool) (w : Wrapper) : Pool :=
  { p with active := p.active.eraseP (·.key = w.key) }

def keep (w : Wrapper) (p : Pool) (s : Shared σ) : Pool × Shared σ :=
  let (fresh,s) := s.rewrap w s.now
  ({ p with idle := p.idle ++ [fresh] },s.invalidate w)

def store (P : Platform σ) (w : Wrapper) (p : Pool) (s : Shared σ) : Pool × Shared σ :=
  if p.HasIdleRoom ∧ w.typeCode = some p.expected then
    match s.rollbackUnlessAutoCommit P (.pool p.number) w.conn with
    | (.ok (),s) => p.keep w s
    | (.error _,s) => p.discard P w s
  else p.discard P w s

/-- A wrapper that is not lent by this pool is only counted. -/
def release (P : Platform σ) (w : Wrapper) (p : Pool) (s : Shared σ) : Pool × Shared σ :=
  if p.IsActive w then
    let p := p.removeActive w
    let held := w.heldFor s.now
    match p.inspect P w s with
    | (false,s) =>
        let p := p.count fun c => { c with bad := c.bad + 1 }
        let (p,s) := p.discard P w (s.note (.returned p.number w false held))
        (p,s.notify p.number)
    | (true,s) =>
        let p := p.count fun c => { c with checkoutTime := c.checkoutTime + held }
        let (p,s) := p.store P w (s.note (.returned p.number w true held))
        (p,s.notify p.number)
  else
    (p.count fun c => { c with bad := c.bad + 1 },s.note (.staleReturn p.number w))

/-- Discards every connection, the lent ones first and the newest of each kind first. -/
def sweep (P : Platform σ) (p : Pool) (s : Shared σ) : Pool × Shared σ :=
  discardAll P (p.active.reverse ++ p.idle.reverse)
    { p with expected := P.typeCode p.source, active := [], idle := [] }
    (s.note (.swept p.number p.active.length p.idle.length))

def closeAll (P : Platform σ) (p : Pool) (s : Shared σ) : Pool × Shared σ :=
  let (p,s) := p.sweep P s
  (p,s.notify p.number)

def close (P : Platform σ) (p : Pool) (s : Shared σ) : Pool × Shared σ :=
  if p.closed then (p,s) else { p with closed := true }.closeAll P s

/-- Changes data source or settings and closes all connections, or changes nothing if the new
settings are not valid. -/
def configure (P : Platform σ) (change : Change) (p : Pool) (s : Shared σ) :
    Except PoolError Unit × Pool × Shared σ :=
  let (source,settings) := change.apply (p.source,p.settings)
  match settings.validate with
  | .error fault => (.error (.ofMisconfiguration fault),p,s)
  | .ok () =>
      let (p,s) := { p with source, settings }.closeAll P s
      (.ok (),p,s)

def setTolerance (count : UInt32) (p : Pool) : Pool :=
  { p with settings := p.settings.apply (.tolerance count) }

def abandon (P : Platform σ) (p : Pool) (s : Shared σ) : Pool × Shared σ :=
  if p.tracked = [] then (p,s) else p.sweep P s

end Pool
end ConnectionPool
