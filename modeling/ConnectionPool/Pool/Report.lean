import ConnectionPool.Pool
/-! What a pool tells about itself: how full it is, its averages, and its debug layout. -/
namespace ConnectionPool

def cappedCount (n : Nat) : UInt32 := UInt32.ofNat (min n 0xffffffff)

structure Status where
  idle : UInt32
  active : UInt32
  maxActive : UInt32
  maxIdle : UInt32
  deriving DecidableEq, Repr

namespace Status

def total (status : Status) : UInt32 := status.idle + status.active

def utilization (status : Status) : Float :=
  if status.maxActive = 0 then 0
  else status.active.toFloat / status.maxActive.toFloat * 100

def isAtCapacity (status : Status) : Bool := status.maxActive ≤ status.active

def dump (status : Status) : Dump :=
  .record "PoolStatus"
    [("idle",.atom (toString status.idle.toNat)),("active",.atom (toString status.active.toNat)),
     ("max_active",.atom (toString status.maxActive.toNat)),
     ("max_idle",.atom (toString status.maxIdle.toNat))]

end Status

structure Metrics where
  requests : Nat
  averageRequestTime : Nat
  hadToWait : Nat
  averageWaitTime : Nat
  averageCheckoutTime : Nat
  claimedOverdue : Nat
  averageOverdueTime : Nat
  bad : Nat
  created : Nat
  closed : Nat
  idle : UInt32
  active : UInt32
  deriving DecidableEq, Repr

def average (total count : Nat) : Nat :=
  if count = 0 then 0 else min 0xffffffffffffffff (total / count)

namespace Metrics

def lines (m : Metrics) : List String :=
  ["===CONFIGURATION==============================================",
   " activeConnections          " ++ toString m.active.toNat,
   " idleConnections            " ++ toString m.idle.toNat,
   "===POOL STATISTICS============================================",
   " requestCount               " ++ toString m.requests,
   " averageRequestTime         " ++ Nanos.text m.averageRequestTime,
   " averageCheckoutTime        " ++ Nanos.text m.averageCheckoutTime,
   " claimedOverdue             " ++ toString m.claimedOverdue,
   " averageOverdueCheckoutTime " ++ Nanos.text m.averageOverdueTime,
   " hadToWait                  " ++ toString m.hadToWait,
   " averageWaitTime            " ++ Nanos.text m.averageWaitTime,
   " badConnectionCount         " ++ toString m.bad,
   " connectionsCreated         " ++ toString m.created,
   " connectionsClosed          " ++ toString m.closed]

def text (m : Metrics) : String := "\n".intercalate m.lines

end Metrics

namespace Pool

def status (p : Pool) : Status :=
  ⟨cappedCount p.idle.length,cappedCount p.active.length,p.settings.maxActive,p.settings.maxIdle⟩

def metrics (p : Pool) : Metrics :=
  { requests := p.counters.requests
    averageRequestTime := average p.counters.requestTime p.counters.requests
    hadToWait := p.counters.hadToWait
    averageWaitTime := average p.counters.waitTime p.counters.hadToWait
    averageCheckoutTime := average p.counters.checkoutTime p.counters.requests
    claimedOverdue := p.counters.claimedOverdue
    averageOverdueTime := average p.counters.overdueTime p.counters.claimedOverdue
    bad := p.counters.bad
    created := p.counters.created
    closed := p.counters.closed
    idle := cappedCount p.idle.length
    active := cappedCount p.active.length }

def uptime (p : Pool) (now : Nat) : Nat := now - p.createdAt

def dump (p : Pool) : Dump :=
  .record "Pool"
    [("data_source",p.source.dump),("config",p.settings.dump),("status",p.status.dump),
     ("closed",.flag p.closed)]

end Pool
end ConnectionPool
