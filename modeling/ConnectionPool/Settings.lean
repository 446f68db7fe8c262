import ConnectionPool.DataSource
/-! How a pool works: its limits, its times and whether it tests connections with a query. Instants
and lengths of time are natural numbers of nanoseconds; an instant counts from the clock's origin. Both
the settings and the data source of a pool can be built, and later changed, one value at a time. -/
namespace ConnectionPool

namespace Nanos

def ofMillis (n : Nat) : Nat := n * 1000000
def ofSeconds (n : Nat) : Nat := n * 1000000000
def ofParts (seconds nanos : Nat) : Nat := seconds * 1000000000 + nanos

def millis (d : Nat) : Nat := d / 1000000
def seconds (d : Nat) : Nat := d / 1000000000
def subsecond (d : Nat) : Nat := d % 1000000000

theorem millisRoundTrip (n : Nat) : millis (ofMillis n) = n := by
  simp only [millis,ofMillis]
  omega

def dropTrailingZeros (cs : List Char) : List Char :=
  (cs.reverse.dropWhile (· == '0')).reverse

def decimal (n unit : Nat) : String :=
  let whole := toString (n / unit)
  match dropTrailingZeros ((Nat.toDigits 10 (unit + n % unit)).drop 1) with
  | [] => whole
  | digits => whole ++ "." ++ String.ofList digits

/-- The text of a length is exact: it takes the largest unit that is not above it and drops trailing
zeros. -/
def text (d : Nat) : String :=
  if 1000000000 ≤ d then decimal d 1000000000 ++ "s"
  else if 1000000 ≤ d then decimal d 1000000 ++ "ms"
  else if 1000 ≤ d then decimal d 1000 ++ "µs"
  else decimal d 1 ++ "ns"

end Nanos

structure Settings where
  maxActive : UInt32 := 10
  maxIdle : UInt32 := 5
  /-- A holder keeps a connection this long before another caller may take it. -/
  maxCheckoutTime : Nat := Nanos.ofSeconds 20
  /-- One wait lasts at most this long; zero waits for a notice alone. -/
  timeToWait : Nat := Nanos.ofSeconds 20
  /-- Bad connections one caller puts up with, on top of the idle ones. -/
  tolerance : UInt32 := 3
  pingEnabled : Bool := false
  pingQuery : String := "NO PING QUERY SET"
  pingAfter : Nat := 0
  deriving DecidableEq, Repr

namespace Settings

def validate (settings : Settings) : Except Misconfiguration Unit :=
  if settings.maxActive = 0 then .error .noActiveConnections
  else if settings.pingEnabled ∧ Text.trim settings.pingQuery.toList = [] then .error .blankPingQuery
  else .ok ()

def Valid (settings : Settings) : Prop :=
  settings.maxActive ≠ 0 ∧ (settings.pingEnabled → Text.trim settings.pingQuery.toList ≠ [])

instance (settings : Settings) : Decidable settings.Valid := by unfold Valid; infer_instance

theorem validateOk (settings : Settings) : settings.validate = .ok () ↔ settings.Valid := by
  simp only [validate,Valid]
  split
  · simp_all
  · split <;> simp_all

/-- Bad connections that one caller may meet; the sum stops at the largest 32-bit number. -/
def badConnectionLimit (settings : Settings) : UInt32 :=
  UInt32.ofNat (min (settings.maxIdle.toNat + settings.tolerance.toNat) 0xffffffff)

theorem badConnectionLimitNat (settings : Settings) :
    settings.badConnectionLimit.toNat =
      min (settings.maxIdle.toNat + settings.tolerance.toNat) 0xffffffff := by
  simp only [badConnectionLimit,UInt32.toNat_ofNat']
  omega

inductive Change where
  | maxActive (count : UInt32)
  | maxIdle (count : UInt32)
  | maxCheckoutTime (time : Nat)
  | timeToWait (time : Nat)
  | tolerance (count : UInt32)
  | pingEnabled (on : Bool)
  | pingQuery (sql : String)
  | pingAfter (time : Nat)
  | replace (settings : Settings)
  deriving DecidableEq, Repr

def apply (settings : Settings) : Change → Settings
  | .maxActive count => { settings with maxActive := count }
  | .maxIdle count => { settings with maxIdle := count }
  | .maxCheckoutTime time => { settings with maxCheckoutTime := time }
  | .timeToWait time => { settings with timeToWait := time }
  | .tolerance count => { settings with tolerance := count }
  | .pingEnabled on => { settings with pingEnabled := on }
  | .pingQuery sql => { settings with pingQuery := sql }
  | .pingAfter time => { settings with pingAfter := time }
  | .replace other => other

def dump (settings : Settings) : Dump :=
  .record "PoolConfig"
    [("max_active_connections",.atom (toString settings.maxActive.toNat)),
     ("max_idle_connections",.atom (toString settings.maxIdle.toNat)),
     ("max_checkout_time",.atom (Nanos.text settings.maxCheckoutTime)),
     ("time_to_wait",.atom (Nanos.text settings.timeToWait)),
     ("max_local_bad_connection_tolerance",.atom (toString settings.tolerance.toNat)),
     ("ping_enabled",.flag settings.pingEnabled),
     ("ping_query",.atom (Text.quoted settings.pingQuery)),
     ("ping_connections_not_used_for",.atom (Nanos.text settings.pingAfter))]

end Settings

inductive Change where
  | source (change : DataSource.Change)
  | settings (change : Settings.Change)
  deriving DecidableEq, Repr

namespace Change

def apply : Change → DataSource × Settings → DataSource × Settings
  | source change, (s,t) => (s.apply change,t)
  | settings change, (s,t) => (s,t.apply change)

def applyAll (changes : List Change) (start : DataSource × Settings) : DataSource × Settings :=
  changes.foldl (fun state change => change.apply state) start

end Change

def DataSource.build (changes : List DataSource.Change) : DataSource :=
  changes.foldl DataSource.apply {}

def Settings.build (changes : List Settings.Change) : Settings :=
  changes.foldl Settings.apply {}

end ConnectionPool
