import ConnectionPool.Shared
import ConnectionPool.Settings
/-! What a pool does to one connection: set it up, clear its transaction, see whether it works, get
rid of it. -/
namespace ConnectionPool

inductive Health where
  | healthy
  /-- It says that it is closed, or cannot say. -/
  | closed
  /-- The ping query failed, and the connection has been closed. -/
  | pingFailed (reason : String)
  deriving DecidableEq, Repr

namespace Health

def isHealthy : Health → Bool
  | healthy => true
  | _ => false

def debug : Health → String
  | healthy => "Healthy"
  | closed => "Closed"
  | pingFailed reason => "PingFailed(" ++ Text.quoted reason ++ ")"

end Health

namespace Shared
variable {σ : Type}

def rollbackUnlessAutoCommit (P : Platform σ) (caller : Caller) (conn : Nat) (s : Shared σ) :
    Except Cause Unit × Shared σ :=
  match s.ask P caller conn .autoCommit with
  | (.error cause,s) => (.error cause,s)
  | (.ok true,s) => (.ok (),s)
  | (.ok false,s) => s.ask P caller conn .rollback

def ping (P : Platform σ) (caller : Caller) (conn : Nat) (sql : String) (s : Shared σ) :
    Except Cause Unit × Shared σ :=
  match s.ask P caller conn (.execute sql) with
  | (.error cause,s) => (.error cause,s)
  | (.ok _,s) => s.rollbackUnlessAutoCommit P caller conn

/-- A connection must say that it is open and, if it has been unused long enough, pass the ping;
one that fails the ping is closed at once. -/
def checkHealth (P : Platform σ) (caller : Caller) (conn unusedFor : Nat) (settings : Settings)
    (s : Shared σ) : Health × Shared σ :=
  match s.ask P caller conn .isClosed with
  | (.error _,s) => (.closed,s)
  | (.ok true,s) => (.closed,s)
  | (.ok false,s) =>
      if settings.pingEnabled ∧ settings.pingAfter ≤ unusedFor then
        match s.ping P caller conn settings.pingQuery with
        | (.ok (),s) => (.healthy,s)
        | (.error cause,s) => (.pingFailed cause.message,(s.ask P caller conn .close).2)
      else (.healthy,s)

def setUpAutoCommit (P : Platform σ) (caller : Caller) (conn : Nat) (on : Option Bool)
    (s : Shared σ) : Except Cause Unit × Shared σ :=
  match on with
  | none => (.ok (),s)
  | some on =>
      match s.ask P caller conn .autoCommit with
      | (.error cause,s) => (.error cause,s)
      | (.ok current,s) =>
          if current = on then (.ok (),s) else s.ask P caller conn (.setAutoCommit on)

def setUpIsolation (P : Platform σ) (caller : Caller) (conn : Nat) (level : Option Isolation)
    (s : Shared σ) : Except Cause Unit × Shared σ :=
  match level with
  | none => (.ok (),s)
  | some level => s.ask P caller conn (.setIsolation level)

def setUp (P : Platform σ) (caller : Caller) (conn : Nat) (source : DataSource) (s : Shared σ) :
    Except Cause Unit × Shared σ :=
  match s.setUpAutoCommit P caller conn source.autoCommit with
  | (.error cause,s) => (.error cause,s)
  | (.ok (),s) => s.setUpIsolation P caller conn source.isolation

/-- Rolls back and closes, unless the connection says that it is closed; failures do not matter. -/
def dispose (P : Platform σ) (pool conn : Nat) (s : Shared σ) : Shared σ :=
  match s.ask P (.pool pool) conn .isClosed with
  | (.ok true,s) => s.note (.discarded pool conn)
  | (_,s) =>
      let (_,s) := s.rollbackUnlessAutoCommit P (.pool pool) conn
      let (_,s) := s.ask P (.pool pool) conn .close
      s.note (.discarded pool conn)

end Shared
end ConnectionPool
