import ConnectionPool.DataSource
/-! What pools need from outside: somebody who opens connections and answers calls on them. Nothing
is assumed about the answers; they may hang on all that happened before. -/
namespace ConnectionPool

inductive Request where
  | isClosed
  | close
  | autoCommit
  | setAutoCommit (on : Bool)
  | commit
  | rollback
  | execute (sql : String)
  | isolation
  | setIsolation (level : Isolation)
  deriving DecidableEq, Repr

namespace Request

abbrev Reply : Request → Type
  | isClosed => Bool
  | autoCommit => Bool
  | execute _ => Nat
  | isolation => Isolation
  | _ => Unit

def method : Request → String
  | isClosed => "is_closed"
  | close => "close"
  | autoCommit => "auto_commit"
  | setAutoCommit _ => "set_auto_commit"
  | commit => "commit"
  | rollback => "rollback"
  | execute _ => "execute"
  | isolation => "transaction_isolation"
  | setIsolation _ => "set_transaction_isolation"

def argument : Request → String
  | setAutoCommit on => if on then "true" else "false"
  | execute sql => sql
  | setIsolation level => level.name
  | _ => ""

end Request

/-- Connections are numbered in the order they are opened. -/
structure Platform (σ : Type) where
  connect : (conn : Nat) → DataSource → σ → Except Cause Unit × σ
  answer : (conn : Nat) → (request : Request) → σ → Except Cause request.Reply × σ
  typeCode : DataSource → TypeCode

end ConnectionPool
