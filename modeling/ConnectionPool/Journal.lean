import ConnectionPool.Platform
/-! What happens to connections, entry by entry, newest first. Only calls and openings have a text of
their own. -/
namespace ConnectionPool

/-- One lending identity of a connection. A connection gets a new wrapper whenever it changes hands,
so a key that was given up never comes back to life. -/
structure Wrapper where
  key : Nat
  conn : Nat
  id : Nat
  createdAt : Nat
  lastUsedAt : Nat
  checkoutAt : Nat
  typeCode : Option TypeCode
  deriving DecidableEq, Repr

namespace Wrapper

def fresh (key conn id now : Nat) : Wrapper := ⟨key,conn,id,now,now,now,none⟩

def rewrapped (w : Wrapper) (key lastUsedAt : Nat) : Wrapper :=
  { fresh key w.conn w.id w.createdAt with lastUsedAt }

def stamped (w : Wrapper) (code : TypeCode) (now : Nat) : Wrapper :=
  { w with typeCode := some code, checkoutAt := now, lastUsedAt := now }

def heldFor (w : Wrapper) (now : Nat) : Nat := now - w.checkoutAt

def unusedFor (w : Wrapper) (now : Nat) : Nat := now - w.lastUsedAt

def age (w : Wrapper) (now : Nat) : Nat := now - w.createdAt

end Wrapper

inductive Caller where
  | pool (pool : Nat)
  | holder (key : Nat)
  deriving DecidableEq, Repr

inductive Event where
  | refused (pool : Nat) (cause : Cause)
  | opened (pool conn id : Nat) (source : DataSource)
  | call (caller : Caller) (conn : Nat) (request : Request) (reply : Except Cause request.Reply)
  /-- A connection has been opened and set up. -/
  | created (pool conn : Nat)
  | rejected (pool : Nat) (wrapper : Wrapper)
  | discarded (pool conn : Nat)
  | reclaimed (pool : Nat) (wrapper : Wrapper) (held : Nat)
  | blocked (pool ticket : Nat)
  | resumed (pool ticket : Nat) (waited : Nat)
  | granted (pool ticket : Nat) (wrapper : Wrapper) (took : Nat)
  | denied (pool ticket : Nat) (error : PoolError)
  /-- A holder gave back a wrapper that the pool no longer counted as lent. -/
  | staleReturn (pool : Nat) (wrapper : Wrapper)
  | returned (pool : Nat) (wrapper : Wrapper) (healthy : Bool) (held : Nat)
  | swept (pool lent kept : Nat)
  | notified (pool : Nat)

namespace Event

def record? : Event → Option String
  | refused _ _ => some "connect !"
  | opened _ conn _ _ => some (toString conn ++ " connect")
  | call _ conn request reply =>
      some (toString conn ++ " " ++ request.method ++
        (if request.argument = "" then "" else " " ++ request.argument) ++
        (match reply with | .ok _ => "" | .error _ => " !"))
  | _ => none

end Event

def records (journal : List Event) : List String := journal.reverse.filterMap Event.record?

end ConnectionPool
