import ConnectionPool.Text
/-! What can go wrong, as causes; the wording is in one function for each kind. -/
namespace ConnectionPool

structure Cause where
  message : String
  debug : String
  deriving DecidableEq, Repr

def Cause.ofText (text : String) : Cause := ⟨text,Text.quoted text⟩

inductive Misconfiguration where
  | notAPair (part : String)
  | notABoolean (key value : String)
  | notANumber (key value : String)
  | noSuchLevelCode (code : Int)
  | noSuchLevel (text : String)
  | noActiveConnections
  | blankPingQuery
  deriving DecidableEq, Repr

def Misconfiguration.message : Misconfiguration → String
  | notAPair part => "invalid key-value: " ++ part
  | notABoolean key value => "invalid boolean for " ++ key ++ ": " ++ value
  | notANumber key value => "invalid number for " ++ key ++ ": " ++ value
  | noSuchLevelCode code => "invalid isolation level code: " ++ toString code
  | noSuchLevel text => "invalid isolation level: " ++ text
  | noActiveConnections => "max_active_connections must be greater than zero"
  | blankPingQuery => "ping_query must not be empty when pinging is enabled"

inductive PoolError where
  | exhaustedRetries (attempts : UInt32)
  | waitInterrupted
  | invalidState (detail : String)
  | illegalState
  | poolClosed
  | connect (cause : Cause)
  | connection (cause : Cause)
  | config (detail : String)
  deriving DecidableEq, Repr

namespace PoolError

def ofMisconfiguration (fault : Misconfiguration) : PoolError := config fault.message

def kind : PoolError → String
  | exhaustedRetries _ => "ExhaustedRetries"
  | waitInterrupted => "WaitInterrupted"
  | invalidState _ => "InvalidState"
  | illegalState => "IllegalState"
  | poolClosed => "PoolClosed"
  | connect _ => "Connect"
  | connection _ => "Connection"
  | config _ => "Config"

def message : PoolError → String
  | exhaustedRetries attempts =>
      "could not get a good connection to the database after " ++ toString attempts.toNat ++
        " bad connections"
  | waitInterrupted => "interrupted while waiting for a connection"
  | invalidState detail => "unknown severe error condition: " ++ detail
  | illegalState =>
      "pooled connection is invalid: it was returned, reclaimed or closed by the pool"
  | poolClosed => "connection pool is closed"
  | connect cause => "failed to open connection: " ++ cause.message
  | connection cause => "connection error: " ++ cause.message
  | config detail => "configuration error: " ++ detail

def debug : PoolError → String
  | exhaustedRetries attempts =>
      "ExhaustedRetries \x7b attempts: " ++ toString attempts.toNat ++ " \x7d"
  | invalidState detail => "InvalidState(" ++ Text.quoted detail ++ ")"
  | connect cause => "Connect(" ++ cause.debug ++ ")"
  | connection cause => "Connection(" ++ cause.debug ++ ")"
  | config detail => "Config(" ++ Text.quoted detail ++ ")"
  | error => error.kind

def source? : PoolError → Option Cause
  | connect cause | connection cause => some cause
  | _ => none

def isTransient : PoolError → Bool
  | exhaustedRetries _ | waitInterrupted | connect _ => true
  | _ => false

def isIllegalState : PoolError → Bool
  | illegalState => true
  | _ => false

def toCause (error : PoolError) : Cause := ⟨error.message,error.debug⟩

end PoolError
end ConnectionPool
