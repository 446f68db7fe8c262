import ConnectionPool.Platform
/-! An outside that lives in memory: connections that keep their modes and count what is done to
them, switches that make them fail, and faults that strike single calls. -/
namespace ConnectionPool.Memory

/-- Calls of one method: some go through, then some fail, then all go through. -/
structure Fault where
  method : String
  skip : Nat
  /-- How many calls fail; all of them if not set. -/
  times : Option Nat
  deriving DecidableEq, Repr

structure Connection where
  source : DataSource
  isOpen : Bool := true
  autoCommit : Bool := true
  isolation : Isolation := default
  broken : Bool := false
  failRollback : Bool := false
  failClose : Bool := false
  statements : Nat := 0
  rollbacks : Nat := 0
  commits : Nat := 0
  closeCalls : Nat := 0
  faults : List Fault := []
  deriving DecidableEq, Repr

structure Server where
  connections : List Connection := []
  refusing : Bool := false
  openBroken : Bool := false
  autoCommit : Bool := true
  faults : List Fault := []
  deriving DecidableEq, Repr

def strike (method : String) : List Fault → Bool × List Fault
  | [] => (false,[])
  | f :: fs =>
      if f.method = method then
        match f.skip,f.times with
        | skip + 1,_ => (false,{ f with skip } :: fs)
        | 0,none => (true,f :: fs)
        | 0,some 0 => (false,f :: fs)
        | 0,some (n + 1) => (true,{ f with times := some n } :: fs)
      else
        let (struck,fs) := strike method fs
        (struck,f :: fs)

def closedError : Cause := .ofText "connection is closed"

namespace Connection

/-- Only closing and asking whether it is closed work on a closed connection. -/
def whenOpen (c : Connection) (act : Except Cause α × Connection) : Except Cause α × Connection :=
  if c.isOpen then act else (.error closedError,c)

def answer (c : Connection) : (request : Request) → Except Cause request.Reply × Connection
  | .isClosed => (.ok (!c.isOpen),c)
  | .close =>
      let c := { c with closeCalls := c.closeCalls + 1, isOpen := false }
      if c.failClose then (.error (.ofText "close failed"),c) else (.ok (),c)
  | .autoCommit => c.whenOpen (.ok c.autoCommit,c)
  | .setAutoCommit on => c.whenOpen (.ok (),{ c with autoCommit := on })
  | .commit => c.whenOpen (.ok (),{ c with commits := c.commits + 1 })
  | .rollback =>
      c.whenOpen <|
        if c.failRollback then (.error (.ofText "rollback failed"),c)
        else (.ok (),{ c with rollbacks := c.rollbacks + 1 })
  | .execute sql =>
      c.whenOpen <|
        let c := { c with statements := c.statements + 1 }
        if c.broken then (.error (.ofText ("statement failed: " ++ sql)),c) else (.ok 0,c)
  | .isolation => c.whenOpen (.ok c.isolation,c)
  | .setIsolation level => c.whenOpen (.ok (),{ c with isolation := level })

def struckError (request : Request) : Cause := .ofText ("injected fault: " ++ request.method)

/-- A call that is struck does not reach the connection. -/
def answerOrFault (c : Connection) (request : Request) :
    Except Cause request.Reply × Connection :=
  let (struck,faults) := strike request.method c.faults
  let c := { c with faults }
  if struck then (.error (struckError request),c) else c.answer request

end Connection

namespace Server

def connect (_conn : Nat) (source : DataSource) (server : Server) :
    Except Cause Unit × Server :=
  if server.refusing then (.error (.ofText "connection refused"),server)
  else
    let c : Connection :=
      { source, autoCommit := server.autoCommit, broken := server.openBroken,
        faults := server.faults }
    (.ok (),{ server with connections := server.connections ++ [c] })

def answer (conn : Nat) (request : Request) (server : Server) :
    Except Cause request.Reply × Server :=
  match server.connections[conn]? with
  | some c =>
      let (reply,c) := c.answerOrFault request
      (reply,{ server with connections := server.connections.set conn c })
  | none => (.error closedError,server)

def alter (conn : Nat) (change : Connection → Connection) (server : Server) : Server :=
  { server with connections := server.connections.modify conn change }

/-- What can be done to the server behind the pools' backs: to one connection, or to the switches that
new ones start with. Nothing of it opens a connection. -/
inductive Tampering where
  | kill (conn : Nat)
  | sever (conn : Nat)
  | failRollback (conn : Nat) (on : Bool)
  | failClose (conn : Nat) (on : Bool)
  | faults (conn : Nat) (faults : List Fault)
  | switch (refuse broken : Option Bool) (faults : Option (List Fault))
  deriving DecidableEq, Repr

def tamper (server : Server) : Tampering → Server
  | .kill conn => server.alter conn fun c => { c with broken := true }
  | .sever conn => server.alter conn fun c => { c with isOpen := false }
  | .failRollback conn on => server.alter conn fun c => { c with failRollback := on }
  | .failClose conn on => server.alter conn fun c => { c with failClose := on }
  | .faults conn faults => server.alter conn fun c => { c with faults }
  | .switch refuse broken faults =>
      { server with
        refusing := refuse.getD server.refusing
        openBroken := broken.getD server.openBroken
        faults := faults.getD server.faults }

def openCount (server : Server) : Nat := server.connections.countP (·.isOpen)

end Server

def platform : Platform Server := ⟨Server.connect,Server.answer,DataSource.typeCode⟩

end ConnectionPool.Memory
