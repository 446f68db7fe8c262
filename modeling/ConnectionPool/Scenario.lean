import ConnectionPool.World
import ConnectionPool.Pool.Report
import ConnectionPool.Memory
/-! Programs of single steps for pools over an outside in memory. Each step is carried out, then all
woken callers go on, and the report tells what came of it. -/
namespace ConnectionPool.Scenario
open Memory (Server Fault)

inductive PoolQuestion where
  | isClosed
  | status
  | metrics
  | metricsText
  | uptime
  | settings
  | source
  | debug
  | expectedType
  deriving DecidableEq, Repr

inductive HandleQuestion where
  | id
  | isValid
  | checkoutTime
  | metadata
  | same (other : Nat)
  | debug
  deriving DecidableEq, Repr

inductive Control where
  | kill
  | sever
  | failRollback (on : Bool)
  | failClose (on : Bool)
  | faults (faults : List Fault)
  | state
  | brief
  deriving DecidableEq, Repr

inductive Step where
  | create (source : DataSource) (settings : Settings)
  | createFrom (properties : String)
  | build (changes : List Change)
  | get (door : Nat)
  | share (door : Nat)
  | leave (door : Nat)
  | closeAll (door : Nat)
  | close (door : Nat)
  | askPool (door : Nat) (question : PoolQuestion)
  | change (door : Nat) (change : Change)
  | advance (time : Nat)
  | server (refuse broken : Option Bool) (faults : Option (List Fault))
  | control (conn : Nat) (control : Control)
  | drop (slot : Nat)
  | release (slot : Nat)
  | isClosed (slot : Nat)
  | askHandle (slot : Nat) (question : HandleQuestion)
  | forward (slot : Nat) (request : Request)
  | raw (slot : Nat) (request : Request)
  deriving DecidableEq, Repr

inductive Answer where
  | done
  | flag (value : Bool)
  | number (value : Nat)
  | text (value : String)
  | time (nanos : Nat)
  | door (door : Nat)
  | status (status : Status)
  | metrics (metrics : Metrics)
  | settings (settings : Settings)
  | source (source : DataSource)
  | type (code : TypeCode)
  | pending (ticket : Nat)
  | finished (answer : World.Finished)
  | metadata (id age idleTime checkoutTime : Nat) (code : Option TypeCode)
  | same (equal : Bool) (order : Ordering)
  | marks (valid released : Bool)
  | server (opened openCount : Nat)
  | connection (number : Nat) (connection : Memory.Connection)
  | brief (connection : Memory.Connection)
  | error (error : PoolError)
  | driverError (cause : Cause)
  | misuse (message : String)

abbrev World := ConnectionPool.World Server

def withDoor (door : Nat) (w : World) (act : Pool → Answer × World) : Answer × World :=
  match w.doorPool? door with
  | some p => act p
  | none => (.misuse "no pool behind this door",w)

def withHandle (slot : Nat) (w : World) (act : Handle → Answer × World) : Answer × World :=
  match w.handle? slot with
  | some h => act h
  | none => (.misuse "no handle in this slot",w)

def answerPool (now : Nat) (p : Pool) : PoolQuestion → Answer
  | .isClosed => .flag p.closed
  | .status => .status p.status
  | .metrics => .metrics p.metrics
  | .metricsText => .text p.metrics.text
  | .uptime => .time (p.uptime now)
  | .settings => .settings p.settings
  | .source => .source p.source
  | .debug => .text p.dump.plain
  | .expectedType => .type p.expected

def answerHandle (w : World) (h : Handle) : HandleQuestion → Answer
  | .id => .number h.wrapper.id
  | .isValid => .flag (w.shared.IsLive h.wrapper)
  | .checkoutTime => .time (h.wrapper.heldFor w.shared.now)
  | .metadata =>
      .metadata h.wrapper.id (h.wrapper.age w.shared.now) (h.wrapper.unusedFor w.shared.now)
        (h.wrapper.heldFor w.shared.now) h.wrapper.typeCode
  | .same other =>
      match w.handle? other with
      | some o => .same (World.sameConnection h o) (compare h.wrapper.id o.wrapper.id)
      | none => .misuse "no handle in this slot"
  | .debug => .marks (w.shared.IsLive h.wrapper) h.released

def answerControl (conn : Nat) (c : Memory.Connection) (w : World) : Control → Answer × World
  | .kill => (.done,w.tamper (·.tamper (.kill conn)))
  | .sever => (.done,w.tamper (·.tamper (.sever conn)))
  | .failRollback on => (.done,w.tamper (·.tamper (.failRollback conn on)))
  | .failClose on => (.done,w.tamper (·.tamper (.failClose conn on)))
  | .faults faults => (.done,w.tamper (·.tamper (.faults conn faults)))
  | .state => (.connection conn c,w)
  | .brief => (.brief c,w)

def ofCreated : Except PoolError Nat × World → Answer × World
  | (.ok door,w) => (.door door,w)
  | (.error error,w) => (.error error,w)

def ofReply : (request : Request) → request.Reply → Answer
  | .isClosed,value => .flag value
  | .autoCommit,value => .flag value
  | .execute _,rows => .number rows
  | .isolation,level => .text level.name
  | .close,_ => .done
  | .setAutoCommit _,_ => .done
  | .commit,_ => .done
  | .rollback,_ => .done
  | .setIsolation _,_ => .done

def ofOutcome (ticket : Nat) (outcome : Outcome) : Answer :=
  match World.finished? ticket outcome with
  | some answer => .finished answer
  | none => .pending ticket

def HasPending (w : World) (door : Nat) : Prop :=
  door ∈ w.shared.unfinished.map (·.seeker.door)

instance (w : World) (door : Nat) : Decidable (HasPending w door) := by
  unfold HasPending; infer_instance

def ofConsulted : Except PoolError Unit × World → Answer × World
  | (.ok (),w) => (.done,w)
  | (.error error,w) => (.error error,w)

def changePool (door : Nat) (change : Change) (w : World) : Answer × World :=
  withDoor door w fun p =>
    match change with
    | .settings (.tolerance count) => (.done,w.visit p fun p s => (p.setTolerance count,s))
    | change => ofConsulted (w.consult p (Pool.configure Memory.platform change))

def act (w : World) : Step → Answer × World
  | .create source settings => ofCreated (w.create Memory.platform source settings)
  | .createFrom properties => ofCreated (w.createFrom Memory.platform properties)
  | .build changes =>
      let (source,settings) := Change.applyAll changes ({},{})
      ofCreated (w.create Memory.platform source settings)
  | .get door =>
      withDoor door w fun p =>
        let (ticket,outcome,w) := w.get Memory.platform door p
        (ofOutcome ticket outcome,w)
  | .share door =>
      withDoor door w fun p =>
        let (door,w) := w.share p
        (.door door,w)
  | .leave door =>
      withDoor door w fun _ =>
        if HasPending w door then (.misuse "pool has pending gets",w)
        else (.done,w.leave Memory.platform door)
  | .closeAll door => withDoor door w fun p => (.done,w.visit p (Pool.closeAll Memory.platform))
  | .close door => withDoor door w fun p => (.done,w.visit p (Pool.close Memory.platform))
  | .askPool door question => withDoor door w fun p => (answerPool w.shared.now p question,w)
  | .change door change => changePool door change w
  | .advance time => (.done,w.advance time)
  | .server refuse broken faults =>
      let w := w.tamper (·.tamper (.switch refuse broken faults))
      (.server w.shared.outside.connections.length w.shared.outside.openCount,w)
  | .control conn control =>
      match w.shared.outside.connections[conn]? with
      | some c => answerControl conn c w control
      | none => (.text "no connection",w)
  | .drop slot => withHandle slot w fun h => (.done,w.drop Memory.platform slot h)
  | .release slot => withHandle slot w fun h => (.done,w.release Memory.platform slot h)
  | .isClosed slot =>
      withHandle slot w fun h =>
        match w.isClosed Memory.platform h with
        | (.ok value,w) => (.flag value,w)
        | (.error error,w) => (.error error,w)
  | .askHandle slot question => withHandle slot w fun h => (answerHandle w h question,w)
  | .forward slot request =>
      withHandle slot w fun h =>
        match w.forward Memory.platform h request with
        | (.ok reply,w) => (ofReply request reply,w)
        | (.error error,w) => (.error error,w)
  | .raw slot request =>
      withHandle slot w fun h =>
        match w.raw Memory.platform h request with
        | (.ok (.ok reply),w) => (ofReply request reply,w)
        | (.ok (.error cause),w) => (.driverError cause,w)
        | (.error error,w) => (.error error,w)

structure Report where
  answer : Answer
  calls : List String
  fill : List (Option (Nat × Nat))
  resumed : List World.Finished

def callsSince (before after : World) : List String :=
  records (after.shared.journal.take (after.shared.journal.length - before.shared.journal.length))

def fill (w : World) : List (Option (Nat × Nat)) :=
  (List.range w.doors.length).map fun door =>
    (w.doorPool? door).map fun p => (p.idle.length,p.active.length)

def report (w : World) (step : Step) : Report × World :=
  let (answer,w') := act w step
  let (resumed,w') := w'.settle Memory.platform
  ({ answer, calls := callsSince w w', fill := fill w', resumed },w')

def reports : List Step → World → List Report × World
  | [],w => ([],w)
  | step :: steps,w =>
      let (r,w) := report w step
      let (rs,w) := reports steps w
      (r :: rs,w)

structure Closing where
  metrics : List (Option Metrics)
  interrupted : List World.Finished
  calls : List String
  connections : List Memory.Connection
  openCount : Nat

def interrupt : List Nat → World → List World.Finished × World
  | [],w => ([],w)
  | door :: doors,w =>
      if HasPending w door then
        let (_,w) := act w (.close door)
        let (answers,w) := w.settle Memory.platform
        let (more,w) := interrupt doors w
        (answers ++ more,w)
      else interrupt doors w

def letGoOfAll (w : World) : World :=
  let settled (w : World) (step : Step) : World := ((act w step).2.settle Memory.platform).2
  let w := (List.range w.slots.length).foldl (fun w slot => settled w (.drop slot)) w
  (List.range w.doors.length).foldl (fun w door => settled w (.leave door)) w

def closing (w : World) : Closing :=
  let metrics := (List.range w.doors.length).map fun door => (w.doorPool? door).map Pool.metrics
  let (interrupted,w') := interrupt (List.range w.doors.length) w
  let w' := letGoOfAll w'
  { metrics, interrupted, calls := callsSince w w'
    connections := w'.shared.outside.connections
    openCount := w'.shared.outside.openCount }

def run (manualCommit : Bool) (steps : List Step) : List Report × Closing :=
  let (rs,w) := reports steps (.initial { autoCommit := !manualCommit })
  (rs,closing w)

end ConnectionPool.Scenario
