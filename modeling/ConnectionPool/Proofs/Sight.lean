import ConnectionPool.Pool.Report
import ConnectionPool.Proofs.Blind
import ConnectionPool.World
/-! What those who use pools get to see: the answer to each move, and afterwards whatever can be
asked of pools and handles and all that has been called and written. Only the texts of passwords and
the type codes are left out of it. -/
namespace ConnectionPool

def World.Finished.veil (answer : World.Finished) : World.Finished :=
  { answer with result := answer.result.map Wrapper.veil }

inductive Answer where
  | absent
  | done
  | door (result : Except PoolError Nat)
  | stay (ticket : Nat) (outcome : Outcome)
  | resumed (answer : Option World.Finished)
  | changed (result : Except PoolError Unit)
  | replied (request : Request) (result : Except PoolError request.Reply)
  | reached (request : Request) (result : Except PoolError (Except Cause request.Reply))
  | closed (result : Except PoolError Bool)

namespace World
variable {σ : Type}

def askDoor (w : World σ) (door : Nat) (act : Pool → Answer × World σ) : Answer × World σ :=
  match w.doorPool? door with
  | some p => act p
  | none => (.absent,w)

def askSlot (w : World σ) (slot : Nat) (act : Handle → Answer × World σ) : Answer × World σ :=
  match w.handle? slot with
  | some h => act h
  | none => (.absent,w)

def answer (P : Platform σ) (m : Move σ) (w : World σ) : Answer × World σ :=
  match m with
  | .create source settings => (w.create P source settings).map .door id
  | .createFrom text => (w.createFrom P text).map .door id
  | .share door => w.askDoor door fun p => (w.share p).map (fun door => .door (.ok door)) id
  | .leave door => w.askDoor door fun _ => (.done,w.leave P door)
  | .get door =>
      w.askDoor door fun p =>
        let (ticket,outcome,w) := w.get P door p
        (.stay ticket outcome.veil,w)
  | .resume index => (w.resumeAt P index).map (fun told => .resumed (told.map Finished.veil)) id
  | .closeAll door => w.askDoor door fun p => (.done,w.visit p (Pool.closeAll P))
  | .close door => w.askDoor door fun p => (.done,w.visit p (Pool.close P))
  | .configure door change =>
      w.askDoor door fun p => (w.consult p (Pool.configure P change)).map .changed id
  | .setTolerance door count =>
      w.askDoor door fun p => (.done,w.visit p fun p s => (p.setTolerance count,s))
  | .release slot => w.askSlot slot fun h => (.done,w.release P slot h)
  | .drop slot => w.askSlot slot fun h => (.done,w.drop P slot h)
  | .forward slot request =>
      w.askSlot slot fun h => (w.forward P h request).map (.replied request) id
  | .raw slot request => w.askSlot slot fun h => (w.raw P h request).map (.reached request) id
  | .isClosed slot => w.askSlot slot fun h => (w.isClosed P h).map .closed id
  | .advance time => (.done,w.advance time)
  | .tamper change => (.done,w.tamper change)

theorem answerMoves (P : Platform σ) (m : Move σ) (w : World σ) :
    (w.answer P m).2 = w.move P m := by
  have doors (door : Nat) (act : Pool → Answer × World σ) :
      (w.askDoor door act).2 = w.atDoor door fun p => (act p).2 := by
    unfold askDoor atDoor
    cases w.doorPool? door <;> rfl
  have slots (slot : Nat) (act : Handle → Answer × World σ) :
      (w.askSlot slot act).2 = w.atSlot slot fun h => (act h).2 := by
    unfold askSlot atSlot
    cases w.handle? slot <;> rfl
  cases m with
  | create | createFrom | resume | advance | tamper => rfl
  | leave door =>
    rw [answer,doors,move,atDoor,leave]
    cases w.doorPool? door <;> rfl
  | share | get | closeAll | close | configure | setTolerance => exact doors ..
  | release | drop | forward | raw | isClosed => exact slots ..

end World

structure Pool.Sight where
  closed : Bool
  status : Status
  metrics : Metrics
  metricsText : String
  uptime : Nat
  settings : Settings
  source : DataSource
  /-- The debug texts of the data source and of the pool, on one line and over several. -/
  texts : List String
  deriving DecidableEq

def Pool.sight (now : Nat) (p : Pool) : Sight where
  closed := p.closed
  status := p.status
  metrics := p.metrics
  metricsText := p.metrics.text
  uptime := p.uptime now
  settings := p.settings
  source := p.source.veil
  texts := [p.source.dump.plain,p.source.dump.pretty 0,p.dump.plain,p.dump.pretty 0]

structure Handle.Sight where
  id : Nat
  conn : Nat
  valid : Bool
  released : Bool
  age : Nat
  unusedFor : Nat
  heldFor : Nat
  stamped : Bool
  deriving DecidableEq

@[ext] structure World.Sight where
  now : Nat
  pools : List (Option Pool.Sight)
  handles : List (Option Handle.Sight)
  asleep : List Wait
  woken : List Wait
  calls : List String
  events : List Event

namespace World
variable {σ : Type}

def sightOf (w : World σ) (h : Handle) : Handle.Sight where
  id := h.wrapper.id
  conn := h.wrapper.conn
  valid := decide (w.shared.IsLive h.wrapper)
  released := h.released
  age := h.wrapper.age w.shared.now
  unusedFor := h.wrapper.unusedFor w.shared.now
  heldFor := h.wrapper.heldFor w.shared.now
  stamped := h.wrapper.typeCode.isSome

def sight (w : World σ) : Sight where
  now := w.shared.now
  pools := (List.range w.doors.length).map fun door =>
    (w.doorPool? door).map (Pool.sight w.shared.now)
  handles := (List.range w.slots.length).map fun slot => (w.handle? slot).map w.sightOf
  asleep := w.shared.waiting
  woken := w.shared.woken
  calls := records w.shared.journal
  events := w.shared.journal.map Event.veil

def observe (P : Platform σ) : List (Move σ) → World σ → List (Answer × Sight)
  | [],_ => []
  | m :: moves,w =>
      let (answer,w) := w.answer P m
      (answer,w.sight) :: observe P moves w

end World
end ConnectionPool
