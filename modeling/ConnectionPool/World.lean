import ConnectionPool.Properties
import ConnectionPool.Pool.Checkout
/-! Pools that share one outside, with the references that callers hold: doors, which are references
to a pool, and handles, which are lent connections. A pool whose last reference is gone is abandoned.

All that can happen is told one move at a time. A move is one whole operation, or what an operation
does between two waits, and nothing else happens meanwhile: a pool works under its lock, and a call
holds the connection that it is made on. What callers could do to each other between two locks of one
operation is left out. -/
namespace ConnectionPool

structure Handle where
  wrapper : Wrapper
  pool : Nat
  released : Bool
  deriving DecidableEq, Repr

inductive Slot where
  | pending
  | held (handle : Handle)
  | empty
  deriving DecidableEq, Repr

def Slot.refersTo (pool : Nat) : Slot → Bool
  | held h => h.pool == pool
  | _ => false

structure World (σ : Type) where
  shared : Shared σ
  pools : List Pool
  doors : List (Option Nat)
  slots : List Slot

namespace World
variable {σ : Type}

def initial (outside : σ) : World σ := ⟨.initial outside,[],[],[]⟩

def doorPool? (w : World σ) (door : Nat) : Option Pool := do
  let number ← (w.doors[door]?).join
  w.pools[number]?

def handle? (w : World σ) (slot : Nat) : Option Handle :=
  match w.slots[slot]? with
  | some (.held h) => some h
  | _ => none

def visit (w : World σ) (p : Pool) (act : Pool → Shared σ → Pool × Shared σ) : World σ :=
  let (p',shared) := act p w.shared
  { w with shared, pools := w.pools.set p.number p' }

def consult (w : World σ) (p : Pool) (act : Pool → Shared σ → α × Pool × Shared σ) : α × World σ :=
  let (a,p',shared) := act p w.shared
  (a,{ w with shared, pools := w.pools.set p.number p' })

def setSlot (w : World σ) (slot : Nat) (content : Slot) : World σ :=
  { w with slots := w.slots.set slot content }

/-- Whether anybody can still reach a pool: through a door, a handle or a caller on its way. -/
def IsReferred (w : World σ) (pool : Nat) : Prop :=
  some pool ∈ w.doors ∨ (w.slots.any (Slot.refersTo pool)) ∨
    pool ∈ w.shared.unfinished.map (·.seeker.pool)

instance (w : World σ) (pool : Nat) : Decidable (w.IsReferred pool) := by
  unfold IsReferred; infer_instance

def letGo (P : Platform σ) (w : World σ) (pool : Nat) : World σ :=
  if w.IsReferred pool then w
  else
    match w.pools[pool]? with
    | some p => w.visit p (Pool.abandon P)
    | none => w

/-- Makes a pool behind the next door, if its settings are valid; a failed attempt leaves the door
without a pool. -/
def create (P : Platform σ) (source : DataSource) (settings : Settings) (w : World σ) :
    Except PoolError Nat × World σ :=
  match settings.validate with
  | .error fault => (.error (.ofMisconfiguration fault),{ w with doors := w.doors ++ [none] })
  | .ok () =>
      let number := w.pools.length
      (.ok w.doors.length,
        { w with
          pools := w.pools ++ [.create P number source settings w.shared.now]
          doors := w.doors ++ [some number] })

def createFrom (P : Platform σ) (text : String) (w : World σ) : Except PoolError Nat × World σ :=
  match Properties.read text with
  | .error fault => (.error (.ofMisconfiguration fault),{ w with doors := w.doors ++ [none] })
  | .ok (source,settings) => w.create P source settings

def share (p : Pool) (w : World σ) : Nat × World σ :=
  (w.doors.length,{ w with doors := w.doors ++ [some p.number] })

def leave (P : Platform σ) (door : Nat) (w : World σ) : World σ :=
  match w.doorPool? door with
  | some p => { w with doors := w.doors.set door none }.letGo P p.number
  | none => w

def advance (time : Nat) (w : World σ) : World σ := { w with shared := w.shared.advance time }

def tamper (change : σ → σ) (w : World σ) : World σ :=
  { w with shared := { w.shared with outside := change w.shared.outside } }

def slotAfter (pool : Nat) : Outcome → Slot
  | .granted w => .held ⟨w,pool,false⟩
  | .failed _ => .empty
  | .blocked => .pending
  | .overrun => .pending

def get (P : Platform σ) (door : Nat) (p : Pool) (w : World σ) : Nat × Outcome × World σ :=
  let ticket := w.slots.length
  let seeker : Seeker :=
    { ticket, door, pool := p.number, startedAt := w.shared.now, hasWaited := false, bad := 0 }
  let (outcome,w) := w.consult p (Pool.enter P seeker)
  (ticket,outcome,{ w with slots := w.slots ++ [slotAfter p.number outcome] })

structure Finished where
  ticket : Nat
  result : Except PoolError Wrapper
  deriving Repr

def finished? (ticket : Nat) (outcome : Outcome) : Option Finished :=
  outcome.result?.map fun result => ⟨ticket,result⟩

def resumeAt (P : Platform σ) (index : Nat) (w : World σ) : Option Finished × World σ :=
  match w.shared.woken[index]? with
  | none => (none,w)
  | some wait =>
      let w := { w with shared := { w.shared with woken := w.shared.woken.eraseIdx index } }
      match w.pools[wait.seeker.pool]? with
      | none => (none,w)
      | some p =>
          let (outcome,w) := w.consult p (Pool.resume P wait)
          let w := w.setSlot wait.seeker.ticket (slotAfter p.number outcome)
          (finished? wait.seeker.ticket outcome,w.letGo P p.number)

def resume (P : Platform σ) (w : World σ) : Option Finished × World σ := w.resumeAt P 0

def settleWithin (P : Platform σ) : Nat → World σ → List Finished × World σ
  | 0,w => ([],w)
  | bound + 1,w =>
      if w.shared.woken = [] then ([],w)
      else
        let (answer,w) := w.resume P
        let (answers,w) := settleWithin P bound w
        (answer.toList ++ answers,w)

/-- A caller that wakes others gets its answer, so each of `n` callers is woken at most once for each
answer still to be given. -/
def settle (P : Platform σ) (w : World σ) : List Finished × World σ :=
  let n := w.shared.unfinished.length
  settleWithin P (n * n) w

def raw (P : Platform σ) (h : Handle) (request : Request) (w : World σ) :
    Except PoolError (Except Cause request.Reply) × World σ :=
  if w.shared.IsLive h.wrapper then
    let (reply,shared) := w.shared.ask P (.holder h.wrapper.key) h.wrapper.conn request
    (.ok reply,{ w with shared })
  else (.error .illegalState,w)

def forward (P : Platform σ) (h : Handle) (request : Request) (w : World σ) :
    Except PoolError request.Reply × World σ :=
  match w.raw P h request with
  | (.error error,w) => (.error error,w)
  | (.ok (.error cause),w) => (.error (.connection cause),w)
  | (.ok (.ok reply),w) => (.ok reply,w)

/-- A handle that is no longer valid counts as closed. -/
def isClosed (P : Platform σ) (h : Handle) (w : World σ) : Except PoolError Bool × World σ :=
  if w.shared.IsLive h.wrapper then
    let (reply,shared) := w.shared.ask P (.holder h.wrapper.key) h.wrapper.conn .isClosed
    (reply.mapError .connection,{ w with shared })
  else (.ok true,w)

theorem isClosedForward (P : Platform σ) (h : Handle) (w : World σ) :
    w.isClosed P h =
      if w.shared.IsLive h.wrapper then w.forward P h .isClosed else (.ok true,w) := by
  unfold isClosed forward raw
  split
  · rcases w.shared.ask P (.holder h.wrapper.key) h.wrapper.conn .isClosed with ⟨_ | _,_⟩ <;> rfl
  · rfl

def release (P : Platform σ) (slot : Nat) (h : Handle) (w : World σ) : World σ :=
  if h.released then w
  else
    match w.pools[h.pool]? with
    | none => w
    | some p =>
        (w.visit p (Pool.release P h.wrapper)).setSlot slot (.held { h with released := true })

def drop (P : Platform σ) (slot : Nat) (h : Handle) (w : World σ) : World σ :=
  ((w.release P slot h).setSlot slot .empty).letGo P h.pool

def sameConnection (a b : Handle) : Bool := a.wrapper.id == b.wrapper.id

end World

inductive Move (σ : Type) where
  | create (source : DataSource) (settings : Settings)
  | createFrom (text : String)
  | share (door : Nat)
  | leave (door : Nat)
  | get (door : Nat)
  | resume (index : Nat)
  | closeAll (door : Nat)
  | close (door : Nat)
  | configure (door : Nat) (change : Change)
  | setTolerance (door : Nat) (count : UInt32)
  | release (slot : Nat)
  | drop (slot : Nat)
  | forward (slot : Nat) (request : Request)
  | raw (slot : Nat) (request : Request)
  | isClosed (slot : Nat)
  | advance (time : Nat)
  | tamper (change : σ → σ)

namespace World
variable {σ : Type}

def atDoor (w : World σ) (door : Nat) (act : Pool → World σ) : World σ :=
  match w.doorPool? door with
  | some p => act p
  | none => w

def atSlot (w : World σ) (slot : Nat) (act : Handle → World σ) : World σ :=
  match w.handle? slot with
  | some h => act h
  | none => w

def move (P : Platform σ) (m : Move σ) (w : World σ) : World σ :=
  match m with
  | .create source settings => (w.create P source settings).2
  | .createFrom text => (w.createFrom P text).2
  | .share door => w.atDoor door fun p => (w.share p).2
  | .leave door => w.leave P door
  | .get door => w.atDoor door fun p => (w.get P door p).2.2
  | .resume index => (w.resumeAt P index).2
  | .closeAll door => w.atDoor door fun p => w.visit p (Pool.closeAll P)
  | .close door => w.atDoor door fun p => w.visit p (Pool.close P)
  | .configure door change => w.atDoor door fun p => (w.consult p (Pool.configure P change)).2
  | .setTolerance door count =>
      w.atDoor door fun p => w.visit p fun p s => (p.setTolerance count,s)
  | .release slot => w.atSlot slot fun h => w.release P slot h
  | .drop slot => w.atSlot slot fun h => w.drop P slot h
  | .forward slot request => w.atSlot slot fun h => (w.forward P h request).2
  | .raw slot request => w.atSlot slot fun h => (w.raw P h request).2
  | .isClosed slot => w.atSlot slot fun h => (w.isClosed P h).2
  | .advance time => w.advance time
  | .tamper change => w.tamper change

def run (P : Platform σ) (moves : List (Move σ)) (w : World σ) : World σ :=
  moves.foldl (fun w m => w.move P m) w

theorem runAppend (P : Platform σ) (first second : List (Move σ)) (w : World σ) :
    w.run P (first ++ second) = (w.run P first).run P second :=
  List.foldl_append

inductive Reachable (P : Platform σ) : World σ → Prop
  | initial (outside : σ) : Reachable P (.initial outside)
  | move (m : Move σ) {w : World σ} (before : Reachable P w) : Reachable P (w.move P m)

theorem reachableRun {P : Platform σ} {w : World σ} (before : Reachable P w)
    (moves : List (Move σ)) : Reachable P (w.run P moves) := by
  induction moves generalizing w with
  | nil => exact before
  | cons m rest ih => exact ih (.move m before)

end World

end ConnectionPool
