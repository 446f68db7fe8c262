import ConnectionPool.Journal
/-! What all pools have in common: the clock, the outside, the supply of numbers, the marks of valid
wrappers, the callers that wait and the journal. -/
namespace ConnectionPool

structure Seeker where
  ticket : Nat
  door : Nat
  pool : Nat
  startedAt : Nat
  hasWaited : Bool
  bad : UInt32
  deriving DecidableEq, Repr

structure Wait where
  seeker : Seeker
  since : Nat
  deadline : Option Nat
  deriving DecidableEq, Repr

def Wait.isFor (pool : Nat) (wait : Wait) : Bool := wait.seeker.pool == pool

def Wait.isDue (now : Nat) (wait : Wait) : Bool :=
  match wait.deadline with
  | some deadline => deadline ≤ now
  | none => false

structure Shared (σ : Type) where
  now : Nat
  outside : σ
  opened : Nat
  nextId : Nat
  nextKey : Nat
  live : List Nat
  /-- Sleepers, in the order they fell asleep. -/
  waiting : List Wait
  /-- Sleepers that have been woken but have not gone on yet, in the order they will. -/
  woken : List Wait
  journal : List Event

namespace Shared
variable {σ : Type}

def initial (outside : σ) : Shared σ := ⟨0,outside,0,1,0,[],[],[],[]⟩

def note (s : Shared σ) (event : Event) : Shared σ := { s with journal := event :: s.journal }

def ask (P : Platform σ) (caller : Caller) (conn : Nat) (request : Request) (s : Shared σ) :
    Except Cause request.Reply × Shared σ :=
  let (reply,outside) := P.answer conn request s.outside
  (reply,{ s with outside }.note (.call caller conn request reply))

def IsLive (s : Shared σ) (w : Wrapper) : Prop := w.key ∈ s.live

instance (s : Shared σ) (w : Wrapper) : Decidable (s.IsLive w) := by
  unfold IsLive; infer_instance

def invalidate (s : Shared σ) (w : Wrapper) : Shared σ :=
  { s with live := s.live.filter (· ≠ w.key) }

def newKey (s : Shared σ) : Nat × Shared σ :=
  (s.nextKey,{ s with nextKey := s.nextKey + 1, live := s.nextKey :: s.live })

def rewrap (s : Shared σ) (w : Wrapper) (lastUsedAt : Nat) : Wrapper × Shared σ :=
  let (key,s) := s.newKey
  (w.rewrapped key lastUsedAt,s)

def notify (s : Shared σ) (pool : Nat) : Shared σ :=
  { s with
    waiting := s.waiting.filter (!Wait.isFor pool ·)
    woken := s.woken ++ s.waiting.filter (Wait.isFor pool ·) }.note (.notified pool)

def sleep (s : Shared σ) (wait : Wait) : Shared σ :=
  { s with waiting := s.waiting ++ [wait] }.note (.blocked wait.seeker.pool wait.seeker.ticket)

/-- Moves the clock once, then wakes those whose time is up. -/
def advance (s : Shared σ) (time : Nat) : Shared σ :=
  let now := s.now + time
  { s with
    now
    waiting := s.waiting.filter (!Wait.isDue now ·)
    woken := s.woken ++ s.waiting.filter (Wait.isDue now ·) }

def unfinished (s : Shared σ) : List Wait := s.waiting ++ s.woken

end Shared
end ConnectionPool
