import ConnectionPool.Pool
/-! Lending: the connection kept longest, else a new one if there is room, else one that a holder has
had for too long, else the caller sleeps. Candidates that are no good are discarded, and after too
many of them the caller fails. -/
namespace ConnectionPool

inductive Pick where
  | candidate (w : Wrapper)
  | failed (error : PoolError)
  | nothing
  deriving DecidableEq, Repr

inductive Outcome where
  | granted (w : Wrapper)
  | failed (error : PoolError)
  | blocked
  /-- More candidates were bad than a 32-bit count can tell; the caller never gets an answer. -/
  | overrun
  deriving DecidableEq, Repr

def Outcome.result? : Outcome → Option (Except PoolError Wrapper)
  | granted w => some (.ok w)
  | failed error => some (.error error)
  | blocked | overrun => none

namespace Pool
variable {σ : Type}

/-- Opens and sets up a connection. Every attempt uses up an id, and a connection that cannot be set
up is discarded. -/
def openOne (P : Platform σ) (p : Pool) (s : Shared σ) : Pick × Pool × Shared σ :=
  let id := s.nextId
  let conn := s.opened
  let (reply,outside) := P.connect conn p.source s.outside
  let s := { s with outside, nextId := id + 1 }
  match reply with
  | .error cause => (.failed (.connect cause),p,s.note (.refused p.number cause))
  | .ok () =>
      let s := { s with opened := conn + 1 }.note (.opened p.number conn id p.source)
      match s.setUp P (.pool p.number) conn p.source with
      | (.error cause,s) => (.failed (.connect cause),p,s.dispose P p.number conn)
      | (.ok (),s) =>
          let (key,s) := s.newKey
          (.candidate (.fresh key conn id s.now),
            p.count fun c => { c with created := c.created + 1 },
            s.note (.created p.number conn))

def reclaim (P : Platform σ) (p : Pool) (s : Shared σ) : Pick × Pool × Shared σ :=
  match p.active with
  | [] => (.nothing,p,s)
  | oldest :: rest =>
      let held := oldest.heldFor s.now
      if p.settings.maxCheckoutTime < held then
        let p := { p with active := rest }.count fun c =>
          { c with claimedOverdue := c.claimedOverdue + 1
                   overdueTime := c.overdueTime + held
                   checkoutTime := c.checkoutTime + held }
        let s := (s.invalidate oldest).note (.reclaimed p.number oldest held)
        let (_,s) := s.rollbackUnlessAutoCommit P (.pool p.number) oldest.conn
        let (w,s) := s.rewrap oldest oldest.lastUsedAt
        (.candidate w,p,s.notify p.number)
      else (.nothing,p,s)

def pick (P : Platform σ) (p : Pool) (s : Shared σ) : Pick × Pool × Shared σ :=
  match p.idle with
  | w :: rest => (.candidate w,{ p with idle := rest },s)
  | [] => if p.HasActiveRoom then p.openOne P s else p.reclaim P s

def admits (P : Platform σ) (p : Pool) (w : Wrapper) (s : Shared σ) : Bool × Shared σ :=
  match p.inspect P w s with
  | (false,s) => (false,s)
  | (true,s) =>
      match s.rollbackUnlessAutoCommit P (.pool p.number) w.conn with
      | (.ok (),s) => (true,s)
      | (.error _,s) => (false,s)

def grant (seeker : Seeker) (w : Wrapper) (p : Pool) (s : Shared σ) : Outcome × Pool × Shared σ :=
  let w := w.stamped p.expected s.now
  let took := s.now - seeker.startedAt
  (.granted w,
    { p with active := p.active ++ [w] }.count fun c =>
      { c with requests := c.requests + 1, requestTime := c.requestTime + took },
    s.note (.granted p.number seeker.ticket w took))

def reject (P : Platform σ) (w : Wrapper) (p : Pool) (s : Shared σ) : Pool × Shared σ :=
  (p.count fun c => { c with bad := c.bad + 1 }).discard P w (s.note (.rejected p.number w))

def fail (seeker : Seeker) (error : PoolError) (p : Pool) (s : Shared σ) :
    Outcome × Pool × Shared σ :=
  (.failed error,p,s.note (.denied p.number seeker.ticket error))

def giveUp (seeker : Seeker) (bad : Nat) (p : Pool) (s : Shared σ) : Outcome × Pool × Shared σ :=
  if bad < 0x100000000 then p.fail seeker (.exhaustedRetries (UInt32.ofNat bad)) s
  else (.overrun,p,s)

def deadline? (p : Pool) (now : Nat) : Option Nat :=
  if p.settings.timeToWait = 0 then none else some (now + p.settings.timeToWait)

/-- Puts the caller to sleep. It is counted once, however often it sleeps. -/
def block (seeker : Seeker) (bad : Nat) (p : Pool) (s : Shared σ) : Outcome × Pool × Shared σ :=
  let waiter := { seeker with hasWaited := true, bad := UInt32.ofNat bad }
  (.blocked,
    if seeker.hasWaited then p else p.count fun c => { c with hadToWait := c.hadToWait + 1 },
    s.sleep ⟨waiter,s.now,p.deadline? s.now⟩)

/-- Looks for a connection, having met `bad` bad ones; `patience` more may be met before giving up. -/
def seek (P : Platform σ) (seeker : Seeker) :
    (patience bad : Nat) → Pool → Shared σ → Outcome × Pool × Shared σ
  | patience,bad,p,s =>
      match p.pick P s with
      | (.failed error,p,s) => p.fail seeker error s
      | (.nothing,p,s) => p.block seeker bad s
      | (.candidate w,p,s) =>
          match p.admits P w s with
          | (true,s) => p.grant seeker w s
          | (false,s) =>
              let (p,s) := p.reject P w s
              match patience with
              | 0 => p.giveUp seeker (bad + 1) s
              | patience + 1 => seek P seeker patience (bad + 1) p s

def stay (P : Platform σ) (seeker : Seeker) (p : Pool) (s : Shared σ) : Outcome × Pool × Shared σ :=
  let bad := seeker.bad.toNat
  seek P seeker (p.settings.badConnectionLimit.toNat - bad) bad p s

def enter (P : Platform σ) (seeker : Seeker) (p : Pool) (s : Shared σ) : Outcome × Pool × Shared σ :=
  if p.closed then p.fail seeker .poolClosed s else p.stay P seeker s

def resume (P : Platform σ) (wait : Wait) (p : Pool) (s : Shared σ) : Outcome × Pool × Shared σ :=
  let waited := s.now - wait.since
  let p := p.count fun c => { c with waitTime := c.waitTime + waited }
  let s := s.note (.resumed p.number wait.seeker.ticket waited)
  if p.closed then p.fail wait.seeker .waitInterrupted s else p.stay P wait.seeker s

end Pool
end ConnectionPool
