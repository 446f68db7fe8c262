import ConnectionPool.Proofs.Return
import ConnectionPool.World
/-! What one move makes of a world, told once: `moveMakes` has a case for each thing that a move can do,
with what is known where it does it, and one for the moves that find nothing to act on. -/
namespace ConnectionPool

namespace Move
variable {σ : Type}

def door? : Move σ → Option Nat
  | share door | leave door | get door | closeAll door | close door => some door
  | configure door _ | setTolerance door _ => some door
  | _ => none

def slot? : Move σ → Option Nat
  | release slot | drop slot | forward slot _ | raw slot _ | isClosed slot => some slot
  | _ => none

def call? : Move σ → Option (Nat × Request)
  | forward slot request | raw slot request => some (slot,request)
  | isClosed slot => some (slot,.isClosed)
  | _ => none

def order? : Move σ → Option (Except Misconfiguration (DataSource × Settings))
  | create source settings => some (.ok (source,settings))
  | createFrom text => some (Properties.read text)
  | _ => none

theorem callUses {m : Move σ} {slot : Nat} {request : Request}
    (calls : m.call? = some (slot,request)) : m.slot? = some slot := by
  cases m <;> cases calls <;> rfl

end Move

namespace World
variable {σ : Type} {P : Platform σ} {w : World σ}

def Numbered (w : World σ) : Prop := ∀ ⦃n : Nat⦄ ⦃p : Pool⦄, w.pools[n]? = some p → p.number = n

def put (w : World σ) (n : Nat) (p : Pool) (s : Shared σ) : World σ :=
  { w with shared := s, pools := w.pools.set n p }

theorem putSame {n : Nat} {p : Pool} (here : w.pools[n]? = some p) : w.put n p w.shared = w := by
  obtain ⟨inside,rfl⟩ := List.getElem?_eq_some_iff.mp here
  simp [put]

theorem poolAtPut {n m : Nat} {p q : Pool} {s : Shared σ} (there : (w.put n p s).pools[m]? = some q) :
    (m = n ∧ q = p) ∨ (m ≠ n ∧ w.pools[m]? = some q) := by
  simp only [put,List.getElem?_set] at there
  split at there
  · split at there <;> simp_all
  · exact .inr ⟨by omega,there⟩

def newSeeker (w : World σ) (door n : Nat) : Seeker :=
  { ticket := w.slots.length, door, pool := n, startedAt := w.shared.now, hasWaited := false,
    bad := 0 }

def rouse (w : World σ) (index : Nat) : World σ :=
  { w with shared := { w.shared with woken := w.shared.woken.eraseIdx index } }

def seat (w : World σ) (n : Nat) (stay : Outcome × Pool × Shared σ) (place : Slot → List Slot) :
    World σ :=
  { w.put n stay.2.1 stay.2.2 with slots := place (slotAfter n stay.1) }

theorem handleAt {slot : Nat} {h : Handle} :
    w.handle? slot = some h ↔ w.slots[slot]? = some (.held h) := by
  unfold handle?
  split <;> simp_all

theorem handleAtSet {slot i : Nat} {content : Slot} {k : Handle}
    (held : (w.setSlot slot content).handle? i = some k) :
    (i = slot ∧ content = .held k) ∨ (i ≠ slot ∧ w.handle? i = some k) := by
  rw [handleAt] at held
  simp only [setSlot,List.getElem?_set] at held
  split at held
  · split at held <;> simp_all
  · refine .inr ⟨by omega,handleAt.mpr held⟩

theorem handleElsewhere {slot i : Nat} (content : Slot) (other : i ≠ slot) :
    (w.setSlot slot content).handle? i = w.handle? i := by
  simp only [handle?,setSlot]
  rw [List.getElem?_set_ne (Ne.symm other)]

theorem doorPoolAt {door : Nat} {p : Pool} (behind : w.doorPool? door = some p) :
    ∃ n, w.doors[door]? = some (some n) ∧ w.pools[n]? = some p := by
  unfold doorPool? at behind
  simp only [bind,Option.bind_eq_some_iff,Option.join_eq_some_iff] at behind
  exact behind

theorem doorPoolSome {door n : Nat} {p : Pool} (behind : w.doors[door]? = some (some n))
    (here : w.pools[n]? = some p) : w.doorPool? door = some p := by
  simp [doorPool?,behind,here]

theorem atSlotCases {Result : World σ → Prop} {slot : Nat} {act : Handle → World σ}
    (stays : Result w) (acts : ∀ {h}, w.handle? slot = some h → Result (act h)) :
    Result (w.atSlot slot act) := by
  unfold World.atSlot
  split
  · rename_i h held
    exact acts held
  · exact stays

theorem letGoCases (numbered : w.Numbered) (n : Nat) :
    (w.letGo P n = w ∧ (w.IsReferred n ∨ ∀ p, w.pools[n]? = some p → p.tracked = [])) ∨
    ∃ p, ¬w.IsReferred n ∧ w.pools[n]? = some p ∧ p.tracked ≠ [] ∧
      w.letGo P n = w.put n (p.sweep P w.shared).1 (p.sweep P w.shared).2 := by
  unfold letGo
  split
  · rename_i referred
    exact .inl ⟨rfl,.inl referred⟩
  · rename_i alone
    cases here : w.pools[n]? with
    | none => exact .inl ⟨rfl,.inr (by simp)⟩
    | some p =>
      simp only [visit,numbered here,Pool.abandon]
      split
      · rename_i none
        exact .inl ⟨putSame here,.inr (by simpa using none)⟩
      · rename_i some
        exact .inr ⟨p,alone,rfl,some,rfl⟩

theorem letGoKeeps (Left : Shared σ → Prop) (numbered : w.Numbered) (here : Left w.shared)
    (sweeps : ∀ p : Pool, Left (p.sweep P w.shared).2) (n : Nat) : Left (w.letGo P n).shared := by
  rcases letGoCases (P := P) numbered n with ⟨same,_⟩ | ⟨p,_,_,_,swept⟩
  · rwa [same]
  · rw [swept]
    exact sweeps p

theorem numberedPut {n : Nat} {p p' : Pool} {s : Shared σ} (numbered : w.Numbered)
    (here : w.pools[n]? = some p) (same : p'.number = p.number) : (w.put n p' s).Numbered := by
  intro m q there
  rcases poolAtPut there with ⟨rfl,rfl⟩ | ⟨_,old⟩
  · rw [same,numbered here]
  · exact numbered old

theorem numberedSeat {n : Nat} {p : Pool} {stay : Outcome × Pool × Shared σ}
    {place : Slot → List Slot} (numbered : w.Numbered) (here : w.pools[n]? = some p)
    (alike : p.Alike stay.2.1) : (w.seat n stay place).Numbered :=
  numberedPut (s := stay.2.2) numbered here alike.number

theorem poolAtSeat {n m : Nat} {q : Pool} {stay : Outcome × Pool × Shared σ}
    {place : Slot → List Slot} (there : (w.seat n stay place).pools[m]? = some q) :
    (m = n ∧ q = stay.2.1) ∨ (m ≠ n ∧ w.pools[m]? = some q) :=
  poolAtPut (s := stay.2.2) there

theorem numberedLetGo (numbered : w.Numbered) (n : Nat) : (w.letGo P n).Numbered := by
  rcases letGoCases (P := P) numbered n with ⟨same,_⟩ | ⟨p,_,here,_,swept⟩
  · rwa [same]
  · rw [swept]
    exact numberedPut numbered here (Pool.sweepNumber ..)

theorem visitPut {n : Nat} {p : Pool} {act : Pool → Shared σ → Pool × Shared σ}
    (numbered : w.Numbered) (here : w.pools[n]? = some p) :
    w.visit p act = w.put n (act p w.shared).1 (act p w.shared).2 := by
  rw [← numbered here]
  rfl

theorem consultPut {α : Type} {n : Nat} {p : Pool} {act : Pool → Shared σ → α × Pool × Shared σ}
    (numbered : w.Numbered) (here : w.pools[n]? = some p) :
    w.consult p act =
      ((act p w.shared).1,w.put n (act p w.shared).2.1 (act p w.shared).2.2) := by
  rw [← numbered here]
  rfl

theorem getMove {door n : Nat} {p : Pool} (numbered : w.Numbered)
    (behind : w.doors[door]? = some (some n)) (here : w.pools[n]? = some p) :
    w.move P (.get door) =
      w.seat n (p.enter P (w.newSeeker door n) w.shared) fun slot => w.slots ++ [slot] := by
  have number := numbered here
  subst number
  simp only [World.move,atDoor,doorPool?,behind,bind,Option.join_some,Option.bind_some,here]
  rfl

theorem strayMove {index : Nat} {wait : Wait} (awake : w.shared.woken[index]? = some wait)
    (away : w.pools[wait.seeker.pool]? = none) : w.move P (.resume index) = w.rouse index := by
  simp only [World.move,resumeAt,awake,away]
  rfl

def seatResumed (P : Platform σ) (w : World σ) (index : Nat) (wait : Wait) (p : Pool) : World σ :=
  (w.rouse index).seat wait.seeker.pool (p.resume P wait (w.rouse index).shared)
    (w.slots.set wait.seeker.ticket)

theorem numberedResumed {wait : Wait} {p : Pool} (numbered : w.Numbered)
    (here : w.pools[wait.seeker.pool]? = some p) (index : Nat) :
    (w.seatResumed P index wait p).Numbered :=
  numberedSeat (w := w.rouse index) numbered here (p.resumeAlike P wait _)

theorem resumeMove {index : Nat} {wait : Wait} {p : Pool} (numbered : w.Numbered)
    (awake : w.shared.woken[index]? = some wait) (here : w.pools[wait.seeker.pool]? = some p) :
    w.move P (.resume index) = (w.seatResumed P index wait p).letGo P wait.seeker.pool := by
  simp only [World.move,resumeAt,awake,here,seatResumed]
  rw [← numbered here]
  rfl

def called (P : Platform σ) (h : Handle) (request : Request) (w : World σ) : World σ :=
  let (reply,outside) := P.answer h.wrapper.conn request w.shared.outside
  let shared : Shared σ := { w.shared with outside }
  { w with shared := shared.note (.call (.holder h.wrapper.key) h.wrapper.conn request reply) }

def reply (P : Platform σ) (h : Handle) (request : Request) (w : World σ) :
    Except Cause request.Reply :=
  (P.answer h.wrapper.conn request w.shared.outside).1

theorem releaseHomeless {h : Handle} (slot : Nat) (away : w.pools[h.pool]? = none) :
    w.release P slot h = w := by
  unfold release
  split <;> simp [away]

theorem releaseSpends {slot : Nat} {h : Handle} {p : Pool} (held : w.handle? slot = some h)
    (here : w.pools[h.pool]? = some p) :
    (w.release P slot h).handle? slot = some { h with released := true } := by
  have inside : slot < w.slots.length := (List.getElem?_eq_some_iff.mp (handleAt.mp held)).1
  unfold release
  split
  · rename_i spent
    rw [held,← spent]
  · rw [handleAt]
    simp [here,setSlot,visit,inside]

theorem releaseElsewhere {i j : Nat} {h : Handle} (other : j ≠ i) :
    (w.release P i h).handle? j = w.handle? j := by
  unfold release
  split
  · rfl
  · split
    · rfl
    · exact handleElsewhere _ other

section Calls
variable {h : Handle}

theorem rawCalled (live : w.shared.IsLive h.wrapper) (request : Request) :
    w.raw P h request = (.ok (w.reply P h request),w.called P h request) := by
  unfold World.raw
  rw [if_pos live]
  rfl

theorem forwardCalled (live : w.shared.IsLive h.wrapper) (request : Request) :
    w.forward P h request =
      ((w.reply P h request).mapError .connection,w.called P h request) := by
  unfold World.forward
  rw [rawCalled live]
  cases w.reply P h request <;> rfl

theorem rawStuck (dead : ¬w.shared.IsLive h.wrapper) (request : Request) :
    w.raw P h request = (.error .illegalState,w) :=
  if_neg dead

theorem forwardStuck (dead : ¬w.shared.IsLive h.wrapper) (request : Request) :
    w.forward P h request = (.error .illegalState,w) := by
  unfold World.forward
  rw [rawStuck dead]

end Calls

inductive Renews (P : Platform σ) (w : World σ) (n : Nat) (p : Pool) : Move σ → Pool → Prop
  | closeAll {door} (behind : w.doors[door]? = some (some n)) : Renews P w n p (.closeAll door) p
  | close {door} (behind : w.doors[door]? = some (some n)) (unshut : p.closed = false) :
      Renews P w n p (.close door) { p with closed := true }
  | configure {door change source settings} (behind : w.doors[door]? = some (some n))
      (valid : settings.Valid) (accepted : p.configure P change w.shared =
        (.ok (),{ p with source, settings }.closeAll P w.shared)) :
      Renews P w n p (.configure door change) { p with source, settings }

section Renewed
variable {n : Nat} {p r : Pool} {m : Move σ}

theorem renewsBehind (renews : w.Renews P n p m r) :
    ∃ door, m.door? = some door ∧ w.doors[door]? = some (some n) := by
  cases renews with
  | closeAll behind | close behind | configure behind => exact ⟨_,rfl,behind⟩

theorem renewsFrom (renews : w.Renews P n p m r) : ∃ source settings closed,
    r = { p with source, settings, closed } ∧ (p.settings.Valid → settings.Valid) ∧
      (p.closed → closed) := by
  cases renews with
  | closeAll => exact ⟨p.source,p.settings,p.closed,rfl,id,id⟩
  | close => exact ⟨p.source,p.settings,true,rfl,id,fun _ => rfl⟩
  | @configure _ _ source settings _ valid =>
    exact ⟨source,settings,p.closed,rfl,fun _ => valid,id⟩

end Renewed

inductive Idles (P : Platform σ) (w : World σ) : Move σ → Prop
  | noDoor {m door} (through : m.door? = some door) (shut : w.doorPool? door = none) : Idles P w m
  | noHandle {m slot} (uses : m.slot? = some slot) (none : w.handle? slot = none) : Idles P w m
  | dead {m slot request h} (calls : m.call? = some (slot,request)) (held : w.handle? slot = some h)
      (dead : ¬w.shared.IsLive h.wrapper) : Idles P w m
  | nobody {index} (asleep : w.shared.woken[index]? = none) : Idles P w (.resume index)
  | closed (door : Nat) : Idles P w (.close door)
  | refused (door : Nat) (change : Change) : Idles P w (.configure door change)

inductive Makes (P : Platform σ) (w : World σ) : Move σ → World σ → Prop
  | nothing {m} (idles : w.Idles P m) : Makes P w m w
  | noPool {m order} (ordered : m.order? = some order) :
      Makes P w m { w with doors := w.doors ++ [none] }
  | found {m source settings} (ordered : m.order? = some (.ok (source,settings)))
      (valid : settings.Valid) : Makes P w m { w with
        pools := w.pools ++ [.create P w.pools.length source settings w.shared.now]
        doors := w.doors ++ [some w.pools.length] }
  | share {door n p} (behind : w.doors[door]? = some (some n)) (here : w.pools[n]? = some p) :
      Makes P w (.share door) { w with doors := w.doors ++ [some n] }
  | leave {door n p} (behind : w.doors[door]? = some (some n)) (here : w.pools[n]? = some p) :
      Makes P w (.leave door) ({ w with doors := w.doors.set door none }.letGo P n)
  | get {door n p} (behind : w.doors[door]? = some (some n)) (here : w.pools[n]? = some p) :
      Makes P w (.get door)
        (w.seat n (p.enter P (w.newSeeker door n) w.shared) fun slot => w.slots ++ [slot])
  | stray {index wait} (awake : w.shared.woken[index]? = some wait)
      (away : w.pools[wait.seeker.pool]? = none) : Makes P w (.resume index) (w.rouse index)
  | resume {index wait p} (awake : w.shared.woken[index]? = some wait)
      (here : w.pools[wait.seeker.pool]? = some p) :
      Makes P w (.resume index) ((w.seatResumed P index wait p).letGo P wait.seeker.pool)
  | renew {m n p r} (here : w.pools[n]? = some p) (renews : w.Renews P n p m r) :
      Makes P w m (w.put n (r.closeAll P w.shared).1 (r.closeAll P w.shared).2)
  | tolerance {door count n p} (behind : w.doors[door]? = some (some n))
      (here : w.pools[n]? = some p) :
      Makes P w (.setTolerance door count) (w.put n (p.setTolerance count) w.shared)
  | release {slot h} (held : w.handle? slot = some h) :
      Makes P w (.release slot) (w.release P slot h)
  | drop {slot h} (held : w.handle? slot = some h) : Makes P w (.drop slot) (w.drop P slot h)
  | call {m slot request h} (calls : m.call? = some (slot,request))
      (held : w.handle? slot = some h) (live : w.shared.IsLive h.wrapper) :
      Makes P w m (w.called P h request)
  | advance (time : Nat) : Makes P w (.advance time) (w.advance time)
  | tamper (change : σ → σ) : Makes P w (.tamper change) (w.tamper change)

theorem createMakes {m : Move σ} {source : DataSource} {settings : Settings}
    (ordered : m.order? = some (.ok (source,settings))) :
    w.Makes P m (w.create P source settings).2 := by
  unfold World.create
  split
  · exact .noPool ordered
  · rename_i ok
    exact .found ordered ((Settings.validateOk settings).mp ok)

theorem atDoorMakes {m : Move σ} {door : Nat} {act : Pool → World σ}
    (through : m.door? = some door)
    (acts : ∀ {n p}, w.doors[door]? = some (some n) → w.pools[n]? = some p →
      w.Makes P m (act p)) : w.Makes P m (w.atDoor door act) := by
  unfold World.atDoor
  cases behind : w.doorPool? door with
  | none => exact .nothing (.noDoor through behind)
  | some p =>
    obtain ⟨n,known,here⟩ := doorPoolAt behind
    exact acts known here

theorem atSlotMakes {m : Move σ} {slot : Nat} {act : Handle → World σ}
    (uses : m.slot? = some slot) (acts : ∀ {h}, w.handle? slot = some h → w.Makes P m (act h)) :
    w.Makes P m (w.atSlot slot act) := by
  unfold World.atSlot
  cases held : w.handle? slot with
  | none => exact .nothing (.noHandle uses held)
  | some h => exact acts held

theorem callMakes {m : Move σ} {slot : Nat} {request : Request} {h : Handle} {w' : World σ}
    (calls : m.call? = some (slot,request)) (held : w.handle? slot = some h)
    (goes : w.shared.IsLive h.wrapper → w' = w.called P h request)
    (stuck : ¬w.shared.IsLive h.wrapper → w' = w) : w.Makes P m w' := by
  by_cases live : w.shared.IsLive h.wrapper
  · rw [goes live]
    exact .call calls held live
  · rw [stuck live]
    exact .nothing (.dead calls held live)

theorem closeMakes {door n : Nat} {p : Pool} (behind : w.doors[door]? = some (some n))
    (here : w.pools[n]? = some p) :
    w.Makes P (.close door) (w.put n (p.close P w.shared).1 (p.close P w.shared).2) := by
  unfold Pool.close
  split
  · rw [putSame here]
    exact .nothing (.closed door)
  · rename_i unshut
    exact .renew here (.close behind (Bool.eq_false_iff.mpr unshut))

theorem configureMakes {door n : Nat} {p : Pool} {change : Change}
    (behind : w.doors[door]? = some (some n)) (here : w.pools[n]? = some p) :
    w.Makes P (.configure door change)
      (w.put n (p.configure P change w.shared).2.1 (p.configure P change w.shared).2.2) := by
  rcases p.configureCases P change w.shared with ⟨_,same⟩ | ⟨source,settings,_,valid,same⟩
  · rw [same,putSame here]
    exact .nothing (.refused door change)
  · rw [same]
    exact .renew here (.configure behind valid same)

theorem moveMakes (numbered : w.Numbered) (m : Move σ) : w.Makes P m (w.move P m) := by
  cases m with
  | create source settings => exact createMakes rfl
  | createFrom text =>
    simp only [World.move,createFrom]
    split
    · exact .noPool rfl
    · rename_i read
      exact createMakes (congrArg some read)
  | share door =>
    refine atDoorMakes rfl fun behind here => ?_
    simp only [World.share,numbered here]
    exact .share behind here
  | leave door =>
    simp only [World.move,World.leave]
    cases found : w.doorPool? door with
    | none => exact .nothing (.noDoor rfl found)
    | some p =>
      obtain ⟨n,behind,here⟩ := doorPoolAt found
      simp only [numbered here]
      exact .leave behind here
  | get door =>
    refine atDoorMakes rfl fun {n p} behind here => ?_
    have moved := getMove (P := P) numbered behind here
    simp only [World.move,atDoor,doorPool?,behind,bind,Option.join_some,Option.bind_some,here] at moved
    rw [moved]
    exact .get behind here
  | resume index =>
    cases awake : w.shared.woken[index]? with
    | none =>
      simp only [World.move,resumeAt,awake]
      exact .nothing (.nobody awake)
    | some wait =>
      cases here : w.pools[wait.seeker.pool]? with
      | none =>
        rw [strayMove awake here]
        exact .stray awake here
      | some p =>
        rw [resumeMove numbered awake here]
        exact .resume awake here
  | closeAll door =>
    refine atDoorMakes rfl fun behind here => ?_
    rw [visitPut numbered here]
    exact .renew here (.closeAll behind)
  | close door =>
    refine atDoorMakes rfl fun behind here => ?_
    rw [visitPut numbered here]
    exact closeMakes behind here
  | configure door change =>
    refine atDoorMakes rfl fun behind here => ?_
    rw [consultPut numbered here]
    exact configureMakes behind here
  | setTolerance door count =>
    refine atDoorMakes rfl fun behind here => ?_
    rw [visitPut numbered here]
    exact .tolerance behind here
  | release slot => exact atSlotMakes rfl fun held => .release held
  | drop slot => exact atSlotMakes rfl fun held => .drop held
  | forward slot request =>
    refine atSlotMakes rfl fun held => callMakes rfl held (fun live => ?_) fun dead => ?_
    · rw [forwardCalled live]
    · rw [forwardStuck dead]
  | raw slot request =>
    refine atSlotMakes rfl fun held => callMakes rfl held (fun live => ?_) fun dead => ?_
    · rw [rawCalled live]
    · rw [rawStuck dead]
  | isClosed slot =>
    refine atSlotMakes rfl fun held => callMakes rfl held (fun live => ?_) fun dead => ?_
    · rw [isClosedForward,if_pos live,forwardCalled live]
    · rw [isClosedForward,if_neg dead]
  | advance time => exact .advance time
  | tamper change => exact .tamper change

end World
end ConnectionPool
