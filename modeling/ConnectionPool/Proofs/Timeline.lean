import ConnectionPool.Proofs.Queue
import ConnectionPool.Proofs.Footprint
/-! The journal with the instants at which its entries were written, newest first, and what the older
entries tell of a new one: since when its caller has been there or asleep, since when its wrapper has
been lent. -/
namespace ConnectionPool

/-- Events, each with the instant at which it was written, newest first. -/
abbrev Log := List (Nat × Event)

namespace Event

/-- What a pool does on its own: it answers nobody, puts nobody to sleep and takes nothing back. -/
def isUpkeep : Event → Bool
  | refused _ _ | opened _ _ _ _ | call _ _ _ _ | created _ _ | rejected _ _ | discarded _ _
  | swept _ _ _ | notified _ => true
  | _ => false

def ticket? : Event → Option Nat
  | blocked _ ticket | resumed _ ticket _ | granted _ ticket _ _ | denied _ ticket _ => some ticket
  | _ => none

def answered? : Event → Option Nat
  | granted _ ticket _ _ | denied _ ticket _ => some ticket
  | _ => none

def isAbout (ticket : Nat) (event : Event) : Bool := event.ticket? == some ticket

def sends (pool ticket : Nat) : Event → Bool
  | blocked n t => n == pool && t == ticket
  | _ => false

def lends (key : Nat) : Event → Bool
  | granted _ _ w _ => w.key == key
  | _ => false

def takesBack (conn : Nat) : Event → Bool
  | returned _ w _ _ => w.conn == conn
  | _ => false

def span : Event → Nat
  | granted _ _ _ took => took
  | resumed _ _ waited => waited
  | returned _ _ _ held | reclaimed _ _ held => held
  | _ => 0

section Facts
variable {event : Event} {ticket : Nat}

theorem answeredTicket (answered : event.answered? = some ticket) : event.ticket? = some ticket := by
  cases event <;> first | exact answered | cases answered

theorem sendsTicket {pool : Nat} (sends : event.sends pool ticket) : event.ticket? = some ticket := by
  cases event <;> simp_all [Event.sends,ticket?]

theorem upkeepSilent (upkeep : event.isUpkeep) : event.ticket? = none ∧
    (∀ key, event.lends key = false) ∧ ∀ conn, event.takesBack conn = false := by
  cases event <;> first | exact ⟨rfl,fun _ => rfl,fun _ => rfl⟩ | cases upkeep

end Facts
end Event

namespace Log

def newest (marks : Event → Bool) (log : Log) : Option Nat :=
  (log.find? fun entry => marks entry.2).map Prod.fst

def oldest (marks : Event → Bool) (log : Log) : Option Nat := newest marks log.reverse

/-- How long what an entry ends has lasted, as the older entries tell it. A caller is there since the
first entry about it, asleep since the last one that sent it to sleep; a wrapper is lent since the
entry that granted it. -/
def lasted (log : Log) (now : Nat) : Event → Nat
  | .granted _ ticket _ _ => now - (log.oldest (Event.isAbout ticket)).getD now
  | .resumed pool ticket _ => now - (log.newest (Event.sends pool ticket)).getD now
  | .returned _ w _ _ | .reclaimed _ w _ => now - (log.newest (Event.lends w.key)).getD now
  | _ => 0

def total (kind : Event → Bool) : Log → Nat
  | [] => 0
  | (now,event) :: log => (if kind event then lasted log now event else 0) + total kind log

def Honest : Log → Prop
  | [] => True
  | (now,event) :: log => event.span = lasted log now event ∧ Honest log

def dated (now : Nat) (new : List Event) (log : Log) : Log := new.map (fun e => (now,e)) ++ log

section Lookup
variable {marks : Event → Bool} {log : Log} {new : List Event} {now : Nat} {event : Event}

@[simp] theorem datedNil : dated now [] log = log := rfl

@[simp] theorem datedCons : dated now (event :: new) log = (now,event) :: dated now new log := rfl

theorem datedAppend (newer : List Event) :
    dated now (newer ++ new) log = dated now newer (dated now new log) := by
  simp [dated]

theorem memDated {entry : Nat × Event} :
    entry ∈ dated now new log ↔ (entry.1 = now ∧ entry.2 ∈ new) ∨ entry ∈ log := by
  obtain ⟨instant,e⟩ := entry
  simp [dated,and_comm,eq_comm]

theorem datedKeeps (Holds : Log → Prop) (start : Holds log)
    (step : ∀ older, Holds older → ∀ e ∈ new, Holds ((now,e) :: older)) :
    Holds (dated now new log) := by
  induction new with
  | nil => exact start
  | cons e es ih =>
    exact step _ (ih fun older holds e' member => step older holds e' (List.mem_cons_of_mem e member))
      e List.mem_cons_self

theorem newestCons (fits : marks event = true) : newest marks ((now,event) :: log) = some now := by
  simp [newest,fits]

theorem newestOther (apart : marks event = false) :
    newest marks ((now,event) :: log) = log.newest marks := by
  simp [newest,apart]

theorem newestDated (apart : ∀ e ∈ new, marks e = false) :
    newest marks (dated now new log) = log.newest marks :=
  datedKeeps (fun older => newest marks older = log.newest marks) rfl
    fun _ same e member => (newestOther (apart e member)).trans same

theorem oldestOlder {since : Nat} (known : log.oldest marks = some since) :
    oldest marks ((now,event) :: log) = some since := by
  unfold oldest newest at *
  obtain ⟨entry,found,rfl⟩ := Option.map_eq_some_iff.mp known
  rw [List.reverse_cons,List.find?_append,found]
  rfl

theorem oldestCons (fits : marks event = true) :
    oldest marks ((now,event) :: log) = some ((log.oldest marks).getD now) := by
  unfold oldest newest
  rw [List.reverse_cons,List.find?_append]
  cases log.reverse.find? fun entry => marks entry.2 <;> simp [fits]

theorem oldestOther (apart : marks event = false) :
    oldest marks ((now,event) :: log) = log.oldest marks := by
  unfold oldest newest
  rw [List.reverse_cons,List.find?_append]
  cases log.reverse.find? fun entry => marks entry.2 <;> simp [apart]

theorem oldestNone (apart : ∀ entry ∈ log, marks entry.2 = false) : log.oldest marks = none := by
  unfold oldest newest
  rw [Option.map_eq_none_iff,List.find?_eq_none]
  intro entry member
  simp [apart _ (List.mem_reverse.mp member)]

theorem Honest.upkeep (honest : log.Honest) (plain : event.isUpkeep) :
    Honest ((now,event) :: log) := by
  refine ⟨?_,honest⟩
  cases event <;> first | rfl | cases plain

end Lookup
end Log

namespace Shared

def log (earlier : Log) (s : Shared σ) : Log :=
  Log.dated s.now (s.journal.take (s.journal.length - earlier.length)) earlier

variable {σ : Type} {s t u : Shared σ} {log : Log} {new : List Event}

theorem logDated (length : log.length = s.journal.length) (grown : t.journal = new ++ s.journal) :
    t.log log = log.dated t.now new := by
  unfold Shared.log
  rw [grown,length]
  simp

theorem logAgain (length : log.length = s.journal.length) (first : ∃ new, t.journal = new ++ s.journal)
    (second : ∃ new, u.journal = new ++ t.journal) (now : u.now = t.now) :
    u.log (t.log log) = u.log log := by
  obtain ⟨new,grown⟩ := first
  obtain ⟨newer,written⟩ := second
  have kept : (t.log log).length = t.journal.length := by
    simp [logDated length grown,grown,Log.dated,length]
  rw [logDated kept written,logDated length grown,now,← Log.datedAppend,← now]
  exact (logDated length (by rw [written,grown,List.append_assoc])).symm

end Shared

structure Log.Awaits (log : Log) (y : Wait) : Prop where
  asleep : log.newest (Event.sends y.seeker.pool y.seeker.ticket) = some y.since
  came : log.oldest (Event.isAbout y.seeker.ticket) = some y.seeker.startedAt
  unanswered : ∀ entry ∈ log, entry.2.answered? ≠ some y.seeker.ticket

structure Log.Attends (log : Log) (callers : List Wait) (seats : Nat) : Prop where
  seated : ∀ entry ∈ log, ∀ ticket, entry.2.ticket? = some ticket → ticket < seats
  awaits : ∀ y ∈ callers, log.Awaits y
  once : (log.filterMap (·.2.answered?)).Nodup

namespace Log
variable {log : Log} {now seats : Nat} {event : Event} {new : List Event} {y : Wait}
  {callers : List Wait}

theorem Awaits.past (awaits : log.Awaits y) (other : event.ticket? ≠ some y.seeker.ticket) :
    Awaits ((now,event) :: log) y where
  asleep := (newestOther (eq_false_of_ne_true fun sends => other (Event.sendsTicket sends))).trans
    awaits.asleep
  came := oldestOlder awaits.came
  unanswered entry member := by
    rcases List.mem_cons.mp member with rfl | old
    · exact fun answered => other (Event.answeredTicket answered)
    · exact awaits.unanswered entry old

namespace Attends

theorem join (attends : log.Attends callers seats) {joined : List Wait} {more : Nat}
    (less : seats ≤ more) (known : ∀ x ∈ joined, x ∈ callers ∨ log.Awaits x) :
    log.Attends joined more where
  seated entry member ticket about :=
    Nat.lt_of_lt_of_le (attends.seated entry member ticket about) less
  awaits x member := (known x member).elim (attends.awaits x) id
  once := attends.once

theorem fewer (attends : log.Attends callers seats) {others : List Wait} {more : Nat}
    (less : seats ≤ more) (subset : others ⊆ callers) : log.Attends others more :=
  attends.join less fun _ member => .inl (subset member)

theorem past (attends : log.Attends callers seats)
    (other : ∀ x ∈ callers, event.ticket? ≠ some x.seeker.ticket)
    (seated : ∀ ticket, event.ticket? = some ticket → ticket < seats)
    (new : ∀ ticket, event.answered? = some ticket →
      ∀ entry ∈ log, entry.2.answered? ≠ some ticket) :
    Attends ((now,event) :: log) callers seats where
  seated entry member := by
    rcases List.mem_cons.mp member with rfl | old
    · exact seated
    · exact attends.seated entry old
  awaits x member := (attends.awaits x member).past (other x member)
  once := by
    cases answer : event.answered? with
    | none =>
      simp only [List.filterMap_cons,answer]
      exact attends.once
    | some ticket =>
      simp only [List.filterMap_cons,answer]
      refine List.nodup_cons.mpr ⟨fun again => ?_,attends.once⟩
      obtain ⟨entry,member,same⟩ := List.mem_filterMap.mp again
      exact new ticket answer entry member same

theorem silent (attends : log.Attends callers seats) (silent : event.ticket? = none) :
    Attends ((now,event) :: log) callers seats := by
  refine attends.past (by simp [silent]) (by simp [silent]) fun ticket answered => ?_
  exact absurd ((Event.answeredTicket answered).symm.trans silent) (by simp)

end Attends
end Log
end ConnectionPool
