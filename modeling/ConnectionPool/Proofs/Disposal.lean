import ConnectionPool.Proofs.Rebuild
import ConnectionPool.Proofs.Relay
import ConnectionPool.Proofs.Server
import ConnectionPool.Proofs.Vetting
/-! How connections are got rid of, as the journal has it. What is called on a connection hangs on what
it answers itself; and where connections do not hang on one another, each of many gets the calls that
it would get alone. -/
namespace ConnectionPool

inductive Attempt (pool conn : Nat) : List Event → Prop
  | clear {mode : Except Cause Bool} (clear : mode ≠ .ok false) :
      Attempt pool conn [.call (.pool pool) conn .autoCommit mode]
  | rollback {rolled : Except Cause Unit} : Attempt pool conn
      [.call (.pool pool) conn .rollback rolled,.call (.pool pool) conn .autoCommit (.ok false)]

/-- What is written while a connection is got rid of, newest first. No failure ends it early, and only
what the connection has answered before decides whether a call is made. -/
inductive Disposal (pool conn : Nat) : List Event → Prop
  | shut : Disposal pool conn
      [.discarded pool conn,.call (.pool pool) conn .isClosed (.ok true)]
  | closed {shut : Except Cause Bool} {attempt : List Event} {closed : Except Cause Unit}
      (unsure : shut ≠ .ok true) (attempted : Attempt pool conn attempt) :
      Disposal pool conn (.discarded pool conn :: .call (.pool pool) conn .close closed ::
        (attempt ++ [.call (.pool pool) conn .isClosed shut]))

def Platform.disposal {σ : Type} (P : Platform σ) (pool conn : Nat) (o : σ) : List Event × σ :=
  (((Shared.initial o).dispose P pool conn).journal,((Shared.initial o).dispose P pool conn).outside)

def Platform.disposals {σ : Type} (P : Platform σ) (pool : Nat) :
    List Wrapper → σ → List (List Event)
  | [],_ => []
  | x :: ws,o => (P.disposal pool x.conn o).1 :: P.disposals pool ws (P.disposal pool x.conn o).2

/-- The connections of an outside do not hang on one another: what one answers follows from its own
part of the outside, and no call on it changes the part of another. -/
structure Platform.Apart {σ τ : Type} (P : Platform σ) (own : Nat → σ → τ) : Prop where
  answers {conn : Nat} {o o' : σ} (request : Request) (same : own conn o = own conn o') :
    (P.answer conn request o).1 = (P.answer conn request o').1 ∧
      own conn (P.answer conn request o).2 = own conn (P.answer conn request o').2
  others {conn other : Nat} (apart : other ≠ conn) (request : Request) (o : σ) :
    own other (P.answer conn request o).2 = own other o

section Alone
variable {σ τ : Type} {P : Platform σ} {own : Nat → σ → τ} {caller : Caller}
  {pool conn other : Nat} {o o' : σ} {s t : Shared σ} {ws : List Wrapper}

namespace Shared

theorem rollbackWritten (P : Platform σ) (pool conn : Nat) (s : Shared σ) :
    ∃ attempt, Attempt pool conn attempt ∧
      (s.rollbackUnlessAutoCommit P (.pool pool) conn).2.journal = attempt ++ s.journal := by
  unfold rollbackUnlessAutoCommit
  rcases mode : s.ask P (.pool pool) conn .autoCommit with ⟨reply,t⟩
  have told := askedJournal mode
  match reply with
  | .error _ => exact ⟨_,.clear (by simp),told⟩
  | .ok true => exact ⟨_,.clear (by simp),told⟩
  | .ok false => exact ⟨_,.rollback,congrArg (List.cons _) told⟩

theorem disposeWritten (P : Platform σ) (pool conn : Nat) (s : Shared σ) :
    ∃ part, Disposal pool conn part ∧ (s.dispose P pool conn).journal = part ++ s.journal := by
  unfold dispose
  rcases asked : s.ask P (.pool pool) conn .isClosed with ⟨reply,t⟩
  have told := askedJournal asked
  obtain ⟨attempt,attempted,written⟩ := t.rollbackWritten P pool conn
  let cleared := (t.rollbackUnlessAutoCommit P (.pool pool) conn).2
  have last : (cleared.ask P (.pool pool) conn .close).2.journal =
      .call (.pool pool) conn .close (cleared.ask P (.pool pool) conn .close).1 ::
        (attempt ++ [.call (.pool pool) conn .isClosed reply]) ++ s.journal := by
    have noted : cleared.journal = _ := written.trans (congrArg (attempt ++ ·) told)
    refine (congrArg (List.cons _) noted).trans ?_
    rw [List.cons_append,List.append_assoc,List.singleton_append]
    rfl
  match reply with
  | .error _ => exact ⟨_,.closed (by simp) attempted,congrArg (List.cons _) last⟩
  | .ok false => exact ⟨_,.closed (by simp) attempted,congrArg (List.cons _) last⟩
  | .ok true => exact ⟨_,.shut,congrArg (List.cons _) told⟩

theorem disposeAlone (P : Platform σ) (pool conn : Nat) (s : Shared σ) :
    s.dispose P pool conn = { s with
      outside := (P.disposal pool conn s.outside).2
      journal := (P.disposal pool conn s.outside).1 ++ s.journal } := by
  let f (t : Shared σ) : Shared σ :=
    { s with outside := t.outside, journal := t.journal ++ s.journal }
  have relays : Relays P P f (.pool pool) (.pool pool) conn conn := fun _ _ => rfl
  exact relays.dispose (fun _ => rfl) (initial s.outside)

end Shared

theorem disposalDisposal (P : Platform σ) (pool conn : Nat) (o : σ) :
    Disposal pool conn (P.disposal pool conn o).1 := by
  obtain ⟨part,disposal,written⟩ := (Shared.initial o).disposeWritten P pool conn
  have same : (P.disposal pool conn o).1 = part := written.trans (List.append_nil part)
  rwa [same]

structure Agree (own : Nat → σ → τ) (conn : Nat) (s t : Shared σ) : Prop where
  part : own conn s.outside = own conn t.outside
  journal : s.journal = t.journal

namespace Platform.Apart
variable (apart : P.Apart own)
include apart

theorem asks (agree : Agree own conn s t) (caller : Caller) (request : Request) :
    (s.ask P caller conn request).1 = (t.ask P caller conn request).1 ∧
      Agree own conn (s.ask P caller conn request).2 (t.ask P caller conn request).2 := by
  obtain ⟨reply,part⟩ := apart.answers request agree.part
  refine ⟨reply,part,?_⟩
  exact congrArg₂ (fun reply journal => .call caller conn request reply :: journal) reply
    agree.journal

theorem rollbacks (agree : Agree own conn s t) (caller : Caller) :
    Agree own conn (s.rollbackUnlessAutoCommit P caller conn).2
      (t.rollbackUnlessAutoCommit P caller conn).2 := by
  obtain ⟨reply,after⟩ := apart.asks agree caller .autoCommit
  unfold Shared.rollbackUnlessAutoCommit
  generalize s.ask P caller conn .autoCommit = one at reply after
  generalize t.ask P caller conn .autoCommit = other at reply after
  obtain ⟨mode,u⟩ := one
  obtain ⟨_,v⟩ := other
  obtain rfl : mode = _ := reply
  match mode with
  | .error _ => exact after
  | .ok true => exact after
  | .ok false => exact (apart.asks after caller .rollback).2

theorem disposes (agree : Agree own conn s t) (pool : Nat) :
    Agree own conn (s.dispose P pool conn) (t.dispose P pool conn) := by
  obtain ⟨reply,after⟩ := apart.asks agree (.pool pool) .isClosed
  unfold Shared.dispose
  generalize s.ask P (.pool pool) conn .isClosed = one at reply after
  generalize t.ask P (.pool pool) conn .isClosed = other at reply after
  obtain ⟨shut,u⟩ := one
  obtain ⟨_,v⟩ := other
  obtain rfl : shut = _ := reply
  have closed := (apart.asks (apart.rollbacks after (.pool pool)) (.pool pool) .close).2
  match shut with
  | .error _ => exact ⟨closed.part,congrArg (List.cons _) closed.journal⟩
  | .ok false => exact ⟨closed.part,congrArg (List.cons _) closed.journal⟩
  | .ok true => exact ⟨after.part,congrArg (List.cons _) after.journal⟩

theorem disposal (same : own conn o = own conn o') (pool : Nat) :
    (P.disposal pool conn o).1 = (P.disposal pool conn o').1 := by
  have agree : Agree own conn (.initial o) (.initial o') := ⟨same,rfl⟩
  exact (apart.disposes agree pool).journal

theorem talks (talks : s.Talks P caller conn t) (away : other ≠ conn) :
    own other t.outside = own other s.outside := by
  induction talks with
  | silent => rfl
  | ask _ request ih => exact (apart.others away request _).trans ih

theorem elsewhere (away : other ≠ conn) (pool : Nat) (o : σ) :
    own other (P.disposal pool conn o).2 = own other o := by
  obtain ⟨t,talks,_,same⟩ := (Shared.initial o).disposeParts P pool conn
  rw [Platform.disposal,same]
  exact apart.talks talks away

theorem disposals (once : (ws.map Wrapper.conn).Nodup)
    (same : ∀ x ∈ ws, own x.conn o' = own x.conn o) (pool : Nat) :
    P.disposals pool ws o' = ws.map fun x => (P.disposal pool x.conn o).1 := by
  induction ws generalizing o' with
  | nil => rfl
  | cons x ws ih =>
    obtain ⟨first,later⟩ := List.forall_mem_cons.mp same
    obtain ⟨away,once⟩ := List.nodup_cons.mp once
    rw [Platform.disposals,List.map_cons,apart.disposal first]
    refine congrArg (List.cons _) (ih once fun y member => ?_)
    have other : y.conn ≠ x.conn := fun same => away (same ▸ List.mem_map_of_mem member)
    exact (apart.elsewhere other pool o').trans (later y member)

end Platform.Apart

theorem disposalsEach (P : Platform σ) (pool : Nat) (ws : List Wrapper) (o : σ) :
    List.Forall₂ (fun x part => Disposal pool x.conn part) ws (P.disposals pool ws o) := by
  induction ws generalizing o with
  | nil => exact .nil
  | cons x ws ih => exact .cons (disposalDisposal P pool x.conn o) (ih _)

end Alone

namespace Pool
variable {σ : Type} {s : Shared σ} {p : Pool} {key : Nat}

theorem discardAllJournal (P : Platform σ) (ws : List Wrapper) (p : Pool) (s : Shared σ) :
    (discardAll P ws p s).2.journal =
      (P.disposals p.number ws s.outside).reverse.flatten ++ s.journal := by
  induction ws generalizing p s with
  | nil => rfl
  | cons x ws ih =>
    have alone := (s.invalidate x).disposeAlone P p.number x.conn
    rw [discardAll,ih,Platform.disposals,List.reverse_cons,List.flatten_append,
      List.flatten_singleton,List.append_assoc]
    simp only [discard,count,alone]
    rfl

theorem discardAllLive (P : Platform σ) (ws : List Wrapper) (p : Pool) (s : Shared σ) :
    key ∈ (discardAll P ws p s).2.live ↔ key ∈ s.live ∧ key ∉ ws.map Wrapper.key := by
  induction ws generalizing p s with
  | nil => simp [discardAll]
  | cons x ws ih =>
    have dead : (p.discard P x s).2.live = s.live.filter (· ≠ x.key) :=
      ((s.invalidate x).disposeBooks P p.number x.conn).live
    rw [discardAll,ih,dead]
    simp [and_assoc]

end Pool

theorem Memory.connectionsApart :
    platform.Apart fun conn (server : Server) => server.connections[conn]? where
  answers {conn o o'} request same := by
    change (o.answer conn request).1 = (o'.answer conn request).1 ∧
      (o.answer conn request).2.connections[conn]? = (o'.answer conn request).2.connections[conn]?
    have same : o.connections[conn]? = o'.connections[conn]? := same
    unfold Server.answer
    rw [← same]
    cases here : o.connections[conn]? with
    | none => exact ⟨rfl,here.trans (here.symm.trans same)⟩
    | some c =>
      have inside := (List.getElem?_eq_some_iff.mp here).1
      have inside' := (List.getElem?_eq_some_iff.mp (same.symm.trans here)).1
      refine ⟨rfl,?_⟩
      exact (List.getElem?_set_self inside).trans (List.getElem?_set_self inside').symm
  others apart request server := (answerElsewhere server _ request).2 _ apart

end ConnectionPool
