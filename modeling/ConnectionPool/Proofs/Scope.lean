import Mathlib.Data.Nat.Count
import ConnectionPool.Proofs.News
/-! What is left of a world when only some of its pools are kept in view. All numbers that were
given out to the others are passed over, so the numbers that stay close ranks, in their old order. -/
namespace ConnectionPool

def rank (inside : Nat → Bool) (n : Nat) : Nat := Nat.count (inside · = true) n

section Rank
variable {inside : Nat → Bool} {m n : Nat}

theorem rankIn (own : inside n = true) : rank inside (n + 1) = rank inside n + 1 :=
  (Nat.count_succ ..).trans (congrArg (rank inside n + ·) (if_pos own))

theorem rankOut (away : inside n = false) : rank inside (n + 1) = rank inside n :=
  (Nat.count_succ ..).trans (congrArg (rank inside n + ·) (if_neg (by simp [away])))

theorem rankSame (own : inside m = true) (mine : inside n = true) :
    rank inside m = rank inside n ↔ m = n :=
  ⟨fun same => Nat.count_injective own mine same,fun same => congrArg (rank inside) same⟩

theorem rankBelow (own : inside m = true) (below : m < n) : rank inside m < rank inside n :=
  Nat.count_strict_mono own below

theorem rankFilter (own : inside n = true) (ns : List Nat) :
    ((ns.filter (· ≠ n)).filter inside).map (rank inside) =
      ((ns.filter inside).map (rank inside)).filter (· ≠ rank inside n) := by
  rw [List.filter_map,List.filter_filter,List.filter_filter]
  refine congrArg (List.map (rank inside)) (List.filter_congr fun m _ => ?_)
  cases mine : inside m with
  | false => simp
  | true => simp [rankSame mine own]

theorem rankMem (own : inside n = true) (ns : List Nat) :
    rank inside n ∈ (ns.filter inside).map (rank inside) ↔ n ∈ ns := by
  simp only [List.mem_map,List.mem_filter]
  constructor
  · rintro ⟨m,⟨member,mine⟩,same⟩
    exact (rankSame mine own).mp same ▸ member
  · exact fun member => ⟨n,⟨member,own⟩,rfl⟩

end Rank

def thin {α : Type} : (Nat → Bool) → List α → List α
  | _,[] => []
  | inside,x :: xs =>
      if inside 0 then x :: thin (fun i => inside (i + 1)) xs
      else thin (fun i => inside (i + 1)) xs

section Thin
variable {α β : Type} {inside : Nat → Bool} {i : Nat}

theorem rankNext (inside : Nat → Bool) (i : Nat) :
    rank inside (i + 1) = rank (fun j => inside (j + 1)) i + if inside 0 then 1 else 0 :=
  Nat.count_succ' ..

theorem thinLength (inside : Nat → Bool) (xs : List α) :
    (thin inside xs).length = rank inside xs.length := by
  -- Further down the list the places count from there on.
  induction xs generalizing inside with
  | nil => rfl
  | cons x xs ih =>
    rw [thin,List.length_cons,rankNext,← ih]
    split <;> simp

theorem thinAt (own : inside i = true) (xs : List α) : (thin inside xs)[rank inside i]? = xs[i]? := by
  induction xs generalizing inside i with
  | nil => rfl
  | cons x xs ih =>
    cases i with
    | zero => simp [thin,own,rank]
    | succ i =>
      have later : (thin (fun j => inside (j + 1)) xs)[rank (fun j => inside (j + 1)) i]? =
          xs[i]? := ih own
      rw [thin,rankNext,List.getElem?_cons_succ,← later]
      split <;> simp

theorem thinAppend (xs : List α) (x : α) :
    thin inside (xs ++ [x]) = thin inside xs ++ if inside xs.length then [x] else [] := by
  induction xs generalizing inside with
  | nil => simp [thin]
  | cons y ys ih =>
    rw [List.cons_append,thin,thin,ih,List.length_cons]
    split <;> simp

theorem thinSetIn (own : inside i = true) (xs : List α) (x : α) :
    thin inside (xs.set i x) = (thin inside xs).set (rank inside i) x := by
  induction xs generalizing inside i with
  | nil => rfl
  | cons y ys ih =>
    cases i with
    | zero => simp [thin,own,rank]
    | succ i =>
      have later : thin (fun j => inside (j + 1)) (ys.set i x) =
          (thin (fun j => inside (j + 1)) ys).set (rank (fun j => inside (j + 1)) i) x := ih own
      rw [List.set_cons_succ,thin,thin,rankNext,later]
      split <;> simp

theorem thinSetOut (away : inside i = false) (xs : List α) (x : α) :
    thin inside (xs.set i x) = thin inside xs := by
  induction xs generalizing inside i with
  | nil => rfl
  | cons y ys ih =>
    cases i with
    | zero => simp [thin,away]
    | succ i =>
      have later : thin (fun j => inside (j + 1)) (ys.set i x) =
          thin (fun j => inside (j + 1)) ys := ih away
      rw [List.set_cons_succ,thin,thin,later]

theorem memThin {xs : List α} {x : α} :
    x ∈ thin inside xs ↔ ∃ i, inside i = true ∧ xs[i]? = some x := by
  constructor
  · intro member
    induction xs generalizing inside with
    | nil => cases member
    | cons y ys ih =>
      rw [thin] at member
      split at member
      · rename_i own
        rcases List.mem_cons.mp member with rfl | later
        · exact ⟨0,own,rfl⟩
        · obtain ⟨i,mine,there⟩ := ih later
          exact ⟨i + 1,mine,there⟩
      · obtain ⟨i,mine,there⟩ := ih member
        exact ⟨i + 1,mine,there⟩
  · rintro ⟨i,own,there⟩
    exact List.mem_of_getElem? ((thinAt own xs).trans there)

section Images
variable {g : α → β} {xs : List α}

theorem thinImages (g : α → β) (inside : Nat → Bool) (xs : List α) :
    (thin inside (xs.map g)).length = rank inside xs.length :=
  (thinLength ..).trans (congrArg (rank inside) (List.length_map ..))

theorem thinImageAt (own : inside i = true) (g : α → β) (xs : List α) :
    (thin inside (xs.map g))[rank inside i]? = (xs[i]?).map g :=
  (thinAt own _).trans (List.getElem?_map ..)

theorem thinImageSetIn (own : inside i = true) (x : α) :
    thin inside ((xs.set i x).map g) = (thin inside (xs.map g)).set (rank inside i) (g x) :=
  (congrArg (thin inside) List.map_set).trans (thinSetIn own ..)

theorem thinImageSetOut (away : inside i = false) (x : α) :
    thin inside ((xs.set i x).map g) = thin inside (xs.map g) :=
  (congrArg (thin inside) List.map_set).trans (thinSetOut away ..)

theorem thinImageAddIn (own : inside xs.length = true) (x : α) :
    thin inside ((xs ++ [x]).map g) = thin inside (xs.map g) ++ [g x] := by
  rw [List.map_append,List.map_singleton,thinAppend,List.length_map,if_pos own]

theorem thinImageAddOut (away : inside xs.length = false) (x : α) :
    thin inside ((xs ++ [x]).map g) = thin inside (xs.map g) := by
  rw [List.map_append,List.map_singleton,thinAppend,List.length_map,away]
  exact List.append_nil _

end Images
end Thin

/-- Which numbers belong to the pools in view. Ids start at one. -/
structure Scope where
  pool : Nat → Bool
  door : Nat → Bool
  slot : Nat → Bool
  conn : Nat → Bool
  id : Nat → Bool
  key : Nat → Bool
  zero : id 0 = true

section Views
variable (scope : Scope)

def Wrapper.within (w : Wrapper) : Wrapper :=
  { w with key := rank scope.key w.key, conn := rank scope.conn w.conn, id := rank scope.id w.id }

def Seeker.within (seeker : Seeker) : Seeker :=
  { seeker with
    ticket := rank scope.slot seeker.ticket
    door := rank scope.door seeker.door
    pool := rank scope.pool seeker.pool }

def Wait.within (x : Wait) : Wait := { x with seeker := x.seeker.within scope }

def Caller.within : Caller → Caller
  | pool n => .pool (rank scope.pool n)
  | holder key => .holder (rank scope.key key)

def Event.within : Event → Event
  | refused n cause => .refused (rank scope.pool n) cause
  | opened n conn id source =>
      .opened (rank scope.pool n) (rank scope.conn conn) (rank scope.id id) source
  | call caller conn request reply =>
      .call (caller.within scope) (rank scope.conn conn) request reply
  | created n conn => .created (rank scope.pool n) (rank scope.conn conn)
  | rejected n w => .rejected (rank scope.pool n) (w.within scope)
  | discarded n conn => .discarded (rank scope.pool n) (rank scope.conn conn)
  | reclaimed n w held => .reclaimed (rank scope.pool n) (w.within scope) held
  | blocked n ticket => .blocked (rank scope.pool n) (rank scope.slot ticket)
  | resumed n ticket waited => .resumed (rank scope.pool n) (rank scope.slot ticket) waited
  | granted n ticket w took =>
      .granted (rank scope.pool n) (rank scope.slot ticket) (w.within scope) took
  | denied n ticket error => .denied (rank scope.pool n) (rank scope.slot ticket) error
  | staleReturn n w => .staleReturn (rank scope.pool n) (w.within scope)
  | returned n w healthy held => .returned (rank scope.pool n) (w.within scope) healthy held
  | swept n lent kept => .swept (rank scope.pool n) lent kept
  | notified n => .notified (rank scope.pool n)

def Pool.within (p : Pool) : Pool :=
  { p with
    number := rank scope.pool p.number
    idle := p.idle.map (Wrapper.within scope)
    active := p.active.map (Wrapper.within scope) }

def Pick.within : Pick → Pick
  | candidate w => .candidate (w.within scope)
  | failed error => .failed error
  | nothing => .nothing

def Outcome.within : Outcome → Outcome
  | granted w => .granted (w.within scope)
  | failed error => .failed error
  | blocked => .blocked
  | overrun => .overrun

def Handle.within (h : Handle) : Handle :=
  { h with wrapper := h.wrapper.within scope, pool := rank scope.pool h.pool }

def Slot.within : Slot → Slot
  | held h => .held (h.within scope)
  | pending => .pending
  | empty => .empty

end Views

namespace Scope

def awaits (scope : Scope) (x : Wait) : Bool := scope.pool x.seeker.pool

/-- Calls are in view with the connections they are made on, all else with the pool it is about. -/
def sees (scope : Scope) : Event → Bool
  | .call _ conn _ _ => scope.conn conn
  | .refused n _ | .opened n _ _ _ | .created n _ | .rejected n _ | .discarded n _
  | .reclaimed n _ _ | .blocked n _ | .resumed n _ _ | .granted n _ _ _ | .denied n _ _
  | .staleReturn n _ | .returned n _ _ _ | .swept n _ _ | .notified n => scope.pool n

def callers (scope : Scope) (xs : List Wait) : List Wait :=
  (xs.filter scope.awaits).map (Wait.within scope)

def events (scope : Scope) (journal : List Event) : List Event :=
  (journal.filter scope.sees).map (Event.within scope)

end Scope

/-- How the connections of an outside can be told apart: those inside answer as if there were no
others, and what is done to the others leaves no trace on them. -/
structure Platform.Division {σ : Type} (P : Platform σ) (inside : Nat → Bool) where
  part : σ → σ
  Sized : Shared σ → Prop
  Narrows : (σ → σ) → Option (σ → σ) → Prop
  endures : Shared.Endures P Sized
  answers {conn : Nat} (own : inside conn = true) (request : Request) (o : σ) :
    P.answer (rank inside conn) request (part o) = (P.answer conn request o).map id part
  ignores {conn : Nat} (away : inside conn = false) (request : Request) (o : σ) :
    part (P.answer conn request o).2 = part o
  refuses {conn : Nat} {source : DataSource} {cause : Cause} {o o' : σ}
    (connect : P.connect conn source o = (.error cause,o')) :
    P.connect (rank inside conn) source (part o) = (.error cause,part o') ∧ part o' = part o
  opens {s : Shared σ} {source : DataSource} {o : σ} (sized : Sized s)
    (connect : P.connect s.opened source s.outside = (.ok (),o)) :
    if inside s.opened then
      P.connect (rank inside s.opened) source (part s.outside) = (.ok (),part o)
    else part o = part s.outside
  keeps {change change' : σ → σ} (narrows : Narrows change (some change')) (o : σ) :
    part (change o) = change' (part o)
  passes {change : σ → σ} (narrows : Narrows change none) (o : σ) : part (change o) = part o
  alters {change : σ → σ} {left : Option (σ → σ)} (narrows : Narrows change left) {s : Shared σ}
    (sized : Sized s) : Sized { s with outside := change s.outside }

def Shared.within {σ : Type} (scope : Scope) (f : σ → σ) (s : Shared σ) : Shared σ where
  now := s.now
  outside := f s.outside
  opened := rank scope.conn s.opened
  nextId := rank scope.id s.nextId
  nextKey := rank scope.key s.nextKey
  live := (s.live.filter scope.key).map (rank scope.key)
  waiting := scope.callers s.waiting
  woken := scope.callers s.woken
  journal := scope.events s.journal

def World.within {σ : Type} (scope : Scope) (f : σ → σ) (w : World σ) : World σ where
  shared := w.shared.within scope f
  pools := thin scope.pool (w.pools.map (Pool.within scope))
  doors := thin scope.door (w.doors.map (Option.map (rank scope.pool)))
  slots := thin scope.slot (w.slots.map (Slot.within scope))

namespace Scope
variable (scope : Scope) (own : Bool)

structure Owns (w : Wrapper) : Prop where
  key : scope.key w.key = own
  conn : scope.conn w.conn = own
  id : scope.id w.id = own

structure Issues {σ : Type} (s t : Shared σ) : Prop where
  conn {k : Nat} (above : s.opened ≤ k) (below : k < t.opened) : scope.conn k = own
  id {k : Nat} (above : s.nextId ≤ k) (below : k < t.nextId) : scope.id k = own
  key {k : Nat} (above : s.nextKey ≤ k) (below : k < t.nextKey) : scope.key k = own

instance {σ : Type} (s t : Shared σ) : Decidable (scope.Issues own s t) :=
  decidable_of_iff ((∀ k < t.opened, s.opened ≤ k → scope.conn k = own) ∧
      (∀ k < t.nextId, s.nextId ≤ k → scope.id k = own) ∧
      ∀ k < t.nextKey, s.nextKey ≤ k → scope.key k = own)
    ⟨fun ⟨conn,id,key⟩ => ⟨fun above below => conn _ below above,
      fun above below => id _ below above,fun above below => key _ below above⟩,
     fun issues => ⟨fun _ below above => issues.conn above below,
      fun _ below above => issues.id above below,fun _ below above => issues.key above below⟩⟩

end Scope

namespace Shared
variable {σ : Type} {s t u : Shared σ}

structure Grows (s t : Shared σ) : Prop where
  opened : s.opened ≤ t.opened
  ids : s.nextId ≤ t.nextId
  keys : s.nextKey ≤ t.nextKey

theorem Grows.refl (s : Shared σ) : s.Grows s := ⟨Nat.le_refl _,Nat.le_refl _,Nat.le_refl _⟩

theorem Grows.trans (first : s.Grows t) (second : t.Grows u) : s.Grows u where
  opened := Nat.le_trans first.opened second.opened
  ids := Nat.le_trans first.ids second.ids
  keys := Nat.le_trans first.keys second.keys

theorem SameBooks.grows (same : s.SameBooks t) : s.Grows t where
  opened := Nat.le_of_eq same.opened.symm
  ids := Nat.le_of_eq same.nextId.symm
  keys := Nat.le_of_eq same.nextKey.symm

theorem notifyGrows (s : Shared σ) (n : Nat) : s.Grows (s.notify n) :=
  ⟨Nat.le_refl _,Nat.le_refl _,Nat.le_refl _⟩

end Shared

namespace Scope.Issues
variable {σ : Type} {scope : Scope} {own : Bool} {s t u : Shared σ}

theorem upTo (issues : scope.Issues own s u) (grows : t.Grows u) : scope.Issues own s t where
  conn above below := issues.conn above (Nat.lt_of_lt_of_le below grows.opened)
  id above below := issues.id above (Nat.lt_of_lt_of_le below grows.ids)
  key above below := issues.key above (Nat.lt_of_lt_of_le below grows.keys)

theorem since (issues : scope.Issues own s u) (grows : s.Grows t) : scope.Issues own t u where
  conn above below := issues.conn (Nat.le_trans grows.opened above) below
  id above below := issues.id (Nat.le_trans grows.ids above) below
  key above below := issues.key (Nat.le_trans grows.keys above) below

end Scope.Issues
end ConnectionPool
