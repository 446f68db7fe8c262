import ConnectionPool.Health
/-! Calls on one connection change nothing but the outside and the journal. A connection is let go
of with a call that tells it to close or finds it closed. -/
namespace ConnectionPool

namespace Event

def isNews : Event → Bool
  | opened _ _ _ _ => true
  | call _ _ _ _ => true
  | _ => false

def concerns (conn : Nat) : Event → Bool
  | opened _ other _ _ => other == conn
  | call _ other _ _ => other == conn
  | _ => false

theorem concernsNews {conn : Nat} {event : Event} (about : event.concerns conn) : event.isNews := by
  cases event <;> first | rfl | contradiction

end Event

def news (journal : List Event) : List Event := journal.filter Event.isNews

def newest? (conn : Nat) (journal : List Event) : Option Event :=
  journal.find? (Event.concerns conn)

theorem newestInNews (conn : Nat) (journal : List Event) :
    newest? conn (news journal) = newest? conn journal := by
  unfold newest? news
  rw [List.find?_filter]
  congr 1
  funext event
  cases about : event.concerns conn with
  | false => simp
  | true => simp [Event.concernsNews about]

theorem openedInNews {pool conn id : Nat} {source : DataSource} {journal : List Event} :
    .opened pool conn id source ∈ news journal ↔ .opened pool conn id source ∈ journal := by
  simp [news,Event.isNews]

/-- The last that happened to a connection is that a pool told it to close or found it closed. -/
def Parted (pool conn : Nat) (journal : List Event) : Prop :=
  newest? conn journal = some (.call (.pool pool) conn .isClosed (.ok true)) ∨
    ∃ reply, newest? conn journal = some (.call (.pool pool) conn .close reply)

namespace Shared
variable {σ : Type}

def SameBooks (s t : Shared σ) : Prop := t = { s with outside := t.outside, journal := t.journal }

inductive Talks (P : Platform σ) (caller : Caller) (conn : Nat) (s : Shared σ) : Shared σ → Prop
  | silent : Talks P caller conn s s
  | ask {t} (before : Talks P caller conn s t) (request : Request) :
      Talks P caller conn s (t.ask P caller conn request).2

variable {P : Platform σ} {caller : Caller} {conn : Nat} {s t u : Shared σ}

namespace SameBooks

theorem refl (s : Shared σ) : SameBooks s s := rfl

theorem trans (first : SameBooks s t) (second : SameBooks t u) : SameBooks s u := by
  unfold SameBooks at *
  rw [second,first]

theorem now (same : SameBooks s t) : t.now = s.now := by rw [same]

theorem opened (same : SameBooks s t) : t.opened = s.opened := by rw [same]

theorem nextId (same : SameBooks s t) : t.nextId = s.nextId := by rw [same]

theorem nextKey (same : SameBooks s t) : t.nextKey = s.nextKey := by rw [same]

theorem live (same : SameBooks s t) : t.live = s.live := by rw [same]

theorem waiting (same : SameBooks s t) : t.waiting = s.waiting := by rw [same]

theorem woken (same : SameBooks s t) : t.woken = s.woken := by rw [same]

end SameBooks

theorem noteBooks (s : Shared σ) (event : Event) : SameBooks s (s.note event) := rfl

namespace Talks

theorem one (P : Platform σ) (caller : Caller) (conn : Nat) (request : Request) (s : Shared σ) :
    Talks P caller conn s (s.ask P caller conn request).2 :=
  .ask .silent request

theorem trans (first : Talks P caller conn s t) (second : Talks P caller conn t u) :
    Talks P caller conn s u := by
  induction second with
  | silent => exact first
  | ask _ request ih => exact ih.ask request

theorem ends {r : α × Shared σ} {a : α} (talks : Talks P caller conn s r.2) (same : r = (a,t)) :
    Talks P caller conn s t := by
  rw [same] at talks
  exact talks

theorem books (talks : Talks P caller conn s t) : SameBooks s t := by
  induction talks with
  | silent => rfl
  | ask _ request ih => exact ih.trans rfl

theorem elsewhere (talks : Talks P caller conn s t) {other : Nat} (apart : other ≠ conn) :
    newest? other t.journal = newest? other s.journal := by
  induction talks with
  | silent => rfl
  | ask _ request ih =>
    rw [← ih]
    simp [Shared.ask,note,newest?,Event.concerns,Ne.symm apart]

theorem openings (talks : Talks P caller conn s t) {pool other id : Nat} {source : DataSource} :
    .opened pool other id source ∈ t.journal ↔ .opened pool other id source ∈ s.journal := by
  induction talks with
  | silent => rfl
  | ask _ request ih => simp [Shared.ask,note,ih]

end Talks

theorem rollbackTalks (P : Platform σ) (caller : Caller) (conn : Nat) (s : Shared σ) :
    Talks P caller conn s (s.rollbackUnlessAutoCommit P caller conn).2 := by
  have first := Talks.one P caller conn .autoCommit s
  unfold rollbackUnlessAutoCommit
  rcases h : s.ask P caller conn .autoCommit with ⟨reply,t⟩
  rw [h] at first
  match reply with
  | .error _ => exact first
  | .ok true => exact first
  | .ok false => exact first.ask .rollback

theorem pingTalks (P : Platform σ) (caller : Caller) (conn : Nat) (sql : String) (s : Shared σ) :
    Talks P caller conn s (s.ping P caller conn sql).2 := by
  have first := Talks.one P caller conn (.execute sql) s
  unfold ping
  rcases h : s.ask P caller conn (.execute sql) with ⟨reply,t⟩
  rw [h] at first
  match reply with
  | .error _ => exact first
  | .ok _ => exact first.trans (rollbackTalks P caller conn t)

theorem checkHealthTalks (P : Platform σ) (caller : Caller) (conn unusedFor : Nat)
    (settings : Settings) (s : Shared σ) :
    Talks P caller conn s (s.checkHealth P caller conn unusedFor settings).2 := by
  have first := Talks.one P caller conn .isClosed s
  unfold checkHealth
  rcases h : s.ask P caller conn .isClosed with ⟨reply,t⟩
  rw [h] at first
  match reply with
  | .error _ => exact first
  | .ok true => exact first
  | .ok false =>
    simp only
    split
    · have second := first.trans (pingTalks P caller conn settings.pingQuery t)
      rcases hp : t.ping P caller conn settings.pingQuery with ⟨answer,u⟩
      rw [hp] at second
      match answer with
      | .ok () => exact second
      | .error _ => exact second.ask .close
    · exact first

theorem setUpTalks (P : Platform σ) (caller : Caller) (conn : Nat) (source : DataSource)
    (s : Shared σ) : Talks P caller conn s (s.setUp P caller conn source).2 := by
  have modes : Talks P caller conn s (s.setUpAutoCommit P caller conn source.autoCommit).2 := by
    unfold setUpAutoCommit
    split
    · exact .silent
    · rename_i on _
      have first := Talks.one P caller conn .autoCommit s
      rcases h : s.ask P caller conn .autoCommit with ⟨reply,t⟩
      rw [h] at first
      match reply with
      | .error _ => exact first
      | .ok current =>
        simp only
        split
        · exact first
        · exact first.ask (.setAutoCommit on)
  unfold setUp
  rcases h : s.setUpAutoCommit P caller conn source.autoCommit with ⟨reply,t⟩
  rw [h] at modes
  match reply with
  | .error _ => exact modes
  | .ok () =>
    simp only [setUpIsolation]
    split
    · exact modes
    · exact modes.ask _

theorem newestAsked (P : Platform σ) (caller : Caller) (conn : Nat) (request : Request)
    (s : Shared σ) :
    newest? conn (s.ask P caller conn request).2.journal =
      some (.call caller conn request (s.ask P caller conn request).1) := by
  simp [ask,note,newest?,Event.concerns]

theorem disposeParts (P : Platform σ) (pool conn : Nat) (s : Shared σ) :
    ∃ t, Talks P (.pool pool) conn s t ∧ Parted pool conn t.journal ∧
      s.dispose P pool conn = t.note (.discarded pool conn) := by
  have first := Talks.one P (.pool pool) conn .isClosed s
  have asked := newestAsked P (.pool pool) conn .isClosed s
  have closing (t : Shared σ) (talks : Talks P (.pool pool) conn s t) :
      ∃ u, Talks P (.pool pool) conn s u ∧ Parted pool conn u.journal ∧
        ((t.rollbackUnlessAutoCommit P (.pool pool) conn).2.ask P (.pool pool) conn .close).2.note
          (.discarded pool conn) = u.note (.discarded pool conn) :=
    ⟨_,(talks.trans (rollbackTalks P (.pool pool) conn t)).ask .close,
      .inr ⟨_,newestAsked P (.pool pool) conn .close _⟩,rfl⟩
  unfold dispose
  rcases h : s.ask P (.pool pool) conn .isClosed with ⟨reply,t⟩
  rw [h] at first asked
  match reply with
  | .error _ => exact closing t first
  | .ok false => exact closing t first
  | .ok true => exact ⟨t,first,.inl asked,rfl⟩

theorem disposeBooks (P : Platform σ) (pool conn : Nat) (s : Shared σ) :
    SameBooks s (s.dispose P pool conn) := by
  obtain ⟨t,talks,_,same⟩ := s.disposeParts P pool conn
  rw [same]
  exact talks.books.trans rfl

end Shared
end ConnectionPool
