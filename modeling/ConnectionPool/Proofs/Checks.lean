import ConnectionPool.Proofs.Return
/-! What exactly a pool says to a connection. To set it up or to clear its transaction it neither
closes it nor has it execute anything; a check ends in one of four ways; and before the pool lets go
of it, it closes it unless it was told that it is closed. -/
namespace ConnectionPool

def Request.Mild : Request → Prop
  | .close | .execute _ => False
  | _ => True

def Event.discard? : Event → Option (Nat × Nat)
  | discarded pool conn => some (pool,conn)
  | _ => none

def discards (journal : List Event) : List (Nat × Nat) := journal.filterMap Event.discard?

theorem Request.Mild.leavesOpen {request : Request} (mild : request.Mild) : request ≠ .close := by
  rintro rfl
  exact mild

namespace Shared
variable {σ : Type} {P : Platform σ} {caller : Caller} {conn : Nat} {s t u : Shared σ}
  {fits good : Request → Prop}

inductive Speaks (fits : Request → Prop) (P : Platform σ) (caller : Caller) (conn : Nat)
    (s : Shared σ) : Shared σ → Prop
  | silent : Speaks fits P caller conn s s
  | ask {t : Shared σ} (before : Speaks fits P caller conn s t) (request : Request)
      (fit : fits request) : Speaks fits P caller conn s (t.ask P caller conn request).2

namespace Speaks

theorem talks (speaks : Speaks fits P caller conn s t) : Talks P caller conn s t := by
  induction speaks with
  | silent => exact .silent
  | ask _ request _ ih => exact ih.ask request

theorem trans (first : Speaks fits P caller conn s t) (second : Speaks fits P caller conn t u) :
    Speaks fits P caller conn s u := by
  induction second with
  | silent => exact first
  | ask _ request fit ih => exact ih.ask request fit

theorem imp (speaks : Speaks fits P caller conn s t)
    (weaker : ∀ request, fits request → good request) : Speaks good P caller conn s t := by
  induction speaks with
  | silent => exact .silent
  | ask _ request fit ih => exact ih.ask request (weaker request fit)

theorem ends {r : α × Shared σ} {a : α} (speaks : Speaks fits P caller conn s r.2)
    (same : r = (a,t)) : Speaks fits P caller conn s t := by
  rw [same] at speaks
  exact speaks

theorem asked {request : Request} {reply : Except Cause request.Reply}
    (asked : s.ask P caller conn request = (reply,t)) (fit : fits request) :
    Speaks fits P caller conn s t := by
  obtain ⟨rfl,rfl⟩ := Prod.mk.inj asked
  exact .ask .silent request fit

end Speaks

theorem Talks.speaks (talks : Talks P caller conn s t) : Speaks (fun _ => True) P caller conn s t := by
  induction talks with
  | silent => exact .silent
  | ask _ request ih => exact ih.ask request trivial

theorem Talks.discards (talks : s.Talks P caller conn t) :
    discards t.journal = discards s.journal := by
  induction talks with
  | silent => rfl
  | ask _ request ih => exact ih

theorem disposeDiscards (P : Platform σ) (pool conn : Nat) (s : Shared σ) :
    discards (s.dispose P pool conn).journal = (pool,conn) :: discards s.journal := by
  obtain ⟨t,talks,_,same⟩ := s.disposeParts P pool conn
  rw [same,← talks.discards]
  rfl

theorem rollbackAsks (P : Platform σ) (caller : Caller) (conn : Nat) (s : Shared σ) :
    Speaks (· ∈ [.autoCommit,.rollback]) P caller conn s
      (s.rollbackUnlessAutoCommit P caller conn).2 := by
  unfold rollbackUnlessAutoCommit
  rcases h : s.ask P caller conn .autoCommit with ⟨reply,t⟩
  have first : Speaks (· ∈ [.autoCommit,.rollback]) P caller conn s t := .asked h (by simp)
  match reply with
  | .error _ => exact first
  | .ok true => exact first
  | .ok false => exact first.ask .rollback (by simp)

theorem rollbackSpeaks (P : Platform σ) (caller : Caller) (conn : Nat) (s : Shared σ) :
    Speaks Request.Mild P caller conn s (s.rollbackUnlessAutoCommit P caller conn).2 :=
  (rollbackAsks P caller conn s).imp (by simp [Request.Mild])

theorem pingAsks (P : Platform σ) (caller : Caller) (conn : Nat) (sql : String) (s : Shared σ) :
    Speaks (· ∈ [.execute sql,.autoCommit,.rollback]) P caller conn s
      (s.ping P caller conn sql).2 := by
  unfold ping
  rcases h : s.ask P caller conn (.execute sql) with ⟨reply,t⟩
  have first : Speaks (· ∈ [.execute sql,.autoCommit,.rollback]) P caller conn s t :=
    .asked h List.mem_cons_self
  match reply with
  | .error _ => exact first
  | .ok _ => exact first.trans ((rollbackAsks P caller conn t).imp fun _ => List.mem_cons_of_mem _)

theorem pingSpeaks (P : Platform σ) (caller : Caller) (conn : Nat) (sql : String) (s : Shared σ) :
    Speaks (· ≠ .close) P caller conn s (s.ping P caller conn sql).2 :=
  (pingAsks P caller conn sql s).imp (by simp)

theorem setUpSpeaks (P : Platform σ) (caller : Caller) (conn : Nat) (source : DataSource)
    (s : Shared σ) : Speaks Request.Mild P caller conn s (s.setUp P caller conn source).2 := by
  have modes : Speaks Request.Mild P caller conn s
      (s.setUpAutoCommit P caller conn source.autoCommit).2 := by
    unfold setUpAutoCommit
    split
    · exact .silent
    · rename_i on _
      rcases h : s.ask P caller conn .autoCommit with ⟨reply,t⟩
      have first : Speaks Request.Mild P caller conn s t := .asked h trivial
      match reply with
      | .error _ => exact first
      | .ok current =>
        simp only
        split
        · exact first
        · exact first.ask (.setAutoCommit on) trivial
  unfold setUp
  rcases h : s.setUpAutoCommit P caller conn source.autoCommit with ⟨reply,t⟩
  rw [h] at modes
  match reply with
  | .error _ => exact modes
  | .ok () =>
    simp only [setUpIsolation]
    split
    · exact modes
    · exact modes.ask _ trivial

inductive Checks (P : Platform σ) (caller : Caller) (conn unusedFor : Nat) (settings : Settings)
    (s : Shared σ) : Bool → Shared σ → Prop
  | shut {reply : Except Cause Bool} {t : Shared σ}
      (asked : s.ask P caller conn .isClosed = (reply,t)) (unsure : reply ≠ .ok false) :
      Checks P caller conn unusedFor settings s false t
  | early {t : Shared σ} (asked : s.ask P caller conn .isClosed = (.ok false,t))
      (early : ¬(settings.pingEnabled ∧ settings.pingAfter ≤ unusedFor)) :
      Checks P caller conn unusedFor settings s true t
  | passed {t u : Shared σ} (asked : s.ask P caller conn .isClosed = (.ok false,t))
      (due : settings.pingEnabled ∧ settings.pingAfter ≤ unusedFor)
      (ping : t.ping P caller conn settings.pingQuery = (.ok (),u)) :
      Checks P caller conn unusedFor settings s true u
  | failed {t u : Shared σ} {cause : Cause}
      (asked : s.ask P caller conn .isClosed = (.ok false,t))
      (due : settings.pingEnabled ∧ settings.pingAfter ≤ unusedFor)
      (ping : t.ping P caller conn settings.pingQuery = (.error cause,u)) :
      Checks P caller conn unusedFor settings s false (u.ask P caller conn .close).2

theorem checkHealthChecks (P : Platform σ) (caller : Caller) (conn unusedFor : Nat)
    (settings : Settings) (s : Shared σ) : Checks P caller conn unusedFor settings s
      (s.checkHealth P caller conn unusedFor settings).1.isHealthy
      (s.checkHealth P caller conn unusedFor settings).2 := by
  unfold checkHealth
  rcases asked : s.ask P caller conn .isClosed with ⟨reply,t⟩
  match reply with
  | .error _ => exact .shut asked nofun
  | .ok true => exact .shut asked nofun
  | .ok false =>
    simp only
    split
    · rename_i due
      rcases ping : t.ping P caller conn settings.pingQuery with ⟨answer,u⟩
      match answer with
      | .ok () => exact .passed asked due ping
      | .error _ => exact .failed asked due ping
    · rename_i early
      exact .early asked early

theorem checkedOpen {reply : Except Cause Bool}
    (asked : s.ask P caller conn .isClosed = (reply,t)) : Speaks (· ≠ .close) P caller conn s t :=
  .asked asked nofun

theorem Checks.speaks {unusedFor : Nat} {settings : Settings}
    (checks : Checks P caller conn unusedFor settings s true t) :
    Speaks (· ≠ .close) P caller conn s t := by
  cases checks with
  | early asked => exact checkedOpen asked
  | passed asked due ping => exact (checkedOpen asked).trans ((pingSpeaks ..).ends ping)

theorem Checks.talks {unusedFor : Nat} {settings : Settings} {healthy : Bool}
    (checks : Checks P caller conn unusedFor settings s healthy t) : Talks P caller conn s t := by
  cases checks with
  | shut asked => exact (checkedOpen asked).talks
  | early asked => exact (checkedOpen asked).talks
  | passed asked due ping => exact (checkedOpen asked).talks.trans ((pingTalks ..).ends ping)
  | failed asked due ping =>
    exact ((checkedOpen asked).talks.trans ((pingTalks ..).ends ping)).ask .close

inductive Disposes (P : Platform σ) (pool conn : Nat) (s : Shared σ) : Shared σ → Prop
  | shut {t : Shared σ} (asked : s.ask P (.pool pool) conn .isClosed = (.ok true,t)) :
      Disposes P pool conn s (t.note (.discarded pool conn))
  | closes {reply : Except Cause Bool} {t u : Shared σ}
      (asked : s.ask P (.pool pool) conn .isClosed = (reply,t)) (unsure : reply ≠ .ok true)
      (cleared : Speaks Request.Mild P (.pool pool) conn t u) :
      Disposes P pool conn s ((u.ask P (.pool pool) conn .close).2.note (.discarded pool conn))

theorem disposeDisposes (P : Platform σ) (pool conn : Nat) (s : Shared σ) :
    Disposes P pool conn s (s.dispose P pool conn) := by
  unfold dispose
  rcases asked : s.ask P (.pool pool) conn .isClosed with ⟨reply,t⟩
  match reply with
  | .ok true => exact .shut asked
  | .ok false => exact .closes asked nofun (rollbackSpeaks P (.pool pool) conn t)
  | .error _ => exact .closes asked nofun (rollbackSpeaks P (.pool pool) conn t)

theorem Disposes.talks {pool : Nat} (disposes : Disposes P pool conn s t) :
    ∃ u, Talks P (.pool pool) conn s u ∧ t = u.note (.discarded pool conn) := by
  have first := Talks.one P (.pool pool) conn .isClosed s
  cases disposes with
  | shut asked => exact ⟨_,first.ends asked,rfl⟩
  | closes asked unsure cleared =>
    exact ⟨_,((first.ends asked).trans cleared.talks).ask .close,rfl⟩

end Shared

namespace Pool
variable {σ : Type} {P : Platform σ} {p : Pool} {w : Wrapper} {s t : Shared σ} {healthy : Bool}

theorem inspectCases (found : p.inspect P w s = (healthy,t)) :
    (s.IsLive w ∧
      s.Checks P (.pool p.number) w.conn (w.unusedFor s.now) p.settings healthy t) ∨
    (¬s.IsLive w ∧ healthy = false ∧ t = s) := by
  unfold inspect at found
  split at found
  · rename_i live
    cases found
    exact .inl ⟨live,Shared.checkHealthChecks ..⟩
  · rename_i dead
    cases found
    exact .inr ⟨dead,rfl,rfl⟩

inductive Admits (P : Platform σ) (p : Pool) (w : Wrapper) (s : Shared σ) :
    Bool → Shared σ → Prop
  | unfit {t : Shared σ} (found : p.inspect P w s = (false,t)) : Admits P p w s false t
  | stuck {t u : Shared σ} {cause : Cause} (found : p.inspect P w s = (true,t))
      (cleared : t.rollbackUnlessAutoCommit P (.pool p.number) w.conn = (.error cause,u)) :
      Admits P p w s false u
  | fit {t u : Shared σ} (found : p.inspect P w s = (true,t))
      (cleared : t.rollbackUnlessAutoCommit P (.pool p.number) w.conn = (.ok (),u)) :
      Admits P p w s true u

theorem admitsCases (admits : p.admits P w s = (healthy,t)) : Admits P p w s healthy t := by
  unfold Pool.admits at admits
  rcases found : p.inspect P w s with ⟨good,u⟩
  rw [found] at admits
  cases good with
  | false =>
    cases admits
    exact .unfit found
  | true =>
    simp only at admits
    rcases cleared : u.rollbackUnlessAutoCommit P (.pool p.number) w.conn with ⟨reply,v⟩
    rw [cleared] at admits
    cases reply with
    | error cause =>
      cases admits
      exact .stuck found cleared
    | ok =>
      cases admits
      exact .fit found cleared

theorem droppedSpeaks {u : Shared σ}
    (unwelcome : (¬(p.checkIn w s.now).Welcomes w ∧
        u = t.note (.returned p.number w true (w.heldFor s.now))) ∨
      ((p.checkIn w s.now).Welcomes w ∧ ∃ cause,
        (t.note (.returned p.number w true (w.heldFor s.now))).rollbackUnlessAutoCommit P
          (.pool p.number) w.conn = (.error cause,u))) :
    (t.note (.returned p.number w true (w.heldFor s.now))).Speaks Request.Mild P (.pool p.number)
      w.conn u := by
  rcases unwelcome with ⟨_,rfl⟩ | ⟨_,cause,failed⟩
  · exact .silent
  · exact (Shared.rollbackSpeaks ..).ends failed

end Pool
end ConnectionPool
