import ConnectionPool.Proofs.Relay
import ConnectionPool.Proofs.Stay
/-! Nothing that a stay does hangs on what has been written before, nor on the waiting time that its
pool has counted. So it can be told with an empty journal and put onto any other. -/
namespace ConnectionPool
namespace Shared
variable {σ : Type} (P : Platform σ) (conn : Nat) (earlier : List Event) (s : Shared σ)

def onto (earlier : List Event) (s : Shared σ) : Shared σ :=
  { s with journal := s.journal ++ earlier }

def unwritten (s : Shared σ) : Shared σ := { s with journal := [] }

theorem ontoRelays (caller : Caller) : Relays P P (onto earlier) caller caller conn conn :=
  fun _ _ => rfl

theorem disposeOnto (pool : Nat) :
    (s.onto earlier).dispose P pool conn = (s.dispose P pool conn).onto earlier :=
  (ontoRelays P conn earlier (.pool pool)).dispose (fun _ => rfl) s

end Shared

namespace Pool
variable {σ : Type} {P : Platform σ} {p q : Pool} {s t u : Shared σ} {w : Wrapper} {pick : Pick}
  (waited : Nat) (earlier : List Event)

theorem seizeOnto (P : Platform σ) (p : Pool) (w : Wrapper) (s : Shared σ) :
    (p.lingered waited).seize P w (s.onto earlier) = (p.seize P w s).onto earlier := by
  have taken : (((s.onto earlier).invalidate w).note
      (.reclaimed p.number w (w.heldFor s.now))).rollbackUnlessAutoCommit P (.pool p.number) w.conn =
      _ :=
    (Shared.ontoRelays P w.conn earlier (.pool p.number)).rollback
      ((s.invalidate w).note (.reclaimed p.number w (w.heldFor s.now)))
  exact congrArg Prod.snd taken

theorem setUpWelcomed {outside : σ} {conn : Nat} {reply : Except Cause Unit}
    (setUp : (p.welcome outside s).setUp P (.pool p.number) conn p.source = (reply,t)) :
    ((p.lingered waited).welcome outside (s.onto earlier)).setUp P (.pool p.number) conn p.source =
      (reply,t.onto earlier) :=
  ((Shared.ontoRelays P conn earlier (.pool p.number)).setUp (p.welcome outside s) p.source).trans
    (congrArg (Prod.map id (Shared.onto earlier)) setUp)

theorem picksOnto (picks : Picks P p s pick q t) :
    Picks P (p.lingered waited) (s.onto earlier) pick (q.lingered waited) (t.onto earlier) := by
  cases picks with
  | kept idle => exact .kept idle
  | refused idle room connect => exact .refused idle room connect
  | unfit idle room connect setUp =>
    rw [← Shared.disposeOnto]
    exact .unfit idle room connect (setUpWelcomed waited earlier setUp)
  | fresh idle room connect setUp =>
    exact .fresh (p := p.lingered waited) (s := s.onto earlier) idle room connect
      (setUpWelcomed waited earlier setUp)
  | @overdue oldest rest idle full active late =>
    have picked : Picks P (p.lingered waited) (s.onto earlier) _ _ _ := .overdue idle full active late
    rw [seizeOnto] at picked
    exact picked
  | nothing idle full inTime => exact .nothing idle full inTime

theorem admitsOnto (P : Platform σ) (p : Pool) (w : Wrapper) (s : Shared σ) :
    (p.lingered waited).admits P w (s.onto earlier) =
      (p.admits P w s).map id (Shared.onto earlier) := by
  have inspected : (p.lingered waited).inspect P w (s.onto earlier) =
      (p.inspect P w s).map id (Shared.onto earlier) := by
    have checked := (Shared.ontoRelays P w.conn earlier (.pool p.number)).checkHealth s
      (w.unusedFor s.now) p.settings
    unfold inspect
    by_cases live : s.IsLive w
    · rw [if_pos live]
      refine (if_pos live).trans ?_
      exact congrArg (Prod.map Health.isHealthy id) checked
    · rw [if_neg live]
      exact if_neg live
  unfold admits
  rw [inspected]
  rcases p.inspect P w s with ⟨_ | _,t⟩
  · rfl
  · have cleared := (Shared.ontoRelays P w.conn earlier (.pool p.number)).rollback t
    have number : (p.lingered waited).number = p.number := rfl
    simp only [Prod.map_apply,id_eq,number,cleared]
    rcases t.rollbackUnlessAutoCommit P (.pool p.number) w.conn with ⟨_ | _,u⟩ <;> rfl

theorem admittedOnto {good : Bool} (admitted : p.admits P w s = (good,t)) :
    (p.lingered waited).admits P w (s.onto earlier) = (good,t.onto earlier) :=
  (admitsOnto waited earlier P p w s).trans
    (congrArg (Prod.map id (Shared.onto earlier)) admitted)

theorem rejectOnto (P : Platform σ) (w : Wrapper) (p : Pool) (s : Shared σ) :
    (p.lingered waited).reject P w (s.onto earlier) =
      ((p.reject P w s).1.lingered waited,(p.reject P w s).2.onto earlier) :=
  Prod.ext rfl
    (Shared.disposeOnto P w.conn earlier ((s.note (.rejected p.number w)).invalidate w) p.number)

theorem passedOnto {n : Nat} (passed : Passed P p s n q t) :
    Passed P (p.lingered waited) (s.onto earlier) n (q.lingered waited) (t.onto earlier) := by
  induction passed with
  | start => exact .start
  | @again n q t w q' t' u passed picks bad ih =>
    have next := ih.again (picksOnto waited earlier picks) (admittedOnto waited earlier bad)
    rwa [rejectOnto] at next

end Pool
end ConnectionPool
