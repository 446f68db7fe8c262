import ConnectionPool.Proofs.Cascade
import ConnectionPool.Scenario
/-! A program that is carried out is a run. Each step makes the move that matches it, or none, and when
all woken callers go on they resume one after another. So whatever holds of all worlds that can come
about holds after each report and at the close. -/
namespace ConnectionPool
namespace World
variable {σ : Type} {P : Platform σ} {w : World σ}

def resumptions (n : Nat) : List (Move σ) := List.replicate n (.resume 0)

def resumed (P : Platform σ) (n : Nat) (w : World σ) : List Finished :=
  (List.range n).filterMap fun k => ((w.run P (resumptions k)).resume P).1

theorem resumedMore (P : Platform σ) (n : Nat) (w : World σ) :
    w.resumed P (n + 1) = (w.resume P).1.toList ++ (w.resume P).2.resumed P n := by
  simp only [resumed,List.range_succ_eq_map,List.filterMap_cons,List.filterMap_map]
  have first : ((w.run P (resumptions 0)).resume P).1 = (w.resume P).1 := rfl
  rw [first]
  cases (w.resume P).1 <;> rfl

theorem settledByResumptions (P : Platform σ) (bound : Nat) (w : World σ) :
    ∃ n ≤ bound, w.settleWithin P bound = (w.resumed P n,w.run P (resumptions n)) := by
  induction bound generalizing w with
  | zero => exact ⟨0,Nat.le_refl 0,rfl⟩
  | succ bound ih =>
    unfold settleWithin
    split
    · exact ⟨0,Nat.zero_le _,rfl⟩
    · obtain ⟨n,within,settled⟩ := ih (w.resume P).2
      refine ⟨n + 1,Nat.succ_le_succ within,?_⟩
      simp only [settled,resumedMore]
      rfl

theorem settleResumes (P : Platform σ) (w : World σ) :
    ∃ n, w.settle P = (w.resumed P n,w.run P (resumptions n)) :=
  have ⟨n,_,settled⟩ := settledByResumptions P _ w
  ⟨n,settled⟩

theorem settleReachable (reachable : w.Reachable P) : (w.settle P).2.Reachable P := by
  obtain ⟨n,settled⟩ := settleResumes P w
  rw [settled]
  exact reachableRun reachable _

theorem settleWakesNobody (reachable : w.Reachable P) : (w.settle P).2.shared.woken = [] := by
  obtain ⟨_,attained⟩ := reachableAttained reachable
  exact settleEnds _ attained w.loadBound

end World

namespace Scenario
open Memory (Server)

def Control.tampering? (conn : Nat) : Control → Option Server.Tampering
  | .kill => some (.kill conn)
  | .sever => some (.sever conn)
  | .failRollback on => some (.failRollback conn on)
  | .failClose on => some (.failClose conn on)
  | .faults armed => some (.faults conn armed)
  | .state | .brief => none

def tampering (tampering : Server.Tampering) : Move Server := .tamper (·.tamper tampering)

def changing (door : Nat) : Change → Move Server
  | .settings (.tolerance count) => .setTolerance door count
  | change => .configure door change

/-- The move that matches a step, if it makes any: questions do not, and a door is not left while a
caller that came in by it is on its way. -/
def matching? (w : World) : Step → Option (Move Server)
  | .create source settings => some (.create source settings)
  | .createFrom properties => some (.createFrom properties)
  | .build changes =>
      let (source,settings) := Change.applyAll changes ({},{})
      some (.create source settings)
  | .get door => some (.get door)
  | .share door => some (.share door)
  | .leave door => if HasPending w door then none else some (.leave door)
  | .closeAll door => some (.closeAll door)
  | .close door => some (.close door)
  | .change door change => some (changing door change)
  | .advance time => some (.advance time)
  | .server refuse broken faults => some (tampering (.switch refuse broken faults))
  | .control conn control =>
      match w.shared.outside.connections[conn]? with
      | some _ => (control.tampering? conn).map tampering
      | none => none
  | .drop slot => some (.drop slot)
  | .release slot => some (.release slot)
  | .isClosed slot => some (.isClosed slot)
  | .forward slot request => some (.forward slot request)
  | .raw slot request => some (.raw slot request)
  | .askPool _ _ | .askHandle _ _ => none

def moves (w : World) (step : Step) : List (Move Server) := (matching? w step).toList

section Steps
variable {w : World}

theorem createdWorld (made : Except PoolError Nat × World) : (ofCreated made).2 = made.2 := by
  rcases made with ⟨_ | _,_⟩ <;> rfl

theorem doorWorld {door : Nat} {act : Pool → Answer × World} {move : Pool → World}
    (same : ∀ p, w.doorPool? door = some p → (act p).2 = move p) :
    (withDoor door w act).2 = w.atDoor door move := by
  unfold withDoor World.atDoor
  cases behind : w.doorPool? door with
  | none => rfl
  | some p => exact same p behind

theorem handleWorld {slot : Nat} {act : Handle → Answer × World} {move : Handle → World}
    (same : ∀ h, (act h).2 = move h) : (withHandle slot w act).2 = w.atSlot slot move := by
  unfold withHandle World.atSlot
  cases w.handle? slot with
  | none => rfl
  | some h => exact same h

theorem leaveWorld (door : Nat) (w : World) :
    (act w (.leave door)).2 = w.run Memory.platform (moves w (.leave door)) := by
  simp only [act,withDoor,moves,matching?]
  by_cases pending : HasPending w door
  · simp only [if_pos pending]
    split <;> rfl
  · simp only [if_neg pending]
    split
    · rfl
    · rename_i nowhere
      exact (show w.leave Memory.platform door = w by simp only [World.leave,nowhere]).symm

theorem changeWorld (door : Nat) (change : Change) (w : World) :
    (changePool door change w).2 = w.move Memory.platform (changing door change) := by
  have configured (p : Pool) (_ : w.doorPool? door = some p) :
      (ofConsulted (w.consult p (Pool.configure Memory.platform change))).2 =
        (w.consult p (Pool.configure Memory.platform change)).2 := by
    rcases w.consult p (Pool.configure Memory.platform change) with ⟨_ | _,_⟩ <;> rfl
  cases change with
  | source => exact doorWorld configured
  | settings change =>
    cases change with
    | tolerance => exact doorWorld fun _ _ => rfl
    | _ => exact doorWorld configured

theorem controlWorld (conn : Nat) (control : Control) (w : World) :
    (act w (.control conn control)).2 =
      w.run Memory.platform (moves w (.control conn control)) := by
  simp only [act,moves,matching?]
  cases w.shared.outside.connections[conn]? with
  | none => rfl
  | some c => cases control <;> rfl

theorem actMoves (w : World) (step : Step) :
    (act w step).2 = w.run Memory.platform (moves w step) := by
  cases step with
  | create | createFrom | build => exact createdWorld _
  | get | share | closeAll | close => exact doorWorld fun _ _ => rfl
  | leave door => exact leaveWorld door w
  | change door change => exact changeWorld door change w
  | control conn control => exact controlWorld conn control w
  | advance | server => rfl
  | drop | release => exact handleWorld fun _ => rfl
  | isClosed =>
    refine handleWorld fun h => ?_
    rcases w.isClosed Memory.platform h with ⟨_ | _,_⟩ <;> rfl
  | forward _ request =>
    refine handleWorld fun h => ?_
    rcases w.forward Memory.platform h request with ⟨_ | _,_⟩ <;> rfl
  | raw _ request =>
    refine handleWorld fun h => ?_
    rcases w.raw Memory.platform h request with ⟨_ | _ | _,_⟩ <;> rfl
  | askPool =>
    simp only [act,withDoor]
    split <;> rfl
  | askHandle =>
    simp only [act,withHandle]
    split <;> rfl

end Steps

theorem reportRuns (w : World) (step : Step) : ∃ n,
    (report w step).2 = w.run Memory.platform (moves w step ++ World.resumptions n) ∧
    (report w step).1.resumed = (act w step).2.resumed Memory.platform n := by
  obtain ⟨n,settled⟩ := World.settleResumes Memory.platform (act w step).2
  refine ⟨n,?_,congrArg Prod.fst settled⟩
  rw [World.runAppend,← actMoves]
  exact congrArg Prod.snd settled

section Programs
variable {w : World} (reachable : w.Reachable Memory.platform)
include reachable

theorem actReachable (step : Step) : (act w step).2.Reachable Memory.platform := by
  rw [actMoves]
  exact World.reachableRun reachable _

theorem reportReachable (step : Step) : (report w step).2.Reachable Memory.platform :=
  World.settleReachable (actReachable reachable step)

theorem reportsReachable (steps : List Step) :
    (reports steps w).2.Reachable Memory.platform := by
  induction steps generalizing w with
  | nil => exact reachable
  | cons step steps ih => exact ih (reportReachable reachable step)

theorem interruptReachable (doors : List Nat) : (interrupt doors w).2.Reachable Memory.platform := by
  induction doors generalizing w with
  | nil => exact reachable
  | cons door doors ih =>
    unfold interrupt
    split
    · exact ih (World.settleReachable (actReachable reachable (.close door)))
    · exact ih reachable

theorem foldReachable (step : Nat → Step) (places : List Nat) :
    (places.foldl (fun w place =>
      ((act w (step place)).2.settle Memory.platform).2) w).Reachable Memory.platform := by
  induction places generalizing w with
  | nil => exact reachable
  | cons place places ih => exact ih (World.settleReachable (actReachable reachable (step place)))

theorem letGoReachable : (letGoOfAll w).Reachable Memory.platform :=
  foldReachable (foldReachable reachable Step.drop _) Step.leave _

theorem reportWakesNobody (step : Step) : (report w step).2.shared.woken = [] :=
  World.settleWakesNobody (actReachable reachable step)

end Programs

theorem closeReached (manualCommit : Bool) (steps : List Step) :
    ∃ w : World, w.Reachable Memory.platform ∧
      (run manualCommit steps).2.connections = w.shared.outside.connections ∧
      (run manualCommit steps).2.openCount = w.shared.outside.openCount := by
  have ran := reportsReachable (.initial { autoCommit := !manualCommit }) steps
  exact ⟨_,letGoReachable (interruptReachable ran _),rfl,rfl⟩

end Scenario
end ConnectionPool
