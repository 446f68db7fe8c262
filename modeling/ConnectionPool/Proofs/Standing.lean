import ConnectionPool.Proofs.Ages
import ConnectionPool.Proofs.Fate
/-! What holds of a pool in view of the clock and of what has been said to the connections it keeps.
If the pool's own acts leave it true, then it holds of every pool at all times, for others neither
turn back the clock nor speak to those connections. -/
namespace ConnectionPool.World
variable {σ : Type}

structure Standing (P : Platform σ) (Holds : Pool → Shared σ → Prop) : Prop where
  empty {p s} (none : p.tracked = []) : Holds p s
  lists {p q s} (before : Holds p s) (number : q.number = p.number) (idle : q.idle = p.idle)
    (active : q.active = p.active) : Holds q s
  spared {p s t} (before : Holds p s) (kept : ∀ x ∈ p.idle, s.Spares x.conn t)
    (later : s.now ≤ t.now) : Holds p t
  stays {p s rest} (before : Holds p s) (ledger : Ledger (p.tracked ++ rest) s) (seeker : Seeker) :
    Holds (p.stay P seeker s).2.1 (p.stay P seeker s).2.2
  returns {p q s t x rest} (before : Holds p s) (ledger : Ledger (p.tracked ++ rest) s)
    (own : ∀ y ∈ p.active, y.key = x.key → y = x) (returns : Pool.Returns P x p s q t) : Holds q t

def Stands (Holds : Pool → Shared σ → Prop) (w : World σ) : Prop :=
  ∀ ⦃n : Nat⦄ ⦃p : Pool⦄, w.pools[n]? = some p → Holds p w.shared

variable {P : Platform σ} {Alters : (σ → σ) → Prop} {outside : σ} {w w' : World σ}
  {Holds : Pool → Shared σ → Prop} {n : Nat} {p p' r : Pool} {s s' : Shared σ} {rest : List Wrapper}

namespace Standing
variable (standing : Standing P Holds)
include standing

theorem note (before : Holds p s) {event : Event} (silent : ∀ conn, event.concerns conn = false) :
    Holds p (s.note event) :=
  standing.spared before (fun _ _ => .one (silent _)) (Nat.le_refl _)

theorem lingers (before : Holds p s) (wait : Wait) :
    Holds (p.lingered (s.now - wait.since)) (p.rises wait s) := by
  have lingered : Holds (p.lingered (s.now - wait.since)) s := standing.lists before rfl rfl rfl
  exact standing.note lingered fun _ => rfl

theorem enters (before : Holds p s) (ledger : Ledger (p.tracked ++ rest) s) (seeker : Seeker) :
    Holds (p.enter P seeker s).2.1 (p.enter P seeker s).2.2 := by
  cases closed : p.closed with
  | true =>
    rw [Pool.enterShut closed]
    exact standing.note before fun _ => rfl
  | false =>
    rw [Pool.enterOpen closed]
    exact standing.stays before ledger seeker

theorem resumes (before : Holds p s) (ledger : Ledger (p.tracked ++ rest) s) (wait : Wait) :
    Holds (p.resume P wait s).2.1 (p.resume P wait s).2.2 := by
  have lingers := standing.lingers before wait
  cases closed : p.closed with
  | true =>
    rw [Pool.resumeShut closed]
    exact standing.note lingers fun _ => rfl
  | false =>
    rw [Pool.resumeOpen closed]
    exact standing.stays lingers (ledger.note _) wait.seeker

theorem frame (stands : w.Stands Holds) (pools : w'.pools = w.pools)
    (journal : w'.shared.journal = w.shared.journal) (later : w.shared.now ≤ w'.shared.now) :
    w'.Stands Holds := by
  intro n p here
  rw [pools] at here
  exact standing.spared (stands here) (fun _ _ => .nothing journal) later

theorem put (slots : List Slot) (stands : w.Stands Holds) (ledger : Ledger w.tracked w.shared)
    (here : w.pools[n]? = some p) (lists : r.tracked = p.tracked) (acts : r.Acts w.shared p' s')
    (own : Holds p' s') : Stands Holds { w.put n p' s' with slots } := by
  intro m q there
  rcases poolAtPut (s := s') there with ⟨_,rfl⟩ | ⟨apart,old⟩
  · exact own
  · refine standing.spared (stands old) (fun x idle => ?_) (Nat.le_of_eq acts.now.symm)
    -- What one pool does is out of reach of the connections that others keep.
    have away : ¬r.Reaches w.shared x.conn := by
      unfold Pool.Reaches
      rw [lists]
      exact unreached old (List.mem_append_left _ idle) ledger here (Ne.symm apart)
    exact acts.writes.imp fun _ => Pool.signsSpare away

theorem letGo (stands : w.Stands Holds) (ledger : Ledger w.tracked w.shared)
    (numbered : w.Numbered) (n : Nat) : (w.letGo P n).Stands Holds := by
  rcases letGoCases (P := P) numbered n with ⟨same,_⟩ | ⟨p,_,here,_,swept⟩
  · rwa [same]
  · rw [swept]
    exact standing.put w.slots stands ledger here rfl (p.sweepActs P w.shared)
      (standing.empty (p.sweepTracked P w.shared))

theorem ask {slot : Nat} {h : Handle} (stands : w.Stands Holds) (owned : w.Owned)
    (held : w.handle? slot = some h) (live : w.shared.IsLive h.wrapper) (request : Request) :
    Stands Holds { w with
      shared := (w.shared.ask P (.holder h.wrapper.key) h.wrapper.conn request).2 } := by
  intro n p here
  refine standing.spared (stands here) (fun x idle => ?_) (Nat.le_refl _)
  refine (Shared.Talks.one P _ _ request w.shared).spares fun same => ?_
  obtain ⟨_,q,there,lent⟩ := owned.valid held live
  have alike := sameConn owned (memTracked.mpr ⟨_,q,there,List.mem_append_right _ lent⟩)
    (memTracked.mpr ⟨n,p,here,List.mem_append_left _ idle⟩) same
  exact idleUnheld owned here idle held (congrArg Wrapper.key alike)

theorem turn (attained : Attained P Alters outside w) (stands : w.Stands Holds)
    (turn : Turn P Alters w w') : w'.Stands Holds := by
  have known := numbered attained
  have owned := everyOwned attained
  have ledger := owned.ledger
  cases turn with
  | found source valid =>
    intro n p here
    simp only [List.getElem?_append] at here
    split at here
    · exact stands here
    · rw [List.mem_singleton.mp (List.mem_of_getElem? here)]
      exact standing.empty rfl
  | noDoor | share => exact stands
  | stray | tamper => exact standing.frame stands rfl rfl (Nat.le_refl _)
  | advance time => exact standing.frame stands rfl rfl (Nat.le_add_right _ _)
  | @leave door n =>
    exact standing.letGo (w := { w with doors := w.doors.set door none }) stands ledger known n
  | @vacate slot h =>
    exact standing.letGo (w := w.setSlot slot .empty) stands ledger known h.pool
  | @get door n p _ here =>
    have own : (w.newSeeker door n).pool = p.number := (known here).symm
    exact standing.put _ stands ledger here rfl (p.enterActs P own w.shared)
      (standing.enters (stands here) (ledger.perm (trackedPerm here)) _)
  | @resume index wait p awake here =>
    have roused : (w.rouse index).Stands Holds := standing.frame stands rfl rfl (Nat.le_refl _)
    have books : Ledger (w.rouse index).tracked (w.rouse index).shared :=
      ledger.frame rfl rfl (Nat.le_refl _) (Nat.le_refl _)
    apply standing.letGo
    · exact standing.put _ roused books here rfl
        (p.resumeActs P (known here).symm (w.rouse index).shared)
        (standing.resumes (roused here) (books.perm (trackedPerm here)) wait)
    · exact ledgerPut books here fun _ => Pool.resumeLedger P wait
    · exact numberedResumed known here index
  | @renew n p source settings closed _ here =>
    exact standing.put (r := { p with source, settings, closed }) w.slots stands ledger here rfl
      (Pool.closeAllActs P _ w.shared) (standing.empty (Pool.sweepTracked P _ w.shared))
  | @tolerance n p count _ here =>
    exact standing.put w.slots stands ledger here rfl
      ((Pool.Acts.same p w.shared).lists (List.Subset.refl _))
      (standing.lists (stands here) rfl rfl rfl)
  | @giveBack slot h p held first here =>
    have returns := p.releaseReturns P h.wrapper w.shared
    have own := holderOwns owned held here
    exact standing.put _ stands ledger here rfl (Pool.returnsActs own returns)
      (standing.returns (stands here) (ledger.perm (trackedPerm here)) own returns)
  | ask held live request => exact standing.ask stands owned held live request

end Standing

theorem everyStanding (standing : Standing P Holds) (attained : Attained P Alters outside w) :
    w.Stands Holds :=
  everyAttained (by intro n p here; simp [World.initial] at here)
    (fun before stands turn => standing.turn before stands turn) attained

end ConnectionPool.World
