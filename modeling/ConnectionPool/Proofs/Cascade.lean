import Mathlib.Data.Nat.Choose.Basic
import ConnectionPool.Proofs.FirstLook
import ConnectionPool.Proofs.Queue
import ConnectionPool.Memory
/-! Woken callers that go on may wake others, but not for ever: one that wakes others does so once
and is then on its way no longer. So either fewer are on their way afterwards, or as many of whom
fewer are awake. A caller whose stay never ends counts as gone. -/
namespace ConnectionPool
namespace Pool
variable {σ : Type} {P : Platform σ} {p : Pool} {s : Shared σ}

theorem queuesOthers {seeker : Seeker} {others : List Wait} {outcome : Outcome}
    (queues : Queues seeker others outcome s) (answered : outcome ≠ .blocked) :
    s.unfinished.Perm others := by
  cases outcome with
  | granted | failed | overrun => exact queues
  | blocked => exact absurd rfl answered

theorem sweepQuiet (P : Platform σ) (p : Pool) (s : Shared σ) : s.Quiet (p.sweep P s).2 := by
  refine discardAllKeeps (fun _ _ t => s.Quiet t) ?_ (.one rfl)
  intro w ws q t quiet
  exact (quiet.trans (.nothing rfl)).trans (Shared.disposeQuiet ..)

inductive Goes (p : Pool) (s : Shared σ) (r : Outcome × Pool × Shared σ) : Prop
  | sleeps (slept : r.1 = .blocked) (same : r.2.2.woken = s.woken)
      (told : stirrings r.2.2.journal = stirrings s.journal)
  | wakes {x : Wrapper} (answered : r.1 ≠ .blocked)
      (told : stirrings r.2.2.journal =
        .notified p.number :: .reclaimed p.number x (x.heldFor s.now) :: stirrings s.journal)
  | leaves (answered : r.1 ≠ .blocked) (told : stirrings r.2.2.journal = stirrings s.journal)

theorem stayGoes (room : p.Room 0) (P : Platform σ) (seeker : Seeker) (s : Shared σ) :
    p.Goes s (p.stay P seeker s) := by
  cases stayCourse (P := P) (s := s) room with
  | sleeps picks same =>
    rw [same]
    exact .sleeps rfl rfl rfl
  | takes overdue answered told => exact .wakes answered told.1
  | serves able answered told => exact .leaves answered told.1

theorem enterGoes (room : p.Room 0) (P : Platform σ) (seeker : Seeker) (s : Shared σ) :
    p.Goes s (p.enter P seeker s) := by
  cases closed : p.closed with
  | true =>
    rw [enterShut closed]
    exact .leaves nofun rfl
  | false =>
    rw [enterOpen closed]
    exact stayGoes room P seeker s

theorem resumeGoes (room : p.Room 0) (P : Platform σ) (wait : Wait) (s : Shared σ) :
    p.Goes s (p.resume P wait s) := by
  cases closed : p.closed with
  | true =>
    rw [resumeShut closed]
    exact .leaves nofun rfl
  | false =>
    rw [resumeOpen closed]
    have places : (p.lingered (s.now - wait.since)).Room 0 := ⟨room.all,room.idle⟩
    cases stayGoes places P wait.seeker (p.rises wait s) with
    | sleeps slept same told => exact .sleeps slept same told
    | wakes answered told => exact .wakes answered told
    | leaves answered told => exact .leaves answered told

end Pool

namespace World
variable {σ : Type} {P : Platform σ} {Alters : (σ → σ) → Prop} {outside : σ} {w w' : World σ}
  {index n : Nat} {wait : Wait} {p : Pool}

def pending (w : World σ) : Nat × Nat := (w.shared.unfinished.length,w.shared.woken.length)

abbrev Fewer : Nat × Nat → Nat × Nat → Prop := Prod.Lex (· < ·) (· < ·)

theorem letGoBooks (P : Platform σ) (numbered : w.Numbered) (n : Nat) :
    (w.letGo P n).shared.waiting = w.shared.waiting ∧ (w.letGo P n).shared.woken = w.shared.woken ∧
      w.shared.Quiet (w.letGo P n).shared := by
  refine letGoKeeps (P := P)
    (fun t => t.waiting = w.shared.waiting ∧ t.woken = w.shared.woken ∧ w.shared.Quiet t)
    numbered ⟨rfl,rfl,.nothing rfl⟩ (fun p => ?_) n
  obtain ⟨waiting,woken⟩ := p.sweepBooks P w.shared
  exact ⟨waiting,woken,p.sweepQuiet P w.shared⟩

theorem letGoPending (numbered : w.Numbered) (n : Nat) : (w.letGo P n).pending = w.pending := by
  obtain ⟨waiting,woken,_⟩ := letGoBooks P numbered n
  simp only [pending,Shared.unfinished,waiting,woken]

theorem rouseLength (awake : w.shared.woken[index]? = some wait) :
    w.shared.unfinished.length = (w.rouse index).shared.unfinished.length + 1 :=
  (rousePerm awake).length_eq

theorem awakePending (w : World σ) : w.pending.2 ≤ w.pending.1 := by
  simp only [pending,Shared.unfinished,List.length_append]
  omega

theorem resumeFewer (attained : Attained P Alters outside w)
    (awake : w.shared.woken[index]? = some wait) :
    Fewer (w.move P (.resume index)).pending w.pending := by
  have known := numbered attained
  have counted := rouseLength awake
  have inside := (List.getElem?_eq_some_iff.mp awake).1
  cases here : w.pools[wait.seeker.pool]? with
  | none =>
    rw [strayMove awake here]
    exact .left _ _ (by omega)
  | some p =>
    rw [resumeMove known awake here,letGoPending (numberedResumed known here index)]
    have queues := p.resumeQueues P wait (w.rouse index).shared
    have room := Pool.everyRoom attained here
    cases Pool.resumeGoes room P wait (w.rouse index).shared with
    | sleeps slept same =>
      -- As many are on their way, but this one is not awake any more.
      rw [slept] at queues
      obtain ⟨x,_,_,joined⟩ := queues
      have still : (p.resume P wait (w.rouse index).shared).2.2.unfinished.length =
          w.shared.unfinished.length := joined.length_eq.trans counted.symm
      have fewer : (p.resume P wait (w.rouse index).shared).2.2.woken.length <
          w.shared.woken.length := by
        rw [same]
        simp only [rouse,List.length_eraseIdx,if_pos inside]
        omega
      exact Prod.lex_def.mpr (.inr ⟨still,fewer⟩)
    | wakes answered | leaves answered =>
      have gone := (Pool.queuesOthers queues answered).length_eq
      exact .left _ _ (Nat.lt_of_succ_le (Nat.le_of_eq (counted ▸ congrArg (· + 1) gone)))

/-- A bound on the resumptions to come: one for each that is awake, and one for each two on their way
of whom one may wake the other. -/
def load (w : World σ) : Nat := w.pending.1.choose 2 + w.pending.2

theorem pairsSucc (n : Nat) : (n + 1).choose 2 = n + n.choose 2 := by
  rw [Nat.choose_succ_succ' n 1,Nat.choose_one_right]

theorem loadLess (fewer : Fewer w'.pending w.pending) (awake : w.shared.woken ≠ []) :
    w'.load < w.load := by
  have some : 0 < w.pending.2 := List.length_pos_iff.mpr awake
  have within := w'.awakePending
  unfold load
  rcases Prod.lex_def.mp fewer with less | ⟨same,less⟩
  · have grown := Nat.choose_le_choose 2 (Nat.succ_le_of_lt less)
    rw [Nat.succ_eq_add_one,pairsSucc] at grown
    omega
  · rw [same]
    omega

theorem loadBound (w : World σ) :
    w.load ≤ w.shared.unfinished.length * w.shared.unfinished.length := by
  have within := w.awakePending
  have pairs (n : Nat) : n.choose 2 + n ≤ n * n := by
    induction n with
    | zero => simp
    | succ n ih =>
      rw [pairsSucc,Nat.succ_mul,Nat.mul_succ]
      omega
  have bound := pairs w.shared.unfinished.length
  simp only [load,pending] at within ⊢
  omega

/-- Woken callers go on one after another, in any order, as long as there are any. -/
def Cascade (P : Platform σ) (f : Nat → World σ) : Prop :=
  ∀ k, (f k).shared.woken ≠ [] →
    ∃ index < (f k).shared.woken.length, f (k + 1) = (f k).move P (.resume index)

theorem cascadeEnds {f : Nat → World σ} (cascade : Cascade P f) (bound k : Nat)
    (attained : Attained P (fun _ => True) outside (f k)) (within : (f k).load ≤ bound) :
    ∃ m ≤ k + bound, (f m).shared.woken = [] := by
  induction bound generalizing k with
  | zero =>
    refine ⟨k,Nat.le_add_right k 0,?_⟩
    simp only [load,pending] at within
    exact List.length_eq_zero_iff.mp (by omega)
  | succ bound ih =>
    by_cases none : (f k).shared.woken = []
    · exact ⟨k,Nat.le_add_right _ _,none⟩
    · obtain ⟨index,inside,next⟩ := cascade k none
      have awake := List.getElem?_eq_getElem inside
      have less := loadLess (resumeFewer attained awake) none
      have later : Attained P (fun _ => True) outside (f (k + 1)) :=
        next ▸ attained.trans (moveTurns (numbered attained) (.resume index) fun _ _ => trivial)
      rw [← next] at less
      obtain ⟨m,soon,done⟩ := ih (k + 1) later (by omega)
      exact ⟨m,by omega,done⟩

theorem settleEnds (bound : Nat) (attained : Attained P (fun _ => True) outside w)
    (within : w.load ≤ bound) : (w.settleWithin P bound).2.shared.woken = [] := by
  induction bound generalizing w with
  | zero =>
    simp only [load,pending] at within
    exact List.length_eq_zero_iff.mp (by simp only [settleWithin]; omega)
  | succ bound ih =>
    simp only [settleWithin]
    split
    · assumption
    · rename_i some
      have awake := List.getElem?_eq_getElem (List.length_pos_iff.mpr some)
      have less := loadLess (resumeFewer attained awake) some
      refine ih (attained.trans (moveTurns (numbered attained) (.resume 0) fun _ _ => trivial)) ?_
      exact Nat.le_of_lt_succ (Nat.lt_of_lt_of_le less within)

/-- What one woken caller does to others: it leaves them alone, or it wakes them, once, as it takes
a connection from its holder, and is then on its way no longer, with its answer unless its stay
never ends. -/
inductive Stirs (P : Platform σ) (w : World σ) (index : Nat) (wait : Wait) : Prop
  | nobody (told : stirrings (w.move P (.resume index)).shared.journal =
      stirrings w.shared.journal)
  | once {x held p} (here : w.pools[wait.seeker.pool]? = some p)
      (told : stirrings (w.move P (.resume index)).shared.journal =
        .notified wait.seeker.pool :: .reclaimed wait.seeker.pool x held ::
          stirrings w.shared.journal)
      (gone : ∀ y ∈ (w.move P (.resume index)).shared.unfinished,
        y.seeker.ticket ≠ wait.seeker.ticket)
      (answered : (∃ result, (w.resumeAt P index).1 = some ⟨wait.seeker.ticket,result⟩) ∨
        (p.resume P wait (w.rouse index).shared).1 = .overrun)

theorem resumeAnswered (awake : w.shared.woken[index]? = some wait)
    (here : w.pools[wait.seeker.pool]? = some p)
    (answered : (p.resume P wait (w.rouse index).shared).1 ≠ .blocked) :
    (∃ result, (w.resumeAt P index).1 = some ⟨wait.seeker.ticket,result⟩) ∨
      (p.resume P wait (w.rouse index).shared).1 = .overrun := by
  have same : (w.resumeAt P index).1 =
      finished? wait.seeker.ticket (p.resume P wait (w.rouse index).shared).1 := by
    simp only [resumeAt,awake,here,consult]
    rfl
  rw [same]
  cases ended : (p.resume P wait (w.rouse index).shared).1 with
  | granted x => exact .inl ⟨_,rfl⟩
  | failed error => exact .inl ⟨_,rfl⟩
  | blocked => exact absurd ended answered
  | overrun => exact .inr rfl

theorem resumeStirs (attained : Attained P Alters outside w)
    (awake : w.shared.woken[index]? = some wait) : w.Stirs P index wait := by
  have known := numbered attained
  cases here : w.pools[wait.seeker.pool]? with
  | none =>
    refine .nobody ?_
    rw [strayMove awake here]
    rfl
  | some p =>
    have queues := p.resumeQueues P wait (w.rouse index).shared
    have room := Pool.everyRoom attained here
    have seated := numberedResumed (P := P) known here index
    obtain ⟨waiting,woken,quiet⟩ := letGoBooks P seated wait.seeker.pool
    rw [← resumeMove known awake here] at waiting woken quiet
    cases Pool.resumeGoes room P wait (w.rouse index).shared with
    | sleeps _ _ told | leaves _ told => exact .nobody (quiet.stirrings.trans told)
    | wakes answered told =>
      rw [known here] at told
      refine .once here (quiet.stirrings.trans told) ?_ (resumeAnswered awake here answered)
      have others := Pool.queuesOthers queues answered
      intro y member
      simp only [Shared.unfinished,waiting,woken] at member
      exact (everyCallerQueued attained).alone awake (others.mem_iff.mp member)

/-- Whatever has woken callers, they cannot go on waking each other. Each that goes on leaves fewer on
their way, or as many of whom fewer are awake, since one that wakes others does so once and is then
on its way no longer. So however they take turns, soon nobody is awake. -/
structure Calms (P : Platform σ) (w : World σ) : Prop where
  fewer {index : Nat} {wait : Wait} (awake : w.shared.woken[index]? = some wait) :
    Fewer (w.move P (.resume index)).pending w.pending
  stirs {index : Nat} {wait : Wait} (awake : w.shared.woken[index]? = some wait) :
    w.Stirs P index wait
  ends {f : Nat → World σ} (start : f 0 = w) (cascade : Cascade P f) :
    ∃ k ≤ w.shared.unfinished.length * w.shared.unfinished.length, (f k).shared.woken = []
  settled : (w.settle P).2.shared.woken = []

theorem wokenCallersSettle (reachable : w.Reachable P) : Calms P w := by
  obtain ⟨_,attained⟩ := reachableAttained reachable
  constructor
  case fewer => exact resumeFewer attained
  case stirs => exact resumeStirs attained
  case ends =>
    rintro f rfl cascade
    obtain ⟨k,soon,done⟩ := cascadeEnds cascade _ 0 attained (f 0).loadBound
    exact ⟨k,by omega,done⟩
  case settled => exact settleEnds _ attained w.loadBound

def twoWoken : World Memory.Server :=
  World.run Memory.platform
    [.create {} { maxActive := 1, maxCheckoutTime := 1, timeToWait := 5 },.get 0,.get 0,.get 0,
      .advance 5] (.initial {})

theorem wokenCallersSettleReclaimed : twoWoken.pending = (2,2) ∧
    (twoWoken.move Memory.platform (.resume 0)).pending = (1,1) ∧
    (twoWoken.settle Memory.platform).2.shared.woken = [] := by
  have reachable : twoWoken.Reachable Memory.platform := reachableRun (.initial _) _
  exact ⟨by decide,by decide,(wokenCallersSettle reachable).settled⟩

end World
end ConnectionPool
