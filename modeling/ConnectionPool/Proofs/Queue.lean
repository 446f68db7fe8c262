import Mathlib.Data.List.Perm.Basic
import ConnectionPool.Proofs.Turn
/-! Callers on their way: each has a slot of its own that is kept free for its answer. Waking only
moves them from one list to the other, and only a stay that ends in sleep adds one. -/
namespace ConnectionPool
namespace Shared
variable {σ : Type}

theorem SameBooks.unfinished {s t : Shared σ} (same : s.SameBooks t) :
    t.unfinished = s.unfinished := by
  rw [same]
  rfl

theorem wakingPerm (wakes : Wait → Bool) (asleep awake : List Wait) :
    (asleep.filter (!wakes ·) ++ (awake ++ asleep.filter wakes)).Perm (asleep ++ awake) :=
  calc
    asleep.filter (!wakes ·) ++ (awake ++ asleep.filter wakes)
    _ |>.Perm (asleep.filter wakes ++ asleep.filter (!wakes ·) ++ awake) := by
      rw [← List.append_assoc,List.append_assoc (asleep.filter wakes)]
      exact List.perm_append_comm
    _ |>.Perm (asleep ++ awake) := (List.filter_append_perm wakes asleep).append_right awake

theorem notifyUnfinished (s : Shared σ) (pool : Nat) :
    (s.notify pool).unfinished.Perm s.unfinished :=
  wakingPerm (Wait.isFor pool) s.waiting s.woken

theorem advanceUnfinished (s : Shared σ) (time : Nat) :
    (s.advance time).unfinished.Perm s.unfinished :=
  wakingPerm (Wait.isDue (s.now + time)) s.waiting s.woken

end Shared

namespace Pool
variable {σ : Type} {P : Platform σ} {p p' : Pool} {s s' : Shared σ} {callers : List Wait}

def Queues (seeker : Seeker) (others : List Wait) : Outcome → Shared σ → Prop
  | .blocked,s => ∃ x, x.seeker.ticket = seeker.ticket ∧ x.seeker.pool = seeker.pool ∧
      s.unfinished.Perm (x :: others)
  | _,s => s.unfinished.Perm others

theorem queuesKeep {seeker : Seeker} {others : List Wait} {outcome : Outcome}
    (queues : Queues seeker others outcome s) {x : Wait} (member : x ∈ others) :
    x ∈ s.unfinished := by
  cases outcome with
  | granted | failed | overrun => exact queues.mem_iff.mpr member
  | blocked =>
    obtain ⟨y,_,_,joined⟩ := queues
    exact joined.mem_iff.mpr (List.mem_cons_of_mem y member)

theorem picksUnfinished {pick : Pick} (picks : Picks P p s pick p' s') :
    s'.unfinished.Perm s.unfinished := by
  have opening {outside t} {reply : Except Cause Unit}
      (setUp : (p.welcome outside s).setUp P (.pool p.number) s.opened p.source = (reply,t)) :
      t.unfinished = s.unfinished :=
    ((Shared.setUpTalks ..).ends setUp).books.unfinished
  cases picks with
  | kept | nothing | refused => exact .refl _
  | @unfit cause outside t idle room connect setUp =>
    rw [(t.disposeBooks P p.number s.opened).unfinished,opening setUp]
  | fresh idle room connect setUp =>
    have same := opening setUp
    exact .of_eq same
  | @overdue oldest rest idle full active late =>
    have same := (p.seizeTalks P oldest s).books.unfinished
    exact (Shared.notifyUnfinished _ p.number).trans (.of_eq same)

theorem stayQueues (P : Platform σ) (seeker : Seeker) (others : List Wait) :
    StayRule P seeker (fun _ s => s.unfinished.Perm others) (fun _ _ s => s.unfinished.Perm others)
      (fun outcome _ s => Queues seeker others outcome s) where
  finds before picks := (picksUnfinished picks).trans before
  misses before picks := (picksUnfinished picks).trans before
  blocks {p s} before _ bad := by
    let x : Wait :=
      ⟨{ seeker with hasWaited := true, bad := UInt32.ofNat bad },s.now,p.deadline? s.now⟩
    have joined : (p.block seeker bad s).2.2.unfinished.Perm (x :: s.unfinished) := by
      simp only [block,Shared.sleep,Shared.note,Shared.unfinished,List.append_assoc]
      exact List.perm_middle
    exact ⟨x,rfl,rfl,joined.trans (before.cons x)⟩
  grants {w p s t} holding good := by
    have same := ((admitsTalks ..).ends good).books.unfinished
    exact (List.Perm.of_eq same).trans holding
  rejects {w p s t} holding bad := by
    have same := (((t.note (.rejected p.number w)).invalidate w).disposeBooks P p.number
      w.conn).unfinished.trans ((admitsTalks ..).ends bad).books.unfinished
    exact (List.Perm.of_eq same).trans holding
  fails before _ := before
  overruns before := before

theorem enterQueues (P : Platform σ) (seeker : Seeker) (p : Pool) (s : Shared σ) :
    Queues seeker s.unfinished (p.enter P seeker s).1 (p.enter P seeker s).2.2 :=
  (stayQueues P seeker s.unfinished).enter (fun _ => .refl _) (fun _ => .refl _)

theorem resumeQueues (P : Platform σ) (wait : Wait) (p : Pool) (s : Shared σ) :
    Queues wait.seeker s.unfinished (p.resume P wait s).1 (p.resume P wait s).2.2 :=
  (stayQueues P wait.seeker s.unfinished).resume (fun _ => .refl _) (fun _ => .refl _)

theorem returnsUnfinished {w : Wrapper} (returns : Returns P w p s p' s') :
    s'.unfinished.Perm s.unfinished := by
  have noticed {t : Shared σ} (same : t.unfinished = s.unfinished) :
      (t.notify p.number).unfinished.Perm s.unfinished :=
    same ▸ t.notifyUnfinished p.number
  cases returns with
  | stale => exact .refl _
  | @unfit t lent found =>
    have inspected := ((inspectTalks ..).ends found).books.unfinished
    exact noticed ((Shared.disposeBooks ..).unfinished.trans inspected)
  | @dropped t u lent found unwelcome =>
    have inspected := ((inspectTalks ..).ends found).books.unfinished
    have called := (droppedTalks unwelcome).books.unfinished.trans inspected
    exact noticed ((Shared.disposeBooks ..).unfinished.trans called)
  | @kept t u lent found welcome cleared =>
    have inspected := ((inspectTalks ..).ends found).books.unfinished
    have called := ((Shared.rollbackTalks ..).ends cleared).books.unfinished.trans inspected
    exact noticed called

theorem sweepBooks (P : Platform σ) (p : Pool) (s : Shared σ) :
    (p.sweep P s).2.waiting = s.waiting ∧ (p.sweep P s).2.woken = s.woken := by
  refine discardAllKeeps (fun _ _ t => t.waiting = s.waiting ∧ t.woken = s.woken) ?_ ⟨rfl,rfl⟩
  intro w ws q t ⟨waiting,woken⟩
  have books := (t.invalidate w).disposeBooks P q.number w.conn
  exact ⟨books.waiting.trans waiting,books.woken.trans woken⟩

theorem sweepUnfinished (P : Platform σ) (p : Pool) (s : Shared σ) :
    (p.sweep P s).2.unfinished = s.unfinished := by
  obtain ⟨waiting,woken⟩ := sweepBooks P p s
  simp only [Shared.unfinished,waiting,woken]

end Pool

namespace World
variable {σ : Type} {P : Platform σ} {Alters : (σ → σ) → Prop} {outside : σ} {w w' : World σ}

structure Queued (w : World σ) : Prop where
  free : ∀ x ∈ w.shared.unfinished, w.slots[x.seeker.ticket]? = some .pending
  once : (w.shared.unfinished.map (·.seeker.ticket)).Nodup

theorem queuedFrame (queued : w.Queued) (same : w'.shared.unfinished.Perm w.shared.unfinished)
    (slots : ∀ i : Nat, w.slots[i]? = some .pending → w'.slots[i]? = some .pending) : w'.Queued where
  free x member := slots _ (queued.free x (same.mem_iff.mp member))
  once := (same.map _).nodup_iff.mpr queued.once

theorem queuedLetGo (queued : w.Queued) (numbered : w.Numbered) (n : Nat) :
    (w.letGo P n).Queued := by
  rcases letGoCases (P := P) numbered n with ⟨same,_⟩ | ⟨p,_,_,_,swept⟩
  · rwa [same]
  · rw [swept]
    exact queuedFrame queued (.of_eq (p.sweepUnfinished P w.shared)) fun _ free => free

theorem queuedStay {n : Nat} {seeker : Seeker} {others : List Wait} {outcome : Outcome}
    (queues : Pool.Queues seeker others outcome w.shared)
    (free : ∀ x ∈ others, w.slots[x.seeker.ticket]? = some .pending)
    (once : (others.map (·.seeker.ticket)).Nodup)
    (apart : seeker.ticket ∉ others.map (·.seeker.ticket))
    (seat : w.slots[seeker.ticket]? = some (slotAfter n outcome)) : w.Queued := by
  cases outcome with
  | granted | failed | overrun =>
    exact ⟨fun x member => free x (queues.mem_iff.mp member),(queues.map _).nodup_iff.mpr once⟩
  | blocked =>
    obtain ⟨x,ticket,_,joined⟩ := queues
    constructor
    · intro y member
      rcases List.mem_cons.mp (joined.mem_iff.mp member) with rfl | other
      · rw [ticket]
        exact seat
      · exact free y other
    · refine (joined.map _).nodup_iff.mpr (List.nodup_cons.mpr ⟨?_,once⟩)
      simpa only [ticket] using apart

theorem rousePerm {index : Nat} {wait : Wait} (awake : w.shared.woken[index]? = some wait) :
    w.shared.unfinished.Perm (wait :: (w.rouse index).shared.unfinished) := by
  obtain ⟨inside,rfl⟩ := List.getElem?_eq_some_iff.mp awake
  have apart := (List.getElem_cons_eraseIdx_perm inside).symm.append_left w.shared.waiting
  exact apart.trans List.perm_middle

theorem Queued.fresh (queued : w.Queued) {x : Wait} (member : x ∈ w.shared.unfinished) :
    x.seeker.ticket < w.slots.length :=
  (List.getElem?_eq_some_iff.mp (queued.free x member)).1

theorem rouseLess {index : Nat} {x : Wait} (member : x ∈ (w.rouse index).shared.unfinished) :
    x ∈ w.shared.unfinished :=
  (List.eraseIdx_sublist w.shared.woken index).append_left w.shared.waiting |>.subset member

section Woken
variable {index : Nat} {wait : Wait} (queued : w.Queued)
  (awake : w.shared.woken[index]? = some wait)
include queued awake

theorem Queued.seat : w.slots[wait.seeker.ticket]? = some .pending :=
  queued.free wait (List.mem_append_right _ (List.mem_of_getElem? awake))

theorem Queued.others :
    (wait.seeker.ticket ∉ (w.rouse index).shared.unfinished.map (·.seeker.ticket)) ∧
      ((w.rouse index).shared.unfinished.map (·.seeker.ticket)).Nodup := by
  have tickets := (rousePerm awake).map (·.seeker.ticket)
  exact List.nodup_cons.mp (tickets.nodup_iff.mp queued.once)

theorem Queued.alone {x : Wait} (member : x ∈ (w.rouse index).shared.unfinished) :
    x.seeker.ticket ≠ wait.seeker.ticket := fun same =>
  (queued.others awake).1 (List.mem_map.mpr ⟨x,member,same⟩)

end Woken

theorem freeElsewhere {slot i : Nat} {h : Handle} (held : w.handle? slot = some h)
    (content : Slot) (free : w.slots[i]? = some .pending) :
    (w.setSlot slot content).slots[i]? = some .pending := by
  have other : slot ≠ i := by
    rintro rfl
    cases (handleAt.mp held).symm.trans free
  simp only [setSlot]
  rw [List.getElem?_set_ne other]
  exact free

theorem queuedGet {door n : Nat} (queued : w.Queued) (p : Pool) :
    Queued (w.seat n (p.enter P (w.newSeeker door n) w.shared) fun slot => w.slots ++ [slot]) := by
  have queues := p.enterQueues P (w.newSeeker door n) w.shared
  refine queuedStay (n := n) queues ?_ queued.once ?_ ?_
  · intro x member
    exact (List.getElem?_append_left (queued.fresh member)).trans (queued.free x member)
  · intro known
    obtain ⟨x,member,same⟩ := List.mem_map.mp known
    exact absurd same (Nat.ne_of_lt (queued.fresh member))
  · simp [seat,newSeeker]

theorem queuedResume {index : Nat} {wait : Wait} (queued : w.Queued)
    (awake : w.shared.woken[index]? = some wait) (p : Pool) :
    Queued ((w.rouse index).seat wait.seeker.pool (p.resume P wait (w.rouse index).shared)
      (w.slots.set wait.seeker.ticket)) := by
  have queues := p.resumeQueues P wait (w.rouse index).shared
  obtain ⟨apart,once⟩ := queued.others awake
  refine queuedStay (n := wait.seeker.pool) queues ?_ once apart ?_
  · intro x member
    have other := (queued.alone awake member).symm
    exact (List.getElem?_set_ne other).trans (queued.free x (rouseLess member))
  · exact List.getElem?_set_self (List.getElem?_eq_some_iff.mp (queued.seat awake)).1

theorem queuedTurn (numbered : w.Numbered) (queued : w.Queued) (turn : Turn P Alters w w') :
    w'.Queued := by
  cases turn with
  | found | noDoor | share | ask | tolerance | tamper => exact ⟨queued.free,queued.once⟩
  | leave =>
    apply queuedLetGo
    · exact ⟨queued.free,queued.once⟩
    · exact numbered
  | get door known here => exact queuedGet queued _
  | @resume index wait p awake here =>
    apply queuedLetGo
    · exact queuedResume queued awake p
    · exact numberedResumed numbered here index
  | stray awake =>
    exact ⟨fun x member => queued.free x (rouseLess member),(queued.others awake).2⟩
  | @renew n p source settings closed known here =>
    refine queuedFrame queued ?_ fun _ free => free
    exact (Shared.notifyUnfinished _ _).trans (.of_eq (Pool.sweepUnfinished P _ w.shared))
  | @giveBack slot h p held first here =>
    have same := Pool.returnsUnfinished (p.releaseReturns P h.wrapper w.shared)
    exact queuedFrame queued same fun _ free => freeElsewhere held _ free
  | @vacate slot h held spent =>
    apply queuedLetGo
    · exact queuedFrame queued (.refl _) fun _ free => freeElsewhere held .empty free
    · exact numbered
  | advance time => exact queuedFrame queued (w.shared.advanceUnfinished time) fun _ free => free

theorem everyCallerQueued (attained : Attained P Alters outside w) : w.Queued :=
  everyAttained (by constructor <;> simp [World.initial,Shared.initial,Shared.unfinished])
    (fun before => queuedTurn (numbered before)) attained

end World
end ConnectionPool
