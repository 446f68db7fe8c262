import ConnectionPool.Proofs.Cascade
import ConnectionPool.Proofs.History
/-! A caller that goes on after a sleep does what one that has just come would do. It brings nothing
with it but its name and its times, since a stay that ends in sleep has met no candidate at all. -/
namespace ConnectionPool
namespace Outcome

def took (time : Nat) : Outcome → Nat
  | granted _ => time
  | _ => 0

def slept : Outcome → Nat
  | blocked => 1
  | _ => 0

def told (n : Nat) (seeker : Seeker) (now : Nat) : Outcome → List Event
  | granted w => [.granted n seeker.ticket w (now - seeker.startedAt)]
  | failed error => [.denied n seeker.ticket error]
  | blocked => [.blocked n seeker.ticket]
  | overrun => []

def asleep (seeker : Seeker) (now : Nat) (deadline : Option Nat) : Outcome → List Wait
  | blocked => [⟨{ seeker with hasWaited := true },now,deadline⟩]
  | _ => []

end Outcome

namespace Pool
variable {σ : Type} {P : Platform σ} {seeker fresh : Seeker} {wait : Wait} {p q : Pool}
  {s t : Shared σ}

inductive Leave where
  | fails (error : PoolError)
  | sleeps
  | takes (w : Wrapper)
  | hangs

def leave (seeker : Seeker) (q : Pool) (t : Shared σ) : Leave → Outcome × Pool × Shared σ
  | .fails error => q.fail seeker error t
  | .sleeps => q.block seeker 0 t
  | .takes w => q.grant seeker w t
  | .hangs => (.overrun,q,t)

theorem giveUpLeaves (bad : Nat) : ∃ last : Leave, ∀ (seeker : Seeker) (q : Pool) (t : Shared σ),
    q.giveUp seeker bad t = leave seeker q t last := by
  by_cases small : bad < 0x100000000
  · exact ⟨.fails _,fun _ _ _ => if_pos small⟩
  · exact ⟨.hangs,fun _ _ _ => if_neg small⟩

theorem staySeeks (P : Platform σ) (none : seeker.bad = 0) (p : Pool) (s : Shared σ) :
    p.stay P seeker s = p.seek P seeker p.settings.badConnectionLimit.toNat 0 s := by
  rw [staySeek,none]
  rfl

/-- All callers that have met no bad candidate go the same way through a pool, whatever it has counted
of waits and whatever has been written before; who they are shows only at the end. -/
theorem stayLeaves (P : Platform σ) (room : p.Room 0) (s : Shared σ) :
    ∃ (last : Leave) (q : Pool) (t : Shared σ), p.Alike q ∧ t.now = s.now ∧
      ∀ (seeker : Seeker) (waited : Nat) (earlier : List Event), seeker.bad = 0 →
        (p.lingered waited).stay P seeker (s.onto earlier) =
          leave seeker (q.lingered waited) (t.onto earlier) last := by
  let someone : Seeker := ⟨0,0,p.number,0,false,0⟩
  have rule : StayRule P someone _ _ _ := stayActs P rfl s
  have begun : p.Alike p ∧ Acts p s p s := ⟨.same p,.same p s⟩
  have ends := seekEnds someone (.start (P := P) (p := p) (s := s))
    p.settings.badConnectionLimit.toNat 0
  rw [Nat.zero_add,Nat.zero_add] at ends
  generalize p.seek P someone p.settings.badConnectionLimit.toNat 0 s = result at ends
  cases ends with
  | @misses n q t error q' t' inTime passed picks =>
    have before := rule.passed begun passed
    have acts := (picksActs before.1 before.2 picks).1
    refine ⟨.fails error,q',t',before.1.trans (picksAlike picks),acts.now,?_⟩
    intro seeker waited earlier none
    rw [staySeeks P none]
    exact endsSeek (.misses inTime (passedOnto waited earlier passed)
      (picksOnto waited earlier picks))
  | @sleeps n q t inTime passed picks =>
    have full : ¬q.HasActiveRoom := by
      cases picks
      assumption
    -- The pool is full at the first look only, so no candidate has been met and nothing changed.
    obtain ⟨rfl,rfl,rfl⟩ := fullFirst room passed full
    refine ⟨.sleeps,q,t,.same q,rfl,?_⟩
    intro seeker waited earlier none
    rw [staySeeks P none]
    exact endsSeek (.sleeps inTime (passedOnto waited earlier passed)
      (picksOnto waited earlier picks))
  | @finds n q t w q' t' u inTime passed picks good =>
    have before := rule.passed begun passed
    have books := ((admitsTalks ..).ends good).books
    have acts := (picksActs before.1 before.2 picks).1
    refine ⟨.takes w,q',u,before.1.trans (picksAlike picks),books.now.trans acts.now,?_⟩
    intro seeker waited earlier none
    rw [staySeeks P none]
    exact endsSeek (.finds inTime (passedOnto waited earlier passed)
      (picksOnto waited earlier picks) (admittedOnto waited earlier good))
  | @givesUp q t w q' t' u passed picks spoilt =>
    have before := rule.passed begun (passed.again picks spoilt)
    obtain ⟨last,leaves⟩ := giveUpLeaves (σ := σ) (0 + p.settings.badConnectionLimit.toNat + 1)
    refine ⟨last,(q'.reject P w u).1,(q'.reject P w u).2,before.1,before.2.now,?_⟩
    intro seeker waited earlier none
    have ends : Ends P seeker _ 0 (p.lingered waited) (s.onto earlier) _ :=
      .givesUp (passedOnto waited earlier passed) (picksOnto waited earlier picks)
        (admittedOnto waited earlier spoilt)
    rw [rejectOnto,leaves] at ends
    rw [staySeeks P none]
    exact endsSeek ends

structure Echoes (p : Pool) (s : Shared σ) (fresh : Seeker) (wait : Wait)
    (r r' : Outcome × Pool × Shared σ) : Prop where
  outcome : r'.1 = r.1
  pool : r'.2.1 = r.2.1.count fun c =>
    { c with hadToWait := c.hadToWait - r.1.slept
             waitTime := c.waitTime + (s.now - wait.since)
             requestTime := c.requestTime + r.1.took (s.now - wait.seeker.startedAt) }
  shared : r'.2.2 = { r.2.2 with waiting := r'.2.2.waiting, journal := r'.2.2.journal }
  waiting : ∃ others,
    r.2.2.waiting = others ++ r.1.asleep fresh s.now (p.deadline? s.now) ∧
    r'.2.2.waiting = others ++ r.1.asleep wait.seeker s.now (p.deadline? s.now)
  journal : ∃ done,
    r.2.2.journal = r.1.told p.number fresh s.now ++ done ++ s.journal ∧
    r'.2.2.journal = r.1.told p.number wait.seeker s.now ++ done ++
      .resumed p.number wait.seeker.ticket (s.now - wait.since) :: s.journal

theorem stayEchoes (P : Platform σ) (room : p.Room 0) (s : Shared σ) (ours : fresh.pool = p.number)
    (own : wait.seeker.pool = p.number) (now : fresh.startedAt = s.now) (new : fresh.bad = 0)
    (unspoilt : wait.seeker.bad = 0) (first : fresh.hasWaited = false)
    (again : wait.seeker.hasWaited = true) :
    p.Echoes s fresh wait (p.stay P fresh s)
      ((p.lingered (s.now - wait.since)).stay P wait.seeker (p.rises wait s)) := by
  obtain ⟨last,q,t,alike,same,leaves⟩ := stayLeaves P room s.unwritten
  have one := leaves fresh 0 s.journal new
  have other := leaves wait.seeker (s.now - wait.since)
    (.resumed p.number wait.seeker.ticket (s.now - wait.since) :: s.journal) unspoilt
  change p.stay P fresh s = _ at one
  change (p.lingered (s.now - wait.since)).stay P wait.seeker (p.rises wait s) = _ at other
  have number := alike.number
  have limits := alike.settings
  have still : t.now = s.now := same
  rw [one,other]
  cases last with
  | fails error =>
    refine ⟨rfl,rfl,rfl,⟨t.waiting,?_,?_⟩,t.journal,?_,?_⟩ <;>
      simp [leave,fail,lingered,count,Shared.onto,Shared.note,Outcome.told,Outcome.asleep,number]
  | sleeps =>
    refine ⟨rfl,?_,rfl,⟨t.waiting,?_,?_⟩,t.journal,?_,?_⟩
    · simp [leave,block,lingered,count,first,again,Outcome.slept,Outcome.took]
    all_goals
      simp [leave,block,lingered,count,deadline?,Shared.onto,Shared.sleep,Shared.note,Outcome.told,
        Outcome.asleep,limits,still,new,unspoilt,own,ours]
  | takes w =>
    refine ⟨?_,?_,?_,⟨t.waiting,?_,?_⟩,t.journal,?_,?_⟩ <;>
      simp [leave,grant,lingered,count,Shared.onto,Shared.note,Outcome.told,Outcome.asleep,
        Outcome.slept,Outcome.took,number,still,now]
  | hangs =>
    refine ⟨rfl,rfl,rfl,⟨t.waiting,?_,?_⟩,t.journal,?_,?_⟩ <;>
      simp [leave,Shared.onto,Outcome.told,Outcome.asleep]

structure Unspoilt (wait : Wait) : Prop where
  waited : wait.seeker.hasWaited = true
  bad : wait.seeker.bad = 0

theorem blockCallers {bad : Nat} {x : Wait} (none : bad = 0)
    (member : x ∈ (p.block seeker bad s).2.2.unfinished) : x ∈ s.unfinished ∨ Unspoilt x := by
  subst none
  simp only [block,Shared.sleep,Shared.note,Shared.unfinished,List.mem_append,
    List.mem_singleton] at member ⊢
  rcases member with (old | rfl) | awake
  · exact .inl (.inl old)
  · exact .inr ⟨rfl,rfl⟩
  · exact .inl (.inr awake)

theorem enterCallers (room : p.Room 0) (none : seeker.bad = 0) {x : Wait}
    (member : x ∈ (p.enter P seeker s).2.2.unfinished) : x ∈ s.unfinished ∨ Unspoilt x := by
  by_cases blocked : (p.enter P seeker s).1 = .blocked
  · rw [enterBlocks room blocked] at member
    exact blockCallers (by simp [none]) member
  · have queues := p.enterQueues P seeker s
    exact .inl ((queuesOthers queues blocked).mem_iff.mp member)

theorem resumeCallers (room : p.Room 0) (none : wait.seeker.bad = 0) {x : Wait}
    (member : x ∈ (p.resume P wait s).2.2.unfinished) : x ∈ s.unfinished ∨ Unspoilt x := by
  by_cases blocked : (p.resume P wait s).1 = .blocked
  · rw [resumeBlocks room blocked] at member
    exact blockCallers (s := p.rises wait s) (by simp [none]) member
  · have queues := p.resumeQueues P wait s
    exact .inl ((queuesOthers queues blocked).mem_iff.mp member)

end Pool

namespace World
variable {σ : Type} {P : Platform σ} {Alters : (σ → σ) → Prop} {outside : σ} {w w' : World σ}
  {index n : Nat} {wait : Wait} {p : Pool}

def Unspoilt (w : World σ) : Prop := ∀ x ∈ w.shared.unfinished, Pool.Unspoilt x

theorem unspoiltFrame (unspoilt : w.Unspoilt)
    (same : w'.shared.unfinished.Perm w.shared.unfinished) : w'.Unspoilt :=
  fun x member => unspoilt x (same.mem_iff.mp member)

theorem unspoiltLetGo (unspoilt : w.Unspoilt) (numbered : w.Numbered) (n : Nat) :
    (w.letGo P n).Unspoilt := by
  obtain ⟨waiting,woken,_⟩ := letGoBooks P numbered n
  refine unspoiltFrame unspoilt (.of_eq ?_)
  simp only [Shared.unfinished,waiting,woken]

theorem unspoiltTurn (attained : Attained P Alters outside w) (unspoilt : w.Unspoilt)
    (turn : Turn P Alters w w') : w'.Unspoilt := by
  have known := numbered attained
  cases turn with
  | found | noDoor | share | ask | tolerance | tamper => exact unspoilt
  | @leave door n =>
    exact unspoiltLetGo (w := { w with doors := w.doors.set door none }) unspoilt known n
  | @vacate slot h => exact unspoiltLetGo (w := w.setSlot slot .empty) unspoilt known h.pool
  | @get door n p _ here =>
    intro x member
    exact (Pool.enterCallers (Pool.everyRoom attained here) rfl member).elim (unspoilt x) id
  | @resume index wait p awake here =>
    have others : (w.rouse index).Unspoilt := fun x member => unspoilt x (rouseLess member)
    have mine := unspoilt wait (List.mem_append_right _ (List.mem_of_getElem? awake))
    refine unspoiltLetGo (w := w.seatResumed P index wait p) ?_ (numberedResumed known here index) _
    intro x member
    have room := Pool.everyRoom attained here
    exact (Pool.resumeCallers room mine.bad member).elim (others x) id
  | stray => exact fun x member => unspoilt x (rouseLess member)
  | renew =>
    exact unspoiltFrame unspoilt
      ((Shared.notifyUnfinished _ _).trans (.of_eq (Pool.sweepUnfinished P _ w.shared)))
  | @giveBack slot h p held first here =>
    exact unspoiltFrame unspoilt (Pool.returnsUnfinished (p.releaseReturns P h.wrapper w.shared))
  | advance time => exact unspoiltFrame unspoilt (w.shared.advanceUnfinished time)

theorem everyCallerUnspoilt (attained : Attained P Alters outside w) : w.Unspoilt :=
  everyAttained (by intro x member; simp [World.initial,Shared.initial,Shared.unfinished] at member)
    unspoiltTurn attained

theorem getSleeps {door : Nat} (room : p.Room 0)
    (blocked : (p.enter P (w.newSeeker door n) w.shared).1 = .blocked) :
    p.enter P (w.newSeeker door n) w.shared =
      (.blocked,p.count fun c => { c with hadToWait := c.hadToWait + 1 },
        w.shared.sleep ⟨{ w.newSeeker door n with hasWaited := true },w.shared.now,
          p.deadline? w.shared.now⟩) :=
  Pool.enterBlocks room blocked

theorem resumeSleeps {s : Shared σ} (room : p.Room 0) (unspoilt : Pool.Unspoilt wait)
    (blocked : (p.resume P wait s).1 = .blocked) :
    p.resume P wait s = (.blocked,p.lingered (s.now - wait.since),
      (p.rises wait s).sleep ⟨wait.seeker,s.now,p.deadline? s.now⟩) := by
  have same : { wait.seeker with hasWaited := true, bad := UInt32.ofNat wait.seeker.bad.toNat } =
      wait.seeker := by
    rw [← unspoilt.waited,UInt32.ofNat_toNat]
  rw [Pool.resumeBlocks room blocked,Pool.block,same,if_pos unspoilt.waited]
  rfl

/-- A caller that goes on and sleeps again changes nothing but the waiting time. Otherwise it does what
one that has just come would do, unless the pool has been closed. -/
structure GoesOn (P : Platform σ) (w : World σ) (wait : Wait) (p : Pool) : Prop where
  sleeps (blocked : (p.resume P wait w.shared).1 = .blocked) :
    p.resume P wait w.shared = (.blocked,p.lingered (w.shared.now - wait.since),
      (p.rises wait w.shared).sleep ⟨wait.seeker,w.shared.now,p.deadline? w.shared.now⟩)
  echoes (door : Nat) (unshut : p.closed = false) :
    p.Echoes w.shared (w.newSeeker door wait.seeker.pool) wait
      (p.enter P (w.newSeeker door wait.seeker.pool) w.shared) (p.resume P wait w.shared)
  shut (door : Nat) (closed : p.closed = true) :
    p.enter P (w.newSeeker door wait.seeker.pool) w.shared =
      p.fail (w.newSeeker door wait.seeker.pool) .poolClosed w.shared ∧
    p.resume P wait w.shared = (p.lingered (w.shared.now - wait.since)).fail wait.seeker
      .waitInterrupted (p.rises wait w.shared)

/-- A caller that sleeps has done nothing else: it has called nobody, woken nobody and changed
nothing but the count of those that had to wait. So it has met no bad candidate whenever it goes on. -/
structure SleepsUnmoved (P : Platform σ) (w : World σ) : Prop where
  unfinished {x : Wait} (member : x ∈ w.shared.unfinished) :
    x.seeker.hasWaited = true ∧ x.seeker.bad = 0
  comes {n door : Nat} {p : Pool} (here : w.pools[n]? = some p)
    (blocked : (p.enter P (w.newSeeker door n) w.shared).1 = .blocked) :
    p.enter P (w.newSeeker door n) w.shared =
      (.blocked,p.count fun c => { c with hadToWait := c.hadToWait + 1 },
        w.shared.sleep ⟨{ w.newSeeker door n with hasWaited := true },w.shared.now,
          p.deadline? w.shared.now⟩)
  goesOn {index : Nat} {wait : Wait} {p : Pool} (awake : w.shared.woken[index]? = some wait)
    (here : w.pools[wait.seeker.pool]? = some p) : GoesOn P (w.rouse index) wait p

theorem sleepersUnmoved (reachable : w.Reachable P) : SleepsUnmoved P w := by
  obtain ⟨_,attained⟩ := reachableAttained reachable
  have unspoilt := everyCallerUnspoilt attained
  constructor
  case unfinished => exact fun member => ⟨(unspoilt _ member).waited,(unspoilt _ member).bad⟩
  case comes => exact fun here => getSleeps (Pool.everyRoom attained here)
  case goesOn =>
    intro index wait p awake here
    have mine := unspoilt wait (List.mem_append_right _ (List.mem_of_getElem? awake))
    have number := (numbered attained here).symm
    have room := Pool.everyRoom attained here
    refine ⟨resumeSleeps room mine,fun door unshut => ?_,fun door closed => ?_⟩
    · rw [Pool.enterOpen unshut,Pool.resumeOpen unshut]
      exact Pool.stayEchoes P room _ number number rfl rfl mine.bad rfl mine.waited
    · exact ⟨Pool.enterShut closed,Pool.resumeShut closed⟩

def nextInLine : World Memory.Server :=
  World.run Memory.platform
    [.create {} { maxActive := 1 },.get 0,.get 0,.advance 3,.release 0] (.initial {})

theorem sleepersUnmovedServed : ∃ wait p, nextInLine.shared.woken[0]? = some wait ∧
    nextInLine.pools[0]? = some p ∧ wait.seeker.ticket = 1 ∧
    (p.resume Memory.platform wait (nextInLine.rouse 0).shared).1 ≠ .blocked ∧
    (p.resume Memory.platform wait (nextInLine.rouse 0).shared).1 = (p.enter Memory.platform
      ((nextInLine.rouse 0).newSeeker 0 0) (nextInLine.rouse 0).shared).1 := by
  have reachable : nextInLine.Reachable Memory.platform := reachableRun (.initial _) _
  have woken : ∃ wait p, nextInLine.shared.woken[0]? = some wait ∧
      nextInLine.pools[0]? = some p ∧ wait.seeker.ticket = 1 ∧ wait.seeker.pool = 0 ∧
      p.closed = false ∧
      (p.resume Memory.platform wait (nextInLine.rouse 0).shared).1 ≠ .blocked :=
    ⟨_,_,rfl,rfl,by decide,by decide,by decide,by decide⟩
  obtain ⟨wait,p,awake,here,ticket,own,unshut,answered⟩ := woken
  have echoes := ((sleepersUnmoved reachable).goesOn awake (own ▸ here)).echoes 0 unshut
  exact ⟨wait,p,awake,here,ticket,answered,own ▸ echoes.outcome⟩

end World
end ConnectionPool
