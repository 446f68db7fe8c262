import ConnectionPool.Proofs.Books
import ConnectionPool.Proofs.Flow
/-! The counters tell the history of a pool: how many callers it has served, how many have ever had to
sleep, what it has taken, opened and found bad. -/
namespace ConnectionPool.World
variable {σ : Type} {P : Platform σ} {Alters : (σ → σ) → Prop} {outside : σ} {w w' : World σ}
  {n slot : Nat} {p q : Pool} {s t : Shared σ} {h : Handle} {a : Move σ} {kind : Event → Bool}

def served (P : Platform σ) (n : Nat) (w : World σ) : Move σ → Nat
  | .get door =>
      match w.doorPool? door with
      | some p => if p.number = n ∧ (w.get P door p).2.1.wrapper?.isSome then 1 else 0
      | none => 0
  | .resume index =>
      match w.shared.woken[index]?,(w.resumeAt P index).1 with
      | some wait,some ⟨_,.ok _⟩ => if wait.seeker.pool = n then 1 else 0
      | _,_ => 0
  | _ => 0

/-- Whether a holder gives back, for the first time, a wrapper of the pool that is no longer valid or
whose connection is then found unhealthy. -/
def spoiltReturn (P : Platform σ) (n : Nat) (w : World σ) : Move σ → Nat
  | .release slot | .drop slot =>
      match w.handle? slot with
      | some h =>
          match w.pools[h.pool]? with
          | some p =>
              if h.pool = n ∧ h.released = false ∧ (p.inspect P h.wrapper w.shared).1 = false
              then 1 else 0
          | none => 0
      | none => 0
  | _ => 0

section Upkeep

theorem letGoUpkeep (P : Platform σ) (numbered : w.Numbered) (m : Nat) :
    w.shared.Writes (·.isUpkeep) (w.letGo P m).shared :=
  letGoKeeps (w.shared.Writes (·.isUpkeep)) numbered (.nothing rfl)
    (fun p => p.sweepUpkeep P w.shared) m

inductive Deals : Move σ → Prop
  | get (door : Nat) : Deals (.get door)
  | resume (index : Nat) : Deals (.resume index)
  | release (slot : Nat) : Deals (.release slot)
  | drop (slot : Nat) : Deals (.drop slot)

theorem upkeepMakes (numbered : w.Numbered) (quiet : ¬Deals a) (makes : w.Makes P a w') :
    w.shared.Writes (·.isUpkeep) w'.shared := by
  cases makes with
  | nothing | noPool | found | share | tolerance | advance | tamper => exact .nothing rfl
  | @leave door n =>
    have home : Numbered { w with doors := w.doors.set door none } := numbered
    exact letGoUpkeep P home n
  | renew => exact Pool.closeAllUpkeep P _ w.shared
  | call => exact ⟨[_],rfl,by simp [Event.isUpkeep]⟩
  | get => exact absurd (.get _) quiet
  | stray | resume => exact absurd (.resume _) quiet
  | release => exact absurd (.release _) quiet
  | drop => exact absurd (.drop _) quiet

end Upkeep

section Kinds
variable (silent : ∀ e : Event, e.isUpkeep → kind e = false)
include silent

theorem upkeepCount (writes : s.Writes (·.isUpkeep) t) :
    t.journal.countP kind = s.journal.countP kind := by
  have same := (writes.imp fun e upkeep => silent e upkeep).filter
  rw [List.countP_eq_length_filter,List.countP_eq_length_filter,same]

theorem tellsCount {seeker : Seeker} {outcome : Outcome}
    (takes : ∀ n x held, kind (.reclaimed n x held) = false)
    (tells : Pool.Tells p s seeker outcome q t) :
    t.journal.countP kind =
      (outcome.told p.number seeker s.now).countP kind + s.journal.countP kind := by
  obtain ⟨noted,written,fits⟩ := tells.written
  have none : noted.countP kind = 0 := List.countP_eq_zero.mpr fun e member => by
    have notes := fits e member
    cases e with
    | reclaimed n x held => simp [takes]
    | _ => simp [silent _ notes]
  rw [written,List.countP_append,List.countP_append,none,Nat.add_zero]

theorem handsCount {x : Wrapper} {event : Event} (hands : Pool.Hands P p s x event q t) :
    t.journal.countP kind = s.journal.countP kind + if kind event then 1 else 0 := by
  obtain ⟨late,early,written,plain⟩ := hands.written
  have ⟨quietLate,quietEarly⟩ := List.forall_mem_append.mp plain
  have none {new : List Event} (quiet : ∀ e ∈ new, e.isUpkeep) : new.countP kind = 0 :=
    List.countP_eq_zero.mpr fun e member => by simp [silent e (quiet e member)]
  simp [written,List.countP_append,List.countP_cons,none quietLate,none quietEarly]

end Kinds

theorem upkeepUnspoilt (n : Nat) (event : Event) (upkeep : event.isUpkeep) :
    event.spoils n = false := by
  cases event <;> first | rfl | cases upkeep

theorem upkeepUngranted (n : Nat) (event : Event) (upkeep : event.isUpkeep) :
    event.grants n = false := by
  cases event <;> first | rfl | cases upkeep

theorem toldGrants (n m now : Nat) (seeker : Seeker) (outcome : Outcome) :
    (outcome.told m seeker now).countP (Event.grants n) =
      if m = n ∧ outcome.wrapper?.isSome then 1 else 0 := by
  cases outcome <;> simp [Outcome.told,Outcome.wrapper?,List.countP_cons]

theorem toldUnspoilt (n m now : Nat) (seeker : Seeker) (outcome : Outcome) :
    (outcome.told m seeker now).countP (Event.spoils n) = 0 := by
  cases outcome <;> simp [Outcome.told]

section Moves
variable (attained : Attained P Alters outside w)
include attained

section Kinds
variable (silent : ∀ e : Event, e.isUpkeep → kind e = false)
  (takes : ∀ n x held, kind (.reclaimed n x held) = false)
include silent

include takes in
theorem getCount {door : Nat} (here : w.pools[n]? = some p) :
    (p.enter P (w.newSeeker door n) w.shared).2.2.journal.countP kind =
      ((p.enter P (w.newSeeker door n) w.shared).1.told n (w.newSeeker door n)
        w.shared.now).countP kind + w.shared.journal.countP kind := by
  have number := numbered attained here
  subst number
  exact tellsCount silent takes (Pool.enterTells P rfl w.shared)

include takes in
theorem resumeCount {index : Nat} {wait : Wait} (here : w.pools[wait.seeker.pool]? = some p)
    (rises : ∀ n ticket waited, kind (.resumed n ticket waited) = false) :
    ((w.seatResumed P index wait p).letGo P wait.seeker.pool).shared.journal.countP kind =
      ((p.resume P wait (w.rouse index).shared).1.told wait.seeker.pool wait.seeker
        w.shared.now).countP kind + w.shared.journal.countP kind := by
  have number := numbered attained here
  have counted := tellsCount silent takes (Pool.resumeTells P number.symm (w.rouse index).shared)
  have left := letGoUpkeep P (numberedResumed (P := P) (numbered attained) here index) wait.seeker.pool
  rw [upkeepCount silent left,← number]
  refine counted.trans (congrArg _ ?_)
  simp only [Pool.rises,Shared.note,List.countP_cons,rises]
  rfl

theorem releaseCount (here : w.pools[h.pool]? = some p)
    (first : h.released = false) :
    ∃ event, Pool.Hands P p w.shared h.wrapper event (p.release P h.wrapper w.shared).1
        (p.release P h.wrapper w.shared).2 ∧
      (w.release P slot h).shared.journal.countP kind =
        w.shared.journal.countP kind + if kind event then 1 else 0 := by
  obtain ⟨event,hands⟩ := Pool.returnsHand (p.releaseReturns P h.wrapper w.shared)
  refine ⟨event,hands,?_⟩
  simp only [release,first,here,visitPut (numbered attained) here]
  exact handsCount silent hands

theorem dropCount (held : w.handle? slot = some h) :
    (w.drop P slot h).shared.journal.countP kind =
      (w.release P slot h).shared.journal.countP kind := by
  have step : Step P Alters w (w.release P slot h) := releaseStep (numbered attained) held
  have known : (w.release P slot h).Numbered := numbered (attained.trans step.to_reflTransGen)
  have home : ((w.release P slot h).setSlot slot .empty).Numbered := known
  exact upkeepCount silent (letGoUpkeep P home h.pool)

end Kinds

/-- A move writes as many entries of a kind as a count says. Upkeep is not of that kind, so only those
moves matter that lend and take back. -/
structure Tallies (P : Platform σ) (w : World σ) (kind : Event → Bool) (count : Move σ → Nat) :
    Prop where
  upkeep (e : Event) (upkeep : e.isUpkeep) : kind e = false
  takes (n : Nat) (x : Wrapper) (held : Nat) : kind (.reclaimed n x held) = false
  rises (n ticket waited : Nat) : kind (.resumed n ticket waited) = false
  quiet {a : Move σ} (quiet : ¬Deals a) : count a = 0
  idle {a : Move σ} (idles : w.Idles P a) : count a = 0
  strays {index : Nat} {wait : Wait} (awake : w.shared.woken[index]? = some wait)
    (away : w.pools[wait.seeker.pool]? = none) : count (.resume index) = 0
  gets {door n : Nat} {p : Pool} (behind : w.doors[door]? = some (some n))
    (here : w.pools[n]? = some p) :
    ((p.enter P (w.newSeeker door n) w.shared).1.told n (w.newSeeker door n)
      w.shared.now).countP kind = count (.get door)
  resumes {index : Nat} {wait : Wait} {p : Pool} (awake : w.shared.woken[index]? = some wait)
    (here : w.pools[wait.seeker.pool]? = some p) :
    ((p.resume P wait (w.rouse index).shared).1.told wait.seeker.pool wait.seeker
      w.shared.now).countP kind = count (.resume index)
  releases {slot : Nat} {h : Handle} (held : w.handle? slot = some h) :
    (w.release P slot h).shared.journal.countP kind =
      w.shared.journal.countP kind + count (.release slot)
  drops (slot : Nat) : count (.drop slot) = count (.release slot)

theorem talliesMove {count : Move σ → Nat} (tallies : Tallies P w kind count) (a : Move σ) :
    (w.move P a).shared.journal.countP kind = w.shared.journal.countP kind + count a := by
  have silent := tallies.upkeep
  have makes := moveMakes (P := P) (numbered attained) a
  generalize w.move P a = w' at makes ⊢
  by_cases deals : Deals a
  · cases makes with
    | nothing idles => rw [tallies.idle idles,Nat.add_zero]
    | get behind here =>
      rw [← tallies.gets behind here,Nat.add_comm]
      exact getCount attained silent tallies.takes here
    | stray awake away =>
      rw [tallies.strays awake away]
      rfl
    | resume awake here =>
      rw [← tallies.resumes awake here,Nat.add_comm]
      exact resumeCount attained silent tallies.takes here tallies.rises
    | release held => exact tallies.releases held
    | drop held => rw [dropCount attained silent held,tallies.drops,tallies.releases held]
    | noPool ordered | found ordered => cases deals <;> cases ordered
    | renew _ renews => cases deals <;> cases renews
    | call calls => cases deals <;> cases calls
    | share | leave | tolerance | advance | tamper => cases deals
  · rw [tallies.quiet deals]
    exact upkeepCount silent (upkeepMakes (numbered attained) deals makes)

theorem releaseSpoils (held : w.handle? slot = some h) :
    (w.release P slot h).shared.journal.countP (Event.spoils n) =
      w.shared.journal.countP (Event.spoils n) + w.spoiltReturn P n (.release slot) := by
  simp only [spoiltReturn,held]
  cases here : w.pools[h.pool]? with
  | none => cases first : h.released <;> simp [release,first,here]
  | some p =>
    cases first : h.released with
    | true => simp [release,first]
    | false =>
      have number := numbered attained here
      obtain ⟨event,hands,counted⟩ := releaseCount attained (upkeepUnspoilt n) here first
      have told : event.spoils n = true ↔
          h.pool = n ∧ (p.inspect P h.wrapper w.shared).1 = false := by
        rcases hands.told with ⟨away,rfl⟩ | ⟨_,rfl⟩
        · -- A wrapper that its pool does not lend any more is dead, so no health check is made.
          have dead := mt (lentLive (everyOwned attained) held here).mpr away
          simp [Event.spoils,number,Pool.inspect,dead]
        · simp [Event.spoils,number]
      rw [counted]
      simp [told,-Event.spoils]

theorem releaseUngranted :
    (w.release P slot h).shared.journal.countP (Event.grants n) =
      w.shared.journal.countP (Event.grants n) := by
  cases here : w.pools[h.pool]? with
  | none => cases first : h.released <;> simp [release,first,here]
  | some p =>
    cases first : h.released with
    | true => simp [release,first]
    | false =>
      obtain ⟨event,hands,counted⟩ := releaseCount attained (upkeepUngranted n) here first
      rw [counted]
      rcases hands.told with ⟨_,rfl⟩ | ⟨_,rfl⟩ <;> simp

theorem spoiltTallies : Tallies P w (Event.spoils n) (w.spoiltReturn P n) := by
  constructor
  case upkeep => exact upkeepUnspoilt n
  case takes | rises => exact fun _ _ _ => rfl
  case quiet =>
    intro a quiet
    cases a <;> first | rfl | exact absurd (by constructor) quiet
  case idle =>
    intro a idles
    cases idles with
    | noHandle uses none => cases a <;> first | rfl | cases uses; simp only [spoiltReturn,none]
    | noDoor through => cases a <;> first | rfl | cases through
    | dead calls => cases a <;> first | rfl | cases calls
    | nobody | closed | refused => rfl
  case strays => exact fun _ _ => rfl
  case gets | resumes => exact fun _ _ => toldUnspoilt ..
  case releases => exact releaseSpoils attained
  case drops => exact fun _ => rfl

theorem servedTallies : Tallies P w (Event.grants n) (w.served P n) := by
  constructor
  case upkeep => exact upkeepUngranted n
  case takes | rises => exact fun _ _ _ => rfl
  case quiet =>
    intro a quiet
    cases a <;> first | rfl | exact absurd (by constructor) quiet
  case idle =>
    intro a idles
    cases idles with
    | noDoor through shut => cases a <;> first | rfl | cases through <;> simp only [served,shut]
    | nobody asleep => simp only [served,asleep]
    | noHandle uses => cases a <;> first | rfl | cases uses
    | dead calls => cases a <;> first | rfl | cases calls
    | closed | refused => rfl
  case strays =>
    intro index wait awake away
    simp [served,resumeAt,awake,away]
  case gets =>
    intro door m p behind here
    have number := numbered attained here
    subst number
    simp only [toldGrants,served,doorPoolSome behind here]
    rfl
  case resumes =>
    intro index wait p awake here
    have answer : (w.resumeAt P index).1 =
        finished? wait.seeker.ticket (p.resume P wait (w.rouse index).shared).1 := by
      simp only [resumeAt,awake,here,consult]
      rfl
    simp only [toldGrants,served,awake,answer]
    cases (p.resume P wait (w.rouse index).shared).1 <;>
      simp [finished?,Outcome.result?,Outcome.wrapper?]
  case releases => exact fun _ => releaseUngranted attained
  case drops => exact fun _ => rfl

end Moves

theorem countRun {count : World σ → Move σ → Nat}
    (tallies : ∀ {w : World σ}, Attained P (fun _ => True) outside w →
      Tallies P w kind (count w))
    (attained : Attained P (fun _ => True) outside w) (moves : List (Move σ)) :
    (w.run P moves).shared.journal.countP kind =
      w.shared.journal.countP kind + tally P count moves w := by
  induction moves generalizing w with
  | nil => rfl
  | cons a rest ih =>
    have turns := moveTurns (P := P) (numbered attained) a fun _ _ => trivial
    have later := ih (attained.trans turns)
    simp only [run,List.foldl_cons] at later ⊢
    rw [later,talliesMove attained (tallies attained) a,tally,Nat.add_assoc]

theorem journalGrows (attained : Attained P (fun _ => True) outside w) (moves : List (Move σ)) :
    ∃ new, (w.run P moves).shared.journal = new ++ w.shared.journal := by
  induction moves generalizing w with
  | nil => exact ⟨[],rfl⟩
  | cons a rest ih =>
    obtain ⟨newer,later⟩ := ih (attained.trans (moveTurns (numbered attained) a fun _ _ => trivial))
    obtain ⟨new,first,_⟩ := (mindsMove attained a fun _ _ => trivial).writes
    exact ⟨newer ++ new,by rw [List.append_assoc,← first]; exact later⟩

theorem servedLength (n : Nat) (journal : List Event) :
    (journal.filterMap (Event.served? n)).length = journal.countP (Event.grants n) := by
  induction journal with
  | nil => rfl
  | cons event older ih =>
    cases event with
    | granted m ticket => by_cases own : m = n <;> simp [own,ih]
    | _ => simp [List.filterMap_cons,ih]

theorem countedRun (outside : σ) (moves : List (Move σ))
    (here : ((initial outside).run P moves).pools[n]? = some p) :
    p.counters = { booked n ((initial outside).run P moves).shared.journal with
      closed := p.counters.closed } := by
  have start : Attained P (fun _ => True) outside (.initial outside) := .refl
  have attained := start.trans (turnsRun (numbered start) moves fun _ _ => trivial)
  have books := (everyCounted attained).booked here
  unfold Pool.Booked at books
  rwa [numbered attained here] at books

structure CountsRise (p q : Pool) : Prop where
  requests : p.counters.requests ≤ q.counters.requests
  hadToWait : p.counters.hadToWait ≤ q.counters.hadToWait
  claimedOverdue : p.counters.claimedOverdue ≤ q.counters.claimedOverdue
  created : p.counters.created ≤ q.counters.created
  bad : p.counters.bad ≤ q.counters.bad

/-- A pool counts each caller that it has lent a connection; each that has slept, once; each
connection it has taken from a holder; each it has opened and set up; each candidate it has rejected
and each wrapper that came back spoilt. None of these counts ever falls. -/
structure CountsEvents (P : Platform σ) (outside : σ) (moves : List (Move σ)) (n : Nat) (p : Pool)
    (journal : List Event) : Prop where
  requests : p.counters.requests = tally P (served P n) moves (.initial outside)
  hadToWait : p.counters.hadToWait = (journal.filterMap (Event.slept? n)).dedup.length
  claimedOverdue : p.counters.claimedOverdue = journal.countP (Event.reclaims n)
  created : p.counters.created = journal.countP (Event.creates n)
  bad : p.counters.bad = journal.countP (Event.rejects n) +
    tally P (spoiltReturn P n) moves (.initial outside)
  rise {later q} (there : ((initial outside).run P (moves ++ later)).pools[n]? = some q) :
    CountsRise p q

theorem countersTellEvents (outside : σ) (moves : List (Move σ))
    (here : ((initial outside).run P moves).pools[n]? = some p) :
    CountsEvents P outside moves n p ((initial outside).run P moves).shared.journal := by
  have start : Attained P (fun _ => True) outside (.initial outside) := .refl
  have attained := start.trans (runTurns start moves)
  have counted := countedRun outside moves here
  have answered : ((initial outside).run P moves).shared.journal.countP (Event.grants n) =
      0 + tally P (served P n) moves (.initial outside) :=
    countRun servedTallies start moves
  have spoilt : ((initial outside).run P moves).shared.journal.countP (Event.spoils n) =
      0 + tally P (spoiltReturn P n) moves (.initial outside) :=
    countRun spoiltTallies start moves
  rw [Nat.zero_add] at answered spoilt
  constructor
  case requests =>
    rw [← answered,← servedLength]
    exact congrArg Counters.requests counted
  case hadToWait => exact congrArg Counters.hadToWait counted
  case claimedOverdue => exact congrArg Counters.claimedOverdue counted
  case created => exact congrArg Counters.created counted
  case bad =>
    rw [← spoilt]
    exact congrArg Counters.bad counted
  case rise =>
    intro later q there
    obtain ⟨new,grown⟩ := journalGrows attained later
    have whole := countedRun outside (moves ++ later) there
    rw [runAppend,grown] at whole
    obtain ⟨requests,hadToWait,claimedOverdue,created,bad⟩ :=
      bookedGrows n new ((initial outside).run P moves).shared.journal
    constructor <;> rw [counted,whole]
    exacts [requests,hadToWait,claimedOverdue,created,bad]

def busyMoves : List (Move Memory.Server) :=
  [.create {} { maxActive := 1 },.get 0,.get 0,.advance 3,.release 0,.resume 0,.closeAll 0,.release 1]

theorem countersTellEventsBusy :
    ∃ p, ((initial {}).run Memory.platform busyMoves).pools[0]? = some p ∧
      tally Memory.platform (served Memory.platform 0) busyMoves (.initial {}) = 2 ∧
      p.counters.hadToWait = 1 ∧ p.counters.bad = 0 +
        tally Memory.platform (spoiltReturn Memory.platform 0) busyMoves (.initial {}) := by
  have here : ∃ p, ((initial {}).run Memory.platform busyMoves).pools[0]? = some p ∧
      p.counters.requests = 2 ∧ p.counters.hadToWait = 1 ∧
      ((initial {}).run Memory.platform busyMoves).shared.journal.countP (Event.rejects 0) = 0 :=
    ⟨_,rfl,by decide +kernel⟩
  obtain ⟨p,here,requests,waited,rejected⟩ := here
  have counts := countersTellEvents (P := Memory.platform) {} busyMoves here
  exact ⟨p,here,counts.requests ▸ requests,waited,rejected ▸ counts.bad⟩

example : tally Memory.platform (spoiltReturn Memory.platform 0) busyMoves (.initial {}) = 1 := by
  decide +kernel

end ConnectionPool.World
