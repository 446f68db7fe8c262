import ConnectionPool.Pool.Report
import ConnectionPool.Proofs.Counts
/-! The averages of a pool are those of its timeline: how long its callers took that got a connection,
how long each sleep was, how long each loan ran that came to a good end or was overdue. -/
namespace ConnectionPool

section Totals
variable {kind other : Event → Bool} {journal : List Event} {log : Log}

theorem totalSpent (kind : Event → Bool) (honest : log.Honest) :
    log.total kind = spent kind (log.map Prod.snd) := by
  induction log with
  | nil => rfl
  | cons entry older ih =>
    obtain ⟨now,event⟩ := entry
    simp only [Log.total,List.map_cons,spent,ih honest.2,honest.1]

theorem spentLess (less : ∀ event, kind event → other event) (journal : List Event) :
    spent kind journal ≤ spent other journal := by
  induction journal with
  | nil => exact Nat.le_refl _
  | cons event older ih =>
    rw [spent,spent]
    refine Nat.add_le_add ?_ ih
    split
    · rename_i fits
      rw [if_pos (less event fits)]
    · exact Nat.zero_le _

end Totals

namespace World
variable {σ : Type} {P : Platform σ} {Alters : (σ → σ) → Prop} {outside : σ} {w w' : World σ}
  {n slot : Nat} {p q : Pool} {s t : Shared σ} {h : Handle} {a : Move σ}

/-- A pool takes what it lends only when it has been lent for longer than the settings allow. -/
def Overdue (w : World σ) : Event → Prop
  | .reclaimed n x held => ∃ p, w.pools[n]? = some p ∧ x ∈ p.active ∧
      held = x.heldFor w.shared.now ∧ p.settings.maxCheckoutTime < held
  | _ => True

theorem upkeepOverdue (writes : s.Writes (·.isUpkeep) t) : s.Writes w.Overdue t :=
  writes.imp fun event upkeep => by cases event <;> trivial

theorem tellsOverdue (here : w.pools[n]? = some p) (number : p.number = n) (now : s.now = w.shared.now)
    {seeker : Seeker} {outcome : Outcome} (tells : Pool.Tells p s seeker outcome q t) :
    s.Writes w.Overdue t := by
  obtain ⟨noted,written,fits⟩ := tells.written
  refine ⟨_,written,fun event member => ?_⟩
  rcases List.mem_append.mp member with told | noted
  · have about := toldAbout told
    cases event <;> trivial
  · have notes := fits event noted
    cases event with
    | reclaimed m x held =>
      obtain ⟨rfl,active,held,late⟩ := notes
      exact ⟨p,number ▸ here,active,now ▸ held,late⟩
    | _ => trivial

theorem handsOverdue {x : Wrapper} {event : Event} (hands : Pool.Hands P p s x event q t) :
    s.Writes w.Overdue t := by
  obtain ⟨late,early,written,plain⟩ := hands.written
  have quiet : ∀ e ∈ late ++ early, w.Overdue e := fun e member => by
    have upkeep := plain e member
    cases e <;> trivial
  have ⟨quietLate,quietEarly⟩ := List.forall_mem_append.mp quiet
  have own : w.Overdue event := by rcases hands.told with ⟨_,rfl⟩ | ⟨_,rfl⟩ <;> trivial
  refine ⟨late ++ event :: early,by simp [written],fun e member => ?_⟩
  rcases List.mem_append.mp member with after | before
  · exact quietLate e after
  · exact (List.mem_cons.mp before).elim (fun same => same ▸ own) (quietEarly e)

theorem overdueRelease (numbered : w.Numbered) (slot : Nat) (h : Handle) :
    w.shared.Writes w.Overdue (w.release P slot h).shared := by
  unfold release
  split
  · exact .nothing rfl
  · cases here : w.pools[h.pool]? with
    | none => exact .nothing rfl
    | some p =>
      obtain ⟨event,hands⟩ := Pool.returnsHand (p.releaseReturns P h.wrapper w.shared)
      simp only [visitPut numbered here]
      exact handsOverdue hands

theorem overdueResume (numbered : w.Numbered) {index : Nat} {wait : Wait}
    (here : w.pools[wait.seeker.pool]? = some p) : w.shared.Writes w.Overdue
      ((w.seatResumed P index wait p).letGo P wait.seeker.pool).shared := by
  have risen : w.shared.Writes w.Overdue (w.risen index p wait).shared :=
    ⟨[_],rfl,by simp [Overdue]⟩
  have tells := Pool.resumeTells P (numbered here).symm (w.rouse index).shared
  have stayed := tellsOverdue (s := p.rises wait (w.rouse index).shared) here (numbered here) rfl tells
  have left := letGoUpkeep P (numberedResumed (P := P) numbered here index) wait.seeker.pool
  exact (risen.trans stayed).trans (upkeepOverdue left)

theorem overdueMakes (attained : Attained P Alters outside w) (makes : w.Makes P a w') :
    w.shared.Writes w.Overdue w'.shared := by
  have known := numbered attained
  cases makes with
  | nothing | noPool | found | share | stray | tolerance | advance | tamper => exact .nothing rfl
  | @leave door m =>
    have home : Numbered { w with doors := w.doors.set door none } := known
    exact upkeepOverdue (letGoUpkeep P home m)
  | get _ here =>
    have own := (known here).symm
    exact tellsOverdue here own.symm rfl (Pool.enterTells P own w.shared)
  | resume _ here => exact overdueResume known here
  | renew => exact upkeepOverdue (Pool.closeAllUpkeep P _ w.shared)
  | @release slot h => exact overdueRelease known slot h
  | @drop slot h held =>
    have given : Turns P Alters w (w.release P slot h) := releaseTurns known held
    have home : ((w.release P slot h).setSlot slot .empty).Numbered :=
      (numbered (attained.trans given) : (w.release P slot h).Numbered)
    exact (overdueRelease known slot h).trans (upkeepOverdue (letGoUpkeep P home h.pool))
  | call => exact ⟨[_],rfl,by simp [Overdue]⟩

theorem arrivalTold (attained : Attained P Alters outside w) {door : Nat}
    (behind : w.doorPool? door = some p) : (w.get P door p).2.1 = .overrun ∨
      ∃ event older, (w.move P (.get door)).shared.journal = event :: older ∧
        event.ticket? = some (w.get P door p).1 := by
  obtain ⟨m,known,here⟩ := doorPoolAt behind
  obtain rfl : p.number = m := numbered attained here
  have own : (w.newSeeker door p.number).pool = p.number := rfl
  obtain ⟨noted,written,_⟩ := (Pool.enterTells P own w.shared).written
  rw [getMove (numbered attained) known here]
  change (p.enter P (w.newSeeker door p.number) w.shared).1 = .overrun ∨ _
  generalize (p.enter P (w.newSeeker door p.number) w.shared).1 = outcome at written ⊢
  cases outcome with
  | overrun => exact .inl rfl
  | granted | failed | blocked => exact .inr ⟨_,_,written,rfl⟩

def mean (total count : Nat) : Nat := if count = 0 then 0 else min 0xffffffffffffffff (total / count)

/-- What a move writes on times is true at that moment: of loans that are overdue, and of whoever comes
in, who is told of at once. -/
structure TellsTimes (P : Platform σ) (w : World σ) (a : Move σ) : Prop where
  overdue : w.shared.Writes w.Overdue (w.move P a).shared
  arrival {door p} (enters : a = .get door) (behind : w.doorPool? door = some p) :
    (w.get P door p).2.1 = .overrun ∨
      ∃ event older, (w.move P a).shared.journal = event :: older ∧
        event.ticket? = some (w.get P door p).1

/-- Each average of a pool is the total that the timeline tells of, divided by its count. -/
structure TellsAverages (P : Platform σ) (outside : σ) (moves : List (Move σ)) (n : Nat) (p : Pool)
    (log : Log) : Prop where
  journal : log.map Prod.snd = ((initial outside).run P moves).shared.journal
  honest : log.Honest
  request : p.metrics.averageRequestTime = mean (log.total (Event.grants n)) p.metrics.requests
  wait : p.metrics.averageWaitTime = mean (log.total (Event.wakes n)) p.metrics.hadToWait
  checkout : p.metrics.averageCheckoutTime = mean (log.total (Event.endsLoan n)) p.metrics.requests
  overdue : p.metrics.averageOverdueTime =
    mean (log.total (Event.reclaims n)) p.metrics.claimedOverdue
  overdueLess : log.total (Event.reclaims n) ≤ log.total (Event.endsLoan n)
  tells {earlier a later} (made : moves = earlier ++ a :: later) :
    ((initial outside).run P earlier).TellsTimes P a

theorem averagesTellTimeline (outside : σ) (moves : List (Move σ))
    (here : ((initial outside).run P moves).pools[n]? = some p) :
    TellsAverages P outside moves n p (timeline P moves (.initial outside) []) := by
  have start : Attained P (fun _ => True) outside (.initial outside) := .refl
  have dated := everyRunDated P outside moves
  have counted := countedRun outside moves here
  have total (kind : Event → Bool) : (timeline P moves (.initial outside) []).total kind =
      spent kind ((initial outside).run P moves).shared.journal :=
    dated.journal ▸ totalSpent kind dated.reads.honest
  constructor
  case journal => exact dated.journal
  case honest => exact dated.reads.honest
  case request =>
    rw [total]
    exact congrArg (average · p.counters.requests) (congrArg Counters.requestTime counted)
  case wait =>
    rw [total]
    exact congrArg (average · p.counters.hadToWait) (congrArg Counters.waitTime counted)
  case checkout =>
    rw [total]
    exact congrArg (average · p.counters.requests) (congrArg Counters.checkoutTime counted)
  case overdue =>
    rw [total]
    exact congrArg (average · p.counters.claimedOverdue) (congrArg Counters.overdueTime counted)
  case overdueLess =>
    rw [total,total]
    refine spentLess (fun event reclaims => ?_) _
    cases event <;> first | exact reclaims | cases reclaims
  case tells =>
    rintro earlier a later rfl
    have before := start.trans (runTurns start earlier)
    refine ⟨overdueMakes before (moveMakes (numbered before) a),?_⟩
    rintro door q rfl behind
    exact arrivalTold before behind

def overdueMoves : List (Move Memory.Server) :=
  [.create {} { maxActive := 1, maxCheckoutTime := 5 },.get 0,.get 0,.advance 6,.get 0,.resume 0,
    .advance 4,.release 2,.resume 0]

theorem averagesTellTimelineOverdue :
    ∃ p, ((initial {}).run Memory.platform overdueMoves).pools[0]? = some p ∧
      p.metrics.averageRequestTime = 3 ∧ p.metrics.averageWaitTime = 10 ∧
      (timeline Memory.platform overdueMoves (.initial {}) []).total (Event.reclaims 0) = 6 ∧
      6 ≤ (timeline Memory.platform overdueMoves (.initial {}) []).total (Event.endsLoan 0) := by
  have here : ∃ p, ((initial {}).run Memory.platform overdueMoves).pools[0]? = some p ∧
      p.metrics.averageRequestTime = 3 ∧ p.metrics.averageWaitTime = 10 :=
    ⟨_,rfl,by decide +kernel⟩
  have taken :
      (timeline Memory.platform overdueMoves (.initial {}) []).total (Event.reclaims 0) = 6 := by
    decide +kernel
  obtain ⟨p,here,request,wait⟩ := here
  have tells := averagesTellTimeline (P := Memory.platform) {} overdueMoves here
  exact ⟨p,here,request,wait,taken,taken ▸ tells.overdueLess⟩

end World
end ConnectionPool
