import ConnectionPool.Proofs.Failure
/-! One call, from the move in which its caller comes in to the one in which it is answered. Whoever
is still on its way, or has not come yet, has been put to sleep in every move of its own: so it has
turned down no candidate and the pools have counted none. -/
namespace ConnectionPool
namespace World
variable {σ : Type} {P : Platform σ} {Alters : (σ → σ) → Prop} {outside : σ} {w w' : World σ}
  {a : Move σ} {ticket n : Nat} {p : Pool} {moves : List (Move σ)}

def caller? (w : World σ) : Move σ → Option Nat
  | .get door => (w.doorPool? door).map fun _ => w.slots.length
  | .resume index => w.shared.woken[index]?.map (·.seeker.ticket)
  | _ => none

/-- How much something has grown in those moves that are one caller's own. -/
def grown (P : Platform σ) (size : World σ → Nat) (ticket : Nat) : List (Move σ) → World σ → Nat
  | [],_ => 0
  | a :: rest,w =>
      (if w.caller? a = some ticket then size (w.move P a) - size w else 0) +
        grown P size ticket rest (w.move P a)

theorem grownSnoc (size : World σ → Nat) (moves : List (Move σ)) (w : World σ) (a : Move σ) :
    grown P size ticket (moves ++ [a]) w = grown P size ticket moves w +
      if (w.run P moves).caller? a = some ticket
        then size ((w.run P moves).move P a) - size (w.run P moves) else 0 := by
  induction moves generalizing w with
  | nil => exact Nat.add_comm _ 0
  | cons b rest ih =>
    simp only [List.cons_append,grown,ih,Nat.add_assoc]
    rfl

def Awaited (w : World σ) (ticket : Nat) : Prop :=
  w.slots.length ≤ ticket ∨ ∃ x ∈ w.shared.unfinished, x.seeker.ticket = ticket

theorem queuesStem {seeker : Seeker} {others : List Wait} {outcome : Outcome} {s : Shared σ} {x : Wait}
    (queues : Pool.Queues seeker others outcome s) (member : x ∈ s.unfinished) :
    x ∈ others ∨ (outcome = .blocked ∧ x.seeker.ticket = seeker.ticket) := by
  cases outcome with
  | granted | failed | overrun => exact .inl (queues.mem_iff.mp member)
  | blocked =>
    obtain ⟨y,own,_,joined⟩ := queues
    rcases List.mem_cons.mp (joined.mem_iff.mp member) with rfl | other
    · exact .inr ⟨rfl,own⟩
    · exact .inl other

theorem letGoUnfinished (numbered : w.Numbered) (n : Nat) :
    (w.letGo P n).shared.unfinished = w.shared.unfinished := by
  obtain ⟨waiting,woken,_⟩ := letGoBooks P numbered n
  rw [Shared.unfinished,waiting,woken]
  rfl

theorem unfinishedStems (numbered : w.Numbered) (turn : Turn P Alters w w') {x : Wait}
    (member : x ∈ w'.shared.unfinished) : w.Awaited x.seeker.ticket := by
  have old {y : Wait} (there : y ∈ w.shared.unfinished) : w.Awaited y.seeker.ticket :=
    .inr ⟨y,there,rfl⟩
  cases turn with
  | found | noDoor | share | ask | tolerance | tamper => exact old member
  | @leave door m =>
    rw [letGoUnfinished (w := { w with doors := w.doors.set door none }) numbered] at member
    exact old member
  | @vacate slot h =>
    rw [letGoUnfinished (w := w.setSlot slot .empty) numbered] at member
    exact old member
  | @get door m p known here =>
    rcases queuesStem (p.enterQueues P (w.newSeeker door m) w.shared) member with other | ⟨_,own⟩
    · exact old other
    · exact .inl (Nat.le_of_eq own.symm)
  | @resume index wait p awake here =>
    change x ∈ ((w.seatResumed P index wait p).letGo P wait.seeker.pool).shared.unfinished at member
    rw [letGoUnfinished (numberedResumed numbered here index)] at member
    rcases queuesStem (p.resumeQueues P wait (w.rouse index).shared) member with other | ⟨_,own⟩
    · exact old (rouseLess other)
    · rw [own]
      exact old (List.mem_append_right _ (List.mem_of_getElem? awake))
  | stray => exact old (rouseLess member)
  | renew =>
    exact old (((Shared.notifyUnfinished _ _).trans
      (.of_eq (Pool.sweepUnfinished P _ w.shared))).mem_iff.mp member)
  | @giveBack slot h p held first here =>
    have same := Pool.returnsUnfinished (p.releaseReturns P h.wrapper w.shared)
    exact old (same.mem_iff.mp member)
  | advance time => exact old ((w.shared.advanceUnfinished time).mem_iff.mp member)

theorem slotsLast (ages : w.Ages w') : w.slots.length ≤ w'.slots.length := by
  by_contra fewer
  have inside : w'.slots.length < w.slots.length := Nat.lt_of_not_le fewer
  obtain ⟨b,there,_⟩ := ages.slots (List.getElem?_eq_getElem inside)
  exact Nat.lt_irrefl _ (List.getElem?_eq_some_iff.mp there).1

theorem awaitedBefore (attained : Attained P Alters outside w) (turns : Turns P Alters w w')
    (awaited : w'.Awaited ticket) : w.Awaited ticket := by
  induction turns with
  | refl => exact awaited
  | @tail v v' before turn ih =>
    have middle := attained.trans before
    have ages := agesTurn (numbered middle) (everyCallerQueued middle) (everyOwned middle) turn
    refine ih ?_
    rcases awaited with new | ⟨x,member,rfl⟩
    · exact .inl (Nat.le_trans (slotsLast ages) new)
    · exact unfinishedStems (numbered middle) turn member

structure Unmoved (w w' : World σ) : Prop where
  told : toll w'.shared.journal = toll w.shared.journal
  bad (n : Nat) : (w'.pools[n]?).map (·.counters.bad) = (w.pools[n]?).map (·.counters.bad)

theorem unmovedPut {q : Pool} (here : w.pools[n]? = some p) (pools : w'.pools = w.pools.set n q)
    (told : toll w'.shared.journal = toll w.shared.journal) (bad : q.counters.bad = p.counters.bad) :
    w.Unmoved w' where
  told := told
  bad m := by
    have inside := (List.getElem?_eq_some_iff.mp here).1
    rw [pools]
    by_cases own : n = m
    · subst own
      simp only [List.getElem?_set_self inside,here,Option.map_some,bad]
    · rw [List.getElem?_set_ne own]

theorem getSleepsStill {door : Nat} (attained : Attained P Alters outside w)
    (behind : w.doors[door]? = some (some n)) (here : w.pools[n]? = some p)
    (later : (w.move P (.get door)).Awaited w.slots.length) : w.Unmoved (w.move P (.get door)) := by
  rw [getMove (numbered attained) behind here] at later ⊢
  have blocked : (p.enter P (w.newSeeker door n) w.shared).1 = .blocked := by
    rcases later with new | ⟨x,member,own⟩
    · exact absurd new (by simp [seat])
    · rcases queuesStem (p.enterQueues P (w.newSeeker door n) w.shared) member with other | ⟨blocked,_⟩
      · exact absurd own (Nat.ne_of_lt ((everyCallerQueued attained).fresh other))
      · exact blocked
  rw [getSleeps (Pool.everyRoom attained here) blocked]
  exact unmovedPut here rfl rfl rfl

theorem resumeSleepsStill {index : Nat} {wait : Wait} (attained : Attained P Alters outside w)
    (awake : w.shared.woken[index]? = some wait) (here : w.pools[wait.seeker.pool]? = some p)
    (later : (w.move P (.resume index)).Awaited wait.seeker.ticket) :
    w.Unmoved (w.move P (.resume index)) := by
  have queued := everyCallerQueued attained
  have mine : wait ∈ w.shared.unfinished := List.mem_append_right _ (List.mem_of_getElem? awake)
  rw [resumeMove (numbered attained) awake here] at later ⊢
  have blocked : (p.resume P wait (w.rouse index).shared).1 = .blocked := by
    rcases later with new | ⟨x,member,own⟩
    · rw [letGoSlots] at new
      exact absurd (queued.fresh mine) (by simpa [seatResumed,seat] using new)
    · rw [letGoUnfinished (numberedResumed (numbered attained) here index)] at member
      rcases queuesStem (p.resumeQueues P wait (w.rouse index).shared) member with other | ⟨blocked,_⟩
      · exact absurd own (queued.alone awake other)
      · exact blocked
  have sleeps := resumeSleeps (Pool.everyRoom attained here) (everyCallerUnspoilt attained _ mine)
    blocked
  have referred : (w.seatResumed P index wait p).IsReferred wait.seeker.pool := by
    refine .inr (.inr (List.mem_map.mpr
      ⟨⟨wait.seeker,w.shared.now,p.deadline? w.shared.now⟩,?_,rfl⟩))
    rw [seatResumed,sleeps]
    exact List.mem_append_left _ (List.mem_append_right _ List.mem_cons_self)
  rw [letGo,if_pos referred,seatResumed,sleeps]
  exact unmovedPut here rfl rfl rfl

theorem callSleeps (attained : Attained P Alters outside w) (own : w.caller? a = some ticket)
    (later : (w.move P a).Awaited ticket) : w.Unmoved (w.move P a) := by
  cases a with
  | get door =>
    obtain ⟨p,behind,rfl⟩ := Option.map_eq_some_iff.mp own
    obtain ⟨n,known,here⟩ := doorPoolAt behind
    exact getSleepsStill attained known here later
  | resume index =>
    obtain ⟨wait,awake,rfl⟩ := Option.map_eq_some_iff.mp own
    cases here : w.pools[wait.seeker.pool]? with
    | none =>
      rw [strayMove awake here]
      exact ⟨rfl,fun _ => rfl⟩
    | some p => exact resumeSleepsStill attained awake here later
  | _ => cases own

theorem grownNothing {size : World σ → Nat}
    (still : ∀ {v v' : World σ}, v.Unmoved v' → size v' = size v)
    (attained : Attained P (fun _ => True) outside w) (awaited : (w.run P moves).Awaited ticket) :
    grown P size ticket moves w = 0 := by
  induction moves generalizing w with
  | nil => rfl
  | cons a rest ih =>
    have first : Turns P (fun _ => True) w (w.move P a) := runTurns attained [a]
    have after := attained.trans first
    have between := awaitedBefore after (runTurns after rest) awaited
    rw [grown,ih after awaited,Nat.add_zero]
    split
    · rename_i own
      rw [still (callSleeps attained own between),Nat.sub_self]
    · rfl

end World
end ConnectionPool
