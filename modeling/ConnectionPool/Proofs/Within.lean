import ConnectionPool.Proofs.Aside
import ConnectionPool.Proofs.Relay
/-! Pools in view act as if there were no others. Leaving the others out of a state and acting on
what is left comes to the same as acting first. -/
namespace ConnectionPool
variable {σ : Type} {P : Platform σ} {scope : Scope}

namespace Scope

theorem callersFilter {wakes wakes' : Wait → Bool}
    (same : ∀ x, scope.awaits x = true → wakes' (x.within scope) = wakes x) (xs : List Wait) :
    scope.callers (xs.filter wakes) = (scope.callers xs).filter wakes' := by
  unfold callers
  rw [List.filter_map,List.filter_filter,List.filter_filter]
  refine congrArg (List.map _) (List.filter_congr fun x _ => ?_)
  cases mine : scope.awaits x with
  | false => simp
  | true => simp [same x mine]

theorem callersAppend (xs ys : List Wait) :
    scope.callers (xs ++ ys) = scope.callers xs ++ scope.callers ys := by
  simp only [callers,List.filter_append,List.map_append]

theorem callersOne {x : Wait} (mine : scope.awaits x = true) :
    scope.callers [x] = [x.within scope] := by
  simp [callers,mine]

end Scope

namespace Shared
variable {f : σ → σ} {s : Shared σ}

theorem noteWithin {e : Event} (mine : scope.sees e = true) :
    (s.within scope f).note (e.within scope) = (s.note e).within scope f := by
  have seen : scope.events (e :: s.journal) = e.within scope :: scope.events s.journal := by
    rw [Scope.events,List.filter_cons,mine]
    rfl
  exact congrArg (fun journal => { s.within scope f with journal }) seen.symm

theorem withinRelays (division : P.Division scope.conn) (caller : Caller) {conn : Nat}
    (mine : scope.conn conn = true) :
    Relays P P (within scope division.part) caller (caller.within scope) conn
      (rank scope.conn conn) := by
  intro request s
  have answered : P.answer (rank scope.conn conn) request (s.within scope division.part).outside =
      _ := division.answers mine request s.outside
  unfold ask
  rw [answered]
  rcases P.answer conn request s.outside with ⟨reply,outside⟩
  have noted := noteWithin (f := division.part) (s := { s with outside })
    (e := .call caller conn request reply) mine
  exact congrArg (fun t => (reply,t)) noted

theorem disposeWithin (division : P.Division scope.conn) {n conn : Nat}
    (mine : scope.pool n = true) (own : scope.conn conn = true) (s : Shared σ) :
    (s.within scope division.part).dispose P (rank scope.pool n) (rank scope.conn conn) =
      (s.dispose P n conn).within scope division.part :=
  (withinRelays division (.pool n) own).dispose
    (fun _ => noteWithin (e := .discarded n conn) mine) s

theorem isLiveWithin {w : Wrapper} (own : scope.key w.key = true) :
    (s.within scope f).IsLive (w.within scope) ↔ s.IsLive w :=
  rankMem own s.live

theorem invalidateWithin {w : Wrapper} (own : scope.key w.key = true) :
    (s.within scope f).invalidate (w.within scope) = (s.invalidate w).within scope f :=
  congrArg (fun live => { s.within scope f with live }) (rankFilter own s.live).symm

theorem newKeyWithin (own : scope.key s.nextKey = true) :
    (s.within scope f).newKey = s.newKey.map (rank scope.key) (within scope f) := by
  have live : rank scope.key s.nextKey :: (s.live.filter scope.key).map (rank scope.key) =
      ((s.nextKey :: s.live).filter scope.key).map (rank scope.key) := by
    rw [List.filter_cons,own]
    rfl
  exact congrArg₂ (fun nextKey live => (rank scope.key s.nextKey,
    { s.within scope f with nextKey, live })) (rankIn own).symm live

theorem notifyWithin {n : Nat} (mine : scope.pool n = true) :
    (s.within scope f).notify (rank scope.pool n) = (s.notify n).within scope f := by
  have wakes (x : Wait) (awaits : scope.awaits x = true) :
      Wait.isFor (rank scope.pool n) (x.within scope) = Wait.isFor n x := by
    have same := rankSame (show scope.pool x.seeker.pool = true from awaits) mine
    exact decide_eq_decide.mpr same
  have asleep : scope.callers (s.waiting.filter (!Wait.isFor n ·)) =
      (scope.callers s.waiting).filter (!Wait.isFor (rank scope.pool n) ·) :=
    Scope.callersFilter (fun x awaits => congrArg (! ·) (wakes x awaits)) s.waiting
  have awake := Scope.callersFilter wakes s.waiting
  have woken : scope.callers (s.woken ++ s.waiting.filter (Wait.isFor n ·)) = _ :=
    Scope.callersAppend ..
  rw [awake] at woken
  have noted := noteWithin (f := f) (s := { s with
    waiting := s.waiting.filter (!Wait.isFor n ·)
    woken := s.woken ++ s.waiting.filter (Wait.isFor n ·) }) (e := .notified n) mine
  refine Eq.trans ?_ noted
  exact congrArg₂ (fun waiting woken => ({ s.within scope f with waiting, woken } :
    Shared σ).note (.notified (rank scope.pool n))) asleep.symm woken.symm

theorem sleepWithin {x : Wait} (mine : scope.awaits x = true) :
    (s.within scope f).sleep (x.within scope) = (s.sleep x).within scope f := by
  have joined : scope.callers (s.waiting ++ [x]) = _ := Scope.callersAppend ..
  rw [Scope.callersOne mine] at joined
  have noted := noteWithin (f := f) (s := { s with waiting := s.waiting ++ [x] })
    (e := .blocked x.seeker.pool x.seeker.ticket) mine
  refine Eq.trans ?_ noted
  exact congrArg (fun waiting => ({ s.within scope f with waiting } : Shared σ).note
    (.blocked (rank scope.pool x.seeker.pool) (rank scope.slot x.seeker.ticket))) joined.symm

theorem advanceWithin (time : Nat) :
    (s.within scope f).advance time = (s.advance time).within scope f := by
  have due (x : Wait) : Wait.isDue (s.now + time) (x.within scope) = Wait.isDue (s.now + time) x :=
    rfl
  have asleep : scope.callers (s.waiting.filter (!Wait.isDue (s.now + time) ·)) =
      (scope.callers s.waiting).filter (!Wait.isDue (s.now + time) ·) :=
    Scope.callersFilter (fun x _ => congrArg (! ·) (due x)) s.waiting
  have awake : scope.callers (s.waiting.filter (Wait.isDue (s.now + time) ·)) =
      (scope.callers s.waiting).filter (Wait.isDue (s.now + time) ·) :=
    Scope.callersFilter (fun x _ => due x) s.waiting
  have woken : scope.callers (s.woken ++ s.waiting.filter (Wait.isDue (s.now + time) ·)) = _ :=
    Scope.callersAppend ..
  rw [awake] at woken
  exact congrArg₂ (fun waiting woken => ({ s.within scope f with
    now := s.now + time, waiting, woken } : Shared σ)) asleep.symm woken.symm

end Shared
namespace Pool
variable {p q q' : Pool} {s t u : Shared σ} {w : Wrapper} {seeker : Seeker} {pick : Pick}

abbrev withinBoth (scope : Scope) (f : σ → σ) : Pool × Shared σ → Pool × Shared σ :=
  Prod.map (Pool.within scope) (Shared.within scope f)

theorem picksGrow (picks : Picks P p s pick q t) : s.Grows t := by
  have opening {outside v reply} (setUp : (p.welcome outside s).setUp P (.pool p.number) s.opened
      p.source = (reply,v)) : s.Grows v :=
    have welcomed : s.Grows (p.welcome outside s) :=
      ⟨Nat.le_succ _,Nat.le_succ _,Nat.le_refl _⟩
    welcomed.trans ((Shared.setUpTalks ..).ends setUp).books.grows
  cases picks with
  | kept | nothing => exact .refl s
  | refused => exact ⟨Nat.le_refl _,Nat.le_succ _,Nat.le_refl _⟩
  | unfit _ _ _ setUp => exact (opening setUp).trans (Shared.disposeBooks ..).grows
  | fresh _ _ _ setUp => exact (opening setUp).trans ⟨Nat.le_refl _,Nat.le_refl _,Nat.le_succ _⟩
  | @overdue oldest =>
    have seized := (p.seizeTalks P oldest s).books
    exact ⟨Nat.le_of_eq seized.opened.symm,Nat.le_of_eq seized.nextId.symm,
      Nat.le_succ_of_le (Nat.le_of_eq seized.nextKey.symm)⟩

theorem rejectGrows (P : Platform σ) (w : Wrapper) (p : Pool) (s : Shared σ) :
    s.Grows (p.reject P w s).2 := by
  have books := ((s.note (.rejected p.number w)).invalidate w).disposeBooks P p.number w.conn
  exact ⟨books.grows.opened,books.grows.ids,books.grows.keys⟩

section Shapes
variable (scope) (p w)

theorem withinHasActiveRoom : (p.within scope).HasActiveRoom ↔ p.HasActiveRoom := by
  unfold HasActiveRoom
  rw [within,List.length_map]

theorem withinHasIdleRoom : (p.within scope).HasIdleRoom ↔ p.HasIdleRoom := by
  unfold HasIdleRoom
  rw [within,List.length_map]

variable {scope p w}

theorem withinIsActive (own : scope.key w.key = true)
    (owns : ∀ x ∈ p.active, scope.key x.key = true) :
    (p.within scope).IsActive (w.within scope) ↔ p.IsActive w := by
  simp only [IsActive,within,Wrapper.within,List.map_map,List.mem_map,Function.comp_apply]
  constructor
  · rintro ⟨x,member,same⟩
    exact ⟨x,member,(rankSame (owns x member) own).mp same⟩
  · rintro ⟨x,member,same⟩
    exact ⟨x,member,congrArg _ same⟩

theorem withinRemoveActive (own : scope.key w.key = true)
    (owns : ∀ x ∈ p.active, scope.key x.key = true) :
    (p.within scope).removeActive (w.within scope) = (p.removeActive w).within scope := by
  have left (xs : List Wrapper) (owns : ∀ x ∈ xs, scope.key x.key = true) :
      (xs.map (Wrapper.within scope)).eraseP (·.key = (w.within scope).key) =
        (xs.eraseP (·.key = w.key)).map (Wrapper.within scope) := by
    induction xs with
    | nil => rfl
    | cons x xs ih =>
      have ⟨first,others⟩ := List.forall_mem_cons.mp owns
      have same : (x.within scope).key = (w.within scope).key ↔ x.key = w.key :=
        rankSame first own
      rw [List.map_cons,List.eraseP_cons,List.eraseP_cons,ih others]
      simp only [same]
      cases decide (x.key = w.key) <;> rfl
  exact congrArg (fun active => ({ p.within scope with active } : Pool)) (left p.active owns)

end Shapes

section Calls
variable (division : P.Division scope.conn)

theorem withinSeize (mine : scope.pool p.number = true) (own : scope.Owns true w) (s : Shared σ) :
    (p.within scope).seize P (w.within scope) (s.within scope division.part) =
      (p.seize P w s).within scope division.part := by
  have taken : ((s.within scope division.part).invalidate (w.within scope)).note
      (.reclaimed (rank scope.pool p.number) (w.within scope) (w.heldFor s.now)) =
      ((s.invalidate w).note (.reclaimed p.number w (w.heldFor s.now))).within scope
        division.part := by
    rw [Shared.invalidateWithin own.key]
    exact Shared.noteWithin (e := .reclaimed p.number w (w.heldFor s.now)) mine
  have cleared := (Shared.withinRelays division (.pool p.number) own.conn).rollback
    ((s.invalidate w).note (.reclaimed p.number w (w.heldFor s.now)))
  rw [← taken] at cleared
  exact congrArg Prod.snd cleared

theorem withinWelcome (mine : scope.pool p.number = true) (conn : scope.conn s.opened = true)
    (id : scope.id s.nextId = true) (outside : σ) :
    (p.within scope).welcome (division.part outside) (s.within scope division.part) =
      (p.welcome outside s).within scope division.part := by
  have noted := Shared.noteWithin (f := division.part) (s := { s with
    outside, nextId := s.nextId + 1, opened := s.opened + 1 })
    (e := .opened p.number s.opened s.nextId p.source) mine
  refine Eq.trans ?_ noted
  exact congrArg₂ (fun nextId opened => ({ s.within scope division.part with
    outside := division.part outside, nextId, opened } : Shared σ).note
    (.opened (rank scope.pool p.number) (rank scope.conn s.opened) (rank scope.id s.nextId)
      p.source)) (rankIn id).symm (rankIn conn).symm

theorem withinSetUp (mine : scope.pool p.number = true) (conn : scope.conn s.opened = true)
    (id : scope.id s.nextId = true) {outside : σ} {reply : Except Cause Unit}
    (setUp : (p.welcome outside s).setUp P (.pool p.number) s.opened p.source = (reply,t)) :
    ((p.within scope).welcome (division.part outside) (s.within scope division.part)).setUp P
      (.pool (rank scope.pool p.number)) (rank scope.conn s.opened) p.source =
      (reply,t.within scope division.part) := by
  rw [withinWelcome division mine conn id]
  exact ((Shared.withinRelays division (.pool p.number) conn).setUp (p.welcome outside s)
    p.source).trans (congrArg (Prod.map _ (Shared.within scope division.part)) setUp)

theorem withinInspect (own : scope.Owns true w) (p : Pool) (s : Shared σ) :
    (p.within scope).inspect P (w.within scope) (s.within scope division.part) =
      (p.inspect P w s).map id (Shared.within scope division.part) := by
  have checked := (Shared.withinRelays division (.pool p.number) own.conn).checkHealth s
    (w.unusedFor s.now) p.settings
  have live := Shared.isLiveWithin (s := s) (f := division.part) own.key
  unfold inspect
  by_cases here : s.IsLive w
  · rw [if_pos here,if_pos (live.mpr here)]
    exact congrArg (Prod.map Health.isHealthy id) checked
  · rw [if_neg here,if_neg (mt live.mp here)]
    rfl

theorem withinAdmits (own : scope.Owns true w) {good : Bool}
    (admitted : p.admits P w s = (good,t)) :
    (p.within scope).admits P (w.within scope) (s.within scope division.part) =
      (good,t.within scope division.part) := by
  have whole : (p.within scope).admits P (w.within scope) (s.within scope division.part) =
      (p.admits P w s).map id (Shared.within scope division.part) := by
    unfold admits
    rw [withinInspect division own]
    rcases p.inspect P w s with ⟨_ | _,v⟩
    · rfl
    · have cleared : (v.within scope division.part).rollbackUnlessAutoCommit P
          (.pool (p.within scope).number) (w.within scope).conn = _ :=
        (Shared.withinRelays division (.pool p.number) own.conn).rollback v
      simp only [Prod.map_apply,id_eq,cleared]
      rcases v.rollbackUnlessAutoCommit P (.pool p.number) w.conn with ⟨_ | _,u⟩ <;> rfl
  exact whole.trans (congrArg (Prod.map id (Shared.within scope division.part)) admitted)

theorem withinDiscard (mine : scope.pool p.number = true) (own : scope.Owns true w)
    (s : Shared σ) :
    (p.within scope).discard P (w.within scope) (s.within scope division.part) =
      withinBoth scope division.part (p.discard P w s) := by
  refine Prod.ext rfl ?_
  change ((s.within scope division.part).invalidate (w.within scope)).dispose P _ _ = _
  rw [Shared.invalidateWithin own.key]
  exact Shared.disposeWithin division mine own.conn (s.invalidate w)

theorem withinReject (mine : scope.pool p.number = true) (own : scope.Owns true w)
    (s : Shared σ) :
    (p.within scope).reject P (w.within scope) (s.within scope division.part) =
      withinBoth scope division.part (p.reject P w s) := by
  have noted := Shared.noteWithin (f := division.part) (s := s) (e := .rejected p.number w) mine
  have discarded := withinDiscard division (p := p.count fun c => { c with bad := c.bad + 1 }) mine
    own (s.note (.rejected p.number w))
  rw [← noted] at discarded
  exact discarded

omit division in
theorem withinEmpty (idle : p.idle = []) : (p.within scope).idle = [] :=
  congrArg (List.map (Wrapper.within scope)) idle

omit division in
theorem openedNumbers {outside : σ} (issues : scope.Issues true s t)
    (grows : (p.welcome outside s).Grows t) :
    scope.conn s.opened = true ∧ scope.id s.nextId = true where
  left := issues.conn (Nat.le_refl _) (Nat.lt_of_lt_of_le (Nat.lt_succ_self _) grows.opened)
  right := issues.id (Nat.le_refl _) (Nat.lt_of_lt_of_le (Nat.lt_succ_self _) grows.ids)

section Openings
variable (mine : scope.pool p.number = true) (sized : division.Sized s) (idle : p.idle = [])
  (room : p.HasActiveRoom) {outside : σ} {cause : Cause}
include mine sized idle room

omit sized in
theorem withinRefused (connect : P.connect s.opened p.source s.outside = (.error cause,outside))
    (issues : scope.Issues true s
      ({ s with outside, nextId := s.nextId + 1 }.note (.refused p.number cause))) :
    Picks P (p.within scope) (s.within scope division.part) (.failed (.connect cause))
      (p.within scope) (({ s with outside, nextId := s.nextId + 1 }.note
        (.refused p.number cause)).within scope division.part) := by
  have id := issues.id (Nat.le_refl _) (Nat.lt_succ_self _)
  have picked := Picks.refused (withinEmpty idle) ((withinHasActiveRoom scope p).mpr room)
    (s := s.within scope division.part) (division.refuses connect).1
  have noted := Shared.noteWithin (f := division.part) (s := { s with
    outside, nextId := s.nextId + 1 }) (e := .refused p.number cause) mine
  rw [← noted]
  simp only [Shared.within,rankIn id]
  exact picked

omit mine idle room in
theorem withinConnect (connect : P.connect s.opened p.source s.outside = (.ok (),outside))
    (conn : scope.conn s.opened = true) : P.connect (rank scope.conn s.opened) p.source
      (division.part s.outside) = (.ok (),division.part outside) := by
  have opened := division.opens sized connect
  rwa [if_pos conn] at opened

variable (connect : P.connect s.opened p.source s.outside = (.ok (),outside))
include connect

theorem withinUnfit
    (setUp : (p.welcome outside s).setUp P (.pool p.number) s.opened p.source = (.error cause,t))
    (issues : scope.Issues true s (t.dispose P p.number s.opened)) :
    Picks P (p.within scope) (s.within scope division.part) (.failed (.connect cause))
      (p.within scope) ((t.dispose P p.number s.opened).within scope division.part) := by
  have talks := (Shared.setUpTalks ..).ends setUp
  obtain ⟨conn,id⟩ := openedNumbers issues
    (talks.books.grows.trans (Shared.disposeBooks ..).grows)
  rw [← Shared.disposeWithin division mine conn]
  exact .unfit (withinEmpty idle) ((withinHasActiveRoom scope p).mpr room)
    (withinConnect division sized connect conn) (withinSetUp division mine conn id setUp)

theorem withinFresh
    (setUp : (p.welcome outside s).setUp P (.pool p.number) s.opened p.source = (.ok (),t))
    (issues : scope.Issues true s (t.newKey.2.note (.created p.number s.opened))) :
    Picks P (p.within scope) (s.within scope division.part)
      (.candidate ((Wrapper.fresh t.nextKey s.opened s.nextId t.now).within scope))
      ((p.count fun c => { c with created := c.created + 1 }).within scope)
      ((t.newKey.2.note (.created p.number s.opened)).within scope division.part) := by
  have talks := (Shared.setUpTalks ..).ends setUp
  have later : t.Grows (t.newKey.2.note (.created p.number s.opened)) :=
    ⟨Nat.le_refl _,Nat.le_refl _,Nat.le_succ _⟩
  obtain ⟨conn,id⟩ := openedNumbers issues (talks.books.grows.trans later)
  have key := issues.key talks.books.grows.keys (Nat.lt_succ_self _)
  have picked := Picks.fresh (withinEmpty idle) ((withinHasActiveRoom scope p).mpr room)
    (withinConnect division sized connect conn) (withinSetUp division mine conn id setUp)
  have keyed : t.newKey.2.within scope division.part = (t.within scope division.part).newKey.2 :=
    (congrArg Prod.snd (Shared.newKeyWithin key)).symm
  have noted := Shared.noteWithin (f := division.part) (s := t.newKey.2)
    (e := .created p.number s.opened) mine
  rw [← noted,keyed]
  exact picked

end Openings

theorem withinTakes (mine : scope.pool p.number = true)
    (owns : ∀ x ∈ p.tracked, scope.Owns true x) {oldest : Wrapper} {rest : List Wrapper}
    (idle : p.idle = []) (full : ¬p.HasActiveRoom) (active : p.active = oldest :: rest)
    (late : p.settings.maxCheckoutTime < oldest.heldFor s.now)
    (issues : scope.Issues true s
      (((p.seize P oldest s).rewrap oldest oldest.lastUsedAt).2.notify p.number)) :
    Picks P (p.within scope) (s.within scope division.part)
      (.candidate (((p.seize P oldest s).rewrap oldest oldest.lastUsedAt).1.within scope))
      (({ p with active := rest }.count fun c =>
        { c with claimedOverdue := c.claimedOverdue + 1
                 overdueTime := c.overdueTime + oldest.heldFor s.now
                 checkoutTime := c.checkoutTime + oldest.heldFor s.now }).within scope)
      ((((p.seize P oldest s).rewrap oldest oldest.lastUsedAt).2.notify p.number).within scope
        division.part) := by
  have own := owns oldest (by simp [tracked,active])
  have picked := Picks.overdue (P := P) (p := p.within scope)
    (s := s.within scope division.part) (withinEmpty idle)
    (mt (withinHasActiveRoom scope p).mp full)
    (congrArg (List.map (Wrapper.within scope)) active) late
  have seized := (p.seizeTalks P oldest s).books
  have key := issues.key (Nat.le_of_eq seized.nextKey.symm) (Nat.lt_succ_self _)
  have keyed : (p.seize P oldest s).newKey.2.within scope division.part =
      ((p.seize P oldest s).within scope division.part).newKey.2 :=
    (congrArg Prod.snd (Shared.newKeyWithin key)).symm
  have told : ((p.seize P oldest s).newKey.2.notify p.number).within scope division.part = _ :=
    (Shared.notifyWithin mine).symm
  rw [withinSeize division mine own] at picked
  rw [keyed] at told
  exact told ▸ picked

theorem withinPicks (mine : scope.pool p.number = true)
    (owns : ∀ x ∈ p.tracked, scope.Owns true x) (sized : division.Sized s)
    (issues : scope.Issues true s t) (picks : Picks P p s pick q t) :
    Picks P (p.within scope) (s.within scope division.part) (pick.within scope) (q.within scope)
      (t.within scope division.part) := by
  cases picks with
  | kept idle => exact .kept (congrArg (List.map (Wrapper.within scope)) idle)
  | refused idle room connect => exact withinRefused division mine idle room connect issues
  | unfit idle room connect setUp =>
    exact withinUnfit division mine sized idle room connect setUp issues
  | fresh idle room connect setUp =>
    exact withinFresh division mine sized idle room connect setUp issues
  | overdue idle full active late =>
    exact withinTakes division mine owns idle full active late issues
  | nothing idle full inTime =>
    refine .nothing (withinEmpty idle) (mt (withinHasActiveRoom scope p).mp full) fun x first => ?_
    have heads : (p.within scope).active.head? = p.active.head?.map (Wrapper.within scope) :=
      List.head?_map ..
    rw [heads] at first
    obtain ⟨oldest,front,rfl⟩ := Option.mem_map.mp first
    exact inTime oldest front

end Calls

section Stay
variable (division : P.Division scope.conn) (mine : scope.pool p.number = true)
  (side : scope.pool seeker.pool = true) (owns : ∀ x ∈ p.tracked, scope.Owns true x)
  (sized : division.Sized s)
include mine side owns sized

theorem withinPassed {n : Nat} (passed : Passed P p s n q t) (issues : scope.Issues true s t) :
    Passed P (p.within scope) (s.within scope division.part) n (q.within scope)
      (t.within scope division.part) := by
  have rule := stayConfined division mine side s
  induction passed with
  | start => exact .start
  | @again n q t w q' t' u passed picks spoilt ih =>
    -- All that was given out by a look was given out by the end of it.
    have called := ((admitsTalks ..).ends spoilt).books.grows
    have atCandidate := issues.upTo (called.trans (q'.rejectGrows P w u))
    have atLook := atCandidate.upTo (picksGrow picks)
    have before := rule.passed ⟨.same p,sized,.start owns s⟩ passed
    have holding := rule.finds before picks
    have numbered := (congrArg scope.pool before.1.number).trans mine
    have numbered' := (congrArg scope.pool holding.1.1.number).trans mine
    have picked := withinPicks division numbered (before.2.2.owns atLook) before.2.1
      (atCandidate.since before.2.2.grows) picks
    have own := holding.2 atCandidate
    have next := (ih atLook).again picked (withinAdmits division own spoilt)
    rwa [withinReject division numbered' own] at next

theorem withinLook {n : Nat} (passed : Passed P p s n q t) (picks : Picks P q t pick q' u)
    (issues : scope.Issues true s u) :
    Passed P (p.within scope) (s.within scope division.part) n (q.within scope)
      (t.within scope division.part) ∧
    Picks P (q.within scope) (t.within scope division.part) (pick.within scope) (q'.within scope)
      (u.within scope division.part) ∧
    scope.pool q'.number = true ∧ ∀ w, pick = .candidate w → scope.Owns true w := by
  have atLook := issues.upTo (picksGrow picks)
  have before := (stayConfined division mine side s).passed ⟨.same p,sized,.start owns s⟩ passed
  have numbered := (congrArg scope.pool before.1.number).trans mine
  have alike := before.1.trans (picksAlike picks)
  refine ⟨withinPassed division mine side owns sized passed atLook,?_,?_,?_⟩
  · exact withinPicks division numbered (before.2.2.owns atLook) before.2.1
      (issues.since before.2.2.grows) picks
  · exact (congrArg scope.pool alike.number).trans mine
  · exact fun w found => (picksConfined numbered before.2.1 before.2.2 picks).2 w found issues

end Stay

section Outcomes
variable {f : σ → σ}

theorem withinFail (mine : scope.pool p.number = true) (seeker : Seeker) (error : PoolError)
    (s : Shared σ) :
    (p.within scope).fail (seeker.within scope) error (s.within scope f) =
      (p.fail seeker error s).map (Outcome.within scope) (withinBoth scope f) :=
  congrArg (fun t => (Outcome.failed error,p.within scope,t))
    (Shared.noteWithin (e := .denied p.number seeker.ticket error) mine)

theorem withinBlock (side : scope.pool seeker.pool = true) (bad : Nat) (p : Pool) (s : Shared σ) :
    (p.within scope).block (seeker.within scope) bad (s.within scope f) =
      (p.block seeker bad s).map (Outcome.within scope) (withinBoth scope f) := by
  have slept := Shared.sleepWithin (s := s) (f := f) (x := ⟨{ seeker with
    hasWaited := true, bad := UInt32.ofNat bad },s.now,p.deadline? s.now⟩) side
  have counted := apply_ite (Pool.within scope) (seeker.hasWaited = true) p
    (p.count fun c => { c with hadToWait := c.hadToWait + 1 })
  exact Prod.ext rfl (Prod.ext counted.symm slept)

theorem withinGrant (mine : scope.pool p.number = true) (seeker : Seeker) (w : Wrapper)
    (s : Shared σ) :
    (p.within scope).grant (seeker.within scope) (w.within scope) (s.within scope f) =
      (p.grant seeker w s).map (Outcome.within scope) (withinBoth scope f) := by
  have noted := Shared.noteWithin (s := s) (f := f) (e := .granted p.number seeker.ticket
    (w.stamped p.expected s.now) (s.now - seeker.startedAt)) mine
  have lent : p.active.map (Wrapper.within scope) ++
      [(w.stamped p.expected s.now).within scope] =
      (p.active ++ [w.stamped p.expected s.now]).map (Wrapper.within scope) := by
    rw [List.map_append]
    rfl
  refine Prod.ext rfl (Prod.ext ?_ noted)
  exact congrArg (fun active => ({ p.within scope with active } : Pool).count fun c =>
    { c with
      requests := c.requests + 1
      requestTime := c.requestTime + (s.now - seeker.startedAt) }) lent

theorem withinGiveUp (mine : scope.pool p.number = true) (seeker : Seeker) (bad : Nat)
    (s : Shared σ) :
    (p.within scope).giveUp (seeker.within scope) bad (s.within scope f) =
      (p.giveUp seeker bad s).map (Outcome.within scope) (withinBoth scope f) := by
  unfold giveUp
  split
  · exact withinFail mine seeker _ s
  · rfl

end Outcomes

section Stay
variable (division : P.Division scope.conn) (mine : scope.pool p.number = true)
  (owns : ∀ x ∈ p.tracked, scope.Owns true x) (sized : division.Sized s)
include mine owns sized

theorem withinEnds (side : scope.pool seeker.pool = true) {patience bad : Nat}
    {result : Outcome × Pool × Shared σ} (ends : Ends P seeker patience bad p s result)
    (issues : scope.Issues true s result.2.2) :
    Ends P (seeker.within scope) patience bad (p.within scope) (s.within scope division.part)
      (result.map (Outcome.within scope) (withinBoth scope division.part)) := by
  cases ends with
  | misses inTime passed picks =>
    obtain ⟨passed',picks',numbered,_⟩ :=
      withinLook division mine side owns sized passed picks
        (issues.upTo ⟨Nat.le_refl _,Nat.le_refl _,Nat.le_refl _⟩)
    rw [← withinFail numbered]
    exact .misses inTime passed' picks'
  | sleeps inTime passed picks =>
    obtain ⟨passed',picks',_,_⟩ :=
      withinLook division mine side owns sized passed picks
        (issues.upTo ⟨Nat.le_refl _,Nat.le_refl _,Nat.le_refl _⟩)
    rw [← withinBlock side]
    exact .sleeps inTime passed' picks'
  | finds inTime passed picks good =>
    have called := ((admitsTalks ..).ends good).books.grows
    obtain ⟨passed',picks',numbered,own⟩ := withinLook division mine side owns sized passed picks
      (issues.upTo ⟨called.opened,called.ids,called.keys⟩)
    rw [← withinGrant numbered]
    exact .finds inTime passed' picks' (withinAdmits division (own _ rfl) good)
  | @givesUp q t w q' t' u passed picks spoilt =>
    have called := ((admitsTalks ..).ends spoilt).books.grows
    have left : (q'.reject P w u).2.Grows
        ((q'.reject P w u).1.giveUp seeker (bad + patience + 1) (q'.reject P w u).2).2.2 := by
      unfold giveUp
      split <;> exact ⟨Nat.le_refl _,Nat.le_refl _,Nat.le_refl _⟩
    obtain ⟨passed',picks',numbered,own⟩ := withinLook division mine side owns sized passed picks
      (issues.upTo ((called.trans (q'.rejectGrows P w u)).trans left))
    have ends : Ends P (seeker.within scope) patience bad _ _ _ :=
      .givesUp passed' picks' (withinAdmits division (own _ rfl) spoilt)
    rw [withinReject division numbered (own _ rfl)] at ends
    rw [← withinGiveUp (p := (q'.reject P w u).1) numbered]
    exact ends

theorem withinStay (side : scope.pool seeker.pool = true)
    (issues : scope.Issues true s (p.stay P seeker s).2.2) :
    (p.within scope).stay P (seeker.within scope) (s.within scope division.part) =
      (p.stay P seeker s).map (Outcome.within scope) (withinBoth scope division.part) :=
  endsSeek (withinEnds division mine owns sized side (stayEnds P seeker p s) issues)

theorem withinEnter (side : scope.pool seeker.pool = true)
    (issues : scope.Issues true s (p.enter P seeker s).2.2) :
    (p.within scope).enter P (seeker.within scope) (s.within scope division.part) =
      (p.enter P seeker s).map (Outcome.within scope) (withinBoth scope division.part) := by
  cases shut : p.closed with
  | true =>
    rw [enterShut shut,enterShut (p := p.within scope) shut]
    exact withinFail mine seeker .poolClosed s
  | false =>
    rw [enterOpen shut] at issues ⊢
    rw [enterOpen (p := p.within scope) shut]
    exact withinStay division mine owns sized side issues

theorem withinResume {wait : Wait} (side : scope.pool wait.seeker.pool = true)
    (issues : scope.Issues true s (p.resume P wait s).2.2) :
    (p.within scope).resume P (wait.within scope) (s.within scope division.part) =
      (p.resume P wait s).map (Outcome.within scope) (withinBoth scope division.part) := by
  have rises : (p.within scope).rises (wait.within scope) (s.within scope division.part) =
      (p.rises wait s).within scope division.part :=
    Shared.noteWithin (e := .resumed p.number wait.seeker.ticket (s.now - wait.since)) mine
  cases shut : p.closed with
  | true =>
    rw [resumeShut shut,resumeShut (p := p.within scope) shut,rises]
    exact withinFail (p := p.lingered (s.now - wait.since)) mine wait.seeker .waitInterrupted
      (p.rises wait s)
  | false =>
    rw [resumeOpen shut] at issues ⊢
    rw [resumeOpen (p := p.within scope) shut,rises]
    have risen : division.Sized (p.rises wait s) := division.endures.note sized rfl
    exact withinStay division (p := p.lingered (s.now - wait.since)) mine owns risen side
      (issues.since (s.noteBooks _).grows)

end Stay
section Sweeps
variable (division : P.Division scope.conn) (mine : scope.pool p.number = true)
  (owns : ∀ x ∈ p.tracked, scope.Owns true x)
include mine owns

theorem withinSweep (s : Shared σ) :
    (p.within scope).sweep P (s.within scope division.part) =
      withinBoth scope division.part (p.sweep P s) := by
  have discards (ws : List Wrapper) (q : Pool) (t : Shared σ) (numbered : scope.pool q.number = true)
      (theirs : ∀ x ∈ ws, scope.Owns true x) :
      discardAll P (ws.map (Wrapper.within scope)) (q.within scope) (t.within scope division.part) =
        withinBoth scope division.part (discardAll P ws q t) := by
    induction ws generalizing q t with
    | nil => rfl
    | cons w ws ih =>
      have ⟨first,others⟩ := List.forall_mem_cons.mp theirs
      rw [List.map_cons,discardAll,withinDiscard division numbered first]
      exact ih _ _ numbered others
  have order : (p.within scope).active.reverse ++ (p.within scope).idle.reverse =
      (p.active.reverse ++ p.idle.reverse).map (Wrapper.within scope) := by
    simp only [within,List.map_append,List.map_reverse]
  have counts : (p.within scope).active.length = p.active.length ∧
      (p.within scope).idle.length = p.idle.length := ⟨List.length_map ..,List.length_map ..⟩
  have noted := Shared.noteWithin (s := s) (f := division.part)
    (e := .swept p.number p.active.length p.idle.length) mine
  unfold sweep
  rw [order,counts.1,counts.2]
  refine (congrArg (discardAll P _ ((p.swept P).within scope)) noted).trans ?_
  exact discards _ (p.swept P) _ mine fun x member => owns x (p.sweepOrder.mem_iff.mpr member)

theorem withinCloseAll (s : Shared σ) :
    (p.within scope).closeAll P (s.within scope division.part) =
      withinBoth scope division.part (p.closeAll P s) := by
  unfold closeAll
  rw [withinSweep division mine owns]
  have numbered : scope.pool (p.sweep P s).1.number = true :=
    (congrArg scope.pool (p.sweepNumber P s)).trans mine
  exact Prod.ext rfl (Shared.notifyWithin numbered)

theorem withinClose (s : Shared σ) :
    (p.within scope).close P (s.within scope division.part) =
      withinBoth scope division.part (p.close P s) := by
  have closed : (p.within scope).closed = p.closed := rfl
  unfold close
  rw [closed]
  split
  · rfl
  · exact withinCloseAll (p := { p with closed := true }) division mine owns s

theorem withinConfigure (change : Change) (s : Shared σ) :
    (p.within scope).configure P change (s.within scope division.part) =
      (p.configure P change s).map id (withinBoth scope division.part) := by
  have applied : ((p.within scope).source,(p.within scope).settings) = (p.source,p.settings) := rfl
  unfold configure
  rw [applied]
  rcases change.apply (p.source,p.settings) with ⟨source,settings⟩
  dsimp only
  split
  · rfl
  · exact Prod.ext rfl (withinCloseAll (p := { p with source, settings }) division mine owns s)

theorem withinAbandon (s : Shared σ) :
    (p.within scope).abandon P (s.within scope division.part) =
      withinBoth scope division.part (p.abandon P s) := by
  have none : (p.within scope).tracked = [] ↔ p.tracked = [] := by
    simp only [tracked,within,List.append_eq_nil_iff,List.map_eq_nil_iff]
  unfold abandon
  by_cases empty : p.tracked = []
  · rw [if_pos empty,if_pos (none.mpr empty)]
    rfl
  · rw [if_neg empty,if_neg (mt none.mp empty),withinSweep division mine owns]

end Sweeps

theorem storeNumber (P : Platform σ) (w : Wrapper) (p : Pool) (s : Shared σ) :
    (p.store P w s).1.number = p.number := by
  unfold store
  split
  · split <;> rfl
  · rfl

section Returns
variable (division : P.Division scope.conn) (mine : scope.pool p.number = true)
  (own : scope.Owns true w)
include mine own

theorem withinStore (s : Shared σ) (issues : scope.Issues true s (p.store P w s).2) :
    (p.within scope).store P (w.within scope) (s.within scope division.part) =
      withinBoth scope division.part (p.store P w s) := by
  have keeps (t : Shared σ) (key : scope.key t.nextKey = true) :
      (p.within scope).keep (w.within scope) (t.within scope division.part) =
        withinBoth scope division.part (p.keep w t) := by
    have keyed : t.newKey.2.within scope division.part =
        (t.within scope division.part).newKey.2 := (congrArg Prod.snd (Shared.newKeyWithin key)).symm
    have dead := Shared.invalidateWithin (s := t.newKey.2) (f := division.part) own.key
    rw [keyed] at dead
    refine Prod.ext ?_ dead
    have joined : p.idle.map (Wrapper.within scope) ++ [(w.rewrapped t.nextKey t.now).within scope] =
        (p.idle ++ [w.rewrapped t.nextKey t.now]).map (Wrapper.within scope) := by
      rw [List.map_append]
      rfl
    exact congrArg (fun idle => ({ p.within scope with idle } : Pool)) joined
  have cleared : (s.within scope division.part).rollbackUnlessAutoCommit P
      (.pool (p.within scope).number) (w.within scope).conn = _ :=
    (Shared.withinRelays division (.pool p.number) own.conn).rollback s
  have code : (w.within scope).typeCode = w.typeCode := rfl
  have expected : (p.within scope).expected = p.expected := rfl
  unfold store at issues ⊢
  simp only [withinHasIdleRoom,code,expected,cleared]
  split
  · rename_i welcome
    rw [if_pos welcome] at issues
    have talks := s.rollbackTalks P (.pool p.number) w.conn
    rcases outcome : s.rollbackUnlessAutoCommit P (.pool p.number) w.conn with ⟨_ | _,t⟩
    · exact withinDiscard division mine own t
    · rw [outcome] at issues talks
      exact keeps t (issues.key talks.books.grows.keys (Nat.lt_succ_self _))
  · exact withinDiscard division mine own s

theorem withinRelease (owns : ∀ x ∈ p.tracked, scope.Owns true x) (s : Shared σ)
    (issues : scope.Issues true s (p.release P w s).2) :
    (p.within scope).release P (w.within scope) (s.within scope division.part) =
      withinBoth scope division.part (p.release P w s) := by
  have keys : ∀ x ∈ p.active, scope.key x.key = true := fun x member =>
    (owns x (List.mem_append_right _ member)).key
  have found := withinInspect division own (p.removeActive w) s
  unfold release at issues ⊢
  by_cases lent : p.IsActive w
  · rw [if_pos lent] at issues
    rw [if_pos lent,if_pos ((withinIsActive own.key keys).mpr lent)]
    simp only [withinRemoveActive own.key keys,found] at issues ⊢
    have talks := (p.removeActive w).inspectTalks P w s
    rcases outcome : (p.removeActive w).inspect P w s with ⟨_ | _,t⟩
    · have noted := Shared.noteWithin (s := t) (f := division.part)
        (e := .returned p.number w false (w.heldFor s.now)) mine
      have discarded := withinDiscard division
        (p := (p.removeActive w).count fun c => { c with bad := c.bad + 1 }) mine own
        (t.note (.returned p.number w false (w.heldFor s.now)))
      rw [← noted] at discarded
      refine (congrArg (Prod.map id (Shared.notify · (rank scope.pool p.number))) discarded).trans ?_
      exact Prod.ext rfl (Shared.notifyWithin mine)
    · rw [outcome] at issues talks
      have noted := Shared.noteWithin (s := t) (f := division.part)
        (e := .returned p.number w true (w.heldFor s.now)) mine
      have since : s.Grows (t.note (.returned p.number w true (w.heldFor s.now))) :=
        (talks.books.trans (t.noteBooks _)).grows
      have whole : scope.Issues true s (((p.checkIn w s.now).store P w (t.note
        (.returned p.number w true (w.heldFor s.now)))).2.notify _) := issues
      have stored := withinStore division (p := p.checkIn w s.now) mine own _
        ((whole.upTo (Shared.notifyGrows ..)).since since)
      rw [← noted] at stored
      refine (congrArg (fun x => (x.1,x.2.notify x.1.number)) stored).trans ?_
      have numbered := congrArg scope.pool ((p.checkIn w s.now).storeNumber P w
        (t.note (.returned p.number w true (w.heldFor s.now))))
      exact Prod.ext rfl (Shared.notifyWithin (numbered.trans mine))
  · rw [if_neg lent,if_neg (mt (withinIsActive own.key keys).mp lent)]
    exact Prod.ext rfl (Shared.noteWithin (e := .staleReturn p.number w) mine)

end Returns
end Pool
end ConnectionPool
