import ConnectionPool.Proofs.Scope
/-! What a pool does stays on its side: the wrappers it comes by carry numbers of its own, and a pool
out of view changes nothing of what is in view. -/
namespace ConnectionPool
variable {σ : Type} {P : Platform σ} {scope : Scope} {own : Bool}

namespace Shared
variable {f : σ → σ} {s t u : Shared σ}

theorem noteAside {e : Event} (away : scope.sees e = false) :
    (s.note e).within scope f = s.within scope f := by
  have unseen : scope.events (e :: s.journal) = scope.events s.journal := by
    rw [Scope.events,List.filter_cons,away]
    rfl
  exact congrArg (fun journal => { s.within scope f with journal }) unseen

theorem invalidateAside {w : Wrapper} (away : scope.key w.key = false) :
    (s.invalidate w).within scope f = s.within scope f := by
  have same : (s.live.filter (· ≠ w.key)).filter scope.key = s.live.filter scope.key := by
    rw [List.filter_filter]
    refine List.filter_congr fun key _ => ?_
    by_cases gone : key = w.key
    · simp [gone,away]
    · simp [gone]
  exact congrArg (fun keys : List Nat =>
    { s.within scope f with live := keys.map (rank scope.key) }) same

theorem newKeyAside (away : scope.key s.nextKey = false) :
    s.newKey.2.within scope f = s.within scope f := by
  have same : (s.nextKey :: s.live).filter scope.key = s.live.filter scope.key := by
    rw [List.filter_cons,away]
    rfl
  exact congrArg₂ (fun nextKey (keys : List Nat) =>
    { s.within scope f with nextKey, live := keys.map (rank scope.key) }) (rankOut away) same

theorem notifyAside {n : Nat} (away : scope.pool n = false) :
    (s.notify n).within scope f = s.within scope f := by
  have others (x : Wait) (mine : scope.awaits x = true) : Wait.isFor n x = false := by
    refine beq_false_of_ne fun same => ?_
    rw [Scope.awaits,same,away] at mine
    cases mine
  have asleep : scope.callers (s.waiting.filter (!Wait.isFor n ·)) = scope.callers s.waiting := by
    unfold Scope.callers
    rw [List.filter_filter]
    refine congrArg _ (List.filter_congr fun x _ => ?_)
    cases mine : scope.awaits x with
    | false => rfl
    | true => simp [others x mine]
  have awake : scope.callers (s.woken ++ s.waiting.filter (Wait.isFor n ·)) =
      scope.callers s.woken := by
    have none : (s.waiting.filter (Wait.isFor n ·)).filter scope.awaits = [] := by
      rw [List.filter_filter,List.filter_eq_nil_iff]
      intro x _ both
      rw [Bool.and_eq_true] at both
      exact absurd both.2 (by simp [others x both.1])
    unfold Scope.callers
    rw [List.filter_append,none,List.append_nil]
  refine (noteAside (e := .notified n) away).trans ?_
  exact congrArg₂ (fun waiting woken => { s.within scope f with waiting, woken }) asleep awake

theorem sleepAside {x : Wait} (away : scope.awaits x = false) :
    (s.sleep x).within scope f = s.within scope f := by
  have same : scope.callers (s.waiting ++ [x]) = scope.callers s.waiting := by
    unfold Scope.callers
    rw [List.filter_append,List.filter_singleton,away]
    exact congrArg (List.map _) (List.append_nil _)
  refine (noteAside (e := .blocked x.seeker.pool x.seeker.ticket) away).trans ?_
  exact congrArg (fun waiting => { s.within scope f with waiting }) same

theorem talksAside (division : P.Division scope.conn) {caller : Caller} {conn : Nat}
    (away : scope.conn conn = false) (talks : s.Talks P caller conn t) :
    t.within scope division.part = s.within scope division.part := by
  induction talks with
  | silent => rfl
  | @ask t before request ih =>
    have unseen := noteAside (f := division.part) (s := { t with
      outside := (P.answer conn request t.outside).2 })
      (e := .call caller conn request (P.answer conn request t.outside).1) away
    refine unseen.trans (Eq.trans ?_ ih)
    exact congrArg (fun outside => { t.within scope division.part with outside })
      (division.ignores away request t.outside)

end Shared

namespace Pool
variable {p q q' : Pool} {s t u : Shared σ} {w : Wrapper} {n : Nat}

/-- An act of a pool keeps to its own side, as long as all numbers given out in it do. -/
structure Confined (scope : Scope) (f : σ → σ) (own : Bool) (s : Shared σ) (q : Pool)
    (t : Shared σ) : Prop where
  grows : s.Grows t
  owns : scope.Issues own s t → ∀ x ∈ q.tracked, scope.Owns own x
  spares : own = false → scope.Issues false s t → t.within scope f = s.within scope f

namespace Confined
variable {f : σ → σ}

theorem start (owns : ∀ x ∈ p.tracked, scope.Owns own x) (s : Shared σ) :
    Confined scope f own s p s :=
  ⟨.refl s,fun _ => owns,fun _ _ => rfl⟩

theorem lists (confined : Confined scope f own s q t) (fewer : q'.tracked ⊆ q.tracked) :
    Confined scope f own s q' t :=
  { confined with owns := fun issues x member => confined.owns issues x (fewer member) }

theorem onward (confined : Confined scope f own s q t) (grows : t.Grows u)
    (spares : own = false → scope.Issues false s t → scope.Issues false t u →
      u.within scope f = t.within scope f) : Confined scope f own s q u where
  grows := confined.grows.trans grows
  owns issues := confined.owns (issues.upTo grows)
  spares away issues :=
    (spares away (issues.upTo grows) (issues.since confined.grows)).trans
      (confined.spares away (issues.upTo grows))

theorem note (confined : Confined scope f own s q t) {e : Event}
    (side : own = false → scope.Issues false s t → scope.sees e = false) :
    Confined scope f own s q (t.note e) :=
  confined.onward (t.noteBooks e).grows fun away issues _ =>
    Shared.noteAside (side away issues)

theorem invalidate (confined : Confined scope f own s q t)
    (side : scope.Issues own s t → scope.Owns own w) :
    Confined scope f own s q (t.invalidate w) :=
  confined.onward (t := t) ⟨Nat.le_refl _,Nat.le_refl _,Nat.le_refl _⟩ fun away issues _ => by
    subst away
    exact Shared.invalidateAside (side issues).key

theorem newKey (confined : Confined scope f own s q t) :
    Confined scope f own s q t.newKey.2 :=
  confined.onward ⟨Nat.le_refl _,Nat.le_refl _,Nat.le_succ _⟩ fun _ _ issues =>
    Shared.newKeyAside (issues.key (Nat.le_refl _) (Nat.lt_succ_self _))

theorem notify (confined : Confined scope f own s q t) (side : scope.pool n = own) :
    Confined scope f own s q (t.notify n) :=
  confined.onward ⟨Nat.le_refl _,Nat.le_refl _,Nat.le_refl _⟩ fun away _ _ =>
    Shared.notifyAside (side.trans away)

end Confined

variable {division : P.Division scope.conn}

namespace Confined

theorem talks (confined : Confined scope division.part own s q t) {caller : Caller} {conn : Nat}
    (side : scope.Issues own s t → scope.conn conn = own) (talks : t.Talks P caller conn u) :
    Confined scope division.part own s q u :=
  confined.onward talks.books.grows fun away issues _ => by
    subst away
    exact Shared.talksAside division (side issues) talks

theorem dispose (confined : Confined scope division.part own s q t) {conn : Nat}
    (side : scope.Issues own s t → scope.conn conn = own) (mine : scope.pool n = own) :
    Confined scope division.part own s q (t.dispose P n conn) := by
  obtain ⟨u,talks,_,same⟩ := t.disposeParts P n conn
  rw [same]
  exact (confined.talks side talks).note fun away _ => mine.trans away

theorem discard (confined : Confined scope division.part own s q t)
    (side : scope.Issues own s t → scope.Owns own w) (mine : scope.pool q.number = own) :
    Confined scope division.part own s (q.discard P w t).1 (q.discard P w t).2 := by
  have grows : t.Grows (t.invalidate w) := ⟨Nat.le_refl _,Nat.le_refl _,Nat.le_refl _⟩
  have disposed := (confined.invalidate side).dispose (P := P)
    (fun issues => (side (issues.upTo grows)).conn) mine
  exact disposed.lists (List.Subset.refl _)

end Confined

theorem welcomeAside (sized : division.Sized t) {outside : σ}
    (connect : P.connect t.opened q.source t.outside = (.ok (),outside))
    (away : scope.pool q.number = false) (issues : scope.Issues false t (q.welcome outside t)) :
    (q.welcome outside t).within scope division.part = t.within scope division.part := by
  have conn := issues.conn (Nat.le_refl _) (Nat.lt_succ_self _)
  have id := issues.id (Nat.le_refl _) (Nat.lt_succ_self _)
  have opened := division.opens sized connect
  rw [if_neg (by simp [conn])] at opened
  have given : { t with outside, nextId := t.nextId + 1, opened := t.opened + 1 }.within scope
      division.part = t.within scope division.part := by
    simp only [Shared.within,opened,rankOut conn,rankOut id]
  exact (Shared.noteAside (e := .opened q.number t.opened t.nextId q.source) away).trans given

theorem picksConfined (mine : scope.pool q.number = own) (sized : division.Sized t)
    (confined : Confined scope division.part own s q t) {pick : Pick}
    (picks : Picks P q t pick q' u) : Confined scope division.part own s q' u ∧
      ∀ w, pick = .candidate w → scope.Issues own s u → scope.Owns own w := by
  have opening {outside : σ} (connect : P.connect t.opened q.source t.outside = (.ok (),outside)) :
      Confined scope division.part own s q (q.welcome outside t) :=
    confined.onward ⟨Nat.le_succ _,Nat.le_succ _,Nat.le_refl _⟩ fun away _ issues =>
      welcomeAside sized connect (mine.trans away) issues
  -- The connection that is opened here is one of those given out since the act began.
  have fresh {outside v} (grows : (q.welcome outside t).Grows v) (issues : scope.Issues own s v) :
      scope.conn t.opened = own ∧ scope.id t.nextId = own :=
    have given := issues.since confined.grows
    ⟨given.conn (Nat.le_refl _) (Nat.lt_of_lt_of_le (Nat.lt_succ_self _) grows.opened),
      given.id (Nat.le_refl _) (Nat.lt_of_lt_of_le (Nat.lt_succ_self _) grows.ids)⟩
  cases picks with
  | kept first =>
    refine ⟨confined.lists (by simp [tracked,first]),?_⟩
    rintro _ ⟨⟩ issues
    exact confined.owns issues _ (by simp [tracked,first])
  | @refused cause outside none room connect =>
    refine ⟨?_,by rintro _ ⟨⟩⟩
    have tried : Confined scope division.part own s q
        { t with outside, nextId := t.nextId + 1 } := by
      refine confined.onward (t := t) ⟨Nat.le_refl _,Nat.le_succ _,Nat.le_refl _⟩ ?_
      intro _ _ issues
      have id := issues.id (Nat.le_refl _) (Nat.lt_succ_self _)
      simp only [Shared.within,rankOut id,(division.refuses connect).2]
    exact tried.note fun away _ => mine.trans away
  | unfit none room connect setUp =>
    have talks := (Shared.setUpTalks ..).ends setUp
    have called := (opening connect).talks (fun issues => ?_) talks
    · refine ⟨called.dispose (fun issues => (fresh talks.books.grows issues).1) mine,?_⟩
      rintro _ ⟨⟩
    · exact (fresh (.refl _) issues).1
  | @fresh outside v none room connect setUp =>
    have talks := (Shared.setUpTalks ..).ends setUp
    have called := (opening connect).talks (fun issues => ?_) talks
    · have created := called.newKey.note (e := .created q.number t.opened)
        fun away _ => mine.trans away
      refine ⟨created.lists (List.Subset.refl _),?_⟩
      rintro _ ⟨⟩ issues
      have numbers := fresh talks.books.grows (issues.upTo ⟨Nat.le_refl _,Nat.le_refl _,Nat.le_succ _⟩)
      have key := (issues.since called.grows).key (Nat.le_refl _) (Nat.lt_succ_self _)
      exact ⟨key,numbers.1,numbers.2⟩
    · exact (fresh (.refl _) issues).1
  | @overdue oldest rest none full lent late =>
    have had : oldest ∈ q.tracked := by simp [tracked,lent]
    have taken := (confined.invalidate fun issues => confined.owns issues _ had).note
      (e := .reclaimed q.number oldest (oldest.heldFor t.now)) fun away _ => mine.trans away
    have seized := taken.talks (fun issues => (taken.owns issues _ had).conn)
      (q.seizeTalks P oldest t)
    have left : rest ⊆ q.tracked := by simp [tracked,none,lent]
    refine ⟨(seized.newKey.notify mine).lists ?_,?_⟩
    · simpa [tracked,count,none] using left
    · rintro _ ⟨⟩ issues
      have key := (issues.since seized.grows).key (Nat.le_refl _) (Nat.lt_succ_self _)
      have old := seized.owns (issues.upTo ⟨Nat.le_refl _,Nat.le_refl _,Nat.le_succ _⟩) _ had
      exact ⟨key,old.conn,old.id⟩
  | nothing => exact ⟨confined,by rintro _ ⟨⟩⟩

theorem stayConfined (division : P.Division scope.conn) (mine : scope.pool p.number = own)
    {seeker : Seeker} (side : scope.pool seeker.pool = own) (s : Shared σ) :
    StayRule P seeker
      (fun q t => p.Alike q ∧ division.Sized t ∧ Confined scope division.part own s q t)
      (fun w q t => (p.Alike q ∧ division.Sized t ∧ Confined scope division.part own s q t) ∧
        (scope.Issues own s t → scope.Owns own w))
      (fun _ q t => Confined scope division.part own s q t) where
  finds before picks :=
    have ⟨alike,sized,confined⟩ := before
    have numbered := (congrArg scope.pool alike.number).trans mine
    have ⟨after,owns⟩ := picksConfined numbered sized confined picks
    ⟨⟨alike.trans (picksAlike picks),picksEndure division.endures sized picks,after⟩,owns _ rfl⟩
  misses before picks :=
    have ⟨alike,sized,confined⟩ := before
    have numbered := (congrArg scope.pool alike.number).trans mine
    ⟨alike.trans (picksAlike picks),picksEndure division.endures sized picks,
      (picksConfined numbered sized confined picks).1⟩
  blocks {q t} before _ bad := by
    have slept : Confined scope division.part own s q (q.block seeker bad t).2.2 :=
      before.2.2.onward ⟨Nat.le_refl _,Nat.le_refl _,Nat.le_refl _⟩ fun away _ _ =>
        Shared.sleepAside (side.trans away)
    refine slept.lists ?_
    unfold block
    split <;> exact List.Subset.refl _
  grants {w q t u} holding good := by
    obtain ⟨⟨alike,_,confined⟩,owns⟩ := holding
    have numbered := (congrArg scope.pool alike.number).trans mine
    have talks := (admitsTalks ..).ends good
    have called := confined.talks (fun issues => (owns issues).conn) talks
    have noted := called.note (e := .granted q.number seeker.ticket
      (w.stamped q.expected u.now) (u.now - seeker.startedAt)) fun away _ => numbered.trans away
    refine { noted with owns := fun issues x member => ?_ }
    simp only [grant,tracked,count,List.mem_append,List.mem_singleton] at member
    rcases member with kept | lent | rfl
    · exact noted.owns issues x (List.mem_append_left _ kept)
    · exact noted.owns issues x (List.mem_append_right _ lent)
    · obtain ⟨key,conn,id⟩ := owns (issues.upTo (talks.books.trans (u.noteBooks _)).grows)
      exact ⟨key,conn,id⟩
  rejects {w q t u} holding bad := by
    obtain ⟨⟨alike,sized,confined⟩,owns⟩ := holding
    have numbered := (congrArg scope.pool alike.number).trans mine
    have talks := (admitsTalks ..).ends bad
    have called := confined.talks (fun issues => (owns issues).conn) talks
    have noted := called.note (e := .rejected q.number w) fun away _ => numbered.trans away
    have counted : Confined scope division.part own s
        (q.count fun c => { c with bad := c.bad + 1 }) _ := noted.lists (List.Subset.refl _)
    refine ⟨alike.trans rfl,?_,?_⟩
    · exact discardEndures division.endures (division.endures.note
        (division.endures.talks sized talks) rfl) w _
    · refine counted.discard (fun issues => ?_) numbered
      exact owns (issues.upTo (talks.books.trans (u.noteBooks _)).grows)
  fails before _ :=
    have ⟨alike,_,confined⟩ := before
    confined.note fun away _ => ((congrArg scope.pool alike.number).trans mine).trans away
  overruns before := before.2.2

section Acts
variable (division) (owns : ∀ x ∈ p.tracked, scope.Owns own x)
  (mine : scope.pool p.number = own)
include owns mine

theorem enterConfined (sized : division.Sized s) {seeker : Seeker}
    (side : scope.pool seeker.pool = own) : Confined scope division.part own s
      (p.enter P seeker s).2.1 (p.enter P seeker s).2.2 :=
  (stayConfined division mine side s).enter
    (fun _ => (Confined.start owns s).note fun away _ => mine.trans away)
    (fun _ => ⟨.same p,sized,.start owns s⟩)

theorem resumeConfined (sized : division.Sized s) {wait : Wait}
    (side : scope.pool wait.seeker.pool = own) : Confined scope division.part own s
      (p.resume P wait s).2.1 (p.resume P wait s).2.2 := by
  have rises : Confined scope division.part own s (p.lingered (s.now - wait.since))
      (p.rises wait s) :=
    ((Confined.start owns s).note (e := .resumed p.number wait.seeker.ticket _)
      fun away _ => mine.trans away).lists (List.Subset.refl _)
  exact (stayConfined division mine side s).resume
    (fun _ => rises.note fun away _ => mine.trans away)
    (fun _ => ⟨rfl,division.endures.note sized rfl,rises⟩)

theorem returnsConfined (side : scope.Owns own w) (returns : Returns P w p s q t) :
    Confined scope division.part own s q t := by
  have taken (p' : Pool) (same : p'.tracked = (p.removeActive w).tracked) :
      Confined scope division.part own s p' s := by
    refine (Confined.start owns s).lists (same ▸ ?_)
    exact List.append_subset.mpr ⟨List.subset_append_left _ _,
      fun y left => List.mem_append_right _ (List.mem_of_mem_eraseP left)⟩
  cases returns with
  | stale =>
    have noted := (Confined.start (f := division.part) owns s).note (e := .staleReturn p.number w)
      fun away _ => mine.trans away
    exact noted.lists (List.Subset.refl _)
  | unfit lent found =>
    have called := (taken ((p.removeActive w).count fun c => { c with bad := c.bad + 1 }) rfl).talks
      (fun _ => side.conn) ((inspectTalks ..).ends found)
    have noted := called.note (e := .returned p.number w false (w.heldFor s.now))
      fun away _ => mine.trans away
    exact ((noted.discard (fun _ => side) mine).notify mine)
  | dropped lent found unwelcome =>
    have called := (taken (p.checkIn w s.now) rfl).talks (fun _ => side.conn)
      ((inspectTalks ..).ends found)
    have noted := called.note (e := .returned p.number w true (w.heldFor s.now))
      fun away _ => mine.trans away
    have turnedDown := noted.talks (fun _ => side.conn) (droppedTalks unwelcome)
    exact ((turnedDown.discard (fun _ => side) mine).notify mine)
  | @kept v u lent found welcome cleared =>
    have called := (taken (p.checkIn w s.now) rfl).talks (fun _ => side.conn)
      ((inspectTalks ..).ends found)
    have noted := called.note (e := .returned p.number w true (w.heldFor s.now))
      fun away _ => mine.trans away
    have present := noted.talks (fun _ => side.conn) ((Shared.rollbackTalks ..).ends cleared)
    have kept := (present.newKey.invalidate fun _ => side).notify mine
    refine { kept with owns := fun issues x member => ?_ }
    simp only [keep,tracked,List.mem_append,List.mem_singleton] at member
    rcases member with (old | rfl) | lent
    · exact kept.owns issues x (List.mem_append_left _ old)
    · have key := (issues.since present.grows).key (Nat.le_refl _) (Nat.lt_succ_self _)
      exact ⟨key,side.conn,side.id⟩
    · exact kept.owns issues x (List.mem_append_right _ lent)

theorem sweepConfined : Confined scope division.part own s (p.sweep P s).1 (p.sweep P s).2 := by
  refine (discardAllKeeps (P := P) (p := p.swept P) (fun ws q t =>
    (∀ w ∈ ws, scope.Owns own w) ∧ q.number = p.number ∧
      Confined scope division.part own s q t) ?_ ?_).2.2
  · intro w ws q t ⟨others,number,confined⟩
    have ⟨first,later⟩ := List.forall_mem_cons.mp others
    exact ⟨later,number,confined.discard (fun _ => first) ((congrArg scope.pool number).trans mine)⟩
  · have noted := (Confined.start (f := division.part) owns s).note
      (e := .swept p.number p.active.length p.idle.length) fun away _ => mine.trans away
    exact ⟨fun w member => owns w (p.sweepOrder.mem_iff.mpr member),rfl,
      noted.lists (List.nil_subset _)⟩

theorem closeAllConfined :
    Confined scope division.part own s (p.closeAll P s).1 (p.closeAll P s).2 :=
  (sweepConfined division owns mine).notify ((congrArg scope.pool (p.sweepNumber P s)).trans mine)

end Acts
end Pool
end ConnectionPool
