import ConnectionPool.Proofs.Custody
import ConnectionPool.Proofs.Resumption
import ConnectionPool.Proofs.Timeline
/-! What a pool writes while a caller stays and when a wrapper comes back, in which order, and where
the wrappers come from that it has afterwards. -/
namespace ConnectionPool

def Wrapper.Kin (x y : Wrapper) : Prop :=
  x.conn = y.conn ∧ x.id = y.id ∧ x.createdAt = y.createdAt

namespace Pool
variable {σ : Type} {P : Platform σ} {seeker : Seeker} {p q q' : Pool} {s t u : Shared σ}
  {w x : Wrapper} {outcome : Outcome}

def Notes (p : Pool) (s : Shared σ) : Event → Prop
  | .reclaimed n x held =>
      n = p.number ∧ x ∈ p.active ∧ held = x.heldFor s.now ∧ p.settings.maxCheckoutTime < held
  | event => event.isUpkeep

theorem upkeepNotes {event : Event} (upkeep : event.isUpkeep) : p.Notes s event := by
  cases event <;> first | exact upkeep | cases upkeep

theorem notesSilent {event : Event} (noted : p.Notes s event) : event.ticket? = none ∧
    (∀ key, event.lends key = false) ∧ ∀ conn, event.takesBack conn = false := by
  cases event <;> first | exact ⟨rfl,fun _ => rfl,fun _ => rfl⟩ | cases noted

def Stems (p : Pool) (s t : Shared σ) (w : Wrapper) : Prop :=
  (∃ y ∈ p.tracked, y.Kin w) ∨ (w.createdAt = s.now ∧
    ∃ new, t.journal = new ++ s.journal ∧ .opened p.number w.conn w.id p.source ∈ new)

theorem Stems.later (stems : p.Stems s t w) {ok : Event → Prop} (writes : t.Writes ok u) :
    p.Stems s u w := by
  refine stems.imp_right ?_
  rintro ⟨now,new,written,opened⟩
  obtain ⟨newer,grown,_⟩ := writes
  exact ⟨now,newer ++ new,by rw [grown,written,List.append_assoc],List.mem_append_right newer opened⟩

structure Along (p : Pool) (s : Shared σ) (q : Pool) (t : Shared σ) : Prop where
  alike : p.Alike q
  now : t.now = s.now
  writes : s.Writes (p.Notes s) t
  active : q.active ⊆ p.active
  idle : q.idle ⊆ p.idle
  callers : t.unfinished.Perm s.unfinished

namespace Along

theorem start (p : Pool) (s : Shared σ) : Along p s p s :=
  ⟨.same p,rfl,.nothing rfl,List.Subset.refl _,List.Subset.refl _,.refl _⟩

theorem talks (along : Along p s q t) {n conn : Nat} (talks : t.Talks P (.pool n) conn u) :
    Along p s q u :=
  { along with
    now := talks.books.now.trans along.now
    writes := along.writes.trans (talks.writes fun _ _ => rfl)
    callers := (List.Perm.of_eq talks.books.unfinished).trans along.callers }

theorem upkeep (along : Along p s q t) (event : Event) (plain : event.isUpkeep) :
    Along p s q (t.note event) :=
  { along with writes := along.writes.trans (.one (upkeepNotes plain)) }

theorem dispose (along : Along p s q t) (P : Platform σ) (n conn : Nat) :
    Along p s q (t.dispose P n conn) := by
  have books := t.disposeBooks P n conn
  exact { along with
    now := books.now.trans along.now
    writes := along.writes.trans (Shared.disposeWrites P n conn t (fun _ _ => rfl) rfl)
    callers := (List.Perm.of_eq books.unfinished).trans along.callers }

theorem discard (along : Along p s q t) (P : Platform σ) (w : Wrapper) :
    Along p s (q.discard P w t).1 (q.discard P w t).2 := by
  have struck : Along p s q (t.invalidate w) := { along with writes := along.writes }
  have gone := struck.dispose P q.number w.conn
  exact { gone with alike := along.alike.trans rfl, active := along.active, idle := along.idle }

theorem opens (along : Along p s q t) {outside : σ} {reply : Except Cause Unit}
    (setUp : (q.welcome outside t).setUp P (.pool q.number) t.opened q.source = (reply,u)) :
    Along p s q u ∧ ∃ new, u.journal = new ++ s.journal ∧
      .opened p.number t.opened t.nextId p.source ∈ new := by
  have number := along.alike.number
  have source := along.alike.source
  obtain ⟨noted,written,fits⟩ := along.writes
  have welcomed : Along p s q (q.welcome outside t) := { along with
    writes := along.writes.trans ⟨[_],rfl,by simp [Notes,Event.isUpkeep]⟩ }
  have talks := (Shared.setUpTalks ..).ends setUp
  have called : (q.welcome outside t).Writes (fun _ => True) u := talks.writes fun _ _ => trivial
  obtain ⟨calls,grown,_⟩ := called
  refine ⟨welcomed.talks talks,calls ++ .opened q.number t.opened t.nextId q.source :: noted,?_,?_⟩
  · rw [grown]
    simp [welcome,Shared.note,written]
  · simp [number,source]

end Along

theorem picksAlong (along : Along p s q t) {pick : Pick} (picks : Picks P q t pick q' u) :
    Along p s q' u ∧ ∀ w, pick = .candidate w → p.Stems s u w := by
  have callers := (picksUnfinished picks).trans along.callers
  have alike := along.alike.trans (picksAlike picks)
  cases picks with
  | @kept w rest first =>
    have had : w ∈ p.idle := along.idle (by simp [first])
    refine ⟨{ along with alike, callers, idle := ?_ },?_⟩
    · exact List.Subset.trans (first ▸ List.subset_cons_self ..) along.idle
    · rintro _ ⟨⟩
      exact .inl ⟨w,List.mem_append_left _ had,rfl,rfl,rfl⟩
  | nothing => exact ⟨along,by rintro _ ⟨⟩⟩
  | refused =>
    refine ⟨{ along with callers, writes := ?_ },by rintro _ ⟨⟩⟩
    exact along.writes.trans ⟨[_],rfl,by simp [Notes,Event.isUpkeep]⟩
  | unfit none room connect setUp =>
    exact ⟨(along.opens setUp).1.dispose P _ _,by rintro _ ⟨⟩⟩
  | @fresh outside v none room connect setUp =>
    obtain ⟨opening,new,grown,opened⟩ := along.opens setUp
    have created := opening.upkeep (.created q.number t.opened) rfl
    refine ⟨{ created with alike, callers, active := along.active, idle := along.idle },?_⟩
    rintro _ ⟨⟩
    refine .inr ⟨opening.now,.created q.number t.opened :: new,?_,List.mem_cons_of_mem _ opened⟩
    exact congrArg (List.cons _) grown
  | @overdue oldest rest none full lent late =>
    have talks := q.seizeTalks P oldest t
    -- It has been lent all along, so it was overdue when the caller came in as well.
    have had : oldest ∈ p.active := along.active (by simp [lent])
    have taken : t.Writes (p.Notes s) ((t.invalidate oldest).note
        (.reclaimed q.number oldest (oldest.heldFor t.now))) := by
      refine ⟨[_],rfl,?_⟩
      simp only [List.mem_singleton,forall_eq]
      rw [along.alike.number,along.now]
      exact ⟨rfl,had,rfl,along.alike.settings ▸ along.now ▸ late⟩
    refine ⟨{
      alike, callers
      now := talks.books.now.trans along.now
      writes := ((along.writes.trans taken).trans (talks.writes fun _ _ => rfl)).trans
        ⟨[_],rfl,by simp [Notes,Event.isUpkeep]⟩
      active := List.Subset.trans (lent ▸ List.subset_cons_self ..) along.active
      idle := along.idle },?_⟩
    rintro _ ⟨⟩
    exact .inl ⟨oldest,List.mem_append_right _ had,rfl,rfl,rfl⟩

structure Tells (p : Pool) (s : Shared σ) (seeker : Seeker) (outcome : Outcome) (q : Pool)
    (t : Shared σ) : Prop where
  now : t.now = s.now
  written : ∃ noted, t.journal = outcome.told p.number seeker s.now ++ noted ++ s.journal ∧
    ∀ event ∈ noted, p.Notes s event
  active : ∀ x ∈ q.active, x ∈ p.active ∨ outcome = .granted x
  idle : q.idle ⊆ p.idle
  lent : ∀ x, outcome = .granted x →
    x ∈ q.active ∧ x.checkoutAt = s.now ∧ x.lastUsedAt = s.now ∧ p.Stems s t x
  callers : ∀ y ∈ t.unfinished, y ∈ s.unfinished ∨ (outcome = .blocked ∧ y.since = s.now ∧
    y.seeker.ticket = seeker.ticket ∧ y.seeker.pool = seeker.pool ∧
    y.seeker.startedAt = seeker.startedAt)

theorem Along.tells (along : Along p s q t) (outcome : Outcome)
    (plain : ∀ x, outcome ≠ .granted x)
    (written : u.journal = outcome.told p.number seeker s.now ++ t.journal)
    (books : t.SameBooks u) : Tells p s seeker outcome q u where
  now := books.now.trans along.now
  written := by
    obtain ⟨noted,grown,fits⟩ := along.writes
    exact ⟨noted,by rw [written,grown,List.append_assoc],fits⟩
  active x member := .inl (along.active member)
  idle := along.idle
  lent x granted := absurd granted (plain x)
  callers y member := .inl (along.callers.mem_iff.mp (books.unfinished ▸ member))

theorem blockTells (along : Along p s q t) (own : seeker.pool = p.number) (bad : Nat) :
    Tells p s seeker .blocked (q.block seeker bad t).2.1 (q.block seeker bad t).2.2 := by
  obtain ⟨noted,grown,fits⟩ := along.writes
  have slept : Tells p s seeker .blocked q (q.block seeker bad t).2.2 := {
    now := along.now
    written := ⟨noted,by rw [← own]; exact congrArg (List.cons _) grown,fits⟩
    active := fun x member => .inl (along.active member)
    idle := along.idle
    lent := by rintro _ ⟨⟩
    callers := fun y member => by
      simp only [block,Shared.sleep,Shared.note,Shared.unfinished,List.mem_append,
        List.mem_singleton] at member
      rcases member with (old | rfl) | awake
      · exact .inl (along.callers.mem_iff.mp (List.mem_append_left _ old))
      · exact .inr ⟨rfl,along.now,rfl,rfl,rfl⟩
      · exact .inl (along.callers.mem_iff.mp (List.mem_append_right _ awake)) }
  unfold block
  split <;> exact { slept with active := slept.active, idle := slept.idle }

theorem stayTells (P : Platform σ) (own : seeker.pool = p.number) (s : Shared σ) :
    StayRule P seeker (Along p s) (fun w q t => Along p s q t ∧ p.Stems s t w)
      (Tells p s seeker) where
  finds along picks := (picksAlong along picks).imp_right fun stems => stems _ rfl
  misses along picks := (picksAlong along picks).1
  blocks along _ bad := blockTells along own bad
  grants {w q t u} holding good := by
    obtain ⟨along,stems⟩ := holding
    have talks := (admitsTalks ..).ends good
    have after := along.talks talks
    have grows : t.Writes (fun _ => True) (q.grant seeker w u).2.2 :=
      (talks.writes fun _ _ => trivial).trans (.one trivial)
    obtain ⟨noted,grown,fits⟩ := after.writes
    exact {
      now := after.now
      written := by
        refine ⟨noted,?_,fits⟩
        simp only [grant,Shared.note,Outcome.told,grown,after.now,along.alike.number]
        rfl
      active := fun x member => by
        rcases List.mem_append.mp member with old | new
        · exact .inl (along.active old)
        · exact .inr (congrArg Outcome.granted (List.mem_singleton.mp new).symm)
      idle := along.idle
      lent := fun x granted => by
        obtain rfl := Outcome.granted.inj granted
        exact ⟨List.mem_append_right _ List.mem_cons_self,after.now,after.now,stems.later grows⟩
      callers := fun y member => .inl (after.callers.mem_iff.mp member) }
  rejects {w q t u} holding bad := by
    have after := holding.1.talks ((admitsTalks ..).ends bad)
    have rejected := after.upkeep (.rejected q.number w) rfl
    have counted : Along p s (q.count fun c => { c with bad := c.bad + 1 })
        (u.note (.rejected q.number w)) :=
      { rejected with alike := rejected.alike.trans rfl, active := after.active, idle := after.idle }
    exact counted.discard P w
  fails along error := by
    have number := along.alike.number
    exact along.tells (.failed error) (by simp) (by simp [Shared.note,Outcome.told,number]) rfl
  overruns along := along.tells .overrun (by simp) rfl rfl

theorem enterTells (P : Platform σ) (own : seeker.pool = p.number) (s : Shared σ) :
    Tells p s seeker (p.enter P seeker s).1 (p.enter P seeker s).2.1 (p.enter P seeker s).2.2 :=
  (stayTells P own s).enter
    (fun _ => (Along.start p s).tells _ (by simp) rfl rfl) (fun _ => .start p s)

theorem resumeTells (P : Platform σ) {wait : Wait} (own : wait.seeker.pool = p.number)
    (s : Shared σ) : Tells p (p.rises wait s) wait.seeker (p.resume P wait s).1
      (p.resume P wait s).2.1 (p.resume P wait s).2.2 := by
  have risen : Along p (p.rises wait s) (p.lingered (s.now - wait.since)) (p.rises wait s) :=
    { Along.start p (p.rises wait s) with
      alike := rfl, active := List.Subset.refl _, idle := List.Subset.refl _ }
  exact (stayTells P own (p.rises wait s)).resume
    (fun _ => risen.tells _ (by simp) rfl rfl) (fun _ => risen)

structure Hands (P : Platform σ) (p : Pool) (s : Shared σ) (x : Wrapper) (event : Event) (q : Pool)
    (t : Shared σ) : Prop where
  now : t.now = s.now
  written : ∃ after before, t.journal = after ++ event :: (before ++ s.journal) ∧
    ∀ e ∈ after ++ before, e.isUpkeep
  told : (¬p.IsActive x ∧ event = .staleReturn p.number x) ∨
    (p.IsActive x ∧ event = .returned p.number x (p.inspect P x s).1 (x.heldFor s.now))
  active : q.active ⊆ p.active
  idle : ∀ y ∈ q.idle, y ∈ p.idle ∨ (p.IsActive x ∧ x.Kin y ∧ y.lastUsedAt = s.now ∧
    y.checkoutAt = y.createdAt)
  callers : t.unfinished.Perm s.unfinished

theorem upkeepAround {event : Event} (before : s.Writes (·.isUpkeep) u)
    (after : (u.note event).Writes (·.isUpkeep) t) :
    ∃ late early, t.journal = late ++ event :: (early ++ s.journal) ∧
      ∀ e ∈ late ++ early, e.isUpkeep := by
  obtain ⟨early,grown,plain⟩ := before
  obtain ⟨late,written,quiet⟩ := after
  refine ⟨late,early,by rw [written,← grown]; rfl,fun e member => ?_⟩
  exact (List.mem_append.mp member).elim (quiet e) (plain e)

theorem returnsHand (returns : Returns P x p s q t) : ∃ event, Hands P p s x event q t := by
  have same : (p.removeActive x).inspect P x s = p.inspect P x s := rfl
  have callers := returnsUnfinished returns
  have fewer := p.removeActiveSubset x
  have disposed (u : Shared σ) : u.Writes (·.isUpkeep)
      (((u.invalidate x).dispose P p.number x.conn).notify p.number) := by
    have gone : u.Writes (·.isUpkeep) ((u.invalidate x).dispose P p.number x.conn) :=
      Shared.disposeWrites P p.number x.conn (u.invalidate x) (fun _ _ => rfl) rfl
    exact gone.trans (.one rfl)
  cases returns with
  | stale away =>
    exact ⟨_,rfl,⟨[],[],rfl,by simp⟩,.inl ⟨away,rfl⟩,List.Subset.refl _,fun y => .inl,callers⟩
  | @unfit u lent found =>
    have talks := (inspectTalks ..).ends found
    have gone := ((u.note (.returned p.number x false (x.heldFor s.now))).invalidate x).disposeBooks
      P p.number x.conn
    exact ⟨_,gone.now.trans talks.books.now,upkeepAround (talks.writes fun _ _ => rfl) (disposed _),
      .inr ⟨lent,by rw [← same,found]⟩,fewer,fun y => .inl,callers⟩
  | @dropped u v lent found unwelcome =>
    have talks := (inspectTalks ..).ends found
    have refused := droppedTalks unwelcome
    have gone := (v.invalidate x).disposeBooks P p.number x.conn
    have cleared : (u.note (.returned p.number x true (x.heldFor s.now))).Writes (·.isUpkeep) v :=
      refused.writes fun _ _ => rfl
    have after := cleared.trans (disposed v)
    exact ⟨_,gone.now.trans (refused.books.now.trans talks.books.now),
      upkeepAround (talks.writes fun _ _ => rfl) after,.inr ⟨lent,by rw [← same,found]⟩,fewer,
      fun y => .inl,callers⟩
  | @kept u v lent found welcome cleared =>
    have talks := (inspectTalks ..).ends found
    have calls := (Shared.rollbackTalks ..).ends cleared
    have now : v.now = s.now := calls.books.now.trans talks.books.now
    have notified : v.Writes (·.isUpkeep) (((p.checkIn x s.now).keep x v).2.notify p.number) :=
      .one rfl
    have rolled : (u.note (.returned p.number x true (x.heldFor s.now))).Writes (·.isUpkeep) v :=
      calls.writes fun _ _ => rfl
    have after := rolled.trans notified
    refine ⟨_,now,upkeepAround (talks.writes fun _ _ => rfl) after,
      .inr ⟨lent,by rw [← same,found]⟩,fewer,fun y member => ?_,callers⟩
    rcases List.mem_append.mp member with old | new
    · exact .inl old
    · rw [List.mem_singleton.mp new]
      exact .inr ⟨lent,⟨rfl,rfl,rfl⟩,now,rfl⟩

theorem sweepUpkeep (P : Platform σ) (p : Pool) (s : Shared σ) :
    s.Writes (·.isUpkeep) (p.sweep P s).2 := by
  refine discardAllKeeps (P := P) (p := p.swept P) (fun _ _ t => s.Writes (·.isUpkeep) t) ?_ (.one rfl)
  intro w ws q t written
  exact written.trans (Shared.disposeWrites P q.number w.conn (t.invalidate w) (fun _ _ => rfl) rfl)

theorem closeAllUpkeep (P : Platform σ) (p : Pool) (s : Shared σ) :
    s.Writes (·.isUpkeep) (p.closeAll P s).2 :=
  (sweepUpkeep P p s).trans (.one rfl)

end Pool
end ConnectionPool
