import ConnectionPool.Proofs.Turn
/-! What one pool can leave behind in what all pools share: valid keys only go or are new, and what
is written is about the pool itself, its own connections and those it has just opened. -/
namespace ConnectionPool

def Event.pool? : Event → Option Nat
  | .refused pool _ | .opened pool _ _ _ | .created pool _ | .rejected pool _ | .discarded pool _
  | .reclaimed pool _ _ | .blocked pool _ | .resumed pool _ _ | .granted pool _ _ _
  | .denied pool _ _ | .staleReturn pool _ | .returned pool _ _ _ | .swept pool _ _
  | .notified pool => some pool
  | .call (.pool pool) _ _ _ => some pool
  | .call (.holder _) _ _ _ => none

namespace Shared
variable {σ : Type} {P : Platform σ} {ok good : Event → Prop} {s t u : Shared σ}

def Writes (ok : Event → Prop) (s t : Shared σ) : Prop :=
  ∃ new, t.journal = new ++ s.journal ∧ ∀ event ∈ new, ok event

namespace Writes

theorem nothing (same : t.journal = s.journal) : s.Writes ok t := ⟨[],same,by simp⟩

theorem one {event : Event} (fits : ok event) : s.Writes ok (s.note event) :=
  ⟨[event],rfl,by simpa using fits⟩

theorem trans (first : s.Writes ok t) (second : t.Writes ok u) : s.Writes ok u := by
  obtain ⟨new,before,fits⟩ := first
  obtain ⟨newer,after,fit⟩ := second
  refine ⟨newer ++ new,by rw [after,before,List.append_assoc],fun event member => ?_⟩
  rcases List.mem_append.mp member with late | early
  · exact fit event late
  · exact fits event early

theorem imp (writes : s.Writes ok t) (weaker : ∀ event, ok event → good event) :
    s.Writes good t := by
  obtain ⟨new,grown,fits⟩ := writes
  exact ⟨new,grown,fun event member => weaker event (fits event member)⟩

theorem mem (writes : s.Writes ok t) {event : Event} (written : event ∈ t.journal) :
    event ∈ s.journal ∨ ok event := by
  obtain ⟨new,grown,fits⟩ := writes
  rw [grown] at written
  exact (List.mem_append.mp written).symm.imp_right (fits event)

theorem keeps (writes : s.Writes ok t) {event : Event} (written : event ∈ s.journal) :
    event ∈ t.journal := by
  obtain ⟨new,grown,_⟩ := writes
  rw [grown]
  exact List.mem_append_right new written

theorem filter {chosen : Event → Bool} (silent : s.Writes (fun event => chosen event = false) t) :
    t.journal.filter chosen = s.journal.filter chosen := by
  obtain ⟨new,grown,fits⟩ := silent
  have none : new.filter chosen = [] :=
    List.filter_eq_nil_iff.mpr fun event member => by simp [fits event member]
  rw [grown,List.filter_append,none,List.nil_append]

end Writes

theorem Talks.writes {caller : Caller} {conn : Nat} (talks : s.Talks P caller conn t)
    (fits : ∀ request reply, ok (.call caller conn request reply)) : s.Writes ok t := by
  induction talks with
  | silent => exact .nothing rfl
  | ask _ request ih => exact ih.trans (.one (fits request _))

theorem disposeWrites (P : Platform σ) (pool conn : Nat) (s : Shared σ)
    (calls : ∀ request reply, ok (.call (.pool pool) conn request reply))
    (done : ok (.discarded pool conn)) : s.Writes ok (s.dispose P pool conn) := by
  obtain ⟨t,talks,_,same⟩ := s.disposeParts P pool conn
  rw [same]
  exact (talks.writes calls).trans (.one done)

end Shared

namespace Pool
variable {σ : Type}

def Reaches (p : Pool) (s : Shared σ) (conn : Nat) : Prop :=
  conn ∈ p.tracked.map Wrapper.conn ∨ s.opened ≤ conn

def Signs (p : Pool) (s : Shared σ) : Event → Prop
  | .opened pool conn _ source => pool = p.number ∧ s.opened ≤ conn ∧ source = p.source
  | .call caller conn _ _ => caller = .pool p.number ∧ p.Reaches s conn
  | event => event.pool? = some p.number

theorem signsSpare {p : Pool} {s : Shared σ} {conn : Nat} {event : Event}
    (apart : ¬p.Reaches s conn) (signs : p.Signs s event) : event.concerns conn = false := by
  cases event with
  | opened pool other id source =>
    refine beq_false_of_ne fun same => apart (.inr ?_)
    exact same ▸ signs.2.1
  | call caller other request reply => exact beq_false_of_ne fun same => apart (same ▸ signs.2)
  | _ => rfl

structure Acts (p : Pool) (s : Shared σ) (q : Pool) (t : Shared σ) : Prop where
  now : t.now = s.now
  keys : s.nextKey ≤ t.nextKey
  live : ∀ key ∈ t.live, key ∈ s.live ∨ s.nextKey ≤ key
  opened : s.opened ≤ t.opened
  has : ∀ x ∈ q.tracked, p.Reaches s x.conn
  writes : s.Writes (p.Signs s) t

variable {P : Platform σ} {p q q' : Pool} {s t u : Shared σ} {w : Wrapper} {n : Nat}

namespace Acts

theorem same (p : Pool) (s : Shared σ) : Acts p s p s where
  now := rfl
  keys := Nat.le_refl _
  live _ := .inl
  opened := Nat.le_refl _
  has _ member := .inl (List.mem_map_of_mem member)
  writes := .nothing rfl

theorem lists (acts : Acts p s q t) (fewer : q'.tracked ⊆ q.tracked) : Acts p s q' t :=
  { acts with has := fun x member => acts.has x (fewer member) }

theorem books (acts : Acts p s q t) (same : t.SameBooks u) (writes : t.Writes (p.Signs s) u) :
    Acts p s q u where
  now := same.now.trans acts.now
  keys := same.nextKey ▸ acts.keys
  live := same.live ▸ acts.live
  opened := same.opened ▸ acts.opened
  has := acts.has
  writes := acts.writes.trans writes

theorem talks (acts : Acts p s q t) (own : n = p.number) {conn : Nat}
    (reaches : p.Reaches s conn) (talks : t.Talks P (.pool n) conn u) : Acts p s q u :=
  acts.books talks.books (talks.writes fun _ _ => ⟨congrArg Caller.pool own,reaches⟩)

theorem note (acts : Acts p s q t) (event : Event) (signs : p.Signs s event) :
    Acts p s q (t.note event) :=
  acts.books rfl (.one signs)

theorem dispose (acts : Acts p s q t) (own : n = p.number) {conn : Nat}
    (reaches : p.Reaches s conn) : Acts p s q (t.dispose P n conn) := by
  obtain ⟨u,talks,_,same⟩ := t.disposeParts P n conn
  rw [same]
  exact (acts.talks own reaches talks).note _ (congrArg some own)

theorem invalidate (acts : Acts p s q t) (w : Wrapper) : Acts p s q (t.invalidate w) :=
  { acts with
    live := fun key member => acts.live key (List.mem_filter.mp member).1
    writes := acts.writes.trans (.nothing rfl) }

theorem newKey (acts : Acts p s q t) : Acts p s q t.newKey.2 where
  now := acts.now
  keys := Nat.le_succ_of_le acts.keys
  live key member := by
    rcases List.mem_cons.mp member with rfl | old
    · exact .inr acts.keys
    · exact acts.live key old
  opened := acts.opened
  has := acts.has
  writes := acts.writes.trans (.nothing rfl)

theorem notify (acts : Acts p s q t) (own : n = p.number) : Acts p s q (t.notify n) where
  now := acts.now
  keys := acts.keys
  live := acts.live
  opened := acts.opened
  has := acts.has
  writes := acts.writes.trans (.one (congrArg some own))

theorem discard (acts : Acts p s q t) (own : q.number = p.number) (reaches : p.Reaches s w.conn) :
    Acts p s (q.discard P w t).1 (q.discard P w t).2 :=
  ((acts.invalidate w).dispose own reaches).lists (List.Subset.refl _)

end Acts

theorem picksActs (alike : p.Alike q) (acts : Acts p s q t) {pick : Pick}
    (picks : Picks P q t pick q' u) :
    Acts p s q' u ∧ ∀ w, pick = .candidate w → p.Reaches s w.conn := by
  have number := alike.number
  have source := alike.source
  have opening {outside : σ} : Acts p s q (q.welcome outside t) := {
    acts with
    opened := Nat.le_succ_of_le acts.opened
    writes := acts.writes.trans (.one ⟨number,acts.opened,source⟩) }
  have new : p.Reaches s t.opened := .inr acts.opened
  cases picks with
  | kept first =>
    refine ⟨acts.lists ?_,?_⟩
    · simp [tracked,first]
    · rintro _ ⟨⟩
      exact acts.has _ (by simp [tracked,first])
  | refused none room connect =>
    refine ⟨{ acts with writes := acts.writes.trans (.one ?_) },by rintro _ ⟨⟩⟩
    exact congrArg some number
  | unfit none room connect setUp =>
    have called := opening.talks number new ((Shared.setUpTalks ..).ends setUp)
    exact ⟨called.dispose number new,by rintro _ ⟨⟩⟩
  | @fresh outside v none room connect setUp =>
    have called := opening.talks number new ((Shared.setUpTalks ..).ends setUp)
    have created := called.newKey.note (.created q.number t.opened) (congrArg some number)
    refine ⟨created.lists (List.Subset.refl _),?_⟩
    rintro _ ⟨⟩
    exact new
  | @overdue oldest rest none full lent late =>
    have had : p.Reaches s oldest.conn := acts.has oldest (by simp [tracked,lent])
    have taken := (acts.invalidate oldest).note
      (.reclaimed q.number oldest (oldest.heldFor t.now)) (congrArg some number)
    have seized := taken.talks number had (q.seizeTalks P oldest t)
    refine ⟨(seized.newKey.notify number).lists ?_,?_⟩
    · simp [tracked,count,none,lent]
    · rintro _ ⟨⟩
      exact had
  | nothing => exact ⟨acts,by rintro _ ⟨⟩⟩

theorem stayActs (P : Platform σ) {seeker : Seeker} (own : seeker.pool = p.number) (s : Shared σ) :
    StayRule P seeker (fun q t => p.Alike q ∧ Acts p s q t)
      (fun w q t => p.Alike q ∧ Acts p s q t ∧ p.Reaches s w.conn) (fun _ q t => Acts p s q t) where
  finds before picks :=
    have ⟨acts,reaches⟩ := picksActs before.1 before.2 picks
    ⟨before.1.trans (picksAlike picks),acts,reaches _ rfl⟩
  misses before picks := ⟨before.1.trans (picksAlike picks),(picksActs before.1 before.2 picks).1⟩
  blocks {q t} before _ bad := by
    have slept : Acts p s q (q.block seeker bad t).2.2 :=
      { before.2 with writes := before.2.writes.trans (.one (congrArg some own)) }
    refine slept.lists ?_
    unfold block
    split <;> exact List.Subset.refl _
  grants {w q t u} holding good := by
    obtain ⟨alike,acts,reaches⟩ := holding
    have called := acts.talks alike.number reaches ((admitsTalks ..).ends good)
    refine { called.note (.granted q.number seeker.ticket (w.stamped q.expected u.now) _)
      (congrArg some alike.number) with has := fun x member => ?_ }
    simp only [grant,tracked,count,List.mem_append,List.mem_singleton] at member
    rcases member with kept | lent | rfl
    · exact acts.has x (List.mem_append_left _ kept)
    · exact acts.has x (List.mem_append_right _ lent)
    · exact reaches
  rejects {w q t u} holding bad := by
    obtain ⟨alike,acts,reaches⟩ := holding
    have called := acts.talks alike.number reaches ((admitsTalks ..).ends bad)
    have noted := called.note (.rejected q.number w) (congrArg some alike.number)
    have counted : Acts p s (q.count fun c => { c with bad := c.bad + 1 }) _ :=
      noted.lists (List.Subset.refl _)
    exact ⟨alike.trans rfl,counted.discard alike.number reaches⟩
  fails before _ := before.2.note _ (congrArg some before.1.number)
  overruns before := before.2

theorem enterActs (P : Platform σ) {seeker : Seeker} (own : seeker.pool = p.number) (s : Shared σ) :
    Acts p s (p.enter P seeker s).2.1 (p.enter P seeker s).2.2 :=
  (stayActs P own s).enter (fun _ => (Acts.same p s).note _ rfl) (fun _ => ⟨.same p,.same p s⟩)

theorem resumeActs (P : Platform σ) {wait : Wait} (own : wait.seeker.pool = p.number)
    (s : Shared σ) : Acts p s (p.resume P wait s).2.1 (p.resume P wait s).2.2 := by
  have rises : Acts p s (p.lingered (s.now - wait.since)) (p.rises wait s) :=
    ((Acts.same p s).note (.resumed p.number wait.seeker.ticket _) rfl).lists (List.Subset.refl _)
  exact (stayActs P own s).resume (fun _ => rises.note _ rfl) (fun _ => ⟨rfl,rises⟩)

theorem returnsActs (own : ∀ x ∈ p.active, x.key = w.key → x = w) (returns : Returns P w p s q t) :
    Acts p s q t := by
  have taken (lent : p.IsActive w) : Acts p s (p.removeActive w) s ∧ p.Reaches s w.conn := by
    obtain ⟨x,member,same,_⟩ := lentApart lent
    obtain rfl := own x member same
    have tracked : x ∈ p.tracked := List.mem_append_right _ member
    refine ⟨(Acts.same p s).lists ?_,(Acts.same p s).has x tracked⟩
    exact List.append_subset.mpr ⟨List.subset_append_left _ _,
      fun y left => List.mem_append_right _ (List.mem_of_mem_eraseP left)⟩
  cases returns with
  | stale =>
    exact ((Acts.same p s).note (.staleReturn p.number w) rfl).lists (List.Subset.refl _)
  | unfit lent found =>
    obtain ⟨removed,reaches⟩ := taken lent
    have called := removed.talks rfl reaches ((inspectTalks ..).ends found)
    have noted := called.note (.returned p.number w false (w.heldFor s.now)) rfl
    exact ((noted.discard rfl reaches).notify rfl).lists (List.Subset.refl _)
  | dropped lent found unwelcome =>
    obtain ⟨removed,reaches⟩ := taken lent
    have called := removed.talks rfl reaches ((inspectTalks ..).ends found)
    have noted := called.note (.returned p.number w true (w.heldFor s.now)) rfl
    have turnedDown := noted.talks rfl reaches (droppedTalks unwelcome)
    exact ((turnedDown.discard rfl reaches).notify rfl).lists (List.Subset.refl _)
  | @kept v u lent found welcome cleared =>
    obtain ⟨removed,reaches⟩ := taken lent
    have called := removed.talks rfl reaches ((inspectTalks ..).ends found)
    have noted := called.note (.returned p.number w true (w.heldFor s.now)) rfl
    have present := noted.talks rfl reaches ((Shared.rollbackTalks ..).ends cleared)
    refine { (present.newKey.invalidate w).notify rfl with has := fun x member => ?_ }
    simp only [keep,tracked,checkIn,count,List.mem_append,List.mem_singleton] at member
    rcases member with (old | rfl) | lent
    · exact removed.has x (List.mem_append_left _ old)
    · exact reaches
    · exact removed.has x (List.mem_append_right _ lent)

theorem sweepActs (P : Platform σ) (p : Pool) (s : Shared σ) :
    Acts p s (p.sweep P s).1 (p.sweep P s).2 := by
  refine (discardAllKeeps (P := P) (p := p.swept P) (fun ws q t =>
    (∀ w ∈ ws, p.Reaches s w.conn) ∧ q.number = p.number ∧ Acts p s q t) ?_ ?_).2.2
  · intro w ws q t ⟨reaches,number,acts⟩
    have ⟨first,others⟩ := List.forall_mem_cons.mp reaches
    exact ⟨others,number,acts.discard number first⟩
  · have noted := (Acts.same p s).note (.swept p.number p.active.length p.idle.length) rfl
    refine ⟨fun w member => ?_,rfl,noted.lists (List.nil_subset _)⟩
    exact noted.has w (p.sweepOrder.mem_iff.mpr member)

theorem closeAllActs (P : Platform σ) (p : Pool) (s : Shared σ) :
    Acts p s (p.closeAll P s).1 (p.closeAll P s).2 :=
  (sweepActs P p s).notify (sweepNumber ..)

end Pool
end ConnectionPool
