import ConnectionPool.Proofs.Search
import ConnectionPool.Proofs.Ledger
import ConnectionPool.Proofs.Footprint
import ConnectionPool.Proofs.Capacity
/-! What becomes of a lent wrapper while others come for connections or give some back: it stays lent
and its connection is left alone, or it is taken at a look that finds it overdue and is never valid
again. -/
namespace ConnectionPool
namespace Shared
variable {σ : Type} {P : Platform σ} {s t : Shared σ} {x : Wrapper} {conn other : Nat}

abbrev Spares (conn : Nat) (s t : Shared σ) : Prop :=
  s.Writes (fun event => event.concerns conn = false) t

theorem Talks.spares {caller : Caller} (talks : s.Talks P caller other t) (apart : other ≠ conn) :
    s.Spares conn t :=
  talks.writes fun _ _ => beq_false_of_ne apart

theorem disposeSpares (P : Platform σ) (pool : Nat) (s : Shared σ) (apart : other ≠ conn) :
    s.Spares conn (s.dispose P pool other) :=
  disposeWrites P pool other s (fun _ _ => beq_false_of_ne apart) rfl

structure Gone (x : Wrapper) (s : Shared σ) : Prop where
  dead : ¬s.IsLive x
  used : x.key < s.nextKey

namespace Gone

theorem books (gone : s.Gone x) (same : s.SameBooks t) : t.Gone x where
  dead := by
    unfold IsLive
    rw [same.live]
    exact gone.dead
  used := same.nextKey ▸ gone.used

theorem newKey (gone : s.Gone x) : s.newKey.2.Gone x where
  dead live := by
    rcases List.mem_cons.mp live with same | old
    · exact absurd gone.used (Nat.not_lt.mpr (Nat.le_of_eq same.symm))
    · exact gone.dead old
  used := Nat.lt_succ_of_lt gone.used

theorem invalidate (gone : s.Gone x) (w : Wrapper) : (s.invalidate w).Gone x where
  dead live := gone.dead (List.mem_filter.mp live).1
  used := gone.used

end Gone

theorem invalidated (used : x.key < s.nextKey) : (s.invalidate x).Gone x where
  dead live := by simp [IsLive,Shared.invalidate] at live
  used := used

end Shared

namespace Pool
variable {σ : Type} {P : Platform σ} {seeker : Seeker} {x w : Wrapper} {p q q' : Pool}
  {s t u : Shared σ} {rest : List Wrapper} {n : Nat}

structure Overdue (x : Wrapper) (now : Nat) (p : Pool) : Prop where
  idle : p.idle = []
  full : p.active.length = p.settings.maxActive.toNat
  first : p.active.head? = some x
  late : p.settings.maxCheckoutTime < x.heldFor now

theorem overdueReclaimed {now : Nat} (overdue : p.Overdue x now) : p.pick P s = p.reclaim P s := by
  have full : ¬p.HasActiveRoom := Nat.not_lt.mpr (Nat.le_of_eq overdue.full.symm)
  simp only [pick,overdue.idle,if_neg full]

def Keeps (x : Wrapper) (s : Shared σ) (q : Pool) (t : Shared σ) : Prop :=
  x ∈ q.active ∧ s.Spares x.conn t

theorem Acts.gone (acts : Acts p s q t) (gone : s.Gone x) : t.Gone x where
  dead live := by
    rcases acts.live _ live with old | new
    · exact gone.dead old
    · exact absurd gone.used (Nat.not_lt.mpr new)
  used := Nat.lt_of_lt_of_le gone.used acts.keys

theorem seizedGone (P : Platform σ) (q : Pool) (used : x.key < t.nextKey) (lastUsedAt n : Nat) :
    (((q.seize P x t).rewrap x lastUsedAt).2.notify n).Gone x := by
  have taken := (Shared.invalidated used).books
    ((Shared.noteBooks _ _).trans (q.seizeTalks P x t).books)
  exact ⟨taken.newKey.dead,taken.newKey.used⟩

theorem openingSpares {outside : σ} (apart : t.opened ≠ x.conn) :
    t.Spares x.conn (q.welcome outside t) :=
  ⟨[_],rfl,by simpa [Event.concerns] using apart⟩

theorem picksKeeps (ledger : Ledger (q.tracked ++ rest) t) (room : q.Room 0) (lent : x ∈ q.active)
    {pick : Pick} (picks : Picks P q t pick q' u) :
    q'.Keeps x t u ∨ (q.Overdue x t.now ∧ u.Gone x) := by
  have member : x ∈ q.tracked ++ rest := by simp [tracked,lent]
  have new : t.opened ≠ x.conn := Nat.ne_of_gt (ledger.opened x member)
  cases picks with
  | kept | nothing => exact .inl ⟨lent,.nothing rfl⟩
  | refused => exact .inl ⟨lent,[_],rfl,by simp [Event.concerns]⟩
  | unfit idle room connect setUp =>
    have called := (openingSpares new).trans (((Shared.setUpTalks ..).ends setUp).spares new)
    exact .inl ⟨lent,called.trans (Shared.disposeSpares P _ _ new)⟩
  | @fresh outside v idle room connect setUp =>
    have called := (openingSpares new).trans (((Shared.setUpTalks ..).ends setUp).spares new)
    exact .inl ⟨lent,called.trans ⟨[_],rfl,by simp [Event.concerns]⟩⟩
  | @overdue oldest others idle full active late =>
    by_cases mine : oldest = x
    · subst mine
      refine .inr ⟨⟨idle,?_,by simp [active],late⟩,?_⟩
      · have all := room.all
        unfold HasActiveRoom at full
        omega
      · exact seizedGone P q (ledger.used _ (ledger.live member)) _ _
    · have apart : oldest.conn ≠ x.conn := fun same =>
        mine (List.inj_on_of_nodup_map ledger.conns (by simp [tracked,active]) member same)
      refine .inl ⟨?_,?_⟩
      · rw [active] at lent
        exact (List.mem_cons.mp lent).resolve_left (Ne.symm mine)
      · have taken : t.Spares x.conn
            ((t.invalidate oldest).note (.reclaimed q.number oldest (oldest.heldFor t.now))) :=
          ⟨[_],rfl,by simp [Event.concerns]⟩
        have called := taken.trans ((q.seizeTalks P oldest t).spares apart)
        exact called.trans ⟨[_],rfl,by simp [Event.concerns]⟩

theorem candidateApart (ledger : Ledger (w :: (q.tracked ++ rest)) t) (lent : x ∈ q.active) :
    w.conn ≠ x.conn := by
  intro same
  have member : x ∈ q.tracked ++ rest := by simp [tracked,lent]
  exact (List.nodup_cons.mp ledger.conns).1 (same ▸ List.mem_map_of_mem member)

theorem admitsKeeps (keeps : q.Keeps x s t) (apart : w.conn ≠ x.conn) {good : Bool}
    (admits : q.admits P w t = (good,u)) : q.Keeps x s u :=
  ⟨keeps.1,keeps.2.trans (((admitsTalks ..).ends admits).spares apart)⟩

theorem rejectKeeps (keeps : q.Keeps x s u) (apart : w.conn ≠ x.conn) :
    (q.reject P w u).1.Keeps x s (q.reject P w u).2 := by
  have noted : u.Spares x.conn ((u.note (.rejected q.number w)).invalidate w) :=
    ⟨[_],rfl,by simp [Event.concerns]⟩
  exact ⟨keeps.1,(keeps.2.trans noted).trans (Shared.disposeSpares P _ _ apart)⟩

theorem rejectGone (gone : u.Gone x) : (q.reject P w u).2.Gone x :=
  ((gone.books (Shared.noteBooks ..)).invalidate w).books (Shared.disposeBooks ..)

def Fate (P : Platform σ) (x : Wrapper) (p : Pool) (s : Shared σ) (n : Nat) (q : Pool)
    (t : Shared σ) : Prop :=
  q.Keeps x s t ∨ (t.Gone x ∧ ∃ m q' t', m < n ∧ Passed P p s m q' t' ∧ q'.Overdue x t'.now)

theorem picksFate (ledger : Ledger (q.tracked ++ rest) t) (room : q.Room 0)
    (passed : Passed P p s n q t) (fate : Fate P x p s n q t) {pick : Pick}
    (picks : Picks P q t pick q' u) : Fate P x p s (n + 1) q' u := by
  rcases fate with ⟨lent,calls⟩ | ⟨gone,m,r,v,earlier,looks⟩
  · rcases picksKeeps ledger room lent picks with ⟨still,spares⟩ | ⟨overdue,gone⟩
    · exact .inl ⟨still,calls.trans spares⟩
    · exact .inr ⟨gone,n,q,t,Nat.lt_succ_self n,passed,overdue⟩
  -- Once it has been taken, no later look brings it back.
  · have acts := (picksActs (.same q) (.same q t) picks).1
    exact .inr ⟨acts.gone gone,m,r,v,Nat.lt_succ_of_lt earlier,looks⟩

theorem admitsFate (ledger : Ledger (w :: (q.tracked ++ rest)) t) (fate : Fate P x p s n q t)
    {good : Bool} (admits : q.admits P w t = (good,u)) : Fate P x p s n q u :=
  fate.imp (fun keeps => admitsKeeps keeps (candidateApart ledger keeps.1) admits)
    (And.imp_left fun gone => gone.books ((admitsTalks ..).ends admits).books)

theorem rejectFate (ledger : Ledger (w :: (q.tracked ++ rest)) t) (fate : Fate P x p s n q t)
    (bad : q.admits P w t = (false,u)) :
    Fate P x p s n (q.reject P w u).1 (q.reject P w u).2 :=
  (admitsFate ledger fate bad).imp
    (fun keeps => rejectKeeps keeps (candidateApart (q := q) ledger keeps.1))
    (And.imp_left rejectGone)

theorem leaveFate (fate : Fate P x p s n q t) {event : Event} (lists : q.active ⊆ q'.active)
    (live : u.live = t.live) (nextKey : u.nextKey = t.nextKey)
    (written : u.journal = event :: t.journal) (silent : event.concerns x.conn = false) :
    Fate P x p s n q' u := by
  refine fate.imp (fun keeps => ?_) (And.imp_left fun gone => ?_)
  · exact ⟨lists keeps.1,keeps.2.trans ⟨[event],written,by simpa using silent⟩⟩
  · refine ⟨?_,nextKey ▸ gone.used⟩
    unfold Shared.IsLive
    rw [live]
    exact gone.dead

theorem Fate.later {m : Nat} (fate : Fate P x p s n q t) (later : n ≤ m) : Fate P x p s m q t :=
  fate.imp_right fun ⟨gone,i,r,v,earlier,looks⟩ =>
    ⟨gone,i,r,v,Nat.lt_of_lt_of_le earlier later,looks⟩

section Search
variable (ledger : Ledger (p.tracked ++ rest) s) (room : p.Room 0) (lent : x ∈ p.active)
include ledger room lent

theorem passedFate (seeker : Seeker) (passed : Passed P p s n q t) : Fate P x p s n q t := by
  induction passed with
  | start => exact .inl ⟨lent,.nothing rfl⟩
  | again passed picks bad ih =>
    have books := (stayLedger P seeker rest).passed ledger passed
    have places := (stayRoom P seeker).passed room passed
    exact rejectFate (picksLedger books picks) (picksFate books places passed ih picks) bad

theorem endsFate {patience bad : Nat} {result : Outcome × Pool × Shared σ}
    (ends : Ends P seeker patience bad p s result) :
    Fate P x p s (patience + 1) result.2.1 result.2.2 := by
  have looked {m : Nat} {q : Pool} {t : Shared σ} {pick : Pick} {q' : Pool} {u : Shared σ}
      (inTime : m ≤ patience) (passed : Passed P p s m q t) (picks : Picks P q t pick q' u) :
      Ledger (q.tracked ++ rest) t ∧ Fate P x p s (patience + 1) q' u := by
    have books := (stayLedger P seeker rest).passed ledger passed
    have places := (stayRoom P seeker).passed room passed
    have fate := passedFate ledger room lent seeker passed
    exact ⟨books,(picksFate books places passed fate picks).later (Nat.succ_le_succ inTime)⟩
  cases ends with
  | misses inTime passed picks =>
    exact leaveFate (looked inTime passed picks).2 (List.Subset.refl _) rfl rfl rfl rfl
  | sleeps inTime passed picks =>
    refine leaveFate (looked inTime passed picks).2 ?_ rfl rfl rfl rfl
    unfold block
    split <;> exact List.Subset.refl _
  | finds inTime passed picks good =>
    obtain ⟨books,fate⟩ := looked inTime passed picks
    have admitted := admitsFate (picksLedger books picks) fate good
    exact leaveFate admitted (List.subset_append_left _ _) rfl rfl rfl rfl
  | givesUp passed picks spoilt =>
    obtain ⟨books,fate⟩ := looked (Nat.le_refl _) passed picks
    have rejected := rejectFate (picksLedger books picks) fate spoilt
    unfold giveUp
    split
    · exact leaveFate rejected (List.Subset.refl _) rfl rfl rfl rfl
    · exact rejected

theorem stayFate : (p.stay P seeker s).2.1.Keeps x s (p.stay P seeker s).2.2 ∨
    ((p.stay P seeker s).2.2.Gone x ∧ ∃ q t, p.Looks P seeker s q t ∧ q.Overdue x t.now) := by
  refine (endsFate ledger room lent (stayEnds P seeker p s)).imp_right ?_
  rintro ⟨gone,m,q,t,inTime,passed,overdue⟩
  exact ⟨gone,q,t,⟨m,Nat.le_of_lt_succ inTime,passed⟩,overdue⟩

theorem enterFate (seeker : Seeker) : (p.enter P seeker s).2.1.Keeps x s (p.enter P seeker s).2.2 ∨
    ((p.enter P seeker s).2.2.Gone x ∧ p.closed = false ∧
      ∃ q t, p.Looks P seeker s q t ∧ q.Overdue x t.now) := by
  unfold enter
  split
  · exact .inl ⟨lent,[_],rfl,by simp [Event.concerns]⟩
  · rename_i unshut
    refine (stayFate ledger room lent).imp_right ?_
    rintro ⟨gone,looks⟩
    exact ⟨gone,by simpa using unshut,looks⟩

theorem resumeFate (wait : Wait) :
    (p.resume P wait s).2.1.Keeps x s (p.resume P wait s).2.2 ∨
    ((p.resume P wait s).2.2.Gone x ∧ p.closed = false ∧
      ∃ q t, (p.lingered (s.now - wait.since)).Looks P wait.seeker (p.rises wait s) q t ∧
        q.Overdue x t.now) := by
  have rises : s.Spares x.conn (p.rises wait s) := ⟨[_],rfl,by simp [Event.concerns]⟩
  simp only [resume]
  split
  · exact .inl ⟨lent,rises.trans ⟨[_],rfl,by simp [Event.concerns]⟩⟩
  · rename_i unshut
    have books : Ledger ((p.lingered (s.now - wait.since)).tracked ++ rest) (p.rises wait s) :=
      ledger.note _
    have places : (p.lingered (s.now - wait.since)).Room 0 := ⟨room.all,room.idle⟩
    rcases stayFate books places lent with ⟨still,calls⟩ | ⟨gone,looks⟩
    · exact .inl ⟨still,rises.trans calls⟩
    · exact .inr ⟨gone,by simpa [count] using unshut,looks⟩

end Search

theorem returnsSpares {y : Wrapper} (apart : p.IsActive y → y.conn ≠ x.conn)
    (returns : Returns P y p s q t) : s.Spares x.conn t := by
  have noted {v : Shared σ} {healthy : Bool} {held : Nat} :
      v.Spares x.conn (v.note (.returned p.number y healthy held)) :=
    ⟨[_],rfl,by simp [Event.concerns]⟩
  have notified {v v' : Shared σ} (spares : v.Spares x.conn v') :
      v.Spares x.conn (v'.notify p.number) :=
    spares.trans ⟨[_],rfl,by simp [Event.concerns]⟩
  have discarded {v : Shared σ} (out : p.IsActive y) :
      v.Spares x.conn ((v.invalidate y).dispose P p.number y.conn) :=
    (Shared.Writes.nothing rfl).trans (Shared.disposeSpares P p.number _ (apart out))
  cases returns with
  | stale => exact ⟨[_],rfl,by simp [Event.concerns]⟩
  | unfit out found =>
    have seen := ((inspectTalks ..).ends found).spares (apart out)
    exact notified ((seen.trans noted).trans (discarded out))
  | dropped out found unwelcome =>
    have seen := ((inspectTalks ..).ends found).spares (apart out)
    have called := (droppedTalks unwelcome).spares (apart out)
    exact notified (((seen.trans noted).trans called).trans (discarded out))
  | kept out found welcome cleared =>
    have seen := ((inspectTalks ..).ends found).spares (apart out)
    have called := ((Shared.rollbackTalks ..).ends cleared).spares (apart out)
    exact notified (((seen.trans noted).trans called).trans (.nothing rfl))

theorem returnsKeeps {y : Wrapper} (ledger : Ledger (p.tracked ++ rest) s)
    (own : ∀ z ∈ p.active, z.key = y.key → z = y) (lent : x ∈ p.active) (other : x.key ≠ y.key)
    (returns : Returns P y p s q t) : q.Keeps x s t := by
  have left : x ∈ (p.removeActive y).active :=
    (List.mem_eraseP_of_neg (by simpa using other)).mpr lent
  refine ⟨?_,returnsSpares (fun out alike => ?_) returns⟩
  · cases returns with
    | stale => exact lent
    | unfit | dropped | kept => exact left
  · obtain ⟨z,member,same⟩ := List.mem_map.mp out
    obtain rfl := own z member same
    refine other (congrArg Wrapper.key ?_)
    exact List.inj_on_of_nodup_map ledger.conns (by simp [tracked,lent]) (by simp [tracked,member])
      alike.symm

end Pool
end ConnectionPool
