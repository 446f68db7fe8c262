import Mathlib.Data.List.Nodup
import ConnectionPool.Proofs.Return
/-! The valid keys are those of the wrappers in use, one each, and no two of these wrap the same
connection. Wrappers leave the ledger when they are invalidated, and enter it under a new key. -/
namespace ConnectionPool

structure Ledger (ws : List Wrapper) (s : Shared σ) : Prop where
  keys : (ws.map Wrapper.key).Perm s.live
  once : s.live.Nodup
  used : ∀ key ∈ s.live, key < s.nextKey
  conns : (ws.map Wrapper.conn).Nodup
  opened : ∀ x ∈ ws, x.conn < s.opened
  ids : (ws.map Wrapper.id).Nodup
  issued : ∀ x ∈ ws, x.id < s.nextId

namespace Ledger
variable {σ : Type} {s t : Shared σ} {ws xs : List Wrapper} {x y : Wrapper}

theorem empty (s : Shared σ) (none : s.live = []) : Ledger [] s := by
  constructor <;> simp [none]

theorem perm (ledger : Ledger ws s) (same : ws.Perm xs) : Ledger xs s where
  keys := (same.symm.map _).trans ledger.keys
  once := ledger.once
  used := ledger.used
  conns := (same.map _).nodup_iff.mp ledger.conns
  opened x member := ledger.opened x (same.mem_iff.mpr member)
  ids := (same.map _).nodup_iff.mp ledger.ids
  issued x member := ledger.issued x (same.mem_iff.mpr member)

theorem frame (ledger : Ledger ws s) (live : t.live = s.live) (nextKey : t.nextKey = s.nextKey)
    (opened : s.opened ≤ t.opened) (nextId : s.nextId ≤ t.nextId) : Ledger ws t where
  keys := live ▸ ledger.keys
  once := live ▸ ledger.once
  used key member := nextKey ▸ ledger.used key (live ▸ member)
  conns := ledger.conns
  opened x member := Nat.lt_of_lt_of_le (ledger.opened x member) opened
  ids := ledger.ids
  issued x member := Nat.lt_of_lt_of_le (ledger.issued x member) nextId

theorem books (ledger : Ledger ws s) (same : s.SameBooks t) : Ledger ws t :=
  ledger.frame same.live same.nextKey (Nat.le_of_eq same.opened.symm)
    (Nat.le_of_eq same.nextId.symm)

theorem note (ledger : Ledger ws s) (event : Event) : Ledger ws (s.note event) :=
  ledger.books rfl

theorem notify (ledger : Ledger ws s) (pool : Nat) : Ledger ws (s.notify pool) :=
  ledger.frame rfl rfl (Nat.le_refl _) (Nat.le_refl _)

theorem live (ledger : Ledger ws s) (member : x ∈ ws) : s.IsLive x :=
  ledger.keys.mem_iff.mp (List.mem_map_of_mem member)

theorem tracked (ledger : Ledger ws s) (live : s.IsLive x) : ∃ y ∈ ws, y.key = x.key :=
  List.mem_map.mp (ledger.keys.mem_iff.mpr live)

theorem distinct (ledger : Ledger ws s) : (ws.map Wrapper.key).Nodup :=
  ledger.keys.nodup_iff.mpr ledger.once

theorem sameKey (ledger : Ledger ws s) (one : x ∈ ws) (other : y ∈ ws) (same : x.key = y.key) :
    x = y :=
  List.inj_on_of_nodup_map ledger.distinct one other same

theorem drop (ledger : Ledger (x :: ws) s) (same : x.key = y.key) :
    Ledger ws (s.invalidate y) where
  keys := by
    have apart := (List.nodup_cons.mp ledger.distinct).1
    have kept : (ws.map Wrapper.key).filter (· ≠ x.key) = ws.map Wrapper.key := by
      refine List.filter_eq_self.mpr fun key member => ?_
      simpa using fun same : key = x.key => apart (same ▸ member)
    have filtered := ledger.keys.filter (· ≠ x.key)
    rw [List.map_cons,List.filter_cons_of_neg (by simp),kept,same] at filtered
    exact filtered
  once := ledger.once.filter _
  used key member := ledger.used key (List.mem_filter.mp member).1
  conns := (List.nodup_cons.mp ledger.conns).2
  opened z member := ledger.opened z (List.mem_cons_of_mem _ member)
  ids := (List.nodup_cons.mp ledger.ids).2
  issued z member := ledger.issued z (List.mem_cons_of_mem _ member)

theorem enrol (ledger : Ledger ws s) (key : x.key = s.nextKey) (conn : x.conn ∉ ws.map Wrapper.conn)
    (opened : x.conn < s.opened) (id : x.id ∉ ws.map Wrapper.id) (issued : x.id < s.nextId) :
    Ledger (x :: ws) s.newKey.2 where
  keys := by
    rw [List.map_cons,key]
    exact ledger.keys.cons _
  once := by
    refine List.nodup_cons.mpr ⟨fun member => ?_,ledger.once⟩
    exact Nat.lt_irrefl _ (ledger.used _ member)
  used key member := by
    rcases List.mem_cons.mp member with rfl | old
    · exact Nat.lt_succ_self _
    · exact Nat.lt_succ_of_lt (ledger.used key old)
  conns := List.nodup_cons.mpr ⟨conn,ledger.conns⟩
  opened := List.forall_mem_cons.mpr ⟨opened,ledger.opened⟩
  ids := List.nodup_cons.mpr ⟨id,ledger.ids⟩
  issued := List.forall_mem_cons.mpr ⟨issued,ledger.issued⟩

theorem renew (ledger : Ledger (x :: ws) s) (books : (s.invalidate x).SameBooks t)
    (lastUsedAt : Nat) : Ledger ((t.rewrap x lastUsedAt).1 :: ws) (t.rewrap x lastUsedAt).2 := by
  have dropped := (ledger.drop rfl).books books
  refine dropped.enrol rfl ?_ ?_ ?_ ?_
  · exact (List.nodup_cons.mp ledger.conns).1
  · rw [books.opened]
    exact ledger.opened x List.mem_cons_self
  · exact (List.nodup_cons.mp ledger.ids).1
  · rw [books.nextId]
    exact ledger.issued x List.mem_cons_self

theorem restamp (ledger : Ledger (x :: ws) s) (code : TypeCode) (now : Nat) :
    Ledger (x.stamped code now :: ws) s where
  keys := ledger.keys
  once := ledger.once
  used := ledger.used
  conns := ledger.conns
  opened := List.forall_mem_cons.mpr (List.forall_mem_cons.mp ledger.opened)
  ids := ledger.ids
  issued := List.forall_mem_cons.mpr (List.forall_mem_cons.mp ledger.issued)

end Ledger

namespace Pool
variable {σ : Type} {P : Platform σ} {p p' : Pool} {s s' : Shared σ} {w : Wrapper}
  {rest : List Wrapper}

theorem picksLedger (ledger : Ledger (p.tracked ++ rest) s)
    (picks : Picks P p s (.candidate w) p' s') : Ledger (w :: (p'.tracked ++ rest)) s' := by
  cases picks with
  | kept idle =>
    simpa [tracked,idle] using ledger
  | @fresh outside t idle room connect setUp =>
    have books := ((Shared.setUpTalks ..).ends setUp).books
    have grown : Ledger (p.tracked ++ rest) t :=
      ledger.frame books.live books.nextKey (books.opened ▸ Nat.le_succ _)
        (books.nextId ▸ Nat.le_succ _)
    -- What is in use has been opened before, under an earlier id.
    have enrolled : Ledger (.fresh t.nextKey s.opened s.nextId t.now :: (p.tracked ++ rest))
        t.newKey.2 := ?_
    · exact enrolled.note _
    refine grown.enrol rfl ?_ ?_ ?_ ?_
    · intro known
      obtain ⟨x,member,same⟩ := List.mem_map.mp known
      exact absurd same (Nat.ne_of_lt (ledger.opened x member))
    · exact books.opened ▸ Nat.lt_succ_self _
    · intro known
      obtain ⟨x,member,same⟩ := List.mem_map.mp known
      exact absurd same (Nat.ne_of_lt (ledger.issued x member))
    · exact books.nextId ▸ Nat.lt_succ_self _
  | @overdue oldest others idle full active late =>
    have talks := p.seizeTalks P oldest s
    have lent : Ledger (oldest :: (others ++ rest)) s := by
      simpa [tracked,idle,active] using ledger
    have renewed := (lent.renew ((Shared.noteBooks _ _).trans talks.books) oldest.lastUsedAt).notify
      p.number
    simpa [tracked,count,idle] using renewed

theorem missesLedger (ledger : Ledger (p.tracked ++ rest) s) {error : PoolError}
    (picks : Picks P p s (.failed error) p' s') : Ledger (p'.tracked ++ rest) s' := by
  cases picks with
  | refused => exact ledger.frame rfl rfl (Nat.le_refl _) (Nat.le_succ _)
  | @unfit cause outside t idle room connect setUp =>
    have books := ((Shared.setUpTalks ..).ends setUp).books.trans (t.disposeBooks P p.number s.opened)
    exact ledger.frame books.live books.nextKey (books.opened ▸ Nat.le_succ _)
      (books.nextId ▸ Nat.le_succ _)

theorem discardLedger (P : Platform σ) (p : Pool) {x : Wrapper} (ledger : Ledger (x :: rest) s)
    (same : x.key = w.key) : Ledger rest (p.discard P w s).2 :=
  (ledger.drop same).books ((s.invalidate w).disposeBooks P p.number w.conn)

theorem stayLedger (P : Platform σ) (seeker : Seeker) (rest : List Wrapper) :
    StayRule P seeker (fun q s => Ledger (q.tracked ++ rest) s)
      (fun w q s => Ledger (w :: (q.tracked ++ rest)) s)
      (fun _ q s => Ledger (q.tracked ++ rest) s) where
  finds ledger picks := picksLedger ledger picks
  misses ledger picks := missesLedger ledger picks
  blocks {q s} ledger _ bad := by
    have slept := ledger.frame (t := (q.block seeker bad s).2.2) rfl rfl (Nat.le_refl _)
      (Nat.le_refl _)
    unfold block
    split <;> exact slept
  grants {w q s t} holding good := by
    have stamped := (holding.books ((admitsTalks ..).ends good).books).restamp q.expected t.now
    have noted := stamped.frame (t := (q.grant seeker w t).2.2) rfl rfl (Nat.le_refl _)
      (Nat.le_refl _)
    refine noted.perm ?_
    have middle : (q.idle ++ q.active ++ w.stamped q.expected t.now :: rest).Perm
        (w.stamped q.expected t.now :: (q.idle ++ q.active ++ rest)) := List.perm_middle
    simpa [grant,count,tracked] using middle.symm
  rejects {w q s t} holding bad := by
    have inspected := holding.books ((admitsTalks ..).ends bad).books
    exact discardLedger P _ (inspected.note _) rfl
  fails ledger _ := ledger.books rfl
  overruns ledger := ledger

theorem enterLedger (P : Platform σ) (seeker : Seeker) (ledger : Ledger (p.tracked ++ rest) s) :
    Ledger ((p.enter P seeker s).2.1.tracked ++ rest) (p.enter P seeker s).2.2 :=
  (stayLedger P seeker rest).enter (fun _ => ledger.books rfl) (fun _ => ledger)

theorem resumeLedger (P : Platform σ) (wait : Wait) (ledger : Ledger (p.tracked ++ rest) s) :
    Ledger ((p.resume P wait s).2.1.tracked ++ rest) (p.resume P wait s).2.2 :=
  (stayLedger P wait.seeker rest).resume (fun _ => ledger.books rfl) (fun _ => ledger.books rfl)

theorem removeActiveLedger (ledger : Ledger (p.tracked ++ rest) s) (lent : p.IsActive w) :
    ∃ x ∈ p.active, x.key = w.key ∧ Ledger (x :: ((p.removeActive w).tracked ++ rest)) s := by
  obtain ⟨x,member,same,apart⟩ := trackedApart lent
  exact ⟨x,member,same,ledger.perm (apart.append_right rest)⟩

theorem rewrapFirst {x : Wrapper} (ledger : Ledger (x :: rest) s) (lastUsedAt : Nat) :
    (s.rewrap x lastUsedAt).2.invalidate x = ((s.invalidate x).rewrap x lastUsedAt).2 := by
  -- A new key is never the one that is given up.
  have old := ledger.used x.key (ledger.live List.mem_cons_self)
  have apart : s.nextKey ≠ x.key := Nat.ne_of_gt old
  simp [Shared.rewrap,Shared.newKey,Shared.invalidate,apart]

theorem returnsLedger (ledger : Ledger (p.tracked ++ rest) s)
    (own : ∀ x ∈ p.active, x.key = w.key → x = w) (returns : Returns P w p s p' s') :
    Ledger (p'.tracked ++ rest) s' := by
  cases returns with
  | stale => exact ledger.note _
  | unfit lent found =>
    obtain ⟨x,_,same,apart⟩ := removeActiveLedger ledger lent
    have inspected := apart.books ((inspectTalks ..).ends found).books
    exact (discardLedger P _ (inspected.note _) same).notify p.number
  | dropped lent found unwelcome =>
    obtain ⟨x,_,same,apart⟩ := removeActiveLedger ledger lent
    have inspected := apart.books ((inspectTalks ..).ends found).books
    have turnedDown := (inspected.note _).books (droppedTalks unwelcome).books
    exact (discardLedger P _ turnedDown same).notify p.number
  | @kept t u lent found welcome cleared =>
    obtain ⟨x,member,same,apart⟩ := removeActiveLedger ledger lent
    obtain rfl := own x member same
    have inspected := apart.books ((inspectTalks ..).ends found).books
    have present := (inspected.note _).books ((Shared.rollbackTalks ..).ends cleared).books
    have renewed := present.renew (.refl _) u.now
    have kept : Ledger (((p.checkIn x s.now).keep x u).1.tracked ++ rest)
        ((p.checkIn x s.now).keep x u).2 := by
      simp only [keep]
      rw [rewrapFirst present]
      refine renewed.perm ?_
      simp only [tracked,checkIn,count,List.append_assoc,List.singleton_append]
      exact List.perm_middle.symm
    exact kept.notify p.number

theorem sweepLedger (P : Platform σ) (ledger : Ledger (p.tracked ++ rest) s) :
    Ledger ((p.sweep P s).1.tracked ++ rest) (p.sweep P s).2 := by
  rw [sweepTracked]
  refine discardAllKeeps (fun ws _ t => Ledger (ws ++ rest) t) ?_ ?_
  · intro w ws q t left
    exact discardLedger P q left rfl
  · exact (ledger.perm (p.sweepOrder.append_right rest)).note _

theorem closeAllLedger (P : Platform σ) (ledger : Ledger (p.tracked ++ rest) s) :
    Ledger ((p.closeAll P s).1.tracked ++ rest) (p.closeAll P s).2 :=
  (sweepLedger P ledger).notify _

end Pool
end ConnectionPool
