import ConnectionPool.Proofs.Return
/-! Every opened connection is accounted for: the pool that opened it still has it, or has parted
with it. A call leaves the accounts right as long as somebody has the connection that is called. -/
namespace ConnectionPool

structure Accounts (had : List (Nat × Nat)) (s : Shared σ) : Prop where
  recorded : ∀ conn < s.opened, ∃ n id source, .opened n conn id source ∈ s.journal
  numbered {n conn id source} (opened : .opened n conn id source ∈ s.journal) : conn < s.opened
  known : ∀ pair ∈ had, pair.2 < s.opened
  opener {n m conn id source} (has : (n,conn) ∈ had)
    (opened : .opened m conn id source ∈ s.journal) : m = n
  settled {n conn id source} (opened : .opened n conn id source ∈ s.journal) :
    (n,conn) ∈ had ∨ Parted n conn s.journal

namespace Accounts
variable {σ : Type} {P : Platform σ} {s t : Shared σ} {had has : List (Nat × Nat)}
  {n conn : Nat}

theorem perm (accounts : Accounts had s) (same : had.Perm has) : Accounts has s where
  recorded := accounts.recorded
  numbered := accounts.numbered
  known pair member := accounts.known pair (same.mem_iff.mpr member)
  opener member := accounts.opener (same.mem_iff.mpr member)
  settled opened := (accounts.settled opened).imp_left same.mem_iff.mp

theorem quiet (accounts : Accounts had s) (opened : t.opened = s.opened)
    (same : news t.journal = news s.journal) : Accounts had t := by
  have openings {m c id : Nat} {source : DataSource} :
      .opened m c id source ∈ t.journal ↔ .opened m c id source ∈ s.journal := by
    rw [← openedInNews,same,openedInNews]
  have newest (c : Nat) : newest? c t.journal = newest? c s.journal := by
    rw [← newestInNews,same,newestInNews]
  constructor
  · intro c inside
    obtain ⟨m,id,source,known⟩ := accounts.recorded c (opened ▸ inside)
    exact ⟨m,id,source,openings.mpr known⟩
  · intro m c id source known
    exact opened ▸ accounts.numbered (openings.mp known)
  · exact opened ▸ accounts.known
  · intro m k c id source member known
    exact accounts.opener member (openings.mp known)
  · intro m c id source known
    unfold Parted
    rw [newest]
    exact accounts.settled (openings.mp known)

theorem note (accounts : Accounts had s) {event : Event} (quiet : event.isNews = false) :
    Accounts had (s.note event) :=
  accounts.quiet rfl (by simp [Shared.note,news,quiet])

theorem talks (accounts : Accounts had s) {caller : Caller} (has : (n,conn) ∈ had)
    (talks : s.Talks P caller conn t) : Accounts had t := by
  constructor
  · intro c inside
    obtain ⟨m,id,source,known⟩ := accounts.recorded c (talks.books.opened ▸ inside)
    exact ⟨m,id,source,talks.openings.mpr known⟩
  · intro m c id source known
    exact talks.books.opened ▸ accounts.numbered (talks.openings.mp known)
  · exact talks.books.opened ▸ accounts.known
  · intro m k c id source member known
    exact accounts.opener member (talks.openings.mp known)
  · intro m c id source known
    have before := talks.openings.mp known
    by_cases same : c = conn
    · subst same
      obtain rfl := accounts.opener has before
      exact .inl has
    · unfold Parted
      rw [talks.elsewhere same]
      exact accounts.settled before

theorem part (accounts : Accounts ((n,conn) :: had) s) (parted : Parted n conn s.journal) :
    Accounts had s where
  recorded := accounts.recorded
  numbered := accounts.numbered
  known pair member := accounts.known pair (List.mem_cons_of_mem _ member)
  opener member := accounts.opener (List.mem_cons_of_mem _ member)
  settled {m c id source} opened := by
    rcases accounts.settled opened with has | gone
    · rcases List.mem_cons.mp has with same | other
      · cases same
        exact .inr parted
      · exact .inl other
    · exact .inr gone

theorem dispose (accounts : Accounts ((n,conn) :: had) s) :
    Accounts had (s.dispose P n conn) := by
  obtain ⟨t,talks,parted,same⟩ := s.disposeParts P n conn
  rw [same]
  exact ((accounts.talks List.mem_cons_self talks).part parted).note rfl

theorem memWelcome {p : Pool} {outside : σ} {m c id : Nat} {source : DataSource} :
    .opened m c id source ∈ (p.welcome outside s).journal ↔
      (m = p.number ∧ c = s.opened ∧ id = s.nextId ∧ source = p.source) ∨
        .opened m c id source ∈ s.journal := by
  simp [Pool.welcome,Shared.note]

theorem welcome (accounts : Accounts had s) (p : Pool) (outside : σ) :
    Accounts ((p.number,s.opened) :: had) (p.welcome outside s) where
  recorded conn inside := by
    rcases Nat.lt_succ_iff_lt_or_eq.mp inside with before | rfl
    · obtain ⟨n,id,source,known⟩ := accounts.recorded conn before
      exact ⟨n,id,source,memWelcome.mpr (.inr known)⟩
    · exact ⟨p.number,s.nextId,p.source,memWelcome.mpr (.inl ⟨rfl,rfl,rfl,rfl⟩)⟩
  numbered opened := by
    rcases memWelcome.mp opened with ⟨_,rfl,_,_⟩ | old
    · exact Nat.lt_succ_self _
    · exact Nat.lt_succ_of_lt (accounts.numbered old)
  known := by
    refine List.forall_mem_cons.mpr ⟨Nat.lt_succ_self _,fun pair member => ?_⟩
    exact Nat.lt_succ_of_lt (accounts.known pair member)
  opener has opened := by
    rcases List.mem_cons.mp has with same | had
    · cases same
      rcases memWelcome.mp opened with ⟨rfl,_⟩ | old
      · rfl
      · exact absurd (accounts.numbered old) (Nat.lt_irrefl _)
    · rcases memWelcome.mp opened with ⟨_,rfl,_⟩ | old
      · exact absurd (accounts.known _ had) (Nat.lt_irrefl _)
      · exact accounts.opener had old
  settled {n c id source} opened := by
    rcases memWelcome.mp opened with ⟨rfl,rfl,_⟩ | old
    · exact .inl List.mem_cons_self
    · -- The newest entry about another connection stays what it was.
      have apart : s.opened ≠ c := Nat.ne_of_gt (accounts.numbered old)
      have newest : newest? c (p.welcome outside s).journal = newest? c s.journal := by
        simp [Pool.welcome,Shared.note,newest?,Event.concerns,apart]
      unfold Parted
      rw [newest]
      exact (accounts.settled old).imp_left (List.mem_cons_of_mem _)

end Accounts

namespace Pool
variable {σ : Type} {P : Platform σ} {p p' : Pool} {s s' : Shared σ} {w : Wrapper}
  {rest : List (Nat × Nat)}

def holdings (p : Pool) : List (Nat × Nat) := p.tracked.map fun x => (p.number,x.conn)

theorem picksAccounts (accounts : Accounts (p.holdings ++ rest) s)
    (picks : Picks P p s (.candidate w) p' s') :
    Accounts ((p'.number,w.conn) :: (p'.holdings ++ rest)) s' := by
  cases picks with
  | kept idle => simpa [holdings,tracked,idle] using accounts
  | @fresh outside t idle room connect setUp =>
    have called := (accounts.welcome p outside).talks List.mem_cons_self
      ((Shared.setUpTalks ..).ends setUp)
    exact called.quiet rfl (by simp [Shared.newKey,Shared.note,news,Event.isNews])
  | @overdue oldest others idle full active late =>
    have lent : Accounts ((p.number,oldest.conn) :: ((others.map fun x => (p.number,x.conn)) ++ rest))
        s := by simpa [holdings,tracked,idle,active] using accounts
    have taken := lent.quiet (t := (s.invalidate oldest).note (.reclaimed p.number oldest
      (oldest.heldFor s.now))) rfl (by simp [Shared.invalidate,Shared.note,news,Event.isNews])
    have cleared := taken.talks List.mem_cons_self (p.seizeTalks P oldest s)
    have done := cleared.quiet
      (t := ((p.seize P oldest s).rewrap oldest oldest.lastUsedAt).2.notify p.number) rfl rfl
    simp only [holdings,tracked,count,idle,List.nil_append]
    exact done

theorem missesAccounts (accounts : Accounts (p.holdings ++ rest) s) {error : PoolError}
    (picks : Picks P p s (.failed error) p' s') : Accounts (p'.holdings ++ rest) s' := by
  cases picks with
  | refused => exact accounts.quiet rfl (by simp [Shared.note,news,Event.isNews])
  | unfit idle room connect setUp =>
    have called := (accounts.welcome p _).talks List.mem_cons_self
      ((Shared.setUpTalks ..).ends setUp)
    exact called.dispose

theorem discardAccounts (P : Platform σ) (p : Pool)
    (accounts : Accounts ((p.number,w.conn) :: rest) s) : Accounts rest (p.discard P w s).2 := by
  have dead : Accounts ((p.number,w.conn) :: rest) (s.invalidate w) := accounts.quiet rfl rfl
  exact dead.dispose

theorem stayAccounts (P : Platform σ) (seeker : Seeker) (rest : List (Nat × Nat)) :
    StayRule P seeker (fun q s => Accounts (q.holdings ++ rest) s)
      (fun w q s => Accounts ((q.number,w.conn) :: (q.holdings ++ rest)) s)
      (fun _ q s => Accounts (q.holdings ++ rest) s) where
  finds accounts picks := picksAccounts accounts picks
  misses accounts picks := missesAccounts accounts picks
  blocks {q s} accounts _ bad := by
    have slept : Accounts (q.holdings ++ rest) (q.block seeker bad s).2.2 :=
      accounts.quiet rfl rfl
    unfold block
    split <;> exact slept
  grants {w q s t} holding good := by
    have called := holding.talks List.mem_cons_self ((admitsTalks ..).ends good)
    have granted : (q.grant seeker w t).2.1.holdings = q.holdings ++ [(q.number,w.conn)] := by
      simp [grant,holdings,tracked,count,Wrapper.stamped]
    refine (called.note rfl).perm ?_
    rw [granted,List.append_assoc]
    exact List.perm_middle.symm
  rejects {w q s t} holding bad := by
    have called := holding.talks List.mem_cons_self ((admitsTalks ..).ends bad)
    have noted : Accounts ((q.number,w.conn) :: (q.holdings ++ rest))
        (t.note (.rejected q.number w)) := called.note rfl
    exact discardAccounts P (q.count fun c => { c with bad := c.bad + 1 }) noted
  fails accounts _ := accounts.note rfl
  overruns accounts := accounts

theorem enterAccounts (P : Platform σ) (seeker : Seeker)
    (accounts : Accounts (p.holdings ++ rest) s) :
    Accounts ((p.enter P seeker s).2.1.holdings ++ rest) (p.enter P seeker s).2.2 :=
  (stayAccounts P seeker rest).enter (fun _ => accounts.note rfl) (fun _ => accounts)

theorem resumeAccounts (P : Platform σ) (wait : Wait)
    (accounts : Accounts (p.holdings ++ rest) s) :
    Accounts ((p.resume P wait s).2.1.holdings ++ rest) (p.resume P wait s).2.2 := by
  have rises : Accounts (p.holdings ++ rest) (p.rises wait s) := accounts.note rfl
  exact (stayAccounts P wait.seeker rest).resume (fun _ => rises.note rfl) (fun _ => rises)

theorem removeActiveAccounts (accounts : Accounts (p.holdings ++ rest) s)
    (own : ∀ x ∈ p.active, x.key = w.key → x = w) (lent : p.IsActive w) :
    Accounts ((p.number,w.conn) :: ((p.removeActive w).holdings ++ rest)) s := by
  obtain ⟨x,member,same,apart⟩ := trackedApart lent
  obtain rfl := own x member same
  exact accounts.perm ((apart.map fun y : Wrapper => (p.number,y.conn)).append_right rest)

theorem returnsAccounts (accounts : Accounts (p.holdings ++ rest) s)
    (own : ∀ x ∈ p.active, x.key = w.key → x = w) (returns : Returns P w p s p' s') :
    Accounts (p'.holdings ++ rest) s' := by
  cases returns with
  | stale => exact accounts.note rfl
  | @unfit t lent found =>
    have taken := removeActiveAccounts accounts own lent
    have inspected := taken.talks List.mem_cons_self ((inspectTalks ..).ends found)
    have noted : Accounts ((p.number,w.conn) :: ((p.removeActive w).holdings ++ rest))
        (t.note (.returned p.number w false (w.heldFor s.now))) := inspected.note rfl
    exact (discardAccounts P (p.removeActive w) noted).quiet rfl rfl
  | @dropped t u lent found unwelcome =>
    have taken := removeActiveAccounts accounts own lent
    have inspected := taken.talks List.mem_cons_self ((inspectTalks ..).ends found)
    have noted : Accounts ((p.number,w.conn) :: ((p.removeActive w).holdings ++ rest))
        (t.note (.returned p.number w true (w.heldFor s.now))) := inspected.note rfl
    have called := noted.talks List.mem_cons_self (droppedTalks unwelcome)
    exact (discardAccounts P (p.removeActive w) called).quiet rfl rfl
  | @kept t u lent found welcome cleared =>
    have taken := removeActiveAccounts accounts own lent
    have inspected := taken.talks List.mem_cons_self ((inspectTalks ..).ends found)
    have noted : Accounts ((p.number,w.conn) :: ((p.removeActive w).holdings ++ rest))
        (t.note (.returned p.number w true (w.heldFor s.now))) := inspected.note rfl
    have called := noted.talks List.mem_cons_self ((Shared.rollbackTalks ..).ends cleared)
    have kept := called.quiet (t := ((p.checkIn w s.now).keep w u).2.notify p.number) rfl rfl
    refine kept.perm ?_
    simp only [holdings,tracked,keep,checkIn,count,removeActive,List.map_append,List.append_assoc]
    exact List.perm_middle.symm

theorem sweepAccounts (P : Platform σ) (accounts : Accounts (p.holdings ++ rest) s) :
    Accounts ((p.sweep P s).1.holdings ++ rest) (p.sweep P s).2 := by
  have none : (p.sweep P s).1.holdings = [] := by
    rw [holdings,sweepTracked]
    rfl
  rw [none]
  have all : Accounts ((p.active.reverse ++ p.idle.reverse).map (fun x => (p.number,x.conn)) ++ rest)
      (s.note (.swept p.number p.active.length p.idle.length)) :=
    (accounts.perm ((p.sweepOrder.map _).append_right rest)).note rfl
  have left := discardAllKeeps (P := P) (p := p.swept P)
    (fun ws q t => q.number = p.number ∧ Accounts (ws.map (fun x => (p.number,x.conn)) ++ rest) t)
    (fun {w ws q t} ⟨number,left⟩ => ⟨number,discardAccounts P q (number ▸ left)⟩) ⟨rfl,all⟩
  exact left.2

end Pool
end ConnectionPool
