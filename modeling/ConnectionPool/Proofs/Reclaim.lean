import ConnectionPool.Proofs.Cascade
import ConnectionPool.Proofs.Lease
import ConnectionPool.Proofs.SearchMove
/-! The connections of a pool stand in the order of time, the lent ones by when they were lent, the
kept ones by when they were last used. So the first of those lent is out longest, and a caller that
finds the pool full needs to look at that one alone. -/
namespace ConnectionPool
namespace Pool
variable {σ : Type} {P : Platform σ} {seeker : Seeker} {x w : Wrapper} {p q : Pool}
  {s t : Shared σ} {now : Nat}

structure Ordered (now : Nat) (p : Pool) : Prop where
  active : p.active.Pairwise (·.checkoutAt ≤ ·.checkoutAt)
  idle : p.idle.Pairwise (·.lastUsedAt ≤ ·.lastUsedAt)
  lent : ∀ x ∈ p.active, x.checkoutAt ≤ now
  kept : ∀ x ∈ p.idle, x.lastUsedAt ≤ now

theorem Ordered.fewer (ordered : p.Ordered now) (active : q.active.Sublist p.active)
    (idle : q.idle.Sublist p.idle) : q.Ordered now where
  active := ordered.active.sublist active
  idle := ordered.idle.sublist idle
  lent x member := ordered.lent x (active.subset member)
  kept x member := ordered.kept x (idle.subset member)

theorem picksOrdered (ordered : p.Ordered now) {pick : Pick} (picks : Picks P p s pick q t) :
    q.Ordered now := by
  refine ordered.fewer ?_ ?_ <;> cases picks <;> simp_all [count]

theorem appendOrdered {rank : Wrapper → Nat} {xs : List Wrapper}
    (ordered : xs.Pairwise (rank · ≤ rank ·)) (before : ∀ y ∈ xs, rank y ≤ rank x) :
    (xs ++ [x]).Pairwise (rank · ≤ rank ·) := by
  refine List.pairwise_append.mpr ⟨ordered,List.pairwise_singleton ..,fun y member z last => ?_⟩
  rw [List.mem_singleton.mp last]
  exact before y member

theorem stayOrdered (P : Platform σ) (seeker : Seeker) (now : Nat) :
    StayRule P seeker (fun q t => t.now = now ∧ q.Ordered now)
      (fun _ q t => t.now = now ∧ q.Ordered now) (fun _ q t => t.now = now ∧ q.Ordered now) where
  finds before picks :=
    ⟨(picksActs (.same _) (.same _ _) picks).1.now.trans before.1,picksOrdered before.2 picks⟩
  misses before picks :=
    ⟨(picksActs (.same _) (.same _ _) picks).1.now.trans before.1,picksOrdered before.2 picks⟩
  blocks before _ bad := by
    refine ⟨before.1,?_⟩
    unfold block
    split <;> exact before.2.fewer (.refl _) (.refl _)
  grants {w q t u} holding good := by
    obtain ⟨same,ordered⟩ := holding
    have still : u.now = now := ((admitsTalks ..).ends good).books.now.trans same
    refine ⟨still,{ ordered with active := ?_, lent := ?_ }⟩
    · refine appendOrdered ordered.active fun y member => ?_
      exact still ▸ ordered.lent y member
    · intro y member
      rcases List.mem_append.mp member with old | new
      · exact ordered.lent y old
      · rw [List.mem_singleton.mp new]
        exact Nat.le_of_eq still
  rejects {w q t u} holding bad := by
    have called := ((admitsTalks ..).ends bad).books.now
    have disposed := (((u.note (.rejected q.number w)).invalidate w).disposeBooks P q.number
      w.conn).now
    exact ⟨disposed.trans (called.trans holding.1),holding.2.fewer (.refl _) (.refl _)⟩
  fails before _ := before
  overruns before := before

theorem returnsOrdered (own : ∀ y ∈ p.active, y.key = w.key → y = w) (ordered : p.Ordered s.now)
    (returns : Returns P w p s q t) : q.Ordered t.now := by
  have removed : (p.removeActive w).Ordered s.now :=
    ordered.fewer List.eraseP_sublist (.refl _)
  rw [(returnsActs own returns).now]
  cases returns with
  | stale => exact ordered.fewer (.refl _) (.refl _)
  | unfit | dropped => exact removed.fewer (.refl _) (.refl _)
  | @kept v u lent found welcome cleared =>
    have still : u.now = s.now := ((Shared.rollbackTalks ..).ends cleared).books.now.trans
      ((inspectTalks ..).ends found).books.now
    refine { removed with idle := ?_, kept := ?_ }
    · refine appendOrdered removed.idle fun y member => ?_
      exact still ▸ removed.kept y member
    · intro y member
      rcases List.mem_append.mp member with old | new
      · exact removed.kept y old
      · rw [List.mem_singleton.mp new]
        exact Nat.le_of_eq still

theorem orderedStands (P : Platform σ) :
    World.Standing P fun p (s : Shared σ) => p.Ordered s.now where
  empty {p s} none := by
    obtain ⟨idle,active⟩ := List.append_eq_nil_iff.mp none
    constructor <;> simp [idle,active]
  lists before _ idle active := before.fewer (active ▸ .refl _) (idle ▸ .refl _)
  spared before _ later := { before with
    lent := fun x member => Nat.le_trans (before.lent x member) later
    kept := fun x member => Nat.le_trans (before.kept x member) later }
  stays {p s rest} before ledger seeker := by
    have ⟨still,ordered⟩ := (stayOrdered P seeker s.now).stay ⟨rfl,before⟩
    rwa [still]
  returns before _ own returns := returnsOrdered own before returns

theorem firstLongest (ordered : p.Ordered now) {x : Wrapper} (first : p.active.head? = some x) :
    ∀ y ∈ p.active, y.heldFor now ≤ x.heldFor now := by
  obtain ⟨rest,whole⟩ := List.head?_eq_some_iff.mp first
  have sorted := ordered.active
  rw [whole] at sorted ⊢
  intro y member
  rcases List.mem_cons.mp member with rfl | later
  · exact Nat.le_refl _
  · exact Nat.sub_le_sub_left ((List.pairwise_cons.mp sorted).1 y later) now

theorem lateOverdue (ordered : p.Ordered now) (idle : p.idle = [])
    (full : p.active.length = p.settings.maxActive.toNat) {y : Wrapper} (member : y ∈ p.active)
    (late : p.settings.maxCheckoutTime < y.heldFor now) :
    ∃ x, p.Overdue x now ∧ ∀ z ∈ p.active, z.heldFor now ≤ x.heldFor now := by
  cases active : p.active with
  | nil => rw [active] at member; cases member
  | cons x rest =>
    have first : p.active.head? = some x := by rw [active]; rfl
    have longest := firstLongest ordered first
    exact ⟨x,⟨idle,full,first,Nat.lt_of_lt_of_le late (longest y member)⟩,active ▸ longest⟩

theorem blockKeeps (seeker : Seeker) (bad : Nat) (p : Pool) (s : Shared σ) :
    (p.block seeker bad s).2.1.takings = p.takings ∧ (p.block seeker bad s).2.1.idle = p.idle ∧
      (p.block seeker bad s).2.1.active = p.active := by
  unfold block
  split <;> exact ⟨rfl,rfl,rfl⟩

end Pool

namespace World
variable {σ : Type} {P : Platform σ} {Alters : (σ → σ) → Prop} {outside : σ} {w w' : World σ}
  {n m : Nat} {a : Move σ} {seeker other : Seeker} {p q : Pool} {s t : Shared σ} {x : Wrapper}

theorem everyPoolOrdered (attained : Attained P Alters outside w) (here : w.pools[n]? = some p) :
    p.Ordered w.shared.now :=
  everyStanding (Pool.orderedStands P) attained here

/-- One connection is taken from its holder, the one that has been out longest, and the caller that
takes it is not left waiting. -/
structure TakesLongest (w w' : World σ) (seeker : Seeker) (q : Pool) (now : Nat) (x : Wrapper) :
    Prop where
  lent : x ∈ q.active
  longest : ∀ y ∈ q.active, y.heldFor now ≤ x.heldFor now
  told : stirrings w'.shared.journal =
    .notified seeker.pool :: .reclaimed seeker.pool x (x.heldFor now) :: stirrings w.shared.journal
  counted : ∃ p p', w.pools[seeker.pool]? = some p ∧ w'.pools[seeker.pool]? = some p' ∧
    p'.takings = p.takings.add (x.heldFor now)
  handles : ∃ slot, w.handle? slot = some ⟨x,seeker.pool,false⟩ ∧ ∀ i h, w.handle? i = some h →
    w.shared.IsLive h.wrapper → (w'.shared.IsLive h.wrapper ↔ i ≠ slot)
  answered : ∀ y ∈ w'.shared.unfinished, y.seeker.ticket ≠ seeker.ticket

structure OnlySleeps (w w' : World σ) (seeker : Seeker) : Prop where
  asleep : ∃ y ∈ w'.shared.waiting, y.seeker.ticket = seeker.ticket
  told : stirrings w'.shared.journal = stirrings w.shared.journal
  kept : ∃ p p', w.pools[seeker.pool]? = some p ∧ w'.pools[seeker.pool]? = some p' ∧
    p'.takings = p.takings ∧ p'.idle = p.idle ∧ p'.active = p.active
  live : w'.shared.live = w.shared.live

section Search
variable (attained : Attained P Alters outside w) (searches : w.Searches a seeker p s)
include attained searches

theorem searchFull (passed : Pool.Passed P p s n q t)
    (full : q.active.length = q.settings.maxActive.toNat) : q = p ∧ t = s :=
  (Pool.fullFirst (begins attained searches).room passed
    (Nat.not_lt.mpr (Nat.le_of_eq full.symm))).2

theorem searchFares {i : Nat} {h : Handle} (held : w.handle? i = some h)
    (live : w.shared.IsLive h.wrapper) : (w.move P a).shared.IsLive h.wrapper ∨
      (¬(w.move P a).shared.IsLive h.wrapper ∧ p.Overdue h.wrapper s.now) := by
  obtain ⟨_,q,there,lent⟩ := (everyOwned attained).valid held live
  cases makesFares attained there lent held (moveMakes (P := P) (numbered attained) a) with
  | spared spares =>
    obtain ⟨q',there',lent'⟩ := spares.lent
    have after : Attained P Alters outside (w.move P a) :=
      attained.trans (moveTurns (numbered attained) a fun change same => by
        subst same
        cases searches)
    have tracked := memTracked.mpr ⟨_,q',there',List.mem_append_right _ lent'⟩
    exact .inl ((everyOwned after).ledger.live tracked)
  | lost dead loses =>
    refine .inr ⟨dead,?_⟩
    cases loses with
    | release | drop | closeAll | close | configure => cases searches
    | reclaim seeks overdue =>
      obtain ⟨_,_,_,again,_,n,_,passed⟩ := seeks
      obtain ⟨rfl,rfl,rfl⟩ := searchesOnce searches again
      obtain ⟨rfl,rfl⟩ := searchFull attained searches passed overdue.full
      exact overdue
  | used calls => cases searches <;> cases calls

theorem overdueTaken (overdue : p.Overdue x s.now)
    (longest : ∀ y ∈ p.active, y.heldFor s.now ≤ x.heldFor s.now) :
    w.TakesLongest (w.move P a) seeker p s.now x := by
  have owned := everyOwned attained
  have begins := begins attained searches
  obtain ⟨seated,searched⟩ := searched attained searches
  obtain ⟨answered,told⟩ := Pool.takes P seeker begins.room overdue
  have lent : x ∈ p.active := List.mem_of_mem_head? overdue.first
  obtain ⟨r,here,alike,sums⟩ := begins.here
  have lentBefore : x ∈ r.active := by rw [alike] at lent; exact lent
  obtain ⟨slot,held⟩ := owned.lent here lentBefore
  -- The handle that loses its connection still refers to the pool.
  have same := searched.referred (handleRefers (searched.held held))
  have gone : (p.stay P seeker s).2.2.Gone x := Pool.stayTakes begins.ledger overdue
  refine ⟨lent,longest,?_,⟨r,_,here,same ▸ searched.pool begins,?_⟩,⟨slot,held,?_⟩,?_⟩
  · rw [same,searched.shared,told.1,begins.number,begins.told]
  · rw [told.2,sums]
  · intro i h other live
    rcases searchFares attained searches other live with valid | ⟨dead,also⟩
    · refine iff_of_true valid ?_
      rintro rfl
      obtain rfl := Option.some.inj (held.symm.trans other)
      rw [same,searched.shared] at valid
      exact gone.dead valid
    · refine iff_of_false dead fun apart => apart ?_
      obtain rfl := Option.some.inj (overdue.first.symm.trans also.first)
      exact owned.apart other held rfl
  · intro y member
    rw [same,searched.shared] at member
    have queues := (Pool.stayQueues P seeker s.unfinished).stay (p := p) (s := s) (.refl _)
    exact begins.alone y ((Pool.queuesOthers queues answered).mem_iff.mp member)

theorem inTimeSleeps (picks : Pool.Picks P p s .nothing p s) :
    w.OnlySleeps (w.move P a) seeker := by
  have begins := begins attained searches
  obtain ⟨seated,searched⟩ := searched attained searches
  obtain ⟨r,here,alike,sums⟩ := begins.here
  have pool := searched.pool begins
  have shared := searched.shared
  rw [Pool.staySleeps picks] at pool shared
  let wait : Wait := ⟨{ seeker with hasWaited := true, bad := UInt32.ofNat seeker.bad.toNat },s.now,
    p.deadline? s.now⟩
  have asleep : wait ∈ seated.shared.waiting := by
    rw [shared]
    exact List.mem_append_right _ List.mem_cons_self
  -- The caller that sleeps still refers to the pool.
  have same := searched.referred
    (.inr (.inr (List.mem_map.mpr ⟨wait,List.mem_append_left _ asleep,rfl⟩)))
  obtain ⟨takings,idle,active⟩ := p.blockKeeps seeker seeker.bad.toNat s
  rw [same]
  refine ⟨⟨wait,asleep,rfl⟩,?_,⟨r,_,here,pool,takings.trans sums,?_,?_⟩,?_⟩
  · rw [shared]
    exact begins.told
  · exact idle.trans (by rw [alike])
  · exact active.trans (by rw [alike])
  · rw [shared]
    exact begins.live

end Search

inductive TakesAtMostOne (w w' : World σ) (ticket : Nat) : Prop
  | none (told : stirrings w'.shared.journal = stirrings w.shared.journal)
  | one {n x held} (told : stirrings w'.shared.journal =
      .notified n :: .reclaimed n x held :: stirrings w.shared.journal)
      (gone : ∀ y ∈ w'.shared.unfinished, y.seeker.ticket ≠ ticket)

theorem getOnce (attained : Attained P Alters outside w) (door : Nat) :
    w.TakesAtMostOne (w.move P (.get door)) w.slots.length := by
  cases behind : w.doorPool? door with
  | none =>
    simp only [World.move,atDoor,behind]
    exact .none rfl
  | some p =>
    obtain ⟨n,known,here⟩ := doorPoolAt behind
    rw [getMove (numbered attained) known here]
    cases Pool.enterGoes (Pool.everyRoom attained here) P (w.newSeeker door n) w.shared with
    | sleeps _ _ told | leaves _ told => exact .none told
    | wakes answered told =>
      have queues := p.enterQueues P (w.newSeeker door n) w.shared
      refine .one told fun y member => Nat.ne_of_lt ?_
      exact (everyCallerQueued attained).fresh
        ((Pool.queuesOthers queues answered).mem_iff.mp member)

theorem resumeOnce (attained : Attained P Alters outside w) {index : Nat} {wait : Wait}
    (awake : w.shared.woken[index]? = some wait) :
    w.TakesAtMostOne (w.move P (.resume index)) wait.seeker.ticket := by
  cases resumeStirs attained awake with
  | nobody told => exact .none told
  | once _ told gone => exact .one told gone

/-- Lent connections stand in the order in which they were lent, kept ones in that of their last use.
A caller that finds nothing kept and all lent takes a connection if one is out too long, namely one
that is out longest, and nothing else; if none is, it sleeps. No caller takes more than one, for
with one it is on its way no longer. -/
structure ReclaimsExactly (P : Platform σ) (w : World σ) : Prop where
  active {p : Pool} (member : p ∈ w.pools) : p.active.Pairwise (·.checkoutAt ≤ ·.checkoutAt)
  idle {p : Pool} (member : p ∈ w.pools) : p.idle.Pairwise (·.lastUsedAt ≤ ·.lastUsedAt)
  takes {a : Move σ} {seeker : Seeker} {p q : Pool} {s t : Shared σ}
    (searches : w.Searches a seeker p s) (looks : p.Looks P seeker s q t) (none : q.idle = [])
    (full : q.active.length = q.settings.maxActive.toNat)
    (late : ∃ y ∈ q.active, q.settings.maxCheckoutTime < y.heldFor t.now) :
    ∃ x, w.TakesLongest (w.move P a) seeker q t.now x
  sleeps {a : Move σ} {seeker : Seeker} {p q : Pool} {s t : Shared σ}
    (searches : w.Searches a seeker p s) (looks : p.Looks P seeker s q t) (none : q.idle = [])
    (full : q.active.length = q.settings.maxActive.toNat)
    (inTime : ∀ y ∈ q.active, y.heldFor t.now ≤ q.settings.maxCheckoutTime) :
    w.OnlySleeps (w.move P a) seeker
  getOne (door : Nat) : w.TakesAtMostOne (w.move P (.get door)) w.slots.length
  resumeOne {index : Nat} {wait : Wait} (awake : w.shared.woken[index]? = some wait) :
    w.TakesAtMostOne (w.move P (.resume index)) wait.seeker.ticket

theorem longestOverdueReclaimed (reachable : w.Reachable P) : ReclaimsExactly P w := by
  obtain ⟨_,attained⟩ := reachableAttained reachable
  have ordered {p : Pool} (member : p ∈ w.pools) : p.Ordered w.shared.now := by
    obtain ⟨n,here⟩ := List.mem_iff_getElem?.mp member
    exact everyPoolOrdered attained here
  constructor
  case active => exact fun member => (ordered member).active
  case idle => exact fun member => (ordered member).idle
  case takes =>
    rintro a seeker p q s t searches ⟨n,_,passed⟩ none full ⟨y,member,late⟩
    obtain ⟨rfl,rfl⟩ := searchFull attained searches passed full
    have stands := searchStands (Pool.orderedStands P) attained searches
    obtain ⟨x,overdue,longest⟩ := Pool.lateOverdue stands none full member late
    exact ⟨x,overdueTaken attained searches overdue longest⟩
  case sleeps =>
    rintro a seeker p q s t searches ⟨n,_,passed⟩ none full inTime
    obtain ⟨rfl,rfl⟩ := searchFull attained searches passed full
    have crowded := Nat.not_lt.mpr (Nat.le_of_eq full.symm)
    refine inTimeSleeps attained searches (.nothing none crowded fun x first => ?_)
    exact inTime x (List.mem_of_mem_head? first)
  case getOne => exact getOnce attained
  case resumeOne => exact resumeOnce attained

def threeLent : World Memory.Server :=
  World.run Memory.platform
    [.create {} { maxActive := 3, maxCheckoutTime := 5 },.get 0,.advance 2,.get 0,.advance 2,.get 0,
      .release 0,.get 0,.advance 4] (.initial {})

theorem longestOverdueReclaimedThird :
    ∃ q x, threeLent.pools[0]? = some q ∧ q.active.map Wrapper.conn = [1,2,0] ∧
    threeLent.TakesLongest (threeLent.move Memory.platform (.get 0)) (threeLent.newSeeker 0 0) q
      threeLent.shared.now x := by
  have full : ∃ q, threeLent.pools[0]? = some q ∧ q.closed = false ∧ q.idle = [] ∧
      q.active.length = q.settings.maxActive.toNat ∧ q.active.map Wrapper.conn = [1,2,0] ∧
      ∃ y ∈ q.active, q.settings.maxCheckoutTime < y.heldFor threeLent.shared.now :=
    ⟨_,rfl,by decide,by decide,by decide,by decide,by decide⟩
  obtain ⟨q,here,unshut,idle,all,conns,late⟩ := full
  have reachable : threeLent.Reachable Memory.platform := reachableRun (.initial _) _
  have searches : threeLent.Searches (.get 0) (threeLent.newSeeker 0 0) q threeLent.shared :=
    .get rfl here unshut
  obtain ⟨x,taken⟩ := (longestOverdueReclaimed reachable).takes searches
    ⟨0,Nat.zero_le _,.start⟩ idle all late
  exact ⟨q,x,here,conns,taken⟩

end World
end ConnectionPool
