import ConnectionPool.Proofs.Fate
/-! Only the first look of a stay can find the pool full, so only that one can end in sleep or take a
connection from its holder, and no stay does both. A candidate in hand has a place of its own, which
stays free when the candidate is rejected. -/
namespace ConnectionPool

/-- Entries that concern other callers: a connection is taken from its holder, sleepers are woken. -/
def Event.stirs : Event → Bool
  | reclaimed _ _ _ | notified _ => true
  | _ => false

def stirrings (journal : List Event) : List Event := journal.filter Event.stirs

namespace Shared
variable {σ : Type} {P : Platform σ} {s t : Shared σ}

abbrev Quiet (s t : Shared σ) : Prop := s.Writes (fun event => event.stirs = false) t

theorem Writes.stirrings (quiet : s.Quiet t) : stirrings t.journal = stirrings s.journal :=
  quiet.filter

theorem Talks.quiet {caller : Caller} {conn : Nat} (talks : s.Talks P caller conn t) : s.Quiet t :=
  talks.writes fun _ _ => rfl

theorem disposeQuiet (P : Platform σ) (pool conn : Nat) (s : Shared σ) :
    s.Quiet (s.dispose P pool conn) :=
  disposeWrites P pool conn s (fun _ _ => rfl) rfl

end Shared

namespace Pool
variable {σ : Type} {P : Platform σ} {seeker : Seeker} {x w : Wrapper} {p q q' : Pool}
  {s t u : Shared σ} {rest : List Wrapper} {n : Nat}

structure Takings where
  count : Nat
  overdueTime : Nat
  checkoutTime : Nat
  deriving DecidableEq, Repr

def takings (p : Pool) : Takings :=
  ⟨p.counters.claimedOverdue,p.counters.overdueTime,p.counters.checkoutTime⟩

def Takings.add (held : Nat) (sums : Takings) : Takings :=
  ⟨sums.count + 1,sums.overdueTime + held,sums.checkoutTime + held⟩

def Told (events : List Event) (sums : Takings) (q : Pool) (t : Shared σ) : Prop :=
  stirrings t.journal = events ∧ q.takings = sums

theorem Told.quiet {events : List Event} {sums : Takings} (told : Told events sums q t)
    (quiet : t.Quiet u) (same : q'.takings = q.takings) : Told events sums q' u :=
  ⟨quiet.stirrings.trans told.1,same.trans told.2⟩

theorem openingQuiet {outside : σ} : t.Quiet (q.welcome outside t) :=
  ⟨[_],rfl,by simp [Event.stirs]⟩

theorem roomLeft (room : p.Room 1) : p.HasActiveRoom := by
  have all := room.all
  unfold HasActiveRoom
  omega

theorem rejectRoom (room : p.Room 1) (P : Platform σ) (w : Wrapper) (s : Shared σ) :
    (p.reject P w s).1.Room 1 :=
  ⟨room.all,room.idle⟩

theorem fullFirst (room : p.Room 0) (passed : Passed P p s n q t) (full : ¬q.HasActiveRoom) :
    n = 0 ∧ q = p ∧ t = s := by
  cases passed with
  | start => exact ⟨rfl,rfl,rfl⟩
  | @again n r v w r' v' u passed picks bad =>
    -- The place of a rejected candidate is free at the next look.
    have places := picksRoom ((stayRoom P ⟨0,0,0,0,false,0⟩).passed room passed) picks
    exact absurd (roomLeft (rejectRoom places P w u)) full

theorem picksQuiet (serves : q.idle = [] → q.HasActiveRoom) {pick : Pick}
    (picks : Picks P q t pick q' u) : t.Quiet u ∧ q'.takings = q.takings := by
  cases picks with
  | kept => exact ⟨.nothing rfl,rfl⟩
  | refused => exact ⟨.one rfl,rfl⟩
  | unfit idle room connect setUp =>
    have called := openingQuiet.trans ((Shared.setUpTalks ..).ends setUp).quiet
    exact ⟨called.trans (Shared.disposeQuiet ..),rfl⟩
  | fresh idle room connect setUp =>
    have called := openingQuiet.trans ((Shared.setUpTalks ..).ends setUp).quiet
    exact ⟨called.trans (.one rfl),rfl⟩
  | overdue idle full => exact absurd (serves idle) full
  | nothing idle full => exact absurd (serves idle) full

theorem stayTold (P : Platform σ) (seeker : Seeker) (events : List Event) (sums : Takings) :
    StayRule P seeker (fun q t => (q.Room 0 ∧ q.HasActiveRoom) ∧ Told events sums q t)
      (fun _ q t => q.Room 1 ∧ Told events sums q t)
      (fun outcome q t => outcome ≠ .blocked ∧ Told events sums q t) where
  finds before picks :=
    have ⟨quiet,same⟩ := picksQuiet (fun _ => before.1.2) picks
    ⟨picksRoom before.1.1 picks,before.2.quiet quiet same⟩
  misses before picks := by
    obtain ⟨quiet,same⟩ := picksQuiet (fun _ => before.1.2) picks
    refine ⟨?_,before.2.quiet quiet same⟩
    cases picks <;> exact before.1
  blocks before picks bad := by
    cases picks with
    | nothing idle full => exact absurd before.1.2 full
  grants holding good := by
    have called := ((admitsTalks ..).ends good).quiet
    exact ⟨nofun,holding.2.quiet (called.trans (.one rfl)) rfl⟩
  rejects {w q t u} holding bad := by
    have room := rejectRoom holding.1 P w u
    have called := ((admitsTalks ..).ends bad).quiet
    have noted : t.Quiet ((u.note (.rejected q.number w)).invalidate w) :=
      called.trans ⟨[_],rfl,by simp [Event.stirs]⟩
    refine ⟨⟨⟨?_,room.idle⟩,roomLeft room⟩,holding.2.quiet (noted.trans (Shared.disposeQuiet ..)) rfl⟩
    have all := room.all
    omega
  fails before _ := ⟨nofun,before.2.quiet (.one rfl) rfl⟩
  overruns before := ⟨nofun,before.2⟩

inductive Course (P : Platform σ) (seeker : Seeker) (p : Pool) (s : Shared σ)
    (r : Outcome × Pool × Shared σ) : Prop
  | sleeps (picks : Picks P p s .nothing p s) (same : r = p.block seeker seeker.bad.toNat s)
  | takes {x : Wrapper} (overdue : p.Overdue x s.now) (answered : r.1 ≠ .blocked)
      (told : Told (.notified p.number :: .reclaimed p.number x (x.heldFor s.now) ::
        stirrings s.journal) (p.takings.add (x.heldFor s.now)) r.2.1 r.2.2)
  | serves (able : p.idle = [] → p.HasActiveRoom) (answered : r.1 ≠ .blocked)
      (told : Told (stirrings s.journal) p.takings r.2.1 r.2.2)

theorem fullLength (room : p.Room 0) (full : ¬p.HasActiveRoom) :
    p.active.length = p.settings.maxActive.toNat := by
  have all := room.all
  unfold HasActiveRoom at full
  omega

theorem staySleeps (picks : Picks P p s .nothing p s) :
    p.stay P seeker s = p.block seeker seeker.bad.toNat s := by
  obtain ⟨next,same⟩ := seekRound (P := P) seeker
    (p.settings.badConnectionLimit.toNat - seeker.bad.toNat) seeker.bad.toNat p s
  rw [staySeek,same,roundSleeps picks]

theorem overduePicks (overdue : p.Overdue x s.now) {pick : Pick} (picks : Picks P p s pick q t) :
    ∃ rest, p.active = x :: rest ∧
      pick = .candidate ((p.seize P x s).rewrap x x.lastUsedAt).1 ∧
      q = { p with active := rest }.count (fun c =>
        { c with claimedOverdue := c.claimedOverdue + 1
                 overdueTime := c.overdueTime + x.heldFor s.now
                 checkoutTime := c.checkoutTime + x.heldFor s.now }) ∧
      t = ((p.seize P x s).rewrap x x.lastUsedAt).2.notify p.number := by
  have full : ¬p.HasActiveRoom := Nat.not_lt.mpr (Nat.le_of_eq overdue.full.symm)
  cases picks with
  | kept first => cases overdue.idle.symm.trans first
  | refused _ room | unfit _ room | fresh _ room => exact absurd room full
  | @overdue oldest rest _ _ active _ =>
    have first := overdue.first
    rw [active] at first
    obtain rfl := Option.some.inj first
    exact ⟨rest,active,rfl,rfl,rfl⟩
  | nothing _ _ inTime =>
    exact absurd overdue.late (Nat.not_lt.mpr (inTime x (by simp [overdue.first])))

theorem overdueFirst {Before : Pool → Shared σ → Prop} {Holding : Wrapper → Pool → Shared σ → Prop}
    {After : Outcome → Pool → Shared σ → Prop} (rule : StayRule P seeker Before Holding After)
    (overdue : p.Overdue x s.now)
    (finds : ∀ {w q t}, Picks P p s (.candidate w) q t → Holding w q t) :
    After (p.stay P seeker s).1 (p.stay P seeker s).2.1 (p.stay P seeker s).2.2 := by
  refine rule.first finds ?_ ?_
  · intro error q t picks
    obtain ⟨_,_,none,_⟩ := overduePicks overdue picks
    cases none
  · intro picks
    obtain ⟨_,_,none,_⟩ := overduePicks overdue picks
    cases none

theorem seizeStirs (P : Platform σ) (p : Pool) (x : Wrapper) (s : Shared σ) :
    stirrings (p.seize P x s).journal =
      .reclaimed p.number x (x.heldFor s.now) :: stirrings s.journal :=
  (p.seizeTalks P x s).quiet.stirrings

theorem serves (P : Platform σ) (seeker : Seeker) (s : Shared σ) (room : p.Room 0)
    (able : p.idle = [] → p.HasActiveRoom) :
    (p.stay P seeker s).1 ≠ .blocked ∧
      Told (stirrings s.journal) p.takings (p.stay P seeker s).2.1 (p.stay P seeker s).2.2 := by
  refine (stayTold P seeker (stirrings s.journal) p.takings).first ?_ ?_ ?_
  · intro w q t picks
    obtain ⟨quiet,same⟩ := picksQuiet able picks
    exact ⟨picksRoom room picks,Told.quiet ⟨rfl,rfl⟩ quiet same⟩
  · intro error q t picks
    obtain ⟨quiet,same⟩ := picksQuiet able picks
    refine ⟨?_,Told.quiet ⟨rfl,rfl⟩ quiet same⟩
    cases picks with
    | refused _ free | unfit _ free => exact ⟨room,free⟩
  · intro picks
    cases picks with
    | nothing idle full => exact absurd (able idle) full

theorem takes (P : Platform σ) (seeker : Seeker) (room : p.Room 0) (overdue : p.Overdue x s.now) :
    (p.stay P seeker s).1 ≠ .blocked ∧
      Told (.notified p.number :: .reclaimed p.number x (x.heldFor s.now) :: stirrings s.journal)
        (p.takings.add (x.heldFor s.now)) (p.stay P seeker s).2.1 (p.stay P seeker s).2.2 := by
  refine overdueFirst (stayTold P seeker _ _) overdue fun {w q t} picks => ?_
  have places := picksRoom room picks
  obtain ⟨rest,_,_,rfl,rfl⟩ := overduePicks overdue picks
  exact ⟨places,congrArg (Event.notified p.number :: ·) (seizeStirs P p x s),rfl⟩

theorem overdueOrNot (room : p.Room 0) (idle : p.idle = []) (full : ¬p.HasActiveRoom)
    (s : Shared σ) : (∃ x, p.Overdue x s.now) ∨ Picks P p s .nothing p s := by
  by_cases inTime : ∀ x ∈ p.active.head?, x.heldFor s.now ≤ p.settings.maxCheckoutTime
  · exact .inr (.nothing idle full inTime)
  · obtain ⟨x,first,late⟩ : ∃ x ∈ p.active.head?, p.settings.maxCheckoutTime < x.heldFor s.now := by
      simpa using inTime
    exact .inl ⟨x,idle,fullLength room full,first,late⟩

theorem stayCourse (room : p.Room 0) : p.Course P seeker s (p.stay P seeker s) := by
  by_cases able : p.idle = [] → p.HasActiveRoom
  · obtain ⟨answered,told⟩ := serves P seeker s room able
    exact .serves able answered told
  · obtain ⟨idle,full⟩ := Classical.not_imp.mp able
    rcases overdueOrNot (P := P) room idle full s with ⟨x,overdue⟩ | picks
    · obtain ⟨answered,told⟩ := takes P seeker room overdue
      exact .takes overdue answered told
    · exact .sleeps picks (staySleeps picks)

theorem stayBlocks (room : p.Room 0) (blocked : (p.stay P seeker s).1 = .blocked) :
    p.stay P seeker s = p.block seeker seeker.bad.toNat s := by
  cases stayCourse (P := P) (s := s) room with
  | sleeps picks same => exact same
  | takes _ answered | serves _ answered => exact absurd blocked answered

theorem enterBlocks (room : p.Room 0) (blocked : (p.enter P seeker s).1 = .blocked) :
    p.enter P seeker s = p.block seeker seeker.bad.toNat s := by
  cases closed : p.closed with
  | true =>
    rw [enterShut closed] at blocked
    cases blocked
  | false =>
    rw [enterOpen closed] at blocked ⊢
    exact stayBlocks room blocked

theorem resumeBlocks {wait : Wait} (room : p.Room 0) (blocked : (p.resume P wait s).1 = .blocked) :
    p.resume P wait s =
      (p.lingered (s.now - wait.since)).block wait.seeker wait.seeker.bad.toNat (p.rises wait s) := by
  cases closed : p.closed with
  | true =>
    rw [resumeShut closed] at blocked
    cases blocked
  | false =>
    rw [resumeOpen closed] at blocked ⊢
    exact stayBlocks ⟨room.all,room.idle⟩ blocked

theorem staysGone (P : Platform σ) (seeker : Seeker) (x : Wrapper) :
    StayRule P seeker (fun _ t => t.Gone x) (fun _ _ t => t.Gone x) (fun _ _ t => t.Gone x) where
  finds before picks := (picksActs (.same _) (.same _ _) picks).1.gone before
  misses before picks := (picksActs (.same _) (.same _ _) picks).1.gone before
  blocks before _ _ := ⟨before.dead,before.used⟩
  grants holding good :=
    (holding.books ((admitsTalks ..).ends good).books).books (Shared.noteBooks ..)
  rejects holding bad := rejectGone (holding.books ((admitsTalks ..).ends bad).books)
  fails before _ := before.books (Shared.noteBooks ..)
  overruns before := before

theorem stayTakes (ledger : Ledger (p.tracked ++ rest) s) (overdue : p.Overdue x s.now) :
    (p.stay P seeker s).2.2.Gone x := by
  have lent : x ∈ p.active := List.mem_of_mem_head? overdue.first
  have member : x ∈ p.tracked ++ rest := by simp [tracked,lent]
  refine overdueFirst (staysGone P seeker x) overdue fun {w q t} picks => ?_
  obtain ⟨_,_,_,_,rfl⟩ := overduePicks overdue picks
  exact seizedGone P p (ledger.used _ (ledger.live member)) _ _

end Pool
end ConnectionPool
