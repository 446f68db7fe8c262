import ConnectionPool.Proofs.Patience
/-! The candidates that a caller turns down one after another, each with where it came from, and what
they have cost by the next look: what has been written of them, and what is left of the lists and the
counters of the pool. -/
namespace ConnectionPool

inductive Candidate where
  | kept (w : Wrapper)
  | fresh (w : Wrapper)
  | taken (lent : Wrapper) (held key : Nat)
  deriving DecidableEq, Repr

namespace Candidate

def wrapper : Candidate → Wrapper
  | kept w | fresh w => w
  | taken lent _ key => lent.rewrapped key lent.lastUsedAt

def kept? : Candidate → Option Wrapper
  | kept w => some w
  | _ => none

def isOther (c : Candidate) : Bool := c.kept?.isNone

def lent? : Candidate → Option Wrapper
  | taken lent _ _ => some lent
  | _ => none

def made? : Candidate → Option Nat
  | fresh w => some w.conn
  | _ => none

def arrival (n : Nat) : Candidate → List Event
  | kept _ => []
  | fresh w => [.created n w.conn]
  | taken lent held _ => [.reclaimed n lent held]

def toll (n : Nat) (c : Candidate) : List Event :=
  .discarded n c.wrapper.conn :: .rejected n c.wrapper :: c.arrival n

def drawn : Candidate → Counters → Counters
  | kept _,sums => sums
  | fresh _,sums => { sums with created := sums.created + 1 }
  | taken _ held _,sums => { sums with
      claimedOverdue := sums.claimedOverdue + 1
      overdueTime := sums.overdueTime + held
      checkoutTime := sums.checkoutTime + held }

def charged (sums : Counters) (c : Candidate) : Counters :=
  { c.drawn sums with bad := (c.drawn sums).bad + 1, closed := (c.drawn sums).closed + 1 }

end Candidate

namespace Event

def isToll : Event → Bool
  | created _ _ | rejected _ _ | discarded _ _ | reclaimed _ _ _ => true
  | _ => false

def declined? (n : Nat) : Event → Option Wrapper
  | rejected m w => if m = n then some w else none
  | _ => none

def seized? (n : Nat) : Event → Option Wrapper
  | reclaimed m w _ => if m = n then some w else none
  | _ => none

def made? (n : Nat) : Event → Option Nat
  | created m conn => if m = n then some conn else none
  | _ => none

def ReadsTolls {α : Type} (f : Event → Option α) : Prop :=
  ∀ event, isToll event = false → f event = none

theorem declinedReads (n : Nat) : ReadsTolls (declined? n) := fun event plain => by
  cases event with
  | rejected => cases plain
  | _ => rfl

theorem seizedReads (n : Nat) : ReadsTolls (seized? n) := fun event plain => by
  cases event with
  | reclaimed => cases plain
  | _ => rfl

theorem madeReads (n : Nat) : ReadsTolls (made? n) := fun event plain => by
  cases event with
  | created => cases plain
  | _ => rfl

theorem discardReads : ReadsTolls discard? := fun event plain => by
  cases event with
  | discarded => cases plain
  | _ => rfl

end Event

def toll (journal : List Event) : List Event := journal.filter Event.isToll

/-- The wrappers that a pool has turned down, the last one in front. -/
def declined (n : Nat) (journal : List Event) : List Wrapper := journal.filterMap (Event.declined? n)

def seized (n : Nat) (journal : List Event) : List Wrapper := journal.filterMap (Event.seized? n)

def made (n : Nat) (journal : List Event) : List Nat := journal.filterMap (Event.made? n)

def tolls (n : Nat) (cs : List Candidate) : List Event := cs.reverse.flatMap (Candidate.toll n)

section Toll
variable {n : Nat} {cs : List Candidate} {older newer : List Event}

theorem tollsSnoc (n : Nat) (cs : List Candidate) (c : Candidate) :
    tolls n (cs ++ [c]) = c.toll n ++ tolls n cs := by
  simp [tolls]

theorem tollMap {α : Type} {f : Event → Option α} (reads : Event.ReadsTolls f)
    (journal : List Event) :
    (toll journal).filterMap f = journal.filterMap f := by
  rw [toll,List.filterMap_filter]
  congr 1
  funext event
  split
  · rfl
  · rename_i silent
    exact (reads event (by simpa using silent)).symm

theorem tollsPart {α : Type} {f : Event → Option α} {part : Candidate → Option α}
    (each : ∀ c : Candidate, (c.toll n).filterMap f = (part c).toList) (cs : List Candidate) :
    (tolls n cs).filterMap f = (cs.filterMap part).reverse := by
  induction cs with
  | nil => rfl
  | cons c cs ih =>
    rw [tolls,List.reverse_cons,List.flatMap_append,List.filterMap_append,← tolls,ih,
      List.flatMap_singleton,each]
    cases came : part c <;> simp [came]

theorem tollsMap {α : Type} {f : Event → Option α} {part : Candidate → Option α}
    (reads : Event.ReadsTolls f)
    (each : ∀ c : Candidate, (c.toll n).filterMap f = (part c).toList)
    (told : toll newer = tolls n cs ++ toll older) :
    newer.filterMap f = (cs.filterMap part).reverse ++ older.filterMap f := by
  rw [← tollMap reads newer,told,List.filterMap_append,tollsPart each,tollMap reads]

section Parts
variable (told : toll newer = tolls n cs ++ toll older)
include told

theorem tollDeclined : declined n newer = (cs.map Candidate.wrapper).reverse ++ declined n older := by
  rw [← List.filterMap_eq_map]
  refine tollsMap (Event.declinedReads n) (fun c => ?_) told
  cases c <;> simp [Candidate.toll,Candidate.arrival,Event.declined?,List.filterMap_cons]

theorem tollSeized : seized n newer = (cs.filterMap Candidate.lent?).reverse ++ seized n older := by
  refine tollsMap (Event.seizedReads n) (fun c => ?_) told
  cases c <;>
    simp [Candidate.toll,Candidate.arrival,Candidate.lent?,Event.seized?,List.filterMap_cons]

theorem tollMade : made n newer = (cs.filterMap Candidate.made?).reverse ++ made n older := by
  refine tollsMap (Event.madeReads n) (fun c => ?_) told
  cases c <;>
    simp [Candidate.toll,Candidate.arrival,Candidate.made?,Event.made?,List.filterMap_cons]

theorem tollDiscards : discards newer =
    (cs.map fun c => (n,c.wrapper.conn)).reverse ++ discards older := by
  rw [← List.filterMap_eq_map]
  refine tollsMap Event.discardReads (fun c => ?_) told
  cases c <;> simp [Candidate.toll,Candidate.arrival,Event.discard?,List.filterMap_cons]

end Parts

theorem declinedTurns (n : Nat) (journal : List Event) :
    (declined n journal).length = turnedDown n journal := by
  rw [declined,List.length_filterMap_eq_countP]
  refine List.countP_congr fun event _ => ?_
  cases event with
  | rejected m w => by_cases own : m = n <;> simp [Event.declined?,own]
  | _ => rfl

end Toll

theorem chargedBad (cs : List Candidate) (sums : Counters) :
    (cs.foldl Candidate.charged sums).bad = sums.bad + cs.length := by
  induction cs generalizing sums with
  | nil => rfl
  | cons c cs ih =>
    rw [List.foldl_cons,ih,List.length_cons]
    cases c <;>
    · simp only [Candidate.charged,Candidate.drawn]
      omega

theorem chargedCreated (cs : List Candidate) (sums : Counters) :
    (cs.foldl Candidate.charged sums).created =
      sums.created + (cs.filterMap Candidate.made?).length := by
  induction cs generalizing sums with
  | nil => rfl
  | cons c cs ih =>
    rw [List.foldl_cons,ih]
    cases c with
    | fresh w =>
      simp only [Candidate.charged,Candidate.drawn,Candidate.made?,List.filterMap_cons,List.length_cons]
      omega
    | kept | taken => rfl

namespace Shared
variable {σ : Type} {P : Platform σ} {s t : Shared σ}

theorem Talks.toll {caller : Caller} {conn : Nat} (talks : s.Talks P caller conn t) :
    toll t.journal = toll s.journal :=
  Writes.filter (talks.writes fun _ _ => rfl)

theorem disposeToll (P : Platform σ) (n conn : Nat) (s : Shared σ) :
    ConnectionPool.toll (s.dispose P n conn).journal =
      .discarded n conn :: ConnectionPool.toll s.journal := by
  obtain ⟨t,talks,_,same⟩ := s.disposeParts P n conn
  rw [same,← talks.toll]
  rfl

end Shared

namespace Pool
variable {σ : Type} {P : Platform σ} {p q q' : Pool} {s t u : Shared σ} {w : Wrapper} {n : Nat}
  {c : Candidate} {cs : List Candidate}

structure Offers (p : Pool) (s : Shared σ) (c : Candidate) (q : Pool) (t : Shared σ) : Prop where
  told : toll t.journal = c.arrival p.number ++ toll s.journal
  idle : p.idle = c.kept?.toList ++ q.idle
  active : p.active = c.lent?.toList ++ q.active
  counters : q.counters = c.drawn p.counters
  keys : s.nextKey ≤ t.nextKey
  opened : s.opened ≤ t.opened
  -- What is not kept comes up only when nothing is, and under a new key.
  bare : c.kept? = none → p.idle = []
  key : c.kept? = none → s.nextKey ≤ c.wrapper.key
  conn {conn : Nat} (fresh : c.made? = some conn) : s.opened ≤ conn ∧ conn < t.opened

theorem picksOffers (picks : Picks P p s (.candidate w) q t) :
    ∃ c : Candidate, c.wrapper = w ∧ p.Offers s c q t := by
  cases picks with
  | kept idle =>
    exact ⟨.kept w,rfl,{
      told := rfl
      idle
      active := rfl
      counters := rfl
      keys := Nat.le_refl _
      opened := Nat.le_refl _
      bare := nofun
      key := nofun
      conn := nofun }⟩
  | @fresh outside t idle room connect setUp =>
    have talks : Shared.Talks P (.pool p.number) s.opened (p.welcome outside s) t :=
      (Shared.setUpTalks ..).ends setUp
    have told : toll t.journal = toll s.journal := talks.toll
    have key : t.nextKey = s.nextKey := talks.books.nextKey
    have opened : t.opened = s.opened + 1 := talks.books.opened
    exact ⟨.fresh (.fresh t.nextKey s.opened s.nextId t.now),rfl,{
      told := congrArg (Event.created p.number s.opened :: ·) told
      idle := rfl
      active := rfl
      counters := rfl
      keys := key ▸ Nat.le_succ _
      opened := opened ▸ Nat.le_succ _
      bare := fun _ => idle
      key := fun _ => Nat.le_of_eq key.symm
      conn := by
        rintro _ ⟨⟩
        exact ⟨Nat.le_refl _,opened ▸ Nat.lt_succ_self _⟩ }⟩
  | @overdue oldest rest idle full active late =>
    have talks := p.seizeTalks P oldest s
    have told : toll (p.seize P oldest s).journal =
        .reclaimed p.number oldest (oldest.heldFor s.now) :: toll s.journal := talks.toll
    have key : (p.seize P oldest s).nextKey = s.nextKey := talks.books.nextKey
    exact ⟨.taken oldest (oldest.heldFor s.now) (p.seize P oldest s).nextKey,rfl,{
      told := told
      idle := rfl
      active
      counters := rfl
      keys := key ▸ Nat.le_succ _
      opened := Nat.le_of_eq talks.books.opened.symm
      bare := fun _ => idle
      key := fun _ => Nat.le_of_eq key.symm
      conn := nofun }⟩

/-- By a look the pool has turned down these candidates, the kept ones first. -/
structure Meets (p : Pool) (s : Shared σ) (cs : List Candidate) (q : Pool) (t : Shared σ) : Prop where
  told : toll t.journal = tolls p.number cs ++ toll s.journal
  idle : p.idle = cs.filterMap Candidate.kept? ++ q.idle
  active : p.active = cs.filterMap Candidate.lent? ++ q.active
  counters : q.counters = cs.foldl Candidate.charged p.counters
  keys : s.nextKey ≤ t.nextKey
  opened : s.opened ≤ t.opened
  order : cs = (cs.filterMap Candidate.kept?).map .kept ++ cs.filter Candidate.isOther
  bare : q.idle ≠ [] → cs.filter Candidate.isOther = []
  key : ∀ c ∈ cs.filter Candidate.isOther, s.nextKey ≤ c.wrapper.key
  conns : ∀ conn ∈ cs.filterMap Candidate.made?, s.opened ≤ conn ∧ conn < t.opened

theorem meetsNothing (p : Pool) (s : Shared σ) : p.Meets s [] p s where
  told := rfl
  idle := rfl
  active := rfl
  counters := rfl
  keys := Nat.le_refl _
  opened := Nat.le_refl _
  order := rfl
  bare _ := rfl
  key _ := nofun
  conns _ := nofun

theorem rejectToll (P : Platform σ) (w : Wrapper) (v : Shared σ) :
    toll (q'.reject P w v).2.journal =
      .discarded q'.number w.conn :: .rejected q'.number w :: toll v.journal :=
  Shared.disposeToll ..

/-- A kept candidate comes up only while no other has, so the kept ones stay in front. -/
theorem Meets.orderSnoc (meets : p.Meets s cs q t) (offers : q.Offers t c q' u) :
    cs ++ [c] = ((cs ++ [c]).filterMap Candidate.kept?).map .kept ++
      (cs ++ [c]).filter Candidate.isOther := by
  have before := meets.order
  cases c with
  | kept w =>
    have none := meets.bare (by simp [offers.idle,Candidate.kept?])
    rw [none,List.append_nil] at before
    rw [List.filterMap_append,List.filter_append,none,List.map_append,← before]
    simp [Candidate.kept?,Candidate.isOther]
  | fresh | taken =>
    rw [List.filterMap_append,List.filter_append]
    simp only [Candidate.kept?,Candidate.isOther,List.filterMap_cons,List.filterMap_nil,
      List.append_nil,List.filter_cons,Option.isNone_none,if_true,List.filter_nil]
    rw [← List.append_assoc]
    exact congrArg (· ++ _) before

theorem Meets.rejects {v : Shared σ} (meets : p.Meets s cs q t) (number : q.number = p.number)
    (offers : q.Offers t c q' u) (same : q'.number = q.number)
    (talks : u.Talks P (.pool q'.number) c.wrapper.conn v) :
    p.Meets s (cs ++ [c]) (q'.reject P c.wrapper v).1 (q'.reject P c.wrapper v).2 := by
  have own : q'.number = p.number := same.trans number
  have books := talks.books.trans (Shared.noteBooks v (.rejected q'.number c.wrapper))
  have disposed := ((v.note (.rejected q'.number c.wrapper)).invalidate c.wrapper).disposeBooks P
    q'.number c.wrapper.conn
  have keys : (q'.reject P c.wrapper v).2.nextKey = u.nextKey := disposed.nextKey.trans books.nextKey
  have opened : (q'.reject P c.wrapper v).2.opened = u.opened := disposed.opened.trans books.opened
  constructor
  case told =>
    rw [rejectToll,talks.toll,offers.told,meets.told,tollsSnoc,own,number]
    simp [Candidate.toll]
  case idle =>
    rw [meets.idle,offers.idle]
    cases c <;> simp [Candidate.kept?,reject,discard,count]
  case active =>
    rw [meets.active,offers.active]
    cases c <;> simp [Candidate.lent?,reject,discard,count]
  case counters =>
    rw [List.foldl_append,← meets.counters]
    simp only [reject,discard,count,offers.counters]
    rfl
  case keys => exact keys ▸ Nat.le_trans meets.keys offers.keys
  case opened => exact opened ▸ Nat.le_trans meets.opened offers.opened
  case order => exact meets.orderSnoc offers
  case bare =>
    intro left
    have some : q.idle ≠ [] := by
      rw [offers.idle]
      exact fun none => left (List.append_eq_nil_iff.mp none).2
    have kept : c.isOther = false := by
      simpa [Candidate.isOther,Option.isSome_iff_ne_none] using mt offers.bare some
    rw [List.filter_append,meets.bare some]
    simp [kept]
  case key =>
    intro x member
    rw [List.filter_append,List.mem_append] at member
    rcases member with old | new
    · exact meets.key x old
    · obtain ⟨here,unkept⟩ := List.mem_filter.mp new
      obtain rfl := List.mem_singleton.mp here
      exact Nat.le_trans meets.keys (offers.key (by simpa [Candidate.isOther] using unkept))
  case conns =>
    intro conn member
    rw [List.filterMap_append,List.mem_append] at member
    rw [opened]
    rcases member with old | new
    · obtain ⟨since,before⟩ := meets.conns conn old
      exact ⟨since,Nat.lt_of_lt_of_le before offers.opened⟩
    · have fresh : c.made? = some conn := by simpa using new
      exact ⟨Nat.le_trans meets.opened (offers.conn fresh).1,(offers.conn fresh).2⟩

theorem Meets.keptAll (meets : p.Meets s cs q t) (bare : q.idle = []) :
    cs.filterMap Candidate.kept? = p.idle := by
  rw [meets.idle,bare,List.append_nil]

theorem Meets.wrappers (meets : p.Meets s cs q t) : cs.map Candidate.wrapper =
    cs.filterMap Candidate.kept? ++ (cs.filter Candidate.isOther).map Candidate.wrapper := by
  have ordered := congrArg (List.map Candidate.wrapper) meets.order
  rw [List.map_append,List.map_map] at ordered
  exact ordered.trans (congrArg (· ++ _) (List.map_id _))

theorem Meets.stems (meets : p.Meets s cs q t) (other : c ∈ cs.filter Candidate.isOther) :
    s.opened ≤ c.wrapper.conn ∨ ∃ y ∈ p.active, y.conn = c.wrapper.conn := by
  obtain ⟨member,unkept⟩ := List.mem_filter.mp other
  cases c with
  | kept => cases unkept
  | fresh w => exact .inl (meets.conns w.conn (List.mem_filterMap.mpr ⟨_,member,rfl⟩)).1
  | taken lent held key =>
    refine .inr ⟨lent,?_,rfl⟩
    rw [meets.active]
    exact List.mem_append_left _ (List.mem_filterMap.mpr ⟨_,member,rfl⟩)

theorem passedMeets (passed : Passed P p s n q t) :
    ∃ cs : List Candidate, cs.length = n ∧ p.Meets s cs q t := by
  induction passed with
  | start => exact ⟨[],rfl,meetsNothing p s⟩
  | @again n q t w q' t' u passed picks bad ih =>
    obtain ⟨cs,length,meets⟩ := ih
    obtain ⟨c,rfl,offers⟩ := picksOffers picks
    refine ⟨cs ++ [c],by simp [length],?_⟩
    exact meets.rejects (passedAlike passed).number offers (picksAlike picks).number
      ((admitsTalks ..).ends bad)

end Pool
end ConnectionPool
