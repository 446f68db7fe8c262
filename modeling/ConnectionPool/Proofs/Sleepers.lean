import ConnectionPool.Proofs.Capacity
import ConnectionPool.Proofs.Queue
/-! Nobody sleeps before a pool that could serve. Only some of the things a pool does wake its
sleepers; the others can be done only while it has none, or leave it as full as it was. -/
namespace ConnectionPool.Pool
variable {σ : Type} {P : Platform σ}

def Saturated (p : Pool) : Prop := p.closed = false ∧ p.idle = [] ∧ ¬p.HasActiveRoom

def Hushed (before : Shared σ) (p : Pool) (s : Shared σ) : Prop :=
  ∀ x ∈ s.waiting, (x.seeker.pool ≠ p.number ∧ x ∈ before.waiting) ∨
    (x.seeker.pool = p.number ∧ p.Saturated)

def Unawaited (before : Shared σ) (p : Pool) (s : Shared σ) : Prop :=
  ∀ x ∈ s.waiting, x.seeker.pool ≠ p.number ∧ x ∈ before.waiting

variable {before s s' : Shared σ} {p p' : Pool}

theorem unawaitedHushed (none : p.Unawaited before s) : p.Hushed before s :=
  fun x asleep => .inl (none x asleep)

theorem hushedUnawaited (hushed : p.Hushed before s) (serves : ¬p.Saturated) :
    p.Unawaited before s := by
  intro x asleep
  rcases hushed x asleep with other | ⟨_,full⟩
  · exact other
  · exact absurd full serves

theorem notifyUnawaited (asleep : ∀ x ∈ s.waiting, x.seeker.pool ≠ p.number → x ∈ before.waiting) :
    p.Unawaited before (s.notify p.number) := by
  intro x member
  simp only [Shared.notify,Shared.note,List.mem_filter,Wait.isFor,Bool.not_eq_true',
    beq_eq_false_iff_ne] at member
  exact ⟨member.2,asleep x member.1 member.2⟩

theorem picksUnawaited (hushed : p.Hushed before s) {w : Wrapper}
    (picks : Picks P p s (.candidate w) p' s') : p'.Unawaited before s' := by
  cases picks with
  | kept first =>
    have none : p.Unawaited before s :=
      hushedUnawaited hushed fun full => by simp [Saturated,first] at full
    exact none
  | @fresh outside t none room connect setUp =>
    have books := ((Shared.setUpTalks ..).ends setUp).books
    intro x asleep
    have same : x ∈ s.waiting := books.waiting ▸ asleep
    exact hushedUnawaited hushed (fun full => full.2.2 room) x same
  | @overdue oldest rest none full lent late =>
    have books := (p.seizeTalks P oldest s).books
    refine notifyUnawaited (p := { p with active := rest }) fun x asleep other => ?_
    have same : x ∈ s.waiting := books.waiting ▸ asleep
    rcases hushed x same with ⟨_,old⟩ | ⟨own,_⟩
    · exact old
    · exact absurd own other

theorem missesHushed (hushed : p.Hushed before s) {error : PoolError}
    (picks : Picks P p s (.failed error) p' s') : p'.Hushed before s' := by
  cases picks with
  | refused none room => exact hushed
  | @unfit cause outside t none room connect setUp =>
    have books := ((Shared.setUpTalks ..).ends setUp).books
    have all := books.trans (t.disposeBooks P p.number s.opened)
    intro x asleep
    have same : x ∈ s.waiting := all.waiting ▸ asleep
    exact hushed x same

theorem rejectUnawaited {w : Wrapper} (none : p.Unawaited before s) (P : Platform σ) :
    (p.reject P w s).1.Unawaited before (p.reject P w s).2 := by
  have books := ((s.note (.rejected p.number w)).invalidate w).disposeBooks P p.number w.conn
  intro x asleep
  have same : x ∈ s.waiting := books.waiting ▸ asleep
  exact none x same

theorem stayHushed (P : Platform σ) {seeker : Seeker} (own : seeker.pool = p.number) :
    StayRule P seeker (fun q s => p.Alike q ∧ q.closed = false ∧ q.Hushed before s)
      (fun _ q s => p.Alike q ∧ q.closed = false ∧ q.Unawaited before s)
      (fun _ q s => q.Hushed before s) where
  finds ok picks :=
    have alike := picksAlike picks
    ⟨ok.1.trans alike,alike.closed.trans ok.2.1,picksUnawaited ok.2.2 picks⟩
  misses ok picks :=
    have alike := picksAlike picks
    ⟨ok.1.trans alike,alike.closed.trans ok.2.1,missesHushed ok.2.2 picks⟩
  blocks {q s} ok picks bad := by
    cases picks with
    | nothing none full =>
      have saturated : (q.block seeker bad s).2.1.Saturated := by
        unfold block
        split <;> exact ⟨ok.2.1,none,full⟩
      have number : (q.block seeker bad s).2.1.number = q.number := by
        unfold block
        split <;> rfl
      intro x asleep
      rw [number]
      rcases List.mem_append.mp asleep with old | new
      · rcases ok.2.2 x old with other | ⟨mine,_⟩
        · exact .inl other
        · exact .inr ⟨mine,saturated⟩
      · rw [List.mem_singleton.mp new]
        exact .inr ⟨own.trans ok.1.number.symm,saturated⟩
  grants {w q s t} holding good := by
    have books := ((admitsTalks ..).ends good).books
    intro x asleep
    have same : x ∈ s.waiting := books.waiting ▸ asleep
    exact .inl (holding.2.2 x same)
  rejects {w q s t} holding bad := by
    have books := ((admitsTalks ..).ends bad).books
    have none : q.Unawaited before t := fun x asleep => holding.2.2 x (books.waiting ▸ asleep)
    exact ⟨holding.1.trans rfl,holding.2.1,unawaitedHushed (rejectUnawaited none P)⟩
  fails ok _ := ok.2.2
  overruns ok := ok.2.2

theorem enterHushed (P : Platform σ) {seeker : Seeker} (own : seeker.pool = p.number)
    (hushed : p.Hushed before s) :
    (p.enter P seeker s).2.1.Hushed before (p.enter P seeker s).2.2 :=
  (stayHushed P own).enter (fun _ => hushed) (fun opened => ⟨.same p,opened,hushed⟩)

theorem resumeHushed (P : Platform σ) {wait : Wait} (own : wait.seeker.pool = p.number)
    (hushed : p.Hushed before s) :
    (p.resume P wait s).2.1.Hushed before (p.resume P wait s).2.2 :=
  (stayHushed P own).resume (fun _ => hushed) (fun opened => ⟨rfl,opened,hushed⟩)

theorem releaseHushed {w : Wrapper} (hushed : p.Hushed before s) :
    (p.release P w s).1.Hushed before (p.release P w s).2 := by
  have returns := p.releaseReturns P w s
  -- All but a stale return wakes the sleepers, so it is enough to know who sleeps elsewhere.
  have asleep {t : Shared σ} (same : t.waiting = s.waiting) :
      ∀ x ∈ t.waiting, x.seeker.pool ≠ p.number → x ∈ before.waiting := by
    intro x member other
    rcases hushed x (same ▸ member) with ⟨_,old⟩ | ⟨mine,_⟩
    · exact old
    · exact absurd mine other
  generalize p.release P w s = result at returns ⊢
  obtain ⟨p',s'⟩ := result
  cases returns with
  | stale => exact hushed
  | @unfit t lent found =>
    have inspected := ((inspectTalks ..).ends found).books
    refine unawaitedHushed (notifyUnawaited (p := p) (asleep ?_))
    exact (Shared.disposeBooks ..).waiting.trans inspected.waiting
  | @kept t u lent found welcome cleared =>
    have books := ((Shared.rollbackTalks ..).ends cleared).books
    have inspected := ((inspectTalks ..).ends found).books
    refine unawaitedHushed (notifyUnawaited (p := p) (asleep ?_))
    exact books.waiting.trans inspected.waiting
  | @dropped t u lent found unwelcome =>
    have inspected := ((inspectTalks ..).ends found).books
    refine unawaitedHushed (notifyUnawaited (p := p) (asleep ?_))
    exact (Shared.disposeBooks ..).waiting.trans
      ((droppedTalks unwelcome).books.waiting.trans inspected.waiting)

theorem closeAllHushed (P : Platform σ) (p : Pool) {s : Shared σ}
    (asleep : ∀ x ∈ s.waiting, x.seeker.pool ≠ p.number → x ∈ before.waiting) :
    (p.closeAll P s).1.Hushed before (p.closeAll P s).2 := by
  apply unawaitedHushed
  change (p.sweep P s).1.Unawaited before ((p.sweep P s).2.notify (p.sweep P s).1.number)
  apply notifyUnawaited
  rw [sweepNumber,(sweepBooks P p s).1]
  exact asleep

end ConnectionPool.Pool

namespace ConnectionPool.World
variable {σ : Type} {P : Platform σ} {Alters : (σ → σ) → Prop} {outside : σ} {w w' : World σ}

def Hushed (w : World σ) : Prop :=
  ∀ x ∈ w.shared.waiting, ∃ p, w.pools[x.seeker.pool]? = some p ∧ p.Saturated

theorem poolHushed (hushed : w.Hushed) {n : Nat} {p : Pool} (here : w.pools[n]? = some p)
    (number : p.number = n) : p.Hushed w.shared w.shared := by
  intro x asleep
  obtain ⟨q,there,full⟩ := hushed x asleep
  by_cases own : x.seeker.pool = n
  · have same : q = p := Option.some.inj (there.symm.trans (own ▸ here))
    exact .inr ⟨own.trans number.symm,same ▸ full⟩
  · exact .inl ⟨number ▸ own,asleep⟩

theorem hushedPut (hushed : w.Hushed) {n : Nat} {p p' : Pool} {s : Shared σ}
    (here : w.pools[n]? = some p) (number : p'.number = n) (after : p'.Hushed w.shared s) :
    (w.put n p' s).Hushed := by
  intro x asleep
  rcases after x asleep with ⟨other,old⟩ | ⟨own,full⟩
  · obtain ⟨q,there,full⟩ := hushed x old
    refine ⟨q,?_,full⟩
    rw [number] at other
    simp only [put,List.getElem?_set,if_neg (Ne.symm other)]
    exact there
  · refine ⟨p',?_,full⟩
    have inside := (List.getElem?_eq_some_iff.mp here).1
    rw [own,number]
    simp only [put,List.getElem?_set_self inside]

theorem hushedActs (numbered : w.Numbered) (hushed : w.Hushed) {n : Nat} {p p' : Pool} {s : Shared σ}
    (here : w.pools[n]? = some p) (number : p'.number = p.number)
    (acts : p.Hushed w.shared w.shared → p'.Hushed w.shared s) : (w.put n p' s).Hushed :=
  have own := poolHushed hushed here (numbered here)
  hushedPut hushed here (number.trans (numbered here)) (acts own)

theorem hushedLetGo (hushed : w.Hushed) (numbered : w.Numbered) (n : Nat) :
    (w.letGo P n).Hushed := by
  rcases letGoCases (P := P) numbered n with ⟨same,_⟩ | ⟨p,alone,here,_,swept⟩
  · rwa [same]
  · rw [swept]
    refine hushedPut hushed here ((Pool.sweepNumber ..).trans (numbered here)) ?_
    intro x asleep
    rw [(Pool.sweepBooks P p w.shared).1] at asleep
    refine .inl ⟨?_,asleep⟩
    -- A caller that sleeps before the pool would still refer to it.
    intro own
    rw [Pool.sweepNumber,numbered here] at own
    refine alone (.inr (.inr (List.mem_map.mpr ⟨x,?_,own⟩)))
    exact List.mem_append_left _ asleep

theorem hushedTurn (numbered : w.Numbered) (hushed : w.Hushed) (turn : Turn P Alters w w') :
    w'.Hushed := by
  cases turn with
  | found source valid =>
    intro x asleep
    obtain ⟨p,here,full⟩ := hushed x asleep
    have inside := (List.getElem?_eq_some_iff.mp here).1
    exact ⟨p,by simp only [List.getElem?_append_left inside]; exact here,full⟩
  | noDoor | share | stray | ask | tamper => exact hushed
  | leave | vacate =>
    apply hushedLetGo
    · exact hushed
    · exact numbered
  | @get door n p known here =>
    have mine : (w.newSeeker door n).pool = p.number := (numbered here).symm
    exact hushedActs numbered hushed here (p.enterAlike P _ _).number fun own =>
      Pool.enterHushed P mine own
  | @resume index wait p awake here =>
    have mine : wait.seeker.pool = p.number := (numbered here).symm
    have alike := p.resumeAlike P wait (w.rouse index).shared
    apply hushedLetGo
    · exact hushedActs (w := w.rouse index) numbered hushed here alike.number fun own =>
        Pool.resumeHushed P mine own
    · exact numberedSeat (w := w.rouse index) numbered here alike
  | renew source settings closed known here =>
    exact hushedActs numbered hushed here (Pool.sweepNumber ..) fun _ =>
      Pool.closeAllHushed P _ fun _ asleep _ => asleep
  | tolerance count known here => exact hushedActs numbered hushed here rfl id
  | @giveBack slot h p held first here =>
    have alike := Pool.returnsAlike (p.releaseReturns P h.wrapper w.shared)
    exact hushedActs numbered hushed here alike.number Pool.releaseHushed
  | advance time =>
    intro x asleep
    exact hushed x (List.mem_filter.mp asleep).1

theorem everySleeperHushed (attained : Attained P Alters outside w) : w.Hushed :=
  everyAttained (by intro x asleep; simp [World.initial,Shared.initial] at asleep)
    (fun before => hushedTurn (numbered before)) attained

/-- Whoever sleeps and has not been woken sleeps before an open pool that keeps nothing and has lent
all it may lend. -/
theorem noLostWakeup (reachable : w.Reachable P) {x : Wait} (asleep : x ∈ w.shared.waiting) :
    ∃ p, w.pools[x.seeker.pool]? = some p ∧ p.closed = false ∧ p.idle = [] ∧
      p.active.length = p.settings.maxActive.toNat := by
  obtain ⟨_,attained⟩ := reachableAttained reachable
  obtain ⟨p,here,opened,none,full⟩ := everySleeperHushed attained x asleep
  have room := everyPool (Pool.roomLasts P) attained p (List.mem_of_getElem? here)
  have all := room.all
  refine ⟨p,here,opened,none,?_⟩
  unfold Pool.HasActiveRoom at full
  omega

def oneAsleep : World Memory.Server :=
  World.run Memory.platform [.create {} { maxActive := 1 },.get 0,.get 0] (.initial {})

theorem noLostWakeupOne :
    ∃ x ∈ oneAsleep.shared.waiting, x.seeker.ticket = 1 ∧
      ∃ p, oneAsleep.pools[x.seeker.pool]? = some p ∧ p.closed = false ∧ p.idle = [] ∧
        p.active.length = p.settings.maxActive.toNat := by
  have sleeper : ∃ x ∈ oneAsleep.shared.waiting, x.seeker.ticket = 1 := by decide
  obtain ⟨x,asleep,second⟩ := sleeper
  have reachable : oneAsleep.Reachable Memory.platform := reachableRun (.initial _) _
  exact ⟨x,asleep,second,noLostWakeup reachable asleep⟩

end ConnectionPool.World
