import ConnectionPool.Proofs.Ages
import ConnectionPool.Proofs.Leak
/-! All that a pool has fits its configuration: what it lends carries the type code of its data
source, and every connection was opened with that data source, in all fields. The type code itself
may tell any two data sources apart or none. -/
namespace ConnectionPool
namespace Pool
variable {σ : Type} {P : Platform σ} {p q : Pool} {s t : Shared σ}

def Coherent (P : Platform σ) (p : Pool) : Prop :=
  p.expected = P.typeCode p.source ∧ ∀ x ∈ p.active, x.typeCode = some p.expected

theorem Coherent.lendsLess (coherent : p.Coherent P) (alike : p.Alike q)
    (fewer : q.active ⊆ p.active) : q.Coherent P := by
  rw [alike]
  exact ⟨coherent.1,fun x member => coherent.2 x (fewer member)⟩

theorem picksCoherent (coherent : p.Coherent P) {pick : Pick} (picks : Picks P p s pick q t) :
    q.Coherent P := by
  refine coherent.lendsLess (picksAlike picks) ?_
  cases picks with
  | kept | refused | unfit | fresh | nothing => exact List.Subset.refl _
  | overdue none full lent =>
    rw [lent]
    exact List.subset_cons_self ..

theorem stayCoherent (P : Platform σ) (seeker : Seeker) :
    StayRule P seeker (fun p _ => p.Coherent P) (fun _ p _ => p.Coherent P)
      (fun _ p _ => p.Coherent P) where
  finds before picks := picksCoherent before picks
  misses before picks := picksCoherent before picks
  blocks before _ bad := by unfold block; split <;> exact ⟨before.1,before.2⟩
  grants holding _ := by
    refine ⟨holding.1,fun x member => ?_⟩
    rcases List.mem_append.mp member with old | new
    · exact holding.2 x old
    · rw [List.mem_singleton.mp new]
      rfl
  rejects holding _ := ⟨holding.1,holding.2⟩
  fails before _ := before
  overruns before := before

theorem returnsCoherent {w : Wrapper} (coherent : p.Coherent P) (returns : Returns P w p s q t) :
    q.Coherent P := by
  refine coherent.lendsLess (returnsAlike returns) ?_
  cases returns with
  | stale => exact List.Subset.refl _
  | unfit | kept | dropped => exact p.removeActiveSubset w

theorem coherentLasts (P : Platform σ) : World.Lasting P (Pool.Coherent P) where
  created _ _ _ _ _ := ⟨rfl,by simp [create]⟩
  enters before seeker s := (stayCoherent P seeker).enter (fun _ => before) (fun _ => before)
  resumes before wait s :=
    (stayCoherent P wait.seeker).resume (fun _ => ⟨before.1,before.2⟩) (fun _ => ⟨before.1,before.2⟩)
  releases before x s := returnsCoherent before (releaseReturns ..)
  renewed _ _ _ _ _ _ s := by
    rw [sweepAlike]
    exact ⟨rfl,by simp [swept]⟩
  tolerates before _ := ⟨before.1,before.2⟩

end Pool

namespace World
variable {σ : Type} {P : Platform σ} {Alters : (σ → σ) → Prop} {outside : σ} {w w' : World σ}
  {n : Nat} {p p' r : Pool} {s' : Shared σ}

def Sourced (w : World σ) : Prop :=
  ∀ ⦃n : Nat⦄ ⦃p : Pool⦄ ⦃x : Wrapper⦄, w.pools[n]? = some p → x ∈ p.tracked →
    ∀ ⦃m id : Nat⦄ ⦃source : DataSource⦄, .opened m x.conn id source ∈ w.shared.journal →
      source = p.source

theorem sourcedFrame (sourced : w.Sourced) (pools : w'.pools = w.pools)
    (openings : ∀ {m conn id source}, .opened m conn id source ∈ w'.shared.journal →
      .opened m conn id source ∈ w.shared.journal) : w'.Sourced := by
  intro n p x here member m id source known
  exact sourced (pools ▸ here) member (openings known)

theorem sourcedPut (slots : List Slot) (sourced : w.Sourced) (accounted : w.Accounted)
    (ledger : Ledger w.tracked w.shared) (here : w.pools[n]? = some p)
    (lists : r.tracked = p.tracked) (acts : r.Acts w.shared p' s')
    (source : (r.source = p.source ∧ p'.source = p.source) ∨ p'.tracked = []) :
    Sourced { w.put n p' s' with slots } := by
  intro m q x there member k id opener known
  -- Connections are numbered as they are opened, so no earlier entry is about a new one.
  rcases poolAtPut (s := s') there with ⟨rfl,rfl⟩ | ⟨_,before⟩
  · rcases source with ⟨ran,kept⟩ | none
    · rcases acts.writes.mem known with old | new
      · rcases acts.has x member with known | later
        · obtain ⟨y,tracked,same⟩ := List.mem_map.mp known
          rw [kept]
          exact sourced here (lists ▸ tracked) (same ▸ old)
        · exact absurd (accounted.numbered old) (Nat.not_lt.mpr later)
      · exact new.2.2.trans (ran.trans kept.symm)
    · exact absurd (none ▸ member) List.not_mem_nil
  · rcases acts.writes.mem known with old | new
    · exact sourced before member old
    · have tracked := memTracked.mpr ⟨m,q,before,member⟩
      exact absurd (ledger.opened x tracked) (Nat.not_lt.mpr new.2.1)

theorem sourcedLetGo (sourced : w.Sourced) (accounted : w.Accounted)
    (ledger : Ledger w.tracked w.shared) (numbered : w.Numbered) (n : Nat) :
    (w.letGo P n).Sourced := by
  rcases letGoCases (P := P) numbered n with ⟨same,_⟩ | ⟨p,_,here,_,swept⟩
  · rwa [same]
  · rw [swept]
    exact sourcedPut _ sourced accounted ledger here rfl (p.sweepActs P w.shared)
      (.inr (p.sweepTracked P w.shared))

theorem sourcedTurn (numbered : w.Numbered) (owned : w.Owned) (accounted : w.Accounted)
    (sourced : w.Sourced) (turn : Turn P Alters w w') : w'.Sourced := by
  have ledger := owned.ledger
  cases turn with
  | found source valid =>
    intro n p x here member m id opener known
    simp only [List.getElem?_append] at here
    split at here
    · exact sourced here member known
    · obtain rfl := List.mem_singleton.mp (List.mem_of_getElem? here)
      exact absurd member List.not_mem_nil
  | noDoor | share | stray | advance | tamper => exact sourcedFrame sourced rfl id
  | ask held live request =>
    refine sourcedFrame sourced rfl fun known => ?_
    exact (Shared.Talks.one P _ _ request w.shared).openings.mp known
  | leave =>
    apply sourcedLetGo
    · exact sourced
    · exact accounted
    · exact ledger
    · exact numbered
  | @get door n p known here =>
    have own : (w.newSeeker door n).pool = p.number := (numbered here).symm
    have alike := p.enterAlike P (w.newSeeker door n) w.shared
    exact sourcedPut _ sourced accounted ledger here rfl (p.enterActs P own w.shared)
      (.inl ⟨rfl,alike.source⟩)
  | @resume index wait p awake here =>
    have alike := p.resumeAlike P wait (w.rouse index).shared
    have before : (w.rouse index).Sourced := sourcedFrame sourced rfl id
    have roused : (w.rouse index).Accounted := accounted.quiet rfl rfl
    have books : Ledger (w.rouse index).tracked (w.rouse index).shared :=
      ledger.frame rfl rfl (Nat.le_refl _) (Nat.le_refl _)
    have acts := p.resumeActs P (numbered here).symm (w.rouse index).shared
    apply sourcedLetGo
    · exact sourcedPut _ before roused books here rfl acts (.inl ⟨rfl,alike.source⟩)
    · exact accountsPut roused here fun _ => Pool.resumeAccounts P wait
    · exact ledgerPut books here fun _ => Pool.resumeLedger P wait
    · exact numberedSeat (w := w.rouse index) numbered here alike
  | @renew n p source settings closed known here =>
    exact sourcedPut (r := { p with source, settings, closed }) w.slots sourced accounted
      ledger here rfl (Pool.closeAllActs P _ w.shared) (.inr (Pool.sweepTracked P _ w.shared))
  | @tolerance n p count known here =>
    exact sourcedPut w.slots sourced accounted ledger here rfl
      ((Pool.Acts.same p w.shared).lists (List.Subset.refl _)) (.inl ⟨rfl,rfl⟩)
  | @giveBack slot h p held first here =>
    have returns := p.releaseReturns P h.wrapper w.shared
    exact sourcedPut _ sourced accounted ledger here rfl
      (Pool.returnsActs (holderOwns owned held here) returns)
      (.inl ⟨rfl,(Pool.returnsAlike returns).source⟩)
  | vacate =>
    apply sourcedLetGo
    · exact sourced
    · exact accounted
    · exact ledger
    · exact numbered

theorem everyConnectionSourced (attained : Attained P Alters outside w) : w.Sourced := by
  refine everyAttained ?_ (fun before => sourcedTurn (numbered before) (everyOwned before)
    (everyAccounted before)) attained
  intro n p x here
  simp [World.initial] at here

theorem openedRight (attained : Attained P Alters outside w) (here : w.pools[n]? = some p)
    {x : Wrapper} (member : x ∈ p.tracked) :
    (∃ id, .opened n x.conn id p.source ∈ w.shared.journal) ∧
      ∀ m id source, .opened m x.conn id source ∈ w.shared.journal → m = n ∧ source = p.source := by
  have accounted := everyAccounted attained
  have sourced := everyConnectionSourced attained
  have has : (n,x.conn) ∈ w.holdings := by
    refine List.mem_flatMap.mpr ⟨p,List.mem_of_getElem? here,List.mem_map.mpr ⟨x,member,?_⟩⟩
    rw [numbered attained here]
  obtain ⟨m,id,source,known⟩ := accounted.recorded x.conn (accounted.known _ has)
  obtain rfl := accounted.opener has known
  obtain rfl := sourced here member known
  exact ⟨⟨id,known⟩,fun k id source again => ⟨accounted.opener has again,sourced here member again⟩⟩

theorem configureEmpties {door : Nat} {change : Change} (numbered : w.Numbered)
    (behind : w.doors[door]? = some (some n)) (here : w.pools[n]? = some p)
    (accepted : (p.configure P change w.shared).1 = .ok ()) :
    ∃ q, (w.move P (.configure door change)).pools[n]? = some q ∧ q.tracked = [] := by
  have found : w.doorPool? door = some p := doorPoolSome behind here
  have inside := (List.getElem?_eq_some_iff.mp here).1
  simp only [World.move,atDoor,found,consultPut numbered here]
  rcases p.configureCases P change w.shared with ⟨fault,same⟩ | ⟨source,settings,_,_,same⟩
  · rw [same] at accepted
    cases accepted
  · rw [same]
    exact ⟨_,List.getElem?_set_self inside,Pool.sweepTracked ..⟩

theorem openedLater (ages : w.Ages w') (here : w.pools[n]? = some p) (none : p.tracked = [])
    {q : Pool} (there : w'.pools[n]? = some q) {x : Wrapper} (member : x ∈ q.tracked) :
    w.shared.opened ≤ x.conn := by
  obtain ⟨r,later,_,reaches⟩ := ages.pools here
  obtain rfl := Option.some.inj (later.symm.trans there)
  rcases reaches x member with old | new
  · rw [none] at old
    exact absurd old List.not_mem_nil
  · exact new

/-- The expected type code of a pool is that of its data source, and whatever it lends carries it,
so nothing is ever given back with another one. Each connection was opened by the pool itself with
its data source as it is now; after a change that is accepted, it never again has one that was
opened before. -/
structure FitsSource (P : Platform σ) (w : World σ) (n : Nat) (p : Pool) : Prop where
  expected : p.expected = P.typeCode p.source
  stamped {x} (lent : x ∈ p.active) : x.typeCode = some p.expected
  held {slot h} (held : w.handle? slot = some h) (own : h.pool = n) (lent : p.IsActive h.wrapper) :
    h.wrapper.typeCode = some p.expected
  opened {x} (tracked : x ∈ p.tracked) : ∃ id, .opened n x.conn id p.source ∈ w.shared.journal
  openedOnly {x} (tracked : x ∈ p.tracked) {m id source}
    (known : .opened m x.conn id source ∈ w.shared.journal) : m = n ∧ source = p.source
  renewed {door change} (behind : w.doors[door]? = some (some n))
    (accepted : (p.configure P change w.shared).1 = .ok ()) {moves q}
    (there : ((w.move P (.configure door change)).run P moves).pools[n]? = some q) {x}
    (tracked : x ∈ q.tracked) {m id source} : .opened m x.conn id source ∉ w.shared.journal

theorem trackedFitSource (reachable : w.Reachable P) (here : w.pools[n]? = some p) :
    w.FitsSource P n p := by
  obtain ⟨_,attained⟩ := reachableAttained reachable
  obtain ⟨code,stamps⟩ := everyPool (Pool.coherentLasts P) attained p (List.mem_of_getElem? here)
  refine ⟨code,fun {x} => stamps x,?_,fun tracked => (openedRight attained here tracked).1,
    fun tracked => (openedRight attained here tracked).2 _ _ _,?_⟩
  · rintro slot h held rfl lent
    obtain ⟨x,member,same⟩ := List.mem_map.mp lent
    obtain rfl := holderOwns (everyOwned attained) held here x member same
    exact stamps _ member
  · intro door change behind accepted moves q there x member m id source known
    obtain ⟨r,present,none⟩ := configureEmpties (numbered attained) behind here accepted
    have changes :=
      moveTurns (P := P) (numbered attained) (.configure door change) fun _ _ => trivial
    have changed := attained.trans changes
    have later := openedLater (agesTurns changed (runTurns changed moves)) present none there member
    have before := (everyAccounted attained).numbered known
    have grown := (agesTurns attained changes).opened
    exact absurd before (Nat.not_lt.mpr (Nat.le_trans grown later))

def blindPlatform : Platform Memory.Server :=
  { Memory.platform with typeCode := fun _ => ⟨none,none,none⟩ }

def reconfigured : World Memory.Server :=
  World.run blindPlatform
    [.create {} {},.get 0,.get 0,.release 0,.configure 0 (.source (.url "db")),.get 0,.release 1]
    (.initial {})

theorem trackedFitSourceReconfigured : ∃ p, reconfigured.pools[0]? = some p ∧
    p.tracked.map Wrapper.conn = [2] ∧ p.source.url = some "db" ∧
    ∀ x ∈ p.tracked, ∃ id, .opened 0 x.conn id p.source ∈ reconfigured.shared.journal := by
  have here : ∃ p, reconfigured.pools[0]? = some p ∧ p.tracked.map Wrapper.conn = [2] ∧
      p.source.url = some "db" := ⟨_,rfl,by decide,by decide⟩
  obtain ⟨p,here,conns,url⟩ := here
  have reachable : reconfigured.Reachable blindPlatform := reachableRun (.initial _) _
  exact ⟨p,here,conns,url,fun _ => (trackedFitSource reachable here).opened⟩

end World
end ConnectionPool
