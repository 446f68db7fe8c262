import ConnectionPool.Proofs.Counts
import ConnectionPool.Proofs.Modes
/-! When no connection can be opened for a caller, its pool is left as it was, but for the candidates
that the caller has turned down until then and those among them that it has taken from their holders.
What was opened and could not be set up is discarded, and no pool ever has it. -/
namespace ConnectionPool

def DataSource.greetings (source : DataSource) : List Request :=
  source.autoCommit.elim [] (fun on => [.autoCommit,.setAutoCommit on]) ++
    source.isolation.elim [] fun level => [.setIsolation level]

namespace Shared
variable {σ : Type} {P : Platform σ} {caller : Caller} {conn : Nat} {s t : Shared σ}
  {source : DataSource} {cause : Cause}

theorem askNotes {request : Request} {reply : Except Cause request.Reply}
    (asked : s.ask P caller conn request = (reply,t)) :
    .call caller conn request reply ∈ t.journal := by
  obtain ⟨rfl,rfl⟩ := Prod.mk.inj asked
  exact List.mem_cons_self

theorem setUpFails (failed : s.setUp P caller conn source = (.error cause,t)) :
    ∃ request ∈ source.greetings, .call caller conn request (.error cause) ∈ t.journal := by
  unfold setUp at failed
  rcases first : s.setUpAutoCommit P caller conn source.autoCommit with ⟨reply,u⟩
  rw [first] at failed
  cases reply with
  | ok =>
    simp only [setUpIsolation] at failed
    split at failed
    · cases failed
    · rename_i level wants
      exact ⟨_,by simp [DataSource.greetings,wants],askNotes failed⟩
  | error _ =>
    cases failed
    unfold setUpAutoCommit at first
    split at first
    · cases first
    · rename_i on wants
      rcases asked : s.ask P caller conn .autoCommit with ⟨reply,v⟩
      rw [asked] at first
      cases reply with
      | error _ =>
        cases first
        exact ⟨.autoCommit,by simp [DataSource.greetings,wants],askNotes asked⟩
      | ok current =>
        simp only at first
        split at first
        · cases first
        · exact ⟨.setAutoCommit on,by simp [DataSource.greetings,wants],askNotes first⟩

end Shared

namespace Pool
variable {σ : Type} {P : Platform σ} {p q q' : Pool} {s t t' : Shared σ} {error : PoolError}

structure Misses (q : Pool) (t : Shared σ) (q' : Pool) (t' : Shared σ) : Prop where
  pool : q' = q
  bare : q.idle = []
  live : t'.live = t.live
  told {α : Type} {f : Event → Option α} (reads : Event.ReadsTolls f)
    (silent : ∀ n conn, f (.discarded n conn) = none) :
    t'.journal.filterMap f = t.journal.filterMap f

theorem picksMisses (picks : Picks P q t (.failed error) q' t') : q.Misses t q' t' := by
  cases picks with
  | refused idle =>
    exact ⟨rfl,idle,rfl,fun reads _ => List.filterMap_cons_none (reads _ rfl)⟩
  | @unfit cause outside u idle room connect setUp =>
    have talks := (Shared.setUpTalks ..).ends setUp
    have live : u.live = t.live := talks.books.live
    have before : toll u.journal = toll t.journal := talks.toll
    refine ⟨rfl,idle,(u.disposeBooks P q.number t.opened).live.trans live,fun reads silent => ?_⟩
    rw [← tollMap reads,Shared.disposeToll,List.filterMap_cons_none (silent _ _),tollMap reads,
      ← tollMap reads u.journal,before,tollMap reads]

structure Spoilt (n : Nat) (source : DataSource) (conn : Nat) (cause : Cause) (t : Shared σ) :
    Prop where
  opened : ∃ id, .opened n conn id source ∈ t.journal
  last : t.opened = conn + 1
  failed : ∃ request ∈ source.greetings, .call (.pool n) conn request (.error cause) ∈ t.journal
  discarded : .discarded n conn ∈ t.journal
  parted : Parted n conn t.journal

theorem Spoilt.note {n conn : Nat} {source : DataSource} {cause : Cause}
    (spoilt : Spoilt n source conn cause t) {event : Event} (silent : event.concerns conn = false) :
    Spoilt n source conn cause (t.note event) where
  opened := spoilt.opened.imp fun _ => List.mem_cons_of_mem _
  last := spoilt.last
  failed := spoilt.failed.imp fun _ => And.imp_right (List.mem_cons_of_mem _)
  discarded := List.mem_cons_of_mem _ spoilt.discarded
  parted := Shared.Writes.parted (.one silent) spoilt.parted

theorem unfitSpoils {cause : Cause} {outside : σ} {u : Shared σ}
    (setUp : (q.welcome outside t).setUp P (.pool q.number) t.opened q.source = (.error cause,u)) :
    Spoilt q.number q.source t.opened cause (u.dispose P q.number t.opened) := by
  have talks := (Shared.setUpTalks ..).ends setUp
  have welcomed : (q.welcome outside t).Writes (fun _ => True) u := talks.writes fun _ _ => trivial
  obtain ⟨request,greets,failed⟩ := Shared.setUpFails setUp
  obtain ⟨v,disposes,parted,same⟩ := u.disposeParts P q.number t.opened
  have disposed : u.Writes (fun _ => True) v := disposes.writes fun _ _ => trivial
  rw [same]
  exact {
    opened := ⟨t.nextId,List.mem_cons_of_mem _ (disposed.keeps (welcomed.keeps List.mem_cons_self))⟩
    last := disposes.books.opened.trans talks.books.opened
    failed := ⟨request,greets,List.mem_cons_of_mem _ (disposed.keeps failed)⟩
    discarded := List.mem_cons_self
    parted := Shared.Writes.parted (.one rfl) parted }

theorem othersMade (cs : List Candidate) :
    ((cs.filter Candidate.isOther).map fun c => c.wrapper.conn).Perm
      (cs.filterMap Candidate.made? ++ (cs.filterMap Candidate.lent?).map Wrapper.conn) := by
  induction cs with
  | nil => exact .refl _
  | cons c cs ih =>
    cases c with
    | kept w => exact ih
    | fresh w => exact ih.cons w.conn
    | taken lent held key => exact (ih.cons lent.conn).trans List.perm_middle.symm

end Pool

namespace World
variable {σ : Type} {P : Platform σ} {Alters : (σ → σ) → Prop} {outside : σ} {w w' : World σ}
  {a : Move σ} {seeker : Seeker} {p q r : Pool} {s t t' : Shared σ} {cause : Cause} {n conn : Nat}
  {cs : List Candidate} {others taken : List Wrapper} {fresh : List Nat} {modes : Modes σ}

/-- A caller has turned down what was kept and these others, which it had taken from their holders or
opened, and has got nothing. -/
structure Unopened (w w' : World σ) (n : Nat) (p q : Pool) (others taken : List Wrapper)
    (fresh : List Nat) : Prop where
  before : w.pools[n]? = some p
  after : w'.pools[n]? = some q
  same : p.Alike q
  elsewhere : ∀ m, m ≠ n → w'.pools[m]? = w.pools[m]?
  handles : ∀ slot, w'.handle? slot = w.handle? slot
  rejected : declined n w'.shared.journal = (p.idle ++ others).reverse ++ declined n w.shared.journal
  reclaimed : seized n w'.shared.journal = taken.reverse ++ seized n w.shared.journal
  idle : q.idle = []
  active : p.active = taken ++ q.active
  made : made n w'.shared.journal = fresh.reverse ++ made n w.shared.journal
  created : q.counters.created = p.counters.created + fresh.length
  others : (others.map Wrapper.conn).Perm (fresh ++ taken.map Wrapper.conn)
  untouched : declined n w'.shared.journal = declined n w.shared.journal →
    q = { p with counters := { p.counters with waitTime := q.counters.waitTime } } ∧
      w'.shared.live = w.shared.live

/-- Why no connection could be opened: it was refused, or it failed one of the calls that set it up;
then no pool ever has it. -/
inductive Mishap (P : Platform σ) (w w' : World σ) (n : Nat) (source : DataSource)
    (fresh : List Nat) (cause : Cause) : Prop
  | refused {before after : σ} (noted : .refused n cause ∈ w'.shared.journal)
      (connect : P.connect w'.shared.opened source before = (.error cause,after))
  | unfit {conn : Nat} (spoilt : Pool.Spoilt n source conn cause w'.shared)
      (new : w.shared.opened ≤ conn) (unmade : conn ∉ fresh)
      (away : ∀ x ∈ w.tracked, x.conn ≠ conn)
      (forever : ∀ moves, ∀ x ∈ (w'.run P moves).tracked, x.conn ≠ conn)

theorem discardedForever (attained : Attained P (fun _ => True) outside w)
    (discarded : .discarded n conn ∈ w.shared.journal) (moves : List (Move σ)) :
    ∀ x ∈ (w.run P moves).tracked, x.conn ≠ conn := by
  obtain ⟨new,grown⟩ := journalGrows attained moves
  refine discardedAway (attained.trans (runTurns attained moves)) ⟨n,?_⟩
  rw [grown]
  exact List.mem_append_right new discarded

theorem missUnopened {k : Nat} (starts : w.Starts seeker r p s) (number : p.number = seeker.pool)
    (passed : Pool.Passed P p s k q t) (length : cs.length = k) (meets : p.Meets s cs q t)
    (misses : q.Misses t q t') (unserved : w.Unserved w' seeker.pool q
      (t'.note (.denied q.number seeker.ticket (.connect cause)))) :
    w.Unopened w' seeker.pool r q ((cs.filter Candidate.isOther).map Candidate.wrapper)
      (cs.filterMap Candidate.lent?) (cs.filterMap Candidate.made?) := by
  have alike := Pool.passedAlike passed
  have wrappers := meets.wrappers
  rw [meets.keptAll misses.bare,starts.idle] at wrappers
  have told : toll t.journal = tolls seeker.pool cs ++ toll w.shared.journal := by
    rw [← starts.told,← number]
    exact meets.told
  have tells {α : Type} {f : Event → Option α} (reads : Event.ReadsTolls f)
      (silent : ∀ n conn, f (.discarded n conn) = none) :
      w'.shared.journal.filterMap f = t.journal.filterMap f := by
    rw [unserved.shared]
    exact (List.filterMap_cons_none (reads _ rfl)).trans (misses.told reads silent)
  have rejected : declined seeker.pool w'.shared.journal =
      (cs.map Candidate.wrapper).reverse ++ declined seeker.pool w.shared.journal := by
    rw [← tollDeclined told]
    exact tells (Event.declinedReads _) fun _ _ => rfl
  refine {
    before := starts.here
    after := unserved.pool
    same := starts.alike.trans alike
    elsewhere := unserved.elsewhere
    handles := unserved.handles
    rejected := wrappers ▸ rejected
    reclaimed := ?_
    idle := misses.bare
    active := starts.active ▸ meets.active
    made := ?_
    created := by rw [meets.counters,chargedCreated,starts.created]
    others := by
      rw [List.map_map]
      exact Pool.othersMade cs
    untouched := fun none => ?_ }
  · rw [← tollSeized told]
    exact tells (Event.seizedReads _) fun _ _ => rfl
  · rw [← tollMade told]
    exact tells (Event.madeReads _) fun _ _ => rfl
  · rw [rejected] at none
    obtain rfl : cs = [] := by simpa using none
    subst length
    cases passed with
    | start =>
      refine ⟨starts.pool,?_⟩
      rw [unserved.shared]
      exact misses.live.trans starts.live

theorem searchMisses (attained : Attained P (fun _ => True) outside w)
    (searches : w.Searches a seeker p s) (failed : (p.stay P seeker s).1 = .failed (.connect cause)) :
    ∃ r q others taken fresh, w.Unopened (w.move P a) seeker.pool r q others taken fresh ∧
      w.Mishap P (w.move P a) seeker.pool r.source fresh cause := by
  have number := (begins attained searches).number
  have after := attained.trans (runTurns attained [a])
  obtain ⟨r,starts⟩ := starts searches
  obtain ⟨k,q,t,t',passed,picks,stays⟩ := Pool.stayMisses failed
  obtain ⟨cs,length,meets⟩ := Pool.passedMeets passed
  have alike := Pool.passedAlike passed
  have misses := Pool.picksMisses picks
  have unserved := searchFails attained searches stays misses.bare
    (meets.active ▸ List.subset_append_right _ _)
  refine ⟨r,q,_,_,_,missUnopened starts number passed length meets misses unserved,?_⟩
  have own : q.number = seeker.pool := alike.number.trans number
  have source : q.source = r.source := (starts.alike.trans alike).source
  cases picks with
  | refused idle room connect =>
    have opened : (w.move P a).shared.opened = t.opened := by
      rw [unserved.shared]
      rfl
    refine .refused ?_ (opened ▸ source ▸ connect)
    rw [unserved.shared,← own]
    exact List.mem_cons_of_mem _ List.mem_cons_self
  | @unfit _ outside u idle room connect setUp =>
    have spoilt : Pool.Spoilt seeker.pool r.source t.opened cause (w.move P a).shared := by
      rw [unserved.shared,← own,← source]
      exact (Pool.unfitSpoils setUp).note rfl
    have new : w.shared.opened ≤ t.opened := starts.opened ▸ meets.opened
    refine .unfit spoilt new (fun known => ?_) (fun x member same => ?_)
      (discardedForever after spoilt.discarded)
    · exact Nat.lt_irrefl _ (meets.conns _ known).2
    · exact Nat.not_lt.mpr new (same ▸ (everyOwned attained).ledger.opened x member)

/-- If no connection can be opened for a caller, its pool has what it had before, without the candidates
that have been turned down or taken and without anything new; nothing else has changed if there were
none. What has been opened in vain is discarded and never had by any pool, and what is set up has the
modes of its data source when it is lent for the first time. -/
theorem failedOpeningLeavesNothing (reachable : w.Reachable P) :
    (∀ a cause, w.error? P a = some (.connect cause) →
      ∃ n p q others taken fresh, w.Unopened (w.move P a) n p q others taken fresh ∧
        w.Mishap P (w.move P a) n p.source fresh cause) ∧
    ∀ modes : Modes σ, modes.Obeyed P → ∀ a slot h q, w.handle? slot = none →
      (w.move P a).handle? slot = some h → h.wrapper.conn ∉ lendings w.shared.journal →
        (w.move P a).pools[h.pool]? = some q →
          modes.Suit q.source h.wrapper.conn (w.move P a).shared.outside := by
  obtain ⟨_,attained⟩ := reachableAttained reachable
  refine ⟨fun a cause failed => ?_,fun modes obeyed a slot h q vacant held first here => ?_⟩
  · obtain ⟨seeker,p,s,searches,ends⟩ := errorSearches (numbered attained) failed trivial
    obtain ⟨r,q,others,taken,fresh,unopened,mishap⟩ := searchMisses attained searches ends
    exact ⟨_,r,q,others,taken,fresh,unopened,mishap⟩
  · exact firstModes obeyed attained vacant held first here

def manualSource : DataSource := { autoCommit := some false }

def stuckGreeting : World Memory.Server :=
  World.run Memory.platform
    [.create manualSource {},.get 0,.release 0,.tamper fun server =>
      (server.tamper (.sever 0)).tamper (.switch none none (some [⟨"set_auto_commit",0,none⟩]))]
    (.initial {})

theorem failedOpeningLeavesNothingStuck :
    (∃ n p q others taken fresh, stuckGreeting.Unopened
        (stuckGreeting.move Memory.platform (.get 0)) n p q others taken fresh ∧
      stuckGreeting.Mishap Memory.platform (stuckGreeting.move Memory.platform (.get 0)) n p.source
        fresh (Memory.Connection.struckError (.setAutoCommit false))) ∧
    Memory.modes.autoCommit 0 (World.run Memory.platform [.create manualSource {},.get 0]
      (.initial {})).shared.outside = false := by
  have stuck : stuckGreeting.Reachable Memory.platform := reachableRun (.initial _) _
  have new : Reachable Memory.platform
      (World.run Memory.platform [.create manualSource {}] (.initial {})) :=
    reachableRun (.initial _) _
  have failed : stuckGreeting.error? Memory.platform (.get 0) =
      some (.connect (Memory.Connection.struckError (.setAutoCommit false))) := by decide
  have suit := (failedOpeningLeavesNothing new).2 Memory.modes Memory.modesObeyed (.get 0) 0 _ _ rfl rfl
    (by decide) rfl
  exact ⟨(failedOpeningLeavesNothing stuck).1 _ _ failed,suit.autoCommit false rfl⟩

end World
end ConnectionPool
