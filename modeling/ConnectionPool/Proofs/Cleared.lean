import ConnectionPool.Proofs.Lease
import ConnectionPool.Proofs.SearchMove
/-! No transaction passes from one holder to the next. Whatever a pool keeps or lends was last asked
whether it has a transaction open, and said no or was rolled back; if that fails, the pool parts with
the connection. -/
namespace ConnectionPool

def about (conn : Nat) (journal : List Event) : List Event := journal.filter (Event.concerns conn)

/-- The last that was said to a connection is that its pool found no transaction open or, right after
it had found one, rolled it back. -/
inductive Cleared (n conn : Nat) (journal : List Event) : Prop
  | idle {before} (last : about conn journal = .call (.pool n) conn .autoCommit (.ok true) :: before)
  | rolledBack {before} (last : about conn journal = .call (.pool n) conn .rollback (.ok ()) ::
      .call (.pool n) conn .autoCommit (.ok false) :: before)

namespace Shared
variable {σ : Type} {P : Platform σ} {s t : Shared σ} {n conn : Nat}

theorem Writes.about (spares : s.Spares conn t) : about conn t.journal = about conn s.journal :=
  spares.filter

theorem Writes.newest (spares : s.Spares conn t) :
    newest? conn t.journal = newest? conn s.journal := by
  have same := congrArg List.head? spares.about
  simpa only [ConnectionPool.about,newest?,List.head?_filter] using same

theorem Writes.parted (spares : s.Spares conn t) (parted : Parted n conn s.journal) :
    Parted n conn t.journal := by
  unfold Parted
  rw [spares.newest]
  exact parted

theorem Writes.cleared (spares : s.Spares conn t) (cleared : Cleared n conn s.journal) :
    Cleared n conn t.journal := by
  have same := spares.about
  cases cleared with
  | idle last => exact .idle (same.trans last)
  | rolledBack last => exact .rolledBack (same.trans last)

theorem aboutAsked (P : Platform σ) (caller : Caller) (conn : Nat) (request : Request)
    (s : Shared σ) : about conn (s.ask P caller conn request).2.journal =
      .call caller conn request (s.ask P caller conn request).1 :: about conn s.journal := by
  simp [ask,note,about,Event.concerns]

theorem rollbackClears
    (done : s.rollbackUnlessAutoCommit P (.pool n) conn = (.ok (),t)) : Cleared n conn t.journal := by
  have asked := aboutAsked P (.pool n) conn .autoCommit s
  unfold rollbackUnlessAutoCommit at done
  rcases first : s.ask P (.pool n) conn .autoCommit with ⟨reply,u⟩
  rw [first] at done asked
  match reply with
  | .error cause => cases done
  | .ok true =>
    cases done
    exact .idle asked
  | .ok false =>
    have again := aboutAsked P (.pool n) conn .rollback u
    simp only at done
    rw [done,asked] at again
    exact .rolledBack again

end Shared

namespace Pool
variable {σ : Type} {P : Platform σ} {seeker : Seeker} {x w : Wrapper} {p q q' : Pool}
  {s t u : Shared σ} {rest : List Wrapper} {n conn : Nat}

theorem admitsClears (good : p.admits P w s = (true,t)) : Cleared p.number w.conn t.journal := by
  unfold admits at good
  rcases found : p.inspect P w s with ⟨healthy,u⟩
  rw [found] at good
  cases healthy with
  | false => cases good
  | true =>
    simp only at good
    rcases done : u.rollbackUnlessAutoCommit P (.pool p.number) w.conn with ⟨reply,v⟩
    rw [done] at good
    cases reply with
    | error cause => cases good
    | ok =>
      cases good
      exact Shared.rollbackClears done

def KeepsCleared (p : Pool) (s : Shared σ) : Prop :=
  ∀ x ∈ p.idle, Cleared p.number x.conn s.journal

theorem KeepsCleared.spared (cleared : p.KeepsCleared s)
    (kept : ∀ x ∈ p.idle, s.Spares x.conn t) : p.KeepsCleared t :=
  fun x member => (kept x member).cleared (cleared x member)

theorem picksCleared (cleared : p.KeepsCleared s) {pick : Pick} (picks : Picks P p s pick q t) :
    q.KeepsCleared t := by
  cases picks with
  | kept first => exact fun x member => cleared x (first ▸ List.mem_cons_of_mem _ member)
  | nothing => exact cleared
  | refused none | unfit none | fresh none | overdue none =>
    intro x member
    exact absurd (none ▸ member) List.not_mem_nil

theorem inHandApart (ledger : Ledger (w :: (p.tracked ++ rest)) s) (member : x ∈ p.idle) :
    w.conn ≠ x.conn := by
  intro same
  have known : x ∈ p.tracked ++ rest := by simp [tracked,member]
  exact (List.nodup_cons.mp ledger.conns).1 (same ▸ List.mem_map_of_mem known)

theorem stayCleared (P : Platform σ) (seeker : Seeker) (n : Nat) (rest : List Wrapper) :
    StayRule P seeker
      (fun q t => q.number = n ∧ Ledger (q.tracked ++ rest) t ∧ q.KeepsCleared t)
      (fun w q t => q.number = n ∧ Ledger (w :: (q.tracked ++ rest)) t ∧ q.KeepsCleared t)
      (fun outcome q t => q.KeepsCleared t ∧
        ∀ x, outcome = .granted x → Cleared n x.conn t.journal) where
  finds before picks := ⟨(picksAlike picks).number.trans before.1,picksLedger before.2.1 picks,
    picksCleared before.2.2 picks⟩
  misses before picks := ⟨(picksAlike picks).number.trans before.1,missesLedger before.2.1 picks,
    picksCleared before.2.2 picks⟩
  blocks {q t} before _ bad := by
    have slept : q.KeepsCleared (q.block seeker bad t).2.2 :=
      before.2.2.spared fun _ _ => .one rfl
    refine ⟨?_,nofun⟩
    unfold block
    split <;> exact slept
  grants {w q t u} holding good := by
    obtain ⟨number,ledger,cleared⟩ := holding
    have called {x : Wrapper} (member : x ∈ q.idle) : t.Spares x.conn u :=
      ((admitsTalks ..).ends good).spares (inHandApart ledger member)
    refine ⟨?_,fun x granted => ?_⟩
    · exact cleared.spared fun x member => (called member).trans (.one rfl)
    · obtain rfl := Outcome.granted.inj granted
      have own := admitsClears good
      rw [number] at own
      exact Shared.Writes.cleared (.one rfl) own
  rejects {w q t u} holding bad := by
    obtain ⟨number,ledger,cleared⟩ := holding
    have books := (ledger.books ((admitsTalks ..).ends bad).books).note (.rejected q.number w)
    refine ⟨number,discardLedger P _ books rfl,cleared.spared fun x member => ?_⟩
    have apart := inHandApart ledger member
    have called := ((admitsTalks ..).ends bad).spares apart
    have noted : u.Spares x.conn ((u.note (.rejected q.number w)).invalidate w) :=
      ⟨[_],rfl,by simp [Event.concerns]⟩
    exact (called.trans noted).trans (Shared.disposeSpares P _ _ apart)
  fails before _ := ⟨before.2.2.spared fun _ _ => .one rfl,nofun⟩
  overruns before := ⟨before.2.2,nofun⟩

theorem returnsCleared (ledger : Ledger (p.tracked ++ rest) s)
    (own : ∀ y ∈ p.active, y.key = w.key → y = w) (cleared : p.KeepsCleared s)
    (returns : Returns P w p s q t) : q.KeepsCleared t := by
  have kept (x : Wrapper) (idle : x ∈ p.idle) : Cleared p.number x.conn t.journal := by
    refine Shared.Writes.cleared (returnsSpares (fun lent => ?_) returns) (cleared x idle)
    obtain ⟨y,active,same⟩ := List.mem_map.mp lent
    obtain rfl := own y active same
    have conns := ledger.conns
    rw [tracked,List.append_assoc,List.map_append] at conns
    intro alike
    exact List.disjoint_of_nodup_append conns (List.mem_map_of_mem idle)
      (alike ▸ List.mem_map_of_mem (List.mem_append_left rest active))
  cases returns with
  | stale | unfit | dropped => exact kept
  | @kept v u lent found welcome done =>
    intro x member
    rcases List.mem_append.mp member with old | new
    · exact kept x old
    · rw [List.mem_singleton.mp new]
      have own := Shared.rollbackClears done
      exact Shared.Writes.cleared (s := u) ⟨[_],rfl,by simp [Event.concerns]⟩ own

theorem clearedStands (P : Platform σ) : World.Standing P (Pool.KeepsCleared (σ := σ)) where
  empty {p s} none x member := by
    rw [(List.append_eq_nil_iff.mp none).1] at member
    cases member
  lists {p q s} before number idle _ x member := number ▸ before x (idle ▸ member)
  spared before kept _ := before.spared kept
  stays {p s rest} before ledger seeker :=
    ((stayCleared P seeker p.number rest).stay ⟨rfl,ledger,before⟩).1
  returns before ledger own returns := returnsCleared ledger own before returns

structure Rid (n conn : Nat) (ws : List Wrapper) (s : Shared σ) : Prop where
  away : conn ∉ ws.map Wrapper.conn
  opened : conn < s.opened
  noted : .discarded n conn ∈ s.journal
  parted : Parted n conn s.journal

theorem Rid.perm {ws xs : List Wrapper} (rid : Rid n conn ws s) (same : ws.Perm xs) :
    Rid n conn xs s :=
  { rid with away := fun known => rid.away ((same.map _).mem_iff.mpr known) }

theorem Rid.acts (rid : Rid n conn (p.tracked ++ rest) s) (acts : p.Acts s q t) :
    Rid n conn (q.tracked ++ rest) t := by
  have untracked : conn ∉ p.tracked.map Wrapper.conn := fun known =>
    rid.away (by rw [List.map_append]; exact List.mem_append_left _ known)
  have away : ¬p.Reaches s conn := not_or.mpr ⟨untracked,Nat.not_le.mpr rid.opened⟩
  have spares : s.Spares conn t := acts.writes.imp fun _ => signsSpare away
  refine ⟨fun known => ?_,Nat.lt_of_lt_of_le rid.opened acts.opened,spares.keeps rid.noted,
    spares.parted rid.parted⟩
  rw [List.map_append] at known
  rcases List.mem_append.mp known with own | other
  · obtain ⟨x,member,rfl⟩ := List.mem_map.mp own
    exact away (acts.has x member)
  · exact rid.away (by rw [List.map_append]; exact List.mem_append_right _ other)

theorem discardRid (P : Platform σ) (p : Pool) (ledger : Ledger (w :: rest) s) :
    Rid p.number w.conn rest (p.discard P w s).2 := by
  obtain ⟨t,talks,parted,same⟩ := (s.invalidate w).disposeParts P p.number w.conn
  have disposed : (p.discard P w s).2 = t.note (.discarded p.number w.conn) := same
  rw [disposed]
  refine ⟨(List.nodup_cons.mp ledger.conns).1,?_,List.mem_cons_self,?_⟩
  · have inside := ledger.opened w List.mem_cons_self
    have opened := talks.books.opened
    exact opened ▸ inside
  · exact Shared.Writes.parted (.one rfl) parted

theorem stayRid (own : seeker.pool = p.number) (ledger : Ledger (p.tracked ++ rest) s) {k : Nat}
    (inTime : k ≤ p.settings.badConnectionLimit.toNat - seeker.bad.toNat)
    (passed : Passed P p s k q t) (picks : Picks P q t (.candidate x) q' u)
    {v : Shared σ} (spoilt : q'.admits P x u = (false,v)) :
    Rid p.number x.conn ((p.stay P seeker s).2.1.tracked ++ rest) (p.stay P seeker s).2.2 := by
  have number : (q'.reject P x v).1.number = p.number :=
    ((passedAlike passed).trans (picksAlike picks)).number
  have books := picksLedger ((stayLedger P seeker rest).passed ledger passed) picks
  have inHand := (books.books ((admitsTalks ..).ends spoilt).books).note (.rejected q'.number x)
  have rid : Rid p.number x.conn ((q'.reject P x v).1.tracked ++ rest) (q'.reject P x v).2 :=
    number ▸ discardRid P (q'.count fun c => { c with bad := c.bad + 1 }) inHand
  -- What the caller does from here on is no business of the connection that was rejected.
  have rule := stayActs P (own.trans number.symm) (q'.reject P x v).2
  exact rid.acts (rule.onward inTime passed picks spoilt ⟨.same _,.same _ _⟩)

theorem releaseRid (ledger : Ledger (p.tracked ++ rest) s)
    (own : ∀ y ∈ p.active, y.key = w.key → y = w) (lent : p.IsActive w)
    (found : (p.removeActive w).inspect P w s = (true,t)) (welcome : (p.checkIn w s.now).Welcomes w)
    {cause : Cause}
    (failed : (t.note (.returned p.number w true (w.heldFor s.now))).rollbackUnlessAutoCommit P
      (.pool p.number) w.conn = (.error cause,u)) :
    Rid p.number w.conn ((p.release P w s).1.tracked ++ rest) (p.release P w s).2 := by
  have returns := p.releaseReturns P w s
  generalize p.release P w s = result at returns ⊢
  obtain ⟨q,s'⟩ := result
  cases returns with
  | stale away => exact absurd lent away
  | unfit _ unfit => cases found.symm.trans unfit
  | @kept v v' _ seen _ cleared =>
    obtain rfl := (Prod.mk.inj (found.symm.trans seen)).2
    cases failed.symm.trans cleared
  | @dropped v v' _ seen unwelcome =>
    obtain ⟨x,member,same,apart⟩ := removeActiveLedger ledger lent
    obtain rfl := own x member same
    have inspected := apart.books ((inspectTalks ..).ends seen).books
    have turnedDown := (inspected.note _).books (droppedTalks unwelcome).books
    have rid := discardRid P (p.checkIn x s.now) turnedDown
    exact ⟨rid.away,rid.opened,List.mem_cons_of_mem _ rid.noted,
      Shared.Writes.parted (s := ((p.checkIn x s.now).discard P x v').2)
        ⟨[_],rfl,by simp [Event.concerns]⟩ rid.parted⟩

theorem admitsFails {v : Shared σ} {cause : Cause} (healthy : p.inspect P x s = (true,u))
    (failed : u.rollbackUnlessAutoCommit P (.pool p.number) x.conn = (.error cause,v)) :
    p.admits P x s = (false,v) := by
  simp only [admits,healthy,failed]

end Pool

namespace World
variable {σ : Type} {P : Platform σ} {Alters : (σ → σ) → Prop} {outside : σ} {w w' : World σ}
  {n slot : Nat} {p q : Pool} {s : Shared σ} {h : Handle} {a : Move σ} {conn : Nat}

theorem everyKeptCleared (attained : Attained P Alters outside w) (here : w.pools[n]? = some p) :
    p.KeepsCleared w.shared :=
  everyStanding (Pool.clearedStands P) attained here

theorem grantClears {seeker : Seeker} (attained : Attained P Alters outside w)
    (grant : w.Grant P a h seeker p s) :
    Cleared h.pool h.wrapper.conn (w.move P a).shared.journal := by
  have begins := begins attained grant.searches
  have cleared := searchStands (Pool.clearedStands P) attained grant.searches
  have stayed := (Pool.stayCleared P seeker seeker.pool (w.trackedElsewhere seeker.pool)).stay
    ⟨begins.number,begins.ledger,cleared⟩
  rw [grant.shared,grant.own]
  exact stayed.2 _ grant.granted

inductive Fails (P : Platform σ) (w : World σ) (a : Move σ) : Nat → Nat → Prop
  | lending {n q t x q' t' u cause v} (seeks : w.Seeks P n a q t)
      (picks : Pool.Picks P q t (.candidate x) q' t') (healthy : q'.inspect P x t' = (true,u))
      (failed : u.rollbackUnlessAutoCommit P (.pool n) x.conn = (.error cause,v)) :
      Fails P w a n x.conn
  | returning {slot h p t cause u} (gives : a = .release slot ∨ a = .drop slot)
      (held : w.handle? slot = some h) (here : w.pools[h.pool]? = some p)
      (lent : p.IsActive h.wrapper)
      (found : (p.removeActive h.wrapper).inspect P h.wrapper w.shared = (true,t))
      (welcome : (p.checkIn h.wrapper w.shared.now).Welcomes h.wrapper)
      (failed : (t.note (.returned h.pool h.wrapper true
        (h.wrapper.heldFor w.shared.now))).rollbackUnlessAutoCommit P (.pool h.pool) h.wrapper.conn =
          (.error cause,u)) :
      Fails P w a h.pool h.wrapper.conn

abbrev Rid (w : World σ) (n conn : Nat) : Prop := Pool.Rid n conn w.tracked w.shared

theorem ridLetGo (numbered : w.Numbered) (rid : w.Rid n conn) (m : Nat) :
    (w.letGo P m).Rid n conn := by
  rcases letGoCases (P := P) numbered m with ⟨same,_⟩ | ⟨p,_,here,_,swept⟩
  · rwa [same]
  · rw [swept]
    have apart := Pool.Rid.acts (rid.perm (trackedPerm here)) (p.sweepActs P w.shared)
    exact apart.perm ((poolsPut here _ (p.sweep P w.shared).2).flatMap_right _).symm

theorem failsLending {q' : Pool} {t t' u v : Shared σ} {x : Wrapper} {cause : Cause}
    (attained : Attained P Alters outside w) (seeks : w.Seeks P n a q t)
    (picks : Pool.Picks P q t (.candidate x) q' t') (healthy : q'.inspect P x t' = (true,u))
    (failed : u.rollbackUnlessAutoCommit P (.pool n) x.conn = (.error cause,v)) :
    (w.move P a).Rid n x.conn := by
  obtain ⟨seeker,p,s,searches,rfl,k,inTime,passed⟩ := seeks
  have begins := begins attained searches
  obtain ⟨seated,searched⟩ := searched attained searches
  have number : q'.number = seeker.pool :=
    ((Pool.passedAlike passed).trans (Pool.picksAlike picks)).number.trans begins.number
  rw [← number] at failed
  have spoilt := Pool.admitsFails healthy failed
  have rid := Pool.stayRid begins.number.symm begins.ledger inTime passed picks spoilt
  rw [begins.number] at rid
  rw [searched.move]
  apply ridLetGo searched.numbered
  obtain ⟨r,here,_⟩ := begins.here
  have lists := (poolsPut here (p.stay P seeker s).2.1 s).flatMap_right Pool.tracked
  have same : seated.tracked = (w.put seeker.pool (p.stay P seeker s).2.1 s).tracked := by
    simp only [tracked,put,searched.pools]
  rw [Rid,same,searched.shared]
  exact rid.perm lists.symm

theorem failsReturning {t u : Shared σ} {cause : Cause} (attained : Attained P Alters outside w)
    (held : w.handle? slot = some h) (here : w.pools[h.pool]? = some p)
    (lent : p.IsActive h.wrapper)
    (found : (p.removeActive h.wrapper).inspect P h.wrapper w.shared = (true,t))
    (welcome : (p.checkIn h.wrapper w.shared.now).Welcomes h.wrapper)
    (failed : (t.note (.returned h.pool h.wrapper true
      (h.wrapper.heldFor w.shared.now))).rollbackUnlessAutoCommit P (.pool h.pool) h.wrapper.conn =
        (.error cause,u)) :
    (w.release P slot h).Rid h.pool h.wrapper.conn := by
  have owned := everyOwned attained
  have known := numbered attained
  have own := holderOwns owned held here
  have first : h.released = false := by
    obtain ⟨x,member,same⟩ := List.mem_map.mp lent
    obtain rfl := own x member same
    have live := owned.ledger.live (memTracked.mpr ⟨_,p,here,List.mem_append_right _ member⟩)
    exact (owned.valid held live).1
  rw [← known here] at failed
  have rid := Pool.releaseRid (owned.ledger.perm (trackedPerm here)) own lent found welcome failed
  rw [known here] at rid
  simp only [World.release,first,here,visitPut known here]
  exact rid.perm ((poolsPut here _ w.shared).flatMap_right _).symm

theorem failsRid (attained : Attained P Alters outside w) (fails : w.Fails P a n conn) :
    (w.move P a).Rid n conn := by
  cases fails with
  | lending seeks picks healthy failed => exact failsLending attained seeks picks healthy failed
  | @returning slot h p t cause u gives held here lent found welcome failed =>
    have rid := failsReturning attained held here lent found welcome failed
    rcases gives with rfl | rfl
    · simp only [World.move,atSlot,held]
      exact rid
    · simp only [World.move,atSlot,held]
      have turns : Turns P Alters w (w.release P slot h) := releaseTurns (numbered attained) held
      have known := numbered (attained.trans turns)
      exact ridLetGo (w := (w.release P slot h).setSlot slot .empty) known rid h.pool

structure LeftToNobody (w : World σ) (n conn : Nat) : Prop where
  untracked : ∀ x ∈ w.tracked, x.conn ≠ conn
  unlent {slot : Nat} {h : Handle} (held : w.handle? slot = some h)
    (live : w.shared.IsLive h.wrapper) : h.wrapper.conn ≠ conn
  discarded : .discarded n conn ∈ w.shared.journal
  parted : Parted n conn w.shared.journal

/-- Whenever a caller gets a connection, and as long as one is kept, the last that was said to it is
that its pool found no transaction open, or found one and rolled it back. Where that fails, the pool
parts with the connection. -/
structure HandsOverCleared (P : Platform σ) (w : World σ) : Prop where
  lent {a : Move σ} {slot : Nat} {h : Handle} (vacant : w.handle? slot = none)
    (held : (w.move P a).handle? slot = some h) :
    Cleared h.pool h.wrapper.conn (w.move P a).shared.journal
  kept {n : Nat} {p : Pool} {x : Wrapper} (here : w.pools[n]? = some p) (member : x ∈ p.idle) :
    Cleared n x.conn w.shared.journal
  fails {a : Move σ} {n conn : Nat} (fails : w.Fails P a n conn) :
    (w.move P a).LeftToNobody n conn

theorem handoversCleared (reachable : w.Reachable P) : HandsOverCleared P w := by
  obtain ⟨_,attained⟩ := reachableAttained reachable
  constructor
  case lent =>
    intro a slot h vacant held
    obtain ⟨_,_,_,grant⟩ := newGrant attained vacant held
    exact grantClears attained grant
  case kept =>
    intro n p x here member
    have number := numbered attained here
    exact number ▸ everyKeptCleared attained here x member
  case fails =>
    intro a n conn fails
    obtain ⟨_,after⟩ := reachableAttained (reachable.move a)
    have rid := failsRid attained fails
    have untracked : ∀ x ∈ (w.move P a).tracked, x.conn ≠ conn := fun x member same =>
      rid.away (List.mem_map.mpr ⟨x,member,same⟩)
    refine ⟨untracked,fun {slot h} held live => ?_,rid.noted,rid.parted⟩
    obtain ⟨_,p,here,lent⟩ := (everyOwned after).valid held live
    exact untracked _ (memTracked.mpr ⟨_,p,here,List.mem_append_right _ lent⟩)

def stuckRollback : World Memory.Server :=
  World.run Memory.platform
    [.create {} {},.get 0,.forward 0 (.setAutoCommit false),.release 0,
      .tamper (·.tamper (.failRollback 0 true))] (.initial {})

theorem handoversClearedStuck :
    (∃ p x, stuckRollback.pools[0]? = some p ∧ x ∈ p.idle ∧ x.conn = 0 ∧
      Cleared 0 x.conn stuckRollback.shared.journal) ∧
    (∃ h, (stuckRollback.move Memory.platform (.get 0)).handle? 1 = some h ∧ h.wrapper.conn = 1 ∧
      Cleared h.pool h.wrapper.conn
        (stuckRollback.move Memory.platform (.get 0)).shared.journal) ∧
    Parted 0 0 (stuckRollback.move Memory.platform (.get 0)).shared.journal := by
  have reachable : stuckRollback.Reachable Memory.platform := reachableRun (.initial _) _
  have cleared := handoversCleared reachable
  have kept : ∃ p x, stuckRollback.pools[0]? = some p ∧ x ∈ p.idle ∧ x.conn = 0 :=
    ⟨_,_,rfl,List.mem_cons_self,by decide⟩
  have lent : ∃ h, (stuckRollback.move Memory.platform (.get 0)).handle? 1 = some h ∧
      h.wrapper.conn = 1 := ⟨_,rfl,by decide⟩
  have fails : ∃ conn, conn = 0 ∧ stuckRollback.Fails Memory.platform (.get 0) 0 conn := by
    refine ⟨_,?_,.lending (n := 0) ⟨stuckRollback.newSeeker 0 0,_,_,.get rfl rfl rfl,rfl,0,
      Nat.zero_le _,.start⟩ (.kept rfl) rfl rfl⟩
    decide
  obtain ⟨p,x,here,member,conn⟩ := kept
  obtain ⟨h,held,new⟩ := lent
  obtain ⟨_,rfl,fails⟩ := fails
  have vacant : stuckRollback.handle? 1 = none := by decide
  exact ⟨⟨p,x,here,member,conn,cleared.kept here member⟩,
    ⟨h,held,new,cleared.lent vacant held⟩,(cleared.fails fails).parted⟩

end World
end ConnectionPool
