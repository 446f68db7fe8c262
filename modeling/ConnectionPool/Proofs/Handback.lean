import ConnectionPool.Proofs.Cleared
import ConnectionPool.Proofs.Coherence
import ConnectionPool.Proofs.Precedence
import ConnectionPool.Proofs.Stale
/-! What giving back a valid handle does, to the last entry. The wrapper is taken from the lent ones
first; then its connection either joins the kept ones at the back, under a new wrapper, or is
discarded, and the books tell which and why. -/
namespace ConnectionPool

def Event.LeavesOpen (event : Event) : Prop :=
  ∀ caller conn reply, event ≠ .call caller conn .close reply

namespace Shared
variable {σ : Type} {P : Platform σ} {s t : Shared σ}

theorem Speaks.leavesOpen {caller : Caller} {conn : Nat}
    (speaks : s.Speaks (· ≠ .close) P caller conn t) : s.Writes Event.LeavesOpen t := by
  refine speaks.writes fun request reply other caller conn late same => other ?_
  cases same
  rfl

theorem rollbackNoted (P : Platform σ) (caller : Caller) (conn : Nat) (event : Event) (s : Shared σ) :
    ((s.note event).rollbackUnlessAutoCommit P caller conn).1 =
      (s.rollbackUnlessAutoCommit P caller conn).1 := by
  rcases answered : P.answer conn .autoCommit s.outside with ⟨reply,outside⟩
  simp only [rollbackUnlessAutoCommit,ask,note,answered]
  rcases reply with cause | on
  · rfl
  · cases on <;> rfl

end Shared

namespace Pool
variable {σ : Type} {P : Platform σ} {x : Wrapper} {p q r : Pool} {s t u : Shared σ} {healthy : Bool}

/-- A connection that comes back is kept if it is found healthy, there is room for it and its
transaction can be cleared. -/
def Retains (P : Platform σ) (p : Pool) (x : Wrapper) (s : Shared σ) : Prop :=
  (p.inspect P x s).1 = true ∧ p.HasIdleRoom ∧
    ((p.inspect P x s).2.rollbackUnlessAutoCommit P (.pool p.number) x.conn).1 = .ok ()

structure TakesBack (x : Wrapper) (p : Pool) (s : Shared σ) (q : Pool) (t : Shared σ) : Prop where
  alike : p.Alike q
  active : ∃ front back, p.active = front ++ x :: back ∧ q.active = front ++ back
  dead : ¬t.IsLive x
  now : t.now = s.now
  waiting : t.waiting = s.waiting.filter (!Wait.isFor p.number ·)
  woken : t.woken = s.woken ++ s.waiting.filter (Wait.isFor p.number ·)

structure Retained (x : Wrapper) (p : Pool) (s : Shared σ) (q : Pool) (t : Shared σ) : Prop where
  idle : q.idle = p.idle ++ [x.rewrapped s.nextKey s.now]
  live : t.live = s.nextKey :: s.live.filter (· ≠ x.key)
  counters : q.counters =
    { p.counters with checkoutTime := p.counters.checkoutTime + x.heldFor s.now }
  told : deeds t.journal =
    [.notified p.number,.returned p.number x true (x.heldFor s.now)] ++ deeds s.journal
  unclosed : s.Writes Event.LeavesOpen t

structure TurnedAway (x : Wrapper) (healthy : Bool) (p : Pool) (s : Shared σ) (q : Pool)
    (t : Shared σ) : Prop where
  idle : q.idle = p.idle
  live : t.live = s.live.filter (· ≠ x.key)
  counters : q.counters = { p.counters with
    closed := p.counters.closed + 1
    bad := p.counters.bad + if healthy then 0 else 1
    checkoutTime := p.counters.checkoutTime + if healthy then x.heldFor s.now else 0 }
  told : deeds t.journal = [.notified p.number,.discarded p.number x.conn,
    .returned p.number x healthy (x.heldFor s.now)] ++ deeds s.journal
  parted : Parted p.number x.conn t.journal

theorem removedActive (own : ∀ y ∈ p.active, y.key = x.key → y = x) (lent : p.IsActive x) :
    ∃ front back, p.active = front ++ x :: back ∧ (p.removeActive x).active = front ++ back := by
  obtain ⟨y,member,same⟩ := List.mem_map.mp lent
  obtain ⟨z,front,back,_,found,whole,left⟩ :=
    List.exists_of_eraseP (p := fun y => decide (y.key = x.key)) member (by simpa using same)
  obtain rfl := own z (by simp [whole]) (by simpa using found)
  exact ⟨front,back,whole,left⟩

theorem turnAway (own : ∀ y ∈ p.active, y.key = x.key → y = x) (lent : p.IsActive x)
    (seen : s.Talks P (.pool p.number) x.conn t)
    (called : (t.note (.returned p.number x healthy (x.heldFor s.now))).Talks P (.pool p.number)
      x.conn u)
    (same : r = { p.removeActive x with counters := { p.counters with
      bad := p.counters.bad + if healthy then 0 else 1
      checkoutTime := p.counters.checkoutTime + if healthy then x.heldFor s.now else 0 } }) :
    TakesBack x p s (r.discard P x u).1 ((r.discard P x u).2.notify p.number) ∧
      TurnedAway x healthy p s (r.discard P x u).1 ((r.discard P x u).2.notify p.number) := by
  have number : r.number = p.number := by rw [same]; rfl
  have books := (seen.books.trans (Shared.noteBooks ..)).trans called.books
  obtain ⟨v,talks,parted,disposed⟩ := (u.invalidate x).disposeParts P r.number x.conn
  have gone : s.live.filter (· ≠ x.key) = v.live := by
    rw [talks.books.live,← books.live]
    rfl
  have waiting : v.waiting = s.waiting := talks.books.waiting.trans books.waiting
  have woken : v.woken = s.woken := talks.books.woken.trans books.woken
  have told : deeds v.journal =
      .returned p.number x healthy (x.heldFor s.now) :: deeds s.journal := by
    rw [talks.deeds,← seen.deeds]
    exact called.deeds
  have left : (r.discard P x u).2 = v.note (.discarded r.number x.conn) := disposed
  rw [left,number] at *
  subst same
  refine ⟨⟨rfl,removedActive own lent,?_,?_,?_,?_⟩,⟨rfl,gone.symm,rfl,?_,?_⟩⟩
  · intro live
    change x.key ∈ v.live at live
    simp [← gone] at live
  · exact (talks.books.now.trans books.now)
  · exact congrArg (List.filter _) waiting
  · exact congr (congrArg _ woken) (congrArg (List.filter _) waiting)
  · exact congrArg ([.notified p.number,.discarded p.number x.conn] ++ ·) told
  · have spares : v.Spares x.conn ((v.note (.discarded p.number x.conn)).notify p.number) :=
      Shared.Writes.trans (.one rfl) (.one rfl)
    exact spares.parted parted

theorem keepRetained (own : ∀ y ∈ p.active, y.key = x.key → y = x) (lent : p.IsActive x)
    (used : x.key < s.nextKey) (found : p.inspect P x s = (true,t))
    (cleared : (t.note (.returned p.number x true (x.heldFor s.now))).rollbackUnlessAutoCommit P
      (.pool p.number) x.conn = (.ok (),u)) :
    TakesBack x p s ((p.checkIn x s.now).keep x u).1
        (((p.checkIn x s.now).keep x u).2.notify p.number) ∧
      Retained x p s ((p.checkIn x s.now).keep x u).1
        (((p.checkIn x s.now).keep x u).2.notify p.number) := by
  have seen := (p.inspectTalks P x s).ends found
  have called := (Shared.rollbackTalks ..).ends cleared
  have books := (seen.books.trans (Shared.noteBooks ..)).trans called.books
  have told : deeds u.journal =
      .returned p.number x true (x.heldFor s.now) :: deeds s.journal := by
    rw [called.deeds,← seen.deeds]
    rfl
  have gone : (u.nextKey :: u.live).filter (· ≠ x.key) =
      s.nextKey :: s.live.filter (· ≠ x.key) := by
    rw [books.nextKey,books.live,List.filter_cons_of_pos]
    simpa using Nat.ne_of_gt used
  refine ⟨⟨rfl,removedActive own lent,?_,books.now,?_,?_⟩,⟨?_,gone,rfl,?_,?_⟩⟩
  · intro live
    have among := (List.mem_filter.mp live).2
    simp at among
  · exact congrArg (List.filter _) books.waiting
  · exact congr (congrArg _ books.woken) (congrArg (List.filter _) books.waiting)
  · rw [← books.nextKey,← books.now]
    rfl
  · exact congrArg ([.notified p.number] ++ ·) told
  · have looked : s.Writes Event.LeavesOpen t := by
      rcases inspectCases found with ⟨_,checks⟩ | ⟨_,sick,_⟩
      · exact checks.speaks.leavesOpen
      · cases sick
    have noted : t.Writes Event.LeavesOpen
        (t.note (.returned p.number x true (x.heldFor s.now))) := .one nofun
    have clears := ((Shared.rollbackSpeaks ..).ends cleared).imp fun _ => Request.Mild.leavesOpen
    have told : ((p.checkIn x s.now).keep x u).2.Writes Event.LeavesOpen
        (((p.checkIn x s.now).keep x u).2.notify p.number) := ⟨[.notified p.number],rfl,by
      simp [Event.LeavesOpen]⟩
    exact (((looked.trans noted).trans clears.leavesOpen).trans (.nothing rfl)).trans told

theorem returnsExact (own : ∀ y ∈ p.active, y.key = x.key → y = x) (lent : p.IsActive x)
    (stamp : x.typeCode = some p.expected) (used : x.key < s.nextKey)
    (returns : Returns P x p s q t) :
    TakesBack x p s q t ∧ (p.Retains P x s → Retained x p s q t) ∧
      (¬p.Retains P x s → TurnedAway x (p.inspect P x s).1 p s q t) := by
  cases returns with
  | stale away => exact absurd lent away
  | @unfit t _ found =>
    have sick : p.inspect P x s = (false,t) := found
    have away := turnAway (r := (p.removeActive x).count fun c => { c with bad := c.bad + 1 })
      (u := t.note (.returned p.number x false (x.heldFor s.now))) own lent
      ((p.inspectTalks P x s).ends sick) .silent rfl
    rw [Retains,sick]
    exact ⟨away.1,nofun,fun _ => away.2⟩
  | @kept v u _ found welcome cleared =>
    have well : p.inspect P x s = (true,v) := found
    have kept := keepRetained own lent used well cleared
    refine ⟨kept.1,fun _ => kept.2,fun unkept => absurd ⟨?_,welcome.1,?_⟩ unkept⟩
    · rw [well]
    · rw [well,← Shared.rollbackNoted,cleared]
  | @dropped v u _ found unwelcome =>
    have well : p.inspect P x s = (true,v) := found
    have away := turnAway own lent ((p.inspectTalks P x s).ends well)
      (droppedTalks (p := p) unwelcome) rfl
    refine ⟨away.1,?_,fun _ => ?_⟩
    · rintro ⟨_,room,clears⟩
      rw [well] at clears
      rcases unwelcome with ⟨unwelcome,_⟩ | ⟨_,cause,failed⟩
      · exact absurd ⟨room,stamp⟩ unwelcome
      · rw [← Shared.rollbackNoted,failed] at clears
        cases clears
    · rw [well]
      exact away.2

end Pool

namespace World
variable {σ : Type} {P : Platform σ} {Alters : (σ → σ) → Prop} {outside : σ} {w w' : World σ}
  {slot : Nat} {h : Handle} {p q : Pool}

structure HandsBack (w w' : World σ) (slot : Nat) (h : Handle) (q : Pool) : Prop where
  pools : w'.pools = w.pools.set h.pool q
  slots : w'.slots = w.slots.set slot (.held { h with released := true })
  doors : w'.doors = w.doors

theorem spentRelease (spent : h.released = true) : w.release P slot h = w := if_pos spent

theorem spentDrop (spent : h.released = true) :
    w.drop P slot h = (w.setSlot slot .empty).letGo P h.pool := by
  rw [drop,spentRelease spent]

/-- The pool of a handle has its wrapper off the lent ones and all its sleepers woken. The connection is
kept at the back just if it is found healthy, there is room and its transaction is cleared; else it is
discarded. -/
structure Returns (P : Platform σ) (w given : World σ) (slot : Nat) (h : Handle) (p q : Pool) :
    Prop where
  here : w.pools[h.pool]? = some p
  hands : w.HandsBack given slot h q
  takes : Pool.TakesBack h.wrapper p w.shared q given.shared
  retained (retains : p.Retains P h.wrapper w.shared) :
    Pool.Retained h.wrapper p w.shared q given.shared
  turned (spurns : ¬p.Retains P h.wrapper w.shared) : Pool.TurnedAway h.wrapper
    (p.inspect P h.wrapper w.shared).1 p w.shared q given.shared

/-- A handle is given back by closing or by dropping it. Given back again, at any later time, it does
nothing. -/
structure ReturnsOnce (P : Platform σ) (w given : World σ) (slot : Nat) (h : Handle) : Prop where
  release : w.move P (.release slot) = given
  drop : w.move P (.drop slot) = (given.setSlot slot .empty).letGo P h.pool
  returns : ∃ p q, Returns P w given slot h p q
  again {moves : List (Move σ)} {k : Handle} (later : (given.run P moves).handle? slot = some k) :
    k = { h with released := true } ∧
    (given.run P moves).move P (.release slot) = given.run P moves ∧
    (given.run P moves).move P (.drop slot) =
      ((given.run P moves).setSlot slot .empty).letGo P h.pool

theorem validHandleReturnsOnce (reachable : w.Reachable P) (held : w.handle? slot = some h)
    (live : w.shared.IsLive h.wrapper) : ReturnsOnce P w (w.release P slot h) slot h := by
  obtain ⟨_,attained⟩ := reachableAttained reachable
  have owned := everyOwned attained
  have known := numbered attained
  obtain ⟨first,p,here,lent⟩ := owned.valid held live
  have atHandle {v : World σ} {k : Handle} (there : v.handle? slot = some k) {act : Handle → World σ} :
      v.atSlot slot act = act k := by
    simp only [atSlot,there]
  constructor
  case release | drop => exact atHandle held
  case returns =>
    have exact := Pool.returnsExact (holderOwns owned held here) (List.mem_map_of_mem lent)
      ((everyPool (Pool.coherentLasts P) attained p (List.mem_of_getElem? here)).2 _ lent)
      (owned.used held) (p.releaseReturns P h.wrapper w.shared)
    have given : w.release P slot h = (w.put h.pool (p.release P h.wrapper w.shared).1
        (p.release P h.wrapper w.shared).2).setSlot slot (.held { h with released := true }) := by
      simp only [release,first,here,visitPut known here]
      rfl
    rw [given]
    exact ⟨p,_,here,⟨rfl,rfl,rfl⟩,exact.1,exact.2.1,exact.2.2⟩
  case again =>
    intro moves k there
    have after : Attained P (fun _ => True) _ (w.release P slot h) :=
      attained.trans (releaseTurns known held)
    have spent := releaseSpends (P := P) held here
    have ages := agesTurns after (runTurns after moves)
    have same : k = { h with released := true } := by
      rcases sameHandle ages spent there with same | same <;> exact same
    subst same
    refine ⟨rfl,(atHandle there).trans (spentRelease rfl),(atHandle there).trans (spentDrop rfl)⟩

def oneKept : World Memory.Server :=
  World.run Memory.platform [.create {} { maxIdle := 1 },.get 0,.get 0,.advance 3,.release 0]
    (.initial {})

theorem validHandleReturnsOnceFull : ∃ h p q, oneKept.handle? 1 = some h ∧ oneKept.pools[0]? = some p ∧
    p.idle.length = 1 ∧ Pool.TurnedAway h.wrapper true p oneKept.shared q
      (oneKept.release Memory.platform 1 h).shared := by
  have reachable : oneKept.Reachable Memory.platform := reachableRun (.initial _) _
  have lent : ∃ h p, oneKept.handle? 1 = some h ∧ h.pool = 0 ∧ oneKept.shared.IsLive h.wrapper ∧
      oneKept.pools[0]? = some p ∧ p.idle.length = 1 ∧ ¬p.HasIdleRoom ∧
      (p.inspect Memory.platform h.wrapper oneKept.shared).1 = true :=
    ⟨_,_,rfl,by decide,by decide,rfl,by decide,by decide,by decide⟩
  obtain ⟨h,p,held,own,live,here,one,full,well⟩ := lent
  obtain ⟨r,q,returns⟩ := (validHandleReturnsOnce reachable held live).returns
  have there := returns.here
  rw [own,here] at there
  obtain rfl := Option.some.inj there
  have away := returns.turned fun kept => full kept.2.1
  rw [well] at away
  exact ⟨h,p,q,held,here,one,away⟩

end World
end ConnectionPool
