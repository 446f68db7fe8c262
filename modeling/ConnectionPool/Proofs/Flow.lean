import ConnectionPool.Proofs.Referral
import ConnectionPool.Memory
/-! No connection and no loan is lost from the totals. Each connection that a pool has set up is kept,
lent or counted as closed, and each loan still runs or has ended in one of three ways: its holder gave
the connection back, another caller took it, or a sweep did. -/
namespace ConnectionPool
namespace Pool
variable {σ : Type} {P : Platform σ} {p q : Pool} {s t : Shared σ} {w : Wrapper} {ended : Nat}

structure Balanced (inHand ended : Nat) (p : Pool) : Prop where
  created : p.counters.created =
    p.counters.closed + p.idle.length + p.active.length + inHand
  requests : p.counters.requests = p.active.length + ended + p.counters.claimedOverdue

theorem picksBalanced (balanced : p.Balanced 0 ended)
    (picks : Picks P p s (.candidate w) q t) : q.Balanced 1 ended := by
  obtain ⟨created,requests⟩ := balanced
  cases picks with
  | kept first =>
    simp only [first,List.length_cons] at created
    constructor <;> simp only <;> omega
  | fresh => constructor <;> simp only [count] <;> omega
  | overdue none full lent =>
    simp only [lent,List.length_cons] at created requests
    constructor <;> simp only [count] <;> omega

theorem stayBalanced (P : Platform σ) (seeker : Seeker) (ended : Nat) :
    StayRule P seeker (fun p _ => p.Balanced 0 ended) (fun _ p _ => p.Balanced 1 ended)
      (fun _ p _ => p.Balanced 0 ended) where
  finds before picks := picksBalanced before picks
  misses before picks := by cases picks <;> exact before
  blocks before _ bad := by unfold block; split <;> exact ⟨before.created,before.requests⟩
  grants holding _ := by
    obtain ⟨created,requests⟩ := holding
    constructor <;> simp only [grant,count,List.length_append,List.length_singleton] <;> omega
  rejects holding _ := by
    obtain ⟨created,requests⟩ := holding
    constructor <;> simp only [reject,discard,count] <;> omega
  fails before _ := before
  overruns before := before

theorem enterBalanced (P : Platform σ) (seeker : Seeker) (s : Shared σ)
    (balanced : p.Balanced 0 ended) : (p.enter P seeker s).2.1.Balanced 0 ended :=
  (stayBalanced P seeker ended).enter (fun _ => balanced) (fun _ => balanced)

theorem resumeBalanced (P : Platform σ) (wait : Wait) (s : Shared σ)
    (balanced : p.Balanced 0 ended) : (p.resume P wait s).2.1.Balanced 0 ended :=
  have lingered : (p.lingered (s.now - wait.since)).Balanced 0 ended :=
    ⟨balanced.created,balanced.requests⟩
  (stayBalanced P wait.seeker ended).resume (fun _ => lingered) (fun _ => lingered)

theorem removeActiveBalanced (balanced : p.Balanced 0 ended) (lent : p.IsActive w) :
    (p.removeActive w).Balanced 1 (ended + 1) := by
  obtain ⟨x,_,_,apart⟩ := lentApart lent
  have shorter := apart.length_eq
  obtain ⟨created,requests⟩ := balanced
  rw [List.length_cons] at shorter
  constructor <;> simp only [removeActive] at shorter ⊢ <;> omega

theorem returnsBalanced (balanced : p.Balanced 0 ended) (returns : Returns P w p s q t) :
    q.Balanced 0 (ended + if p.IsActive w then 1 else 0) := by
  cases returns with
  | stale away =>
    rw [if_neg away]
    exact ⟨balanced.created,balanced.requests⟩
  | unfit lent | dropped lent =>
    rw [if_pos lent]
    obtain ⟨created,requests⟩ := removeActiveBalanced balanced lent
    constructor <;> simp only [discard,count,checkIn] <;> omega
  | kept lent =>
    rw [if_pos lent]
    obtain ⟨created,requests⟩ := removeActiveBalanced balanced lent
    constructor <;>
      simp only [keep,checkIn,count,List.length_append,List.length_singleton] <;> omega

theorem sweepBalanced (P : Platform σ) (s : Shared σ) (balanced : p.Balanced 0 ended) :
    (p.sweep P s).1.Balanced 0 (ended + p.active.length) := by
  obtain ⟨created,requests⟩ := balanced
  rw [sweepCounts]
  constructor <;> simp only [count,swept,tracked,List.length_append,List.length_nil] <;> omega

end Pool

namespace World
variable {σ : Type} {P : Platform σ} {Alters : (σ → σ) → Prop} {outside : σ} {w w' : World σ}
  {n m ended more : Nat} {p q : Pool} {s : Shared σ} {h : Handle} {slot : Nat}

def lentCount (w : World σ) (n : Nat) : Nat := (w.pools[n]?.map fun p => p.active.length).getD 0

/-- Whether a holder gives back, for the first time, a wrapper of the pool that is still valid. -/
def givenBack (n : Nat) (w : World σ) : Move σ → Nat
  | .release slot | .drop slot =>
      match w.handle? slot with
      | some h => if h.pool = n ∧ h.released = false ∧ w.shared.IsLive h.wrapper then 1 else 0
      | none => 0
  | _ => 0

def sweptOut (P : Platform σ) (n : Nat) (w : World σ) (a : Move σ) : Nat :=
  match a with
  | .closeAll _ | .close _ | .configure _ _ => w.lentCount n - (w.move P a).lentCount n
  | _ => 0

def tally (P : Platform σ) (count : World σ → Move σ → Nat) : List (Move σ) → World σ → Nat
  | [],_ => 0
  | a :: rest,w => count w a + tally P count rest (w.move P a)

def Flows (n ended : Nat) (w : World σ) : Prop :=
  match w.pools[n]? with
  | some p => p.Balanced 0 ended
  | none => ended = 0

theorem flowsHere (flows : w.Flows n ended) (here : w.pools[n]? = some p) : p.Balanced 0 ended := by
  simpa only [Flows,here] using flows

theorem flowsSame (flows : w.Flows n ended) (same : w'.pools[n]? = w.pools[n]?) :
    w'.Flows n ended := by
  simpa only [Flows,same] using flows

theorem flowsPut (slots : List Slot) (flows : w.Flows n ended) (here : w.pools[m]? = some p)
    (own : m = n → p.Balanced 0 ended → q.Balanced 0 (ended + more))
    (others : m ≠ n → more = 0) : Flows n (ended + more) { w.put m q s with slots } := by
  by_cases same : m = n
  · subst same
    have present : (w.put m q s).pools[m]? = some q :=
      List.getElem?_set_self (List.getElem?_eq_some_iff.mp here).1
    simpa only [Flows,present] using own rfl (flowsHere flows here)
  · rw [others same]
    exact flowsSame flows (List.getElem?_set_ne same)

theorem lentRefers (owned : w.Owned) (here : w.pools[n]? = some p) {x : Wrapper}
    (lent : x ∈ p.active) : w.IsReferred n := by
  obtain ⟨slot,held⟩ := owned.lent here lent
  exact .inr (.inl (slotsRefer.mpr ⟨slot,_,held,rfl⟩))

theorem flowsLetGo (numbered : w.Numbered) (owned : w.Owned) (flows : w.Flows n ended) (m : Nat) :
    (w.letGo P m).Flows n ended := by
  rcases letGoCases (P := P) numbered m with ⟨same,_⟩ | ⟨p,alone,here,_,swept⟩
  · rwa [same]
  · -- Whoever holds a connection refers to its pool.
    have none : p.active = [] := List.eq_nil_iff_forall_not_mem.mpr fun x lent =>
      alone (lentRefers owned here lent)
    rw [swept]
    change Flows n (ended + 0) _
    refine flowsPut w.slots flows here (fun _ before => ?_) fun _ => rfl
    have after := Pool.sweepBalanced P w.shared before
    rwa [none] at after

theorem lentCountPut (here : w.pools[m]? = some p) :
    (w.put m q s).lentCount n = if m = n then q.active.length else w.lentCount n := by
  split
  · rename_i same
    subst same
    have present : (w.put m q s).pools[m]? = some q :=
      List.getElem?_set_self (List.getElem?_eq_some_iff.mp here).1
    simp [lentCount,present]
  · rename_i apart
    have away : (w.put m q s).pools[n]? = w.pools[n]? := List.getElem?_set_ne apart
    simp [lentCount,away]

theorem flowsKept (slots : List Slot) (flows : w.Flows n ended) (here : w.pools[m]? = some p)
    (own : m = n → p.Balanced 0 ended → q.Balanced 0 ended) :
    Flows n ended { w.put m q s with slots } := by
  change Flows n (ended + 0) _
  exact flowsPut slots flows here own fun _ => rfl

theorem flowsFound (source : DataSource) (settings : Settings) (flows : w.Flows n ended) :
    Flows n ended { w with
      pools := w.pools ++ [.create P w.pools.length source settings w.shared.now]
      doors := w.doors ++ [some w.pools.length] } := by
  by_cases inside : n < w.pools.length
  · exact flowsSame flows (List.getElem?_append_left inside)
  · have absent : w.pools[n]? = none := List.getElem?_eq_none (Nat.not_lt.mp inside)
    have none : ended = 0 := by simpa only [Flows,absent] using flows
    simp only [Flows,List.getElem?_append_right (Nat.not_lt.mp inside),none]
    rcases n - w.pools.length with _ | k
    · exact ⟨rfl,rfl⟩
    · simp

def sweptBetween (n : Nat) (w w' : World σ) : Move σ → Nat
  | .closeAll _ | .close _ | .configure _ _ => w.lentCount n - w'.lentCount n
  | _ => 0

theorem sweptMove (P : Platform σ) (n : Nat) (w : World σ) (a : Move σ) :
    w.sweptOut P n a = w.sweptBetween n (w.move P a) a := by
  cases a <;> rfl

section Ends
variable {a : Move σ}

theorem idlesEnd (idles : w.Idles P a) : w.givenBack n a + w.sweptBetween n w a = 0 := by
  have swept : w.sweptBetween n w a = 0 := by cases a <;> first | rfl | exact Nat.sub_self _
  rw [swept]
  cases idles with
  | noHandle uses none => cases a <;> first | rfl | cases uses; simp only [givenBack,none]
  | noDoor through => cases a <;> first | rfl | cases through
  | dead calls => cases a <;> first | rfl | cases calls
  | nobody | closed | refused => rfl

theorem orderEnds {order} (ordered : a.order? = some order) :
    w.givenBack n a + w.sweptBetween n w' a = 0 := by
  cases a <;> first | rfl | cases ordered

theorem callEnds {call} (calls : a.call? = some call) :
    w.givenBack n a + w.sweptBetween n w' a = 0 := by
  cases a <;> first | rfl | cases calls

theorem renewEnds {r : Pool} (renews : w.Renews P m p a r) :
    w.givenBack n a + w.sweptBetween n w' a = w.lentCount n - w'.lentCount n := by
  cases renews <;> exact Nat.zero_add _

theorem flowsRenew {r : Pool} (flows : w.Flows n ended) (here : w.pools[m]? = some p)
    (renews : w.Renews P m p a r) :
    let w' := w.put m (r.closeAll P w.shared).1 (r.closeAll P w.shared).2
    w'.Flows n (ended + (w.lentCount n - w'.lentCount n)) := by
  intro w'
  obtain ⟨source,settings,closed,rfl,_⟩ := renewsFrom renews
  let r : Pool := { p with source, settings, closed }
  have empty : (r.closeAll P w.shared).1.active = [] :=
    (List.append_eq_nil_iff.mp (r.sweepTracked P w.shared)).2
  refine flowsPut w.slots flows here (fun same before => ?_) fun apart => ?_
  · subst same
    have balanced : r.Balanced 0 ended := ⟨before.created,before.requests⟩
    have after : (r.closeAll P w.shared).1.Balanced 0 (ended + p.active.length) :=
      Pool.sweepBalanced P w.shared balanced
    rw [lentCountPut here,if_pos rfl,empty]
    simpa [lentCount,here] using after
  · rw [lentCountPut here,if_neg apart,Nat.sub_self]

end Ends

theorem lentLive (owned : w.Owned) (held : w.handle? slot = some h)
    (here : w.pools[h.pool]? = some p) : p.IsActive h.wrapper ↔ w.shared.IsLive h.wrapper := by
  constructor
  · intro lent
    obtain ⟨x,member,same⟩ := List.mem_map.mp lent
    obtain rfl := holderOwns owned held here x member same
    exact owned.ledger.live (memTracked.mpr ⟨_,p,here,List.mem_append_right _ member⟩)
  · intro live
    obtain ⟨_,q,there,lent⟩ := owned.valid held live
    obtain rfl := Option.some.inj (there.symm.trans here)
    exact List.mem_map_of_mem lent

theorem flowsRelease (numbered : w.Numbered) (owned : w.Owned) (flows : w.Flows n ended)
    (held : w.handle? slot = some h) :
    (w.release P slot h).Flows n
      (ended + if h.pool = n ∧ h.released = false ∧ w.shared.IsLive h.wrapper then 1 else 0) := by
  cases first : h.released with
  | true => simpa [release,first] using flows
  | false =>
    cases here : w.pools[h.pool]? with
    | none =>
      have dead : ¬w.shared.IsLive h.wrapper := by
        intro live
        obtain ⟨_,p,there,_⟩ := owned.valid held live
        cases here.symm.trans there
      simpa [release,first,here,dead] using flows
    | some p =>
      simp only [release,first,here,visitPut numbered here]
      refine flowsPut _ flows here (fun own before => ?_) fun other => if_neg (by simp [other])
      have after := Pool.returnsBalanced before (p.releaseReturns P h.wrapper w.shared)
      simpa [own,lentLive owned held here] using after

theorem emptiedOwned (attained : Attained P Alters outside w) (held : w.handle? slot = some h) :
    ((w.release P slot h).setSlot slot .empty).Owned := by
  have turns : Turns P Alters w (w.release P slot h) := releaseTurns (numbered attained) held
  have after := everyOwned (attained.trans turns)
  cases here : w.pools[h.pool]? with
  | none =>
    rw [releaseHomeless slot here] at after ⊢
    exact ownedVacate after held (.inr here)
  | some p => exact ownedVacate after (releaseSpends held here) (.inl rfl)

theorem flowsDrop (attained : Attained P Alters outside w) (flows : w.Flows n ended)
    (held : w.handle? slot = some h) :
    (w.drop P slot h).Flows n
      (ended + if h.pool = n ∧ h.released = false ∧ w.shared.IsLive h.wrapper then 1 else 0) := by
  have turns : Turns P Alters w (w.release P slot h) := releaseTurns (numbered attained) held
  have given := flowsRelease (P := P) (numbered attained) (everyOwned attained) flows held
  have after := World.numbered (attained.trans turns)
  apply flowsLetGo
  · exact after
  · exact emptiedOwned attained held
  · exact given

theorem flowsMakes {a : Move σ} (attained : Attained P Alters outside w) (flows : w.Flows n ended)
    (makes : w.Makes P a w') :
    w'.Flows n (ended + (w.givenBack n a + w.sweptBetween n w' a)) := by
  have numbered := numbered attained
  have owned := everyOwned attained
  cases makes with
  | nothing idles =>
    rw [idlesEnd idles]
    exact flows
  | noPool ordered =>
    rw [orderEnds ordered]
    exact flows
  | found ordered =>
    rw [orderEnds ordered]
    exact flowsFound _ _ flows
  | call calls =>
    rw [callEnds calls]
    exact flowsSame flows rfl
  | renew here renews =>
    rw [renewEnds renews]
    exact flowsRenew flows here renews
  | share | stray | advance | tamper => exact flows
  | leave =>
    apply flowsLetGo
    · exact numbered
    · exact ⟨owned.ledger,owned.lent,owned.valid,owned.used,owned.apart⟩
    · exact flows
  | get _ here => exact flowsKept _ flows here fun _ => Pool.enterBalanced P _ _
  | @resume index _ _ awake here =>
    apply flowsLetGo
    · exact numberedResumed numbered here index
    · exact ownedSeatResumed (everyCallerQueued attained) owned awake here
    · exact flowsKept (w := w.rouse index) _ flows here fun _ => Pool.resumeBalanced P _ _
  | tolerance _ here =>
    exact flowsKept w.slots flows here fun _ before => ⟨before.created,before.requests⟩
  | release held =>
    have given := flowsRelease (P := P) numbered owned flows held
    simpa only [givenBack,held,sweptBetween,Nat.add_zero] using given
  | drop held =>
    have given := flowsDrop attained flows held
    simpa only [givenBack,held,sweptBetween,Nat.add_zero] using given

theorem flowsMove (attained : Attained P Alters outside w) (flows : w.Flows n ended) (a : Move σ) :
    (w.move P a).Flows n (ended + w.givenBack n a + w.sweptOut P n a) := by
  rw [sweptMove,Nat.add_assoc]
  exact flowsMakes attained flows (moveMakes (numbered attained) a)

theorem flowsRun (attained : Attained P Alters outside w) (flows : w.Flows n ended)
    (moves : List (Move σ)) (allowed : ∀ change, .tamper change ∈ moves → Alters change) :
    (w.run P moves).Flows n
      (ended + tally P (givenBack n) moves w + tally P (sweptOut P n) moves w) := by
  induction moves generalizing w ended with
  | nil => exact flows
  | cons a rest ih =>
    have first : ∀ change, a = .tamper change → Alters change := fun change same =>
      allowed change (same ▸ List.mem_cons_self)
    have after := attained.trans (moveTurns (numbered attained) a first)
    have moved := flowsMove (P := P) attained flows a
    have done := ih after moved fun change later => allowed change (List.mem_cons_of_mem a later)
    simp only [tally,run,List.foldl_cons] at done ⊢
    convert done using 1
    omega

/-- The connections that a pool has set up are those it has closed, keeps or lends. The loans it has
granted are those that still run, those whose holder gave a valid wrapper back, those ended by
another caller, and those ended by closing all connections. -/
theorem flowsConserved (outside : σ) (moves : List (Move σ))
    (here : ((initial outside).run P moves).pools[n]? = some p) :
    p.counters.created = p.counters.closed + p.idle.length + p.active.length ∧
    p.counters.requests = p.active.length + tally P (givenBack n) moves (.initial outside) +
      p.counters.claimedOverdue + tally P (sweptOut P n) moves (.initial outside) := by
  have none : Flows n 0 (.initial outside : World σ) := by simp [Flows,initial]
  have start : Attained P (fun _ => True) outside (.initial outside) := .refl
  have flows := flowsRun start none moves fun _ _ => trivial
  obtain ⟨created,requests⟩ := flowsHere flows here
  omega

def mixedMoves : List (Move Memory.Server) :=
  [.create {} { maxActive := 1, maxCheckoutTime := 5 },.get 0,.release 0,.get 0,.advance 6,.get 0,
    .drop 1,.closeAll 0,.release 2,.get 0]

theorem flowsConservedMixed :
    ∃ p, ((initial {}).run Memory.platform mixedMoves).pools[0]? = some p ∧
      p.counters.closed = 1 ∧ p.counters.created = 1 + p.idle.length + p.active.length ∧
      p.counters.claimedOverdue = 1 ∧ p.counters.requests = p.active.length +
        tally Memory.platform (givenBack 0) mixedMoves (.initial {}) + 1 +
        tally Memory.platform (sweptOut Memory.platform 0) mixedMoves (.initial {}) := by
  have here : ∃ p, ((initial {}).run Memory.platform mixedMoves).pools[0]? = some p ∧
      p.counters.closed = 1 ∧ p.counters.claimedOverdue = 1 := ⟨_,rfl,by decide +kernel⟩
  obtain ⟨p,here,closed,claimed⟩ := here
  obtain ⟨created,requests⟩ := flowsConserved (P := Memory.platform) {} mixedMoves here
  exact ⟨p,here,closed,closed ▸ created,claimed,claimed ▸ requests⟩

example : tally Memory.platform (givenBack 0) mixedMoves (.initial {}) = 1 ∧
    tally Memory.platform (sweptOut Memory.platform 0) mixedMoves (.initial {}) = 1 := by
  decide +kernel

end World
end ConnectionPool
