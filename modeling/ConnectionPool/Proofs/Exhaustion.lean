import ConnectionPool.Proofs.Call
import ConnectionPool.Proofs.Discard
/-! When a caller gives up it has turned down exactly one candidate more than the limit, all in its
last stay. No pool keeps more than the limit leaves room for, so what was kept never is enough to make a
caller give up: more others than are tolerated were no good either. -/
namespace ConnectionPool
namespace Pool
variable {σ : Type} {p q : Pool} {s t : Shared σ} {cs : List Candidate}

theorem Meets.keptLess (meets : p.Meets s cs q t) (more : p.idle.length < cs.length) :
    q.idle = [] := by
  by_contra some
  have order := congrArg List.length meets.order
  have idle := congrArg List.length meets.idle
  rw [meets.bare some,List.append_nil,List.length_map] at order
  rw [List.length_append] at idle
  omega

theorem Meets.othersMore (meets : p.Meets s cs q t) (room : p.Room 0) (bare : q.idle = [])
    (number : cs.length = p.settings.badConnectionLimit.toNat + 1) (small : cs.length < UInt32.size) :
    p.settings.tolerance.toNat + 1 ≤ (cs.filter Candidate.isOther).length := by
  have wrappers := congrArg List.length meets.wrappers
  rw [meets.keptAll bare,List.length_map,List.length_append,List.length_map] at wrappers
  have idle := room.idle
  rw [Settings.badConnectionLimitNat] at number
  simp only [UInt32.size] at small
  omega

end Pool

namespace World
variable {σ : Type} {P : Platform σ} {Alters : (σ → σ) → Prop} {outside : σ} {w w' : World σ}
  {a : Move σ} {seeker : Seeker} {p q : Pool} {s t : Shared σ} {attempts : UInt32} {conn n : Nat}

def badCount (n : Nat) (w : World σ) : Nat := ((w.pools[n]?).map (·.counters.bad)).getD 0

/-- A caller has given up after so many candidates, the kept ones and then the others. -/
structure Exhausted (w w' : World σ) (n : Nat) (attempts : UInt32) (p q : Pool)
    (others : List Wrapper) : Prop where
  before : w.pools[n]? = some p
  after : w'.pools[n]? = some q
  same : p.Alike q
  limit : attempts.toNat = q.settings.badConnectionLimit.toNat + 1
  number : (p.idle ++ others).length = attempts.toNat
  rejected : declined n w'.shared.journal = (p.idle ++ others).reverse ++ declined n w.shared.journal
  counted : q.counters.bad = p.counters.bad + attempts.toNat
  discarded : discards w'.shared.journal =
    ((p.idle ++ others).map fun x => (n,x.conn)).reverse ++ discards w.shared.journal
  gone : ∀ x ∈ p.idle ++ others, ∀ y ∈ w'.tracked, y.conn ≠ x.conn
  idle : q.idle = []
  active : q.active <:+ p.active
  tolerated : q.settings.tolerance.toNat + 1 ≤ others.length
  elsewhere : ∀ x ∈ others, x.conn ∉ p.idle.map Wrapper.conn ∧
    (w.shared.opened ≤ x.conn ∨ ∃ y ∈ p.active, y.conn = x.conn)

theorem keptElsewhere (owned : w.Owned) (here : w.pools[n]? = some p)
    (stems : w.shared.opened ≤ conn ∨ ∃ y ∈ p.active, y.conn = conn) :
    conn ∉ p.idle.map Wrapper.conn := by
  intro known
  have ledger := owned.ledger.perm (trackedPerm here)
  rcases stems with new | ⟨y,lent,rfl⟩
  · obtain ⟨x,member,rfl⟩ := List.mem_map.mp known
    exact absurd (ledger.opened x (by simp [Pool.tracked,member])) (Nat.not_lt.mpr new)
  · have conns := ledger.conns
    rw [Pool.tracked,List.append_assoc,List.map_append] at conns
    exact List.disjoint_of_nodup_append conns known
      (List.mem_map_of_mem (List.mem_append_left _ lent))

theorem searchExhausts (attained : Attained P (fun _ => True) outside w)
    (searches : w.Searches a seeker p s)
    (failed : (p.stay P seeker s).1 = .failed (.exhaustedRetries attempts)) :
    ∃ r q others, w.Exhausted (w.move P a) seeker.pool attempts r q others := by
  have begins := begins attained searches
  obtain ⟨r,starts⟩ := starts searches
  obtain ⟨q,t,limit,passed,stays⟩ := Pool.stayExhausts (searchUnspoilt attained searches) failed
  obtain ⟨cs,number,meets⟩ := Pool.passedMeets passed
  have alike := Pool.passedAlike passed
  have within := Pool.keptWithinLimit begins.room
  have bare : q.idle = [] := meets.keptLess (by omega)
  have tolerated := meets.othersMore begins.room bare (number.trans limit) (number ▸ attempts.toNat_lt)
  have unserved := searchFails attained searches stays bare
    (meets.active ▸ List.subset_append_right _ _)
  let others := (cs.filter Candidate.isOther).map Candidate.wrapper
  have wrappers : cs.map Candidate.wrapper = r.idle ++ others := by
    rw [meets.wrappers,meets.keptAll bare,starts.idle]
  have told : toll (w.move P a).shared.journal =
      tolls seeker.pool cs ++ toll w.shared.journal := by
    rw [unserved.shared,← starts.told,← begins.number]
    exact meets.told
  have discarded : discards (w.move P a).shared.journal =
      ((r.idle ++ others).map fun x => (seeker.pool,x.conn)).reverse ++ discards w.shared.journal := by
    rw [tollDiscards told,← wrappers,List.map_map]
    rfl
  refine ⟨r,q,others,{
    before := starts.here
    after := unserved.pool
    same := starts.alike.trans alike
    limit := alike.settings ▸ limit
    number := by rw [← wrappers,List.length_map,number]
    rejected := wrappers ▸ tollDeclined told
    counted := by rw [meets.counters,chargedBad,starts.bad,number]
    discarded
    gone := fun x member => ?_
    idle := bare
    active := ⟨_,starts.active ▸ meets.active.symm⟩
    tolerated := by rw [List.length_map,alike.settings]; exact tolerated
    elsewhere := fun x member => ?_ }⟩
  · have after := attained.trans (runTurns attained [a])
    refine discardedAway after (discardedListed.mpr ?_)
    refine List.mem_map.mpr ⟨(seeker.pool,x.conn),?_,rfl⟩
    rw [discarded]
    exact List.mem_append_left _ (List.mem_reverse.mpr (List.mem_map.mpr ⟨x,member,rfl⟩))
  · obtain ⟨c,other,rfl⟩ := List.mem_map.mp member
    have stems := meets.stems other
    rw [starts.opened,starts.active] at stems
    exact ⟨keptElsewhere (everyOwned attained) starts.here stems,stems⟩

theorem searchAwaited (searches : w.Searches a seeker p s) :
    w.caller? a = some seeker.ticket ∧ w.Awaited seeker.ticket := by
  cases searches with
  | get behind here =>
    refine ⟨?_,.inl (Nat.le_refl _)⟩
    simp [caller?,doorPool?,behind,here,newSeeker]
  | @resume index wait p awake here =>
    refine ⟨?_,.inr ⟨wait,List.mem_append_right _ (List.mem_of_getElem? awake),rfl⟩⟩
    simp [caller?,awake]

theorem unmovedTurns (n : Nat) (unmoved : w.Unmoved w') :
    turnedDown n w'.shared.journal = turnedDown n w.shared.journal := by
  have declines (journal : List Event) : declined n (toll journal) = declined n journal :=
    tollMap (Event.declinedReads n) journal
  rw [← declinedTurns,← declines,unmoved.told,declines,declinedTurns]

theorem unmovedBad (n : Nat) (unmoved : w.Unmoved w') : w'.badCount n = w.badCount n := by
  rw [badCount,unmoved.bad,badCount]

theorem Exhausted.turns {others : List Wrapper} (exhausted : w.Exhausted w' n attempts p q others) :
    turnedDown n w'.shared.journal = turnedDown n w.shared.journal + attempts.toNat := by
  rw [← declinedTurns,exhausted.rejected,List.length_append,List.length_reverse,exhausted.number,
    declinedTurns,Nat.add_comm]

theorem Exhausted.bad {others : List Wrapper} (exhausted : w.Exhausted w' n attempts p q others) :
    w'.badCount n = w.badCount n + attempts.toNat := by
  simp [badCount,exhausted.before,exhausted.after,exhausted.counted]

/-- Whoever gives up has turned down one candidate more than the limit, has turned down no other on its
whole way, and each has been counted and discarded. None is kept afterwards, nothing has been lent, and
of the candidates more than are tolerated were not kept before. -/
theorem exhaustedBeyondLimit (outside : σ) (moves : List (Move σ)) (a : Move σ)
    (failed : ((initial outside).run P moves).error? P a = some (.exhaustedRetries attempts)) :
    let w := (initial outside).run P moves
    ∃ ticket n p q others, w.caller? a = some ticket ∧
      w.Exhausted (w.move P a) n attempts p q others ∧
      grown P (fun v => turnedDown n v.shared.journal) ticket moves (initial outside) = 0 ∧
      grown P (fun v => turnedDown n v.shared.journal) ticket (moves ++ [a]) (initial outside) =
        attempts.toNat ∧
      grown P (badCount n) ticket (moves ++ [a]) (initial outside) = attempts.toNat := by
  intro w
  have start : Attained P (fun _ => True) outside (initial outside) := .refl
  have attained : Attained P (fun _ => True) outside w := start.trans (runTurns start moves)
  obtain ⟨seeker,p,s,searches,ends⟩ := errorSearches (numbered attained) failed trivial
  obtain ⟨r,q,others,exhausted⟩ := searchExhausts attained searches ends
  obtain ⟨own,awaited⟩ := searchAwaited searches
  have turns := grownNothing (unmovedTurns seeker.pool) start awaited
  have bads := grownNothing (unmovedBad seeker.pool) start awaited
  refine ⟨seeker.ticket,seeker.pool,r,q,others,own,exhausted,turns,?_,?_⟩
  · rw [grownSnoc,turns,if_pos own,exhausted.turns,Nat.zero_add]
    exact Nat.add_sub_cancel_left ..
  · rw [grownSnoc,bads,if_pos own,exhausted.bad,Nat.zero_add]
    exact Nat.add_sub_cancel_left ..

/-- A caller sleeps until the only connection is back, but that is dead by then, as are all others. -/
def wokenInVain : List (Move Memory.Server) :=
  [.create {} { maxActive := 1, maxIdle := 1, tolerance := 1, pingEnabled := true },
    .get 0,.get 0,.release 0,.tamper fun server =>
      (server.tamper (.kill 0)).tamper (.switch none (some true) none)]

theorem exhaustedBeyondLimitWoken :
    ∃ n p q others, (run Memory.platform wokenInVain (initial {})).Exhausted
        ((run Memory.platform wokenInVain (initial {})).move Memory.platform (.resume 0))
        n 3 p q others ∧
      grown Memory.platform (fun v => turnedDown n v.shared.journal) 1 (wokenInVain ++ [.resume 0])
        (initial {}) = 3 := by
  have failed : (run Memory.platform wokenInVain (initial {})).error? Memory.platform (.resume 0) =
      some (.exhaustedRetries 3) := by decide
  obtain ⟨ticket,n,p,q,others,own,exhausted,_,turned,_⟩ :=
    exhaustedBeyondLimit (P := Memory.platform) {} wokenInVain (.resume 0) failed
  have second : (run Memory.platform wokenInVain (initial {})).caller? (.resume 0) = some 1 := rfl
  obtain rfl := Option.some.inj (own.symm.trans second)
  exact ⟨n,p,q,others,exhausted,turned⟩

end World
end ConnectionPool
