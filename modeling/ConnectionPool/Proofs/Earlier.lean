import ConnectionPool.Proofs.Sifting
/-! What a pool has counted, and when it was made, has no bearing on what it does. What it counts later
is added to what it had counted before. -/
namespace ConnectionPool
variable {σ : Type} {P : Platform σ} {sums : Counters} {made : Nat}

def Counters.plus (a b : Counters) : Counters where
  requests := a.requests + b.requests
  requestTime := a.requestTime + b.requestTime
  hadToWait := a.hadToWait + b.hadToWait
  waitTime := a.waitTime + b.waitTime
  checkoutTime := a.checkoutTime + b.checkoutTime
  claimedOverdue := a.claimedOverdue + b.claimedOverdue
  overdueTime := a.overdueTime + b.overdueTime
  bad := a.bad + b.bad
  created := a.created + b.created
  closed := a.closed + b.closed

namespace Pool
variable {p q : Pool} {s t : Shared σ} {w : Wrapper} {seeker : Seeker} {pick : Pick}

/-- The pool as if it had been made at another time and had counted so much before. -/
def older (sums : Counters) (made : Nat) (p : Pool) : Pool :=
  { p with counters := sums.plus p.counters, createdAt := made }

abbrev olderBoth (sums : Counters) (made : Nat) : Pool × Shared σ → Pool × Shared σ :=
  Prod.map (older sums made) id

theorem olderCount (change : Counters → Counters)
    (adds : ∀ c, change (sums.plus c) = sums.plus (change c)) (p : Pool) :
    (p.older sums made).count change = (p.count change).older sums made :=
  congrArg (fun counters => { p.older sums made with counters }) (adds p.counters)

theorem olderPicks (picks : Picks P p s pick q t) :
    Picks P (p.older sums made) s pick (q.older sums made) t := by
  cases picks with
  | kept idle => exact .kept (p := p.older sums made) idle
  | refused idle room connect => exact .refused (p := p.older sums made) idle room connect
  | unfit idle room connect setUp => exact .unfit (p := p.older sums made) idle room connect setUp
  | fresh idle room connect setUp => exact .fresh (p := p.older sums made) idle room connect setUp
  | @overdue oldest rest idle full active late =>
    have picked := Picks.overdue (P := P) (p := p.older sums made) idle full active late
    have counted : ({ p with active := rest }.older sums made).count _ = _ :=
      olderCount (fun c => { c with
        claimedOverdue := c.claimedOverdue + 1
        overdueTime := c.overdueTime + oldest.heldFor s.now
        checkoutTime := c.checkoutTime + oldest.heldFor s.now })
      (fun c => by simp only [Counters.plus,Nat.add_assoc]) { p with active := rest }
    exact counted ▸ picked
  | nothing idle full inTime => exact .nothing (p := p.older sums made) idle full inTime

theorem olderPassed {n : Nat} (passed : Passed P p s n q t) :
    Passed P (p.older sums made) s n (q.older sums made) t := by
  induction passed with
  | start => exact .start
  | again _ picks bad ih => exact ih.again (olderPicks picks) bad

theorem olderGrant (seeker : Seeker) (w : Wrapper) (p : Pool) (s : Shared σ) :
    (p.older sums made).grant seeker w s = (p.grant seeker w s).map id (olderBoth sums made) := by
  refine Prod.ext rfl (Prod.ext ?_ rfl)
  exact olderCount (fun c => { c with
      requests := c.requests + 1
      requestTime := c.requestTime + (s.now - seeker.startedAt) })
    (fun c => by simp only [Counters.plus,Nat.add_assoc])
    { p with active := p.active ++ [w.stamped p.expected s.now] }

theorem olderBlock (seeker : Seeker) (bad : Nat) (p : Pool) (s : Shared σ) :
    (p.older sums made).block seeker bad s = (p.block seeker bad s).map id (olderBoth sums made) := by
  unfold block
  split <;> rfl

theorem olderGiveUp (seeker : Seeker) (bad : Nat) (p : Pool) (s : Shared σ) :
    (p.older sums made).giveUp seeker bad s = (p.giveUp seeker bad s).map id (olderBoth sums made) := by
  unfold giveUp
  split <;> rfl

theorem olderEnds {patience bad : Nat} {result : Outcome × Pool × Shared σ}
    (ends : Ends P seeker patience bad p s result) :
    Ends P seeker patience bad (p.older sums made) s (result.map id (olderBoth sums made)) := by
  cases ends with
  | misses inTime passed picks => exact .misses inTime (olderPassed passed) (olderPicks picks)
  | sleeps inTime passed picks =>
    rw [← olderBlock]
    exact .sleeps inTime (olderPassed passed) (olderPicks picks)
  | finds inTime passed picks good =>
    rw [← olderGrant]
    exact .finds inTime (olderPassed passed) (olderPicks picks) good
  | givesUp passed picks spoilt =>
    rw [← olderGiveUp]
    exact .givesUp (olderPassed passed) (olderPicks picks) spoilt

theorem olderStay : (p.older sums made).stay P seeker s =
    (p.stay P seeker s).map id (olderBoth sums made) :=
  endsSeek (olderEnds (stayEnds P seeker p s))

theorem olderEnter : (p.older sums made).enter P seeker s =
    (p.enter P seeker s).map id (olderBoth sums made) := by
  cases shut : p.closed with
  | true => rw [enterShut shut,enterShut (p := p.older sums made) shut]; rfl
  | false => rw [enterOpen shut,enterOpen (p := p.older sums made) shut,olderStay]

theorem olderResume (wait : Wait) : (p.older sums made).resume P wait s =
    (p.resume P wait s).map id (olderBoth sums made) := by
  have lingered : (p.older sums made).lingered (s.now - wait.since) =
      (p.lingered (s.now - wait.since)).older sums made :=
    olderCount (fun c => { c with waitTime := c.waitTime + (s.now - wait.since) })
      (fun c => by simp only [Counters.plus,Nat.add_assoc]) p
  cases shut : p.closed with
  | true =>
    rw [resumeShut shut,resumeShut (p := p.older sums made) shut,lingered]
    rfl
  | false =>
    rw [resumeOpen shut,resumeOpen (p := p.older sums made) shut,lingered]
    exact olderStay

theorem olderDiscardAll (ws : List Wrapper) (p : Pool) (s : Shared σ) :
    discardAll P ws (p.older sums made) s = olderBoth sums made (discardAll P ws p s) := by
  induction ws generalizing p s with
  | nil => rfl
  | cons w ws ih => exact ih (p.discard P w s).1 (p.discard P w s).2

theorem olderSweep (p : Pool) (s : Shared σ) :
    (p.older sums made).sweep P s = olderBoth sums made (p.sweep P s) :=
  olderDiscardAll _ (p.swept P) _

theorem olderCloseAll (p : Pool) (s : Shared σ) :
    (p.older sums made).closeAll P s = olderBoth sums made (p.closeAll P s) := by
  unfold closeAll
  rw [olderSweep]
  rfl

theorem olderClose (p : Pool) (s : Shared σ) :
    (p.older sums made).close P s = olderBoth sums made (p.close P s) := by
  have closed : (p.older sums made).closed = p.closed := rfl
  unfold close
  rw [closed]
  split
  · rfl
  · exact olderCloseAll { p with closed := true } s

theorem olderConfigure (change : Change) (p : Pool) (s : Shared σ) :
    (p.older sums made).configure P change s =
      (p.configure P change s).map id (olderBoth sums made) := by
  have same : ((p.older sums made).source,(p.older sums made).settings) = (p.source,p.settings) := rfl
  unfold configure
  rw [same]
  rcases change.apply (p.source,p.settings) with ⟨source,settings⟩
  dsimp only
  split
  · rfl
  · exact Prod.ext rfl (olderCloseAll { p with source, settings } s)

theorem olderAbandon (p : Pool) (s : Shared σ) :
    (p.older sums made).abandon P s = olderBoth sums made (p.abandon P s) := by
  have tracked : (p.older sums made).tracked = p.tracked := rfl
  unfold abandon
  rw [tracked]
  split
  · rfl
  · exact olderSweep p s

theorem olderStore (w : Wrapper) (p : Pool) (s : Shared σ) :
    (p.older sums made).store P w s = olderBoth sums made (p.store P w s) := by
  have same : (p.older sums made).HasIdleRoom = p.HasIdleRoom ∧
      (p.older sums made).expected = p.expected ∧ (p.older sums made).number = p.number :=
    ⟨rfl,rfl,rfl⟩
  unfold store
  simp only [same]
  split
  · rcases s.rollbackUnlessAutoCommit P (.pool p.number) w.conn with ⟨_ | _,t⟩ <;> rfl
  · rfl

theorem olderRelease (w : Wrapper) (p : Pool) (s : Shared σ) :
    (p.older sums made).release P w s = olderBoth sums made (p.release P w s) := by
  have lent : (p.older sums made).IsActive w ↔ p.IsActive w := .rfl
  have removed : (p.older sums made).removeActive w = (p.removeActive w).older sums made := rfl
  unfold release
  by_cases active : p.IsActive w
  · rw [if_pos active,if_pos (lent.mpr active),removed]
    have inspected : ((p.removeActive w).older sums made).inspect P w s =
        (p.removeActive w).inspect P w s := rfl
    simp only [inspected]
    rcases (p.removeActive w).inspect P w s with ⟨_ | _,t⟩
    · rfl
    · have checked : ((p.removeActive w).older sums made).count _ = _ :=
        olderCount (fun c => { c with checkoutTime := c.checkoutTime + w.heldFor s.now })
          (fun c => by simp only [Counters.plus,Nat.add_assoc]) (p.removeActive w)
      simp only [checked,olderStore]
      rfl
  · rw [if_neg active,if_neg (mt lent.mp active)]
    rfl

theorem closeNumber (P : Platform σ) (p : Pool) (s : Shared σ) : (p.close P s).1.number = p.number := by
  unfold close
  split
  · rfl
  · exact sweepNumber P { p with closed := true } s

theorem configureNumber (P : Platform σ) (change : Change) (p : Pool) (s : Shared σ) :
    (p.configure P change s).2.1.number = p.number := by
  rcases p.configureCases P change s with ⟨_,same⟩ | ⟨source,settings,_,_,same⟩
  · rw [same]
  · rw [same]
    exact sweepNumber P { p with source, settings } s

theorem abandonNumber (P : Platform σ) (p : Pool) (s : Shared σ) :
    (p.abandon P s).1.number = p.number := by
  unfold abandon
  split
  · rfl
  · exact p.sweepNumber P s

def olderAt (n : Nat) (sums : Counters) (made : Nat) (p : Pool) : Pool :=
  if p.number = n then p.older sums made else p

theorem olderAtActs {n : Nat} {act : Pool → Shared σ → Pool × Shared σ}
    (acts : ∀ p, act (p.older sums made) s = olderBoth sums made (act p s))
    (stays : (act p s).1.number = p.number) :
    act (p.olderAt n sums made) s = (act p s).map (olderAt n sums made) id := by
  unfold olderAt
  split
  · rename_i own
    exact (acts p).trans (Prod.ext (if_pos (stays.trans own)).symm rfl)
  · rename_i other
    exact Prod.ext (if_neg (mt stays.symm.trans other)).symm rfl

theorem olderAtNumber (n : Nat) (p : Pool) : (p.olderAt n sums made).number = p.number := by
  unfold olderAt
  split <;> rfl

end Pool

namespace World
variable {w : World σ} {n i : Nat} {p : Pool}

def older (n : Nat) (sums : Counters) (made : Nat) (w : World σ) : World σ :=
  { w with pools := w.pools.map (Pool.olderAt n sums made) }

theorem olderPoolAt (w : World σ) (m : Nat) :
    (w.older n sums made).pools[m]? = (w.pools[m]?).map (Pool.olderAt n sums made) :=
  List.getElem?_map ..

theorem olderDoorPool (w : World σ) (door : Nat) :
    (w.older n sums made).doorPool? door = (w.doorPool? door).map (Pool.olderAt n sums made) := by
  have doors : (w.older n sums made).doors = w.doors := rfl
  unfold doorPool?
  rw [doors]
  rcases w.doors[door]? with _ | _ | m
  · rfl
  · rfl
  · exact olderPoolAt w m

theorem olderVisit (act : Pool → Shared σ → Pool × Shared σ)
    (acts : ∀ p, act (p.older sums made) w.shared = Pool.olderBoth sums made (act p w.shared))
    (stays : (act p w.shared).1.number = p.number) :
    (w.older n sums made).visit (p.olderAt n sums made) act = (w.visit p act).older n sums made := by
  have acted := Pool.olderAtActs (n := n) acts stays
  have shared : (w.older n sums made).shared = w.shared := rfl
  unfold visit
  rw [shared,acted,Pool.olderAtNumber]
  exact congrArg (fun pools => { w with shared := (act p w.shared).2, pools }) List.map_set.symm

theorem olderConsult {α : Type} (act : Pool → Shared σ → α × Pool × Shared σ)
    (acts : ∀ p, act (p.older sums made) w.shared =
      (act p w.shared).map id (Pool.olderBoth sums made))
    (stays : (act p w.shared).2.1.number = p.number) :
    (w.older n sums made).consult (p.olderAt n sums made) act =
      (w.consult p act).map id (older n sums made) := by
  have answer : (act (p.olderAt n sums made) w.shared).1 = (act p w.shared).1 := by
    unfold Pool.olderAt
    split
    · have first := congrArg Prod.fst (acts p)
      exact first
    · rfl
  have visited := olderVisit (w := w) (n := n) (p := p) (fun p s => (act p s).2)
    (fun p => congrArg Prod.snd (acts p)) stays
  exact Prod.ext answer visited

theorem olderLetGo (w : World σ) (m : Nat) :
    (w.older n sums made).letGo P m = (w.letGo P m).older n sums made := by
  have referred : (w.older n sums made).IsReferred m ↔ w.IsReferred m := .rfl
  unfold letGo
  by_cases known : w.IsReferred m
  · rw [if_pos known,if_pos (referred.mpr known)]
  · rw [if_neg known,if_neg (mt referred.mp known),olderPoolAt]
    cases w.pools[m]? with
    | none => rfl
    | some p =>
      exact olderVisit (Pool.abandon P) (fun q => q.olderAbandon w.shared) (p.abandonNumber P w.shared)

theorem olderCreate (inside : n < w.pools.length) (source : DataSource) (settings : Settings) :
    (w.older n sums made).create P source settings =
      (w.create P source settings).map id (older n sums made) := by
  have length : (w.older n sums made).pools.length = w.pools.length := List.length_map ..
  unfold create
  split
  · rfl
  · have new : (Pool.create P w.pools.length source settings w.shared.now).olderAt n sums made =
        Pool.create P w.pools.length source settings w.shared.now := if_neg (Nat.ne_of_gt inside)
    have grown : (w.pools ++ [Pool.create P w.pools.length source settings w.shared.now]).map
        (Pool.olderAt n sums made) = w.pools.map (Pool.olderAt n sums made) ++
          [Pool.create P w.pools.length source settings w.shared.now] := by
      rw [List.map_append,List.map_singleton,new]
    rw [length]
    exact congrArg (fun pools => (Except.ok w.doors.length,
      { w with pools, doors := w.doors ++ [some w.pools.length] })) grown.symm

theorem olderLeave (w : World σ) (door : Nat) :
    (w.older n sums made).leave P door = (w.leave P door).older n sums made := by
  unfold leave
  rw [olderDoorPool]
  cases w.doorPool? door with
  | none => rfl
  | some p =>
    have number : (p.olderAt n sums made).number = p.number := Pool.olderAtNumber n p
    have left : (older n sums made { w with doors := w.doors.set door none }).letGo P p.number = _ :=
      olderLetGo _ _
    exact (congrArg _ number).trans left

theorem olderGet (w : World σ) (door : Nat) (p : Pool) :
    (w.older n sums made).get P door (p.olderAt n sums made) =
      (w.get P door p).map id (Prod.map id (older n sums made)) := by
  have came (v : World σ) (q : Pool) : v.get P door q = (fun stay => (v.slots.length,stay.1,
      { stay.2 with slots := stay.2.slots ++ [slotAfter q.number stay.1] }))
      (v.consult q (Pool.enter P (v.newSeeker door q.number))) := rfl
  have entered : (w.older n sums made).consult (p.olderAt n sums made)
      (Pool.enter P (w.newSeeker door p.number)) = _ :=
    olderConsult _ (fun _ => Pool.olderEnter) (p.enterAlike P _ w.shared).number
  have seeker : (w.older n sums made).newSeeker door p.number = w.newSeeker door p.number := rfl
  rw [came,came,Pool.olderAtNumber,seeker,entered]
  rfl

theorem olderResumeAt (w : World σ) (index : Nat) :
    (w.older n sums made).resumeAt P index = (w.resumeAt P index).map id (older n sums made) := by
  have woken : (w.older n sums made).shared.woken = w.shared.woken := rfl
  cases awake : w.shared.woken[index]? with
  | none =>
    simp only [resumeAt,woken,awake]
    rfl
  | some wait =>
    have pool : (w.older n sums made).pools[wait.seeker.pool]? = _ := olderPoolAt w wait.seeker.pool
    cases here : w.pools[wait.seeker.pool]? with
    | none =>
      rw [here] at pool
      simp only [resumeAt,woken,awake,here,pool,Option.map_none]
      rfl
    | some p =>
      rw [here] at pool
      have resumed : ((w.rouse index).older n sums made).consult (p.olderAt n sums made)
          (Pool.resume P wait) = _ :=
        olderConsult _ (fun _ => Pool.olderResume wait) (p.resumeAlike P wait _).number
      have roused : (w.older n sums made).rouse index = (w.rouse index).older n sums made := rfl
      rw [resumeAtSome (w := w.older n sums made) awake pool,resumeAtSome awake here,roused,resumed,
        Pool.olderAtNumber]
      generalize (w.rouse index).consult p (Pool.resume P wait) = stay
      obtain ⟨outcome,v⟩ := stay
      exact congrArg (finished? wait.seeker.ticket outcome,·) (olderLetGo (v.setSlot _ _) p.number)

theorem olderRelease (w : World σ) (slot : Nat) (h : Handle) :
    (w.older n sums made).release P slot h = (w.release P slot h).older n sums made := by
  unfold release
  split
  · rfl
  · rw [olderPoolAt]
    cases w.pools[h.pool]? with
    | none => rfl
    | some p =>
      have number := Pool.returnsAlike (p.releaseReturns P h.wrapper w.shared) |>.number
      have given : (w.older n sums made).visit (p.olderAt n sums made) (Pool.release P h.wrapper) = _ :=
        olderVisit _ (fun q => q.olderRelease h.wrapper w.shared) number
      exact congrArg (setSlot · slot _) given

theorem olderAtDoor {act act' : Pool → World σ}
    (acts : ∀ p, act' (p.olderAt n sums made) = (act p).older n sums made) (w : World σ) (door : Nat) :
    (w.older n sums made).atDoor door act' = (w.atDoor door act).older n sums made := by
  unfold atDoor
  rw [olderDoorPool]
  cases w.doorPool? door with
  | none => rfl
  | some p => exact acts p

theorem olderAtSlot {act act' : Handle → World σ} (acts : ∀ h, act' h = (act h).older n sums made)
    (w : World σ) (slot : Nat) :
    (w.older n sums made).atSlot slot act' = (w.atSlot slot act).older n sums made := by
  have handle : (w.older n sums made).handle? slot = w.handle? slot := rfl
  unfold atSlot
  rw [handle]
  cases w.handle? slot with
  | none => rfl
  | some h => exact acts h

theorem olderRaw (h : Handle) (request : Request) (w : World σ) :
    (w.older n sums made).raw P h request = (w.raw P h request).map id (older n sums made) := by
  have live : (w.older n sums made).shared.IsLive h.wrapper ↔ w.shared.IsLive h.wrapper := .rfl
  unfold raw
  by_cases valid : w.shared.IsLive h.wrapper
  · rw [if_pos valid,if_pos (live.mpr valid)]
    rfl
  · rw [if_neg valid,if_neg (mt live.mp valid)]
    rfl

theorem olderForward (h : Handle) (request : Request) (w : World σ) :
    (w.older n sums made).forward P h request =
      (w.forward P h request).map id (older n sums made) := by
  unfold forward
  rw [olderRaw]
  rcases w.raw P h request with ⟨_ | _ | _,v⟩ <;> rfl

theorem olderIsClosed (h : Handle) (w : World σ) :
    (w.older n sums made).isClosed P h = (w.isClosed P h).map id (older n sums made) := by
  have live : (w.older n sums made).shared.IsLive h.wrapper ↔ w.shared.IsLive h.wrapper := .rfl
  rw [isClosedForward,isClosedForward]
  by_cases valid : w.shared.IsLive h.wrapper
  · rw [if_pos valid,if_pos (live.mpr valid)]
    exact olderForward h .isClosed w
  · rw [if_neg valid,if_neg (mt live.mp valid)]
    rfl

theorem olderCreateFrom (inside : n < w.pools.length) (text : String) :
    (w.older n sums made).createFrom P text =
      (w.createFrom P text).map id (older n sums made) := by
  unfold createFrom
  split
  · rfl
  · exact olderCreate inside ..

theorem olderMove (inside : n < w.pools.length) (m : Move σ) :
    (w.older n sums made).move P m = (w.move P m).older n sums made := by
  cases m with
  | create source settings => exact congrArg Prod.snd (olderCreate inside source settings)
  | createFrom text => exact congrArg Prod.snd (olderCreateFrom inside text)
  | share door =>
    refine olderAtDoor (fun p => ?_) w door
    unfold share
    rw [Pool.olderAtNumber]
    rfl
  | leave door => exact olderLeave w door
  | get door => exact olderAtDoor (fun p => congrArg (·.2.2) (olderGet w door p)) w door
  | resume index => exact congrArg Prod.snd (olderResumeAt w index)
  | closeAll door =>
    refine olderAtDoor (fun p => ?_) w door
    exact olderVisit _ (fun q => q.olderCloseAll w.shared) (p.sweepNumber P w.shared)
  | close door =>
    refine olderAtDoor (fun p => ?_) w door
    exact olderVisit _ (fun q => q.olderClose w.shared) (p.closeNumber P w.shared)
  | configure door change =>
    refine olderAtDoor (fun p => ?_) w door
    have told : (w.older n sums made).consult (p.olderAt n sums made) (Pool.configure P change) = _ :=
      olderConsult _ (fun q => q.olderConfigure change w.shared)
        (p.configureNumber P change w.shared)
    exact congrArg Prod.snd told
  | setTolerance door count =>
    refine olderAtDoor (fun p => ?_) w door
    exact olderVisit _ (fun _ => rfl) rfl
  | release slot => exact olderAtSlot (fun h => olderRelease w slot h) w slot
  | drop slot =>
    refine olderAtSlot (fun h => ?_) w slot
    unfold drop
    rw [olderRelease]
    exact olderLetGo ((w.release P slot h).setSlot slot .empty) h.pool
  | forward slot request =>
    exact olderAtSlot (fun h => congrArg Prod.snd (olderForward h request w)) w slot
  | raw slot request => exact olderAtSlot (fun h => congrArg Prod.snd (olderRaw h request w)) w slot
  | isClosed slot => exact olderAtSlot (fun h => congrArg Prod.snd (olderIsClosed h w)) w slot
  | advance | tamper => rfl

theorem poolsStay (makes : w.Makes P m w') : w.pools.length ≤ w'.pools.length := by
  cases ordered : m.order? with
  | none => exact Nat.le_of_eq (Extends.makes ordered makes).pools.symm
  | some =>
    cases makes with
    | found => simp
    | nothing | noPool | call => exact Nat.le_refl _
    | renew => exact Nat.le_of_eq List.length_set.symm
    | _ => cases ordered

theorem olderRun (known : w.Numbered) (inside : n < w.pools.length) (moves : List (Move σ)) :
    (w.older n sums made).run P moves = (w.run P moves).older n sums made := by
  induction moves generalizing w with
  | nil => rfl
  | cons m rest ih =>
    have later := ih (numberedMove (P := P) known m)
      (Nat.lt_of_lt_of_le inside (poolsStay (moveMakes known m)))
    exact (congrArg (run P rest) (olderMove inside m)).trans later

theorem olderPut (numbered : w.Numbered) (q : Pool) (own : q.number = n) (s : Shared σ) :
    (w.put n q s).older n sums made = w.put n (q.older sums made) s := by
  have pools : (w.pools.set n q).map (Pool.olderAt n sums made) =
      w.pools.set n (q.older sums made) := by
    refine List.ext_getElem? fun m => ?_
    rw [List.getElem?_map,List.getElem?_set,List.getElem?_set]
    split
    · split
      · exact congrArg some (if_pos own)
      · rfl
    · rename_i other
      cases there : w.pools[m]? with
      | none => rfl
      | some r => exact congrArg some (if_neg fun same => other (same.symm.trans (numbered there)))
  exact congrArg (fun pools => { w with shared := s, pools }) pools

end World
end ConnectionPool
