import Mathlib.Data.List.Dedup
import ConnectionPool.Proofs.Dated
import ConnectionPool.Proofs.Flow
/-! The counters of a pool are what its journal comes to: so many entries of a kind, so many callers
that an entry is about, so much time that the entries of a kind tell of. -/
namespace ConnectionPool
namespace Event

@[simp] def served? (n : Nat) : Event → Option Nat
  | granted m ticket _ _ => if m = n then some ticket else none
  | _ => none

@[simp] def slept? (n : Nat) : Event → Option Nat
  | blocked m ticket => if m = n then some ticket else none
  | _ => none

@[simp] def grants (n : Nat) : Event → Bool
  | granted m _ _ _ => m == n
  | _ => false

@[simp] def wakes (n : Nat) : Event → Bool
  | resumed m _ _ => m == n
  | _ => false

@[simp] def creates (n : Nat) : Event → Bool
  | created m _ => m == n
  | _ => false

@[simp] def rejects (n : Nat) : Event → Bool
  | rejected m _ => m == n
  | _ => false

@[simp] def reclaims (n : Nat) : Event → Bool
  | reclaimed m _ _ => m == n
  | _ => false

/-- A loan has ended whose length counts: the wrapper came back healthy or was taken. -/
@[simp] def endsLoan (n : Nat) : Event → Bool
  | returned m _ healthy _ => m == n && healthy
  | reclaimed m _ _ => m == n
  | _ => false

@[simp] def spoils (n : Nat) : Event → Bool
  | staleReturn m _ => m == n
  | returned m _ healthy _ => m == n && !healthy
  | _ => false

def isPlain : Event → Bool
  | refused _ _ | opened _ _ _ _ | call _ _ _ _ | discarded _ _ | denied _ _ _ | swept _ _ _
  | notified _ => true
  | _ => false

end Event

def spent (kind : Event → Bool) : List Event → Nat
  | [] => 0
  | event :: older => (if kind event then event.span else 0) + spent kind older

def booked (n : Nat) (journal : List Event) : Counters where
  requests := (journal.filterMap (Event.served? n)).length
  requestTime := spent (Event.grants n) journal
  hadToWait := (journal.filterMap (Event.slept? n)).dedup.length
  waitTime := spent (Event.wakes n) journal
  checkoutTime := spent (Event.endsLoan n) journal
  claimedOverdue := journal.countP (Event.reclaims n)
  overdueTime := spent (Event.reclaims n) journal
  bad := journal.countP (Event.rejects n) + journal.countP (Event.spoils n)
  created := journal.countP (Event.creates n)

section Booked
variable {n ticket took waited held conn : Nat} {event : Event} {journal new : List Event}
  {w : Wrapper} {healthy : Bool}

theorem bookedPlain (plain : event.isPlain ∨ event.pool? ≠ some n) :
    booked n (event :: journal) = booked n journal := by
  cases event with
  | refused | opened | call | discarded | denied | swept | notified =>
    simp [booked,spent,List.filterMap_cons]
  | created | rejected | reclaimed | blocked | resumed | granted | staleReturn | returned =>
    simp only [Event.isPlain,Event.pool?,Bool.false_eq_true,false_or,ne_eq,Option.some.injEq] at plain
    simp [booked,spent,List.filterMap_cons,plain]

theorem bookedSame (plain : ∀ e ∈ new, e.isPlain ∨ e.pool? ≠ some n) :
    booked n (new ++ journal) = booked n journal := by
  induction new with
  | nil => rfl
  | cons e es ih =>
    have ⟨first,others⟩ := List.forall_mem_cons.mp plain
    exact (bookedPlain first).trans (ih others)

theorem bookedCreated : booked n (.created n conn :: journal) =
    { booked n journal with created := (booked n journal).created + 1 } := by
  simp [booked,spent,List.filterMap_cons]

theorem bookedRejected : booked n (.rejected n w :: journal) =
    { booked n journal with bad := (booked n journal).bad + 1 } := by
  simp [booked,spent,List.filterMap_cons,Nat.add_right_comm]

theorem bookedReclaimed : booked n (.reclaimed n w held :: journal) =
    { booked n journal with
      claimedOverdue := (booked n journal).claimedOverdue + 1
      overdueTime := (booked n journal).overdueTime + held
      checkoutTime := (booked n journal).checkoutTime + held } := by
  simp [booked,spent,List.filterMap_cons,Event.span,Nat.add_comm]

theorem bookedResumed : booked n (.resumed n ticket waited :: journal) =
    { booked n journal with waitTime := (booked n journal).waitTime + waited } := by
  simp [booked,spent,List.filterMap_cons,Event.span,Nat.add_comm]

theorem bookedGranted : booked n (.granted n ticket w took :: journal) =
    { booked n journal with
      requests := (booked n journal).requests + 1
      requestTime := (booked n journal).requestTime + took } := by
  simp [booked,spent,List.filterMap_cons,Event.span,Nat.add_comm]

theorem bookedBlocked : booked n (.blocked n ticket :: journal) =
    if journal.any (Event.sends n ticket) then booked n journal
    else { booked n journal with hadToWait := (booked n journal).hadToWait + 1 } := by
  have known : ticket ∈ journal.filterMap (Event.slept? n) ↔ journal.any (Event.sends n ticket) := by
    rw [List.mem_filterMap,List.any_eq_true]
    refine exists_congr fun event => and_congr_right fun _ => ?_
    cases event <;> simp [Event.sends]
  split
  · rename_i again
    simp [booked,spent,List.filterMap_cons,List.dedup_cons_of_mem (known.mpr again)]
  · rename_i first
    simp [booked,spent,List.filterMap_cons,List.dedup_cons_of_notMem (mt known.mp first)]

theorem bookedStale : booked n (.staleReturn n w :: journal) =
    { booked n journal with bad := (booked n journal).bad + 1 } := by
  simp [booked,spent,List.filterMap_cons,Nat.add_assoc]

theorem bookedReturned : booked n (.returned n w healthy held :: journal) =
    if healthy then
      { booked n journal with checkoutTime := (booked n journal).checkoutTime + held }
    else { booked n journal with bad := (booked n journal).bad + 1 } := by
  cases healthy with
  | true => simp [booked,spent,List.filterMap_cons,Event.span,Nat.add_comm]
  | false => simp [booked,spent,List.filterMap_cons,Nat.add_assoc]

theorem bookedGrows (n : Nat) (new journal : List Event) :
    (booked n journal).requests ≤ (booked n (new ++ journal)).requests ∧
    (booked n journal).hadToWait ≤ (booked n (new ++ journal)).hadToWait ∧
    (booked n journal).claimedOverdue ≤ (booked n (new ++ journal)).claimedOverdue ∧
    (booked n journal).created ≤ (booked n (new ++ journal)).created ∧
    (booked n journal).bad ≤ (booked n (new ++ journal)).bad := by
  have slept := (List.suffix_union_right (new.filterMap (Event.slept? n))
    (journal.filterMap (Event.slept? n)).dedup).length_le
  refine ⟨by simp [booked],?_,by simp [booked],by simp [booked],?_⟩
  · simp only [booked,List.filterMap_append,List.dedup_append]
    exact slept
  · simp only [booked,List.countP_append]
    omega

end Booked

namespace Pool
variable {σ : Type} {P : Platform σ} {n : Nat} {seeker : Seeker} {p q q' : Pool} {s t u : Shared σ}
  {w x : Wrapper} {event : Event}

def Booked (p : Pool) (s : Shared σ) : Prop :=
  p.counters = { booked p.number s.journal with closed := p.counters.closed }

theorem Booked.plain (before : p.Booked s) (counters : q.counters = p.counters)
    (number : q.number = p.number)
    (writes : s.Writes (fun e => e.isPlain ∨ e.pool? ≠ some p.number) t) : q.Booked t := by
  obtain ⟨new,grown,plain⟩ := writes
  unfold Booked at *
  rw [counters,number,grown,bookedSame plain]
  exact before

def Frames (change : Counters → Counters) : Prop :=
  ∀ (c : Counters) (closed : Nat), change { c with closed } = { change c with closed }

theorem Booked.note (before : p.Booked s) (change : Counters → Counters) (frames : Frames change)
    (books : booked p.number (event :: s.journal) = change (booked p.number s.journal)) :
    (p.count change).Booked (s.note event) := by
  unfold Booked at *
  have same : (p.count change).counters =
      { change (booked p.number s.journal) with closed := p.counters.closed } :=
    (congrArg change before).trans (frames _ _)
  have closed : (p.count change).counters.closed = p.counters.closed := by rw [same]
  rw [closed,same]
  exact congrArg (fun c : Counters => { c with closed := p.counters.closed }) books.symm

theorem Booked.discard (before : p.Booked s) (P : Platform σ) (w : Wrapper) :
    (p.discard P w s).1.Booked (p.discard P w s).2 := by
  have writes : s.Writes (fun e => e.isPlain ∨ e.pool? ≠ some p.number) (p.discard P w s).2 :=
    Shared.disposeWrites P p.number w.conn (s.invalidate w) (fun _ _ => .inl rfl) (.inl rfl)
  have after : p.Booked (p.discard P w s).2 := before.plain rfl rfl writes
  unfold Booked at *
  exact congrArg (fun c : Counters => { c with closed := p.counters.closed + 1 }) after

structure Books (n : Nat) (seeker : Seeker) (p : Pool) (s : Shared σ) : Prop where
  number : p.number = n
  booked : p.Booked s
  waited : s.journal.any (Event.sends n seeker.ticket) = seeker.hasWaited

namespace Books

theorem plain (books : Books n seeker p s) (counters : q.counters = p.counters)
    (number : q.number = p.number) (writes : s.Writes (·.isPlain) t) : Books n seeker q t where
  number := number.trans books.number
  booked := books.booked.plain counters number (writes.imp fun _ => .inl)
  waited := by
    obtain ⟨new,grown,plain⟩ := writes
    have none : new.any (Event.sends n seeker.ticket) = false := by
      rw [List.any_eq_false]
      intro e member sends
      have still := plain e member
      cases e <;> first | cases sends | cases still
    rw [grown,List.any_append,none,Bool.false_or]
    exact books.waited

theorem talks (books : Books n seeker p s) {m conn : Nat} (talks : s.Talks P (.pool m) conn t) :
    Books n seeker p t :=
  books.plain rfl rfl (talks.writes fun _ _ => rfl)

theorem note (books : Books n seeker p s) (change : Counters → Counters) (frames : Frames change)
    (same : ConnectionPool.booked p.number (event :: s.journal) =
      change (ConnectionPool.booked p.number s.journal))
    (silent : event.sends n seeker.ticket = false) :
    Books n seeker (p.count change) (s.note event) where
  number := books.number
  booked := books.booked.note change frames same
  waited := by
    simp only [Shared.note,List.any_cons,silent,Bool.false_or]
    exact books.waited

theorem discard (books : Books n seeker p s) (P : Platform σ) (w : Wrapper) :
    Books n seeker (p.discard P w s).1 (p.discard P w s).2 where
  number := books.number
  booked := books.booked.discard P w
  waited := by
    have writes : s.Writes (·.isPlain) (p.discard P w s).2 :=
      Shared.disposeWrites P p.number w.conn (s.invalidate w) (fun _ _ => rfl) rfl
    exact (books.plain (q := p) rfl rfl writes).waited

end Books

theorem picksBooks (books : Books n seeker p s) {pick : Pick} (picks : Picks P p s pick q t) :
    Books n seeker q t := by
  have opening {outside : σ} {v : Shared σ} {reply : Except Cause Unit}
      (setUp : (p.welcome outside s).setUp P (.pool p.number) s.opened p.source = (reply,v)) :
      Books n seeker p v := by
    have welcomed : s.Writes (·.isPlain) (p.welcome outside s) := ⟨[_],rfl,by simp [Event.isPlain]⟩
    exact (books.plain rfl rfl welcomed).talks ((Shared.setUpTalks ..).ends setUp)
  cases picks with
  | kept => exact books.plain rfl rfl (.nothing rfl)
  | nothing => exact books
  | refused => exact books.plain rfl rfl ⟨[_],rfl,by simp [Event.isPlain]⟩
  | @unfit cause outside v none room connect setUp =>
    exact (opening setUp).plain rfl rfl
      (Shared.disposeWrites P p.number s.opened v (fun _ _ => rfl) rfl)
  | @fresh outside v none room connect setUp =>
    have keyed : Books n seeker p v.newKey.2 := (opening setUp).plain rfl rfl (.nothing rfl)
    exact keyed.note (fun c => { c with created := c.created + 1 }) (fun _ _ => rfl) bookedCreated rfl
  | @overdue oldest rest none full lent late =>
    have struck : Books n seeker { p with active := rest } (s.invalidate oldest) :=
      books.plain rfl rfl (.nothing rfl)
    have taken := struck.note
      (fun c => { c with
        claimedOverdue := c.claimedOverdue + 1
        overdueTime := c.overdueTime + oldest.heldFor s.now
        checkoutTime := c.checkoutTime + oldest.heldFor s.now })
      (fun _ _ => rfl) (bookedReclaimed (w := oldest)) rfl
    exact (taken.talks (p.seizeTalks P oldest s)).plain rfl rfl ⟨[_],rfl,by simp [Event.isPlain]⟩

theorem stayBooks (P : Platform σ) (seeker : Seeker) (own : seeker.pool = n) :
    StayRule P seeker (Books n seeker) (fun _ => Books n seeker) (fun _ q t => q.Booked t) where
  finds books picks := picksBooks books picks
  misses books picks := picksBooks books picks
  blocks {q t} books _ bad := by
    subst own
    have again : booked q.number (.blocked seeker.pool seeker.ticket :: t.journal) =
        if seeker.hasWaited then booked q.number t.journal
        else { booked q.number t.journal with
          hadToWait := (booked q.number t.journal).hadToWait + 1 } := by
      -- The journal has sent the caller to sleep before if and only if the caller knows that it has.
      rw [← books.waited,books.number]
      exact bookedBlocked
    have counted : (if seeker.hasWaited then q
        else q.count fun c => { c with hadToWait := c.hadToWait + 1 }).Booked
        (t.note (.blocked seeker.pool seeker.ticket)) := by
      by_cases waited : seeker.hasWaited
      · rw [if_pos waited] at again ⊢
        exact books.booked.note id (fun _ _ => rfl) again
      · rw [if_neg waited] at again ⊢
        exact books.booked.note (fun c => { c with hadToWait := c.hadToWait + 1 }) (fun _ _ => rfl)
          again
    exact counted.plain rfl rfl (.nothing rfl)
  grants {w q t u} books good := by
    have called := books.talks ((admitsTalks ..).ends good)
    exact called.booked.note
      (fun c => { c with
        requests := c.requests + 1, requestTime := c.requestTime + (u.now - seeker.startedAt) })
      (fun _ _ => rfl) bookedGranted
  rejects {w q t u} books bad := by
    have called := books.talks ((admitsTalks ..).ends bad)
    have counted := called.note (fun c => { c with bad := c.bad + 1 }) (fun _ _ => rfl)
      (bookedRejected (w := w)) rfl
    exact counted.discard P w
  fails books error := books.booked.plain rfl rfl ⟨[_],rfl,by simp [Event.isPlain]⟩
  overruns books := books.booked

theorem enterBooked (P : Platform σ) (own : seeker.pool = p.number) (before : p.Booked s)
    (waited : s.journal.any (Event.sends p.number seeker.ticket) = seeker.hasWaited) :
    (p.enter P seeker s).2.1.Booked (p.enter P seeker s).2.2 :=
  (stayBooks P seeker own).enter
    (fun _ => before.plain rfl rfl ⟨[_],rfl,by simp [Event.isPlain]⟩) (fun _ => ⟨rfl,before,waited⟩)

theorem resumeBooked (P : Platform σ) {wait : Wait} (own : wait.seeker.pool = p.number)
    (before : p.Booked s)
    (waited : s.journal.any (Event.sends p.number wait.seeker.ticket) = wait.seeker.hasWaited) :
    (p.resume P wait s).2.1.Booked (p.resume P wait s).2.2 := by
  have risen : (p.lingered (s.now - wait.since)).Booked (p.rises wait s) :=
    before.note (fun c => { c with waitTime := c.waitTime + (s.now - wait.since) }) (fun _ _ => rfl)
      bookedResumed
  exact (stayBooks P wait.seeker own).resume
    (fun _ => risen.plain rfl rfl ⟨[_],rfl,by simp [Event.isPlain]⟩) (fun _ => ⟨rfl,risen,waited⟩)

theorem returnsBooked (before : p.Booked s) (returns : Returns P x p s q t) : q.Booked t := by
  have notified {r : Pool} {v : Shared σ} (kept : r.Booked v) (n : Nat) : r.Booked (v.notify n) :=
    kept.plain rfl rfl ⟨[_],rfl,by simp [Event.isPlain]⟩
  have found {v : Shared σ} {healthy : Bool}
      (inspected : (p.removeActive x).inspect P x s = (healthy,v)) : (p.removeActive x).Booked v :=
    before.plain rfl rfl (((inspectTalks ..).ends inspected).writes fun _ _ => .inl rfl)
  have checked {v : Shared σ} (inspected : (p.removeActive x).inspect P x s = (true,v)) :
      (p.checkIn x s.now).Booked (v.note (.returned p.number x true (x.heldFor s.now))) :=
    (found inspected).note (fun c => { c with checkoutTime := c.checkoutTime + x.heldFor s.now })
      (fun _ _ => rfl) (bookedReturned.trans (if_pos rfl))
  cases returns with
  | stale =>
    exact before.note (fun c => { c with bad := c.bad + 1 }) (fun _ _ => rfl) bookedStale
  | @unfit v lent inspected =>
    have counted : ((p.removeActive x).count fun c => { c with bad := c.bad + 1 }).Booked
        (v.note (.returned p.number x false (x.heldFor s.now))) :=
      (found inspected).note (fun c => { c with bad := c.bad + 1 }) (fun _ _ => rfl)
        (bookedReturned.trans (if_neg (by simp)))
    exact notified (counted.discard P x) p.number
  | @dropped u v lent inspected unwelcome =>
    have refused : (p.checkIn x s.now).Booked v :=
      (checked inspected).plain rfl rfl ((droppedTalks unwelcome).writes fun _ _ => .inl rfl)
    exact notified (refused.discard P x) p.number
  | @kept u v lent inspected welcome cleared =>
    have rolled := (Shared.rollbackTalks ..).ends cleared
    have present : (p.checkIn x s.now).Booked v :=
      (checked inspected).plain rfl rfl (rolled.writes fun _ _ => .inl rfl)
    have kept : ((p.checkIn x s.now).keep x v).1.Booked ((p.checkIn x s.now).keep x v).2 :=
      present.plain rfl rfl (.nothing rfl)
    exact notified kept p.number

theorem sweepBooked (P : Platform σ) (before : p.Booked s) :
    (p.sweep P s).1.Booked (p.sweep P s).2 := by
  refine discardAllKeeps (P := P) (p := p.swept P) (fun _ q t => q.Booked t)
    (fun booked => booked.discard P _) ?_
  exact before.plain rfl rfl ⟨[_],rfl,by simp [Event.isPlain]⟩

theorem closeAllBooked (P : Platform σ) (before : p.Booked s) :
    (p.closeAll P s).1.Booked (p.closeAll P s).2 :=
  (sweepBooked P before).plain rfl rfl ⟨[_],rfl,by simp [Event.isPlain]⟩

end Pool

namespace World
variable {σ : Type} {P : Platform σ} {Alters : (σ → σ) → Prop} {outside : σ} {w w' : World σ}
  {n slot : Nat} {p q r : Pool} {t : Shared σ} {h : Handle}

structure Counted (w : World σ) : Prop where
  booked {n : Nat} {p : Pool} (here : w.pools[n]? = some p) : p.Booked w.shared
  strangers : ∀ event ∈ w.shared.journal, ∀ n, event.pool? = some n → n < w.pools.length

theorem everyDated (attained : Attained P Alters outside w) : ∃ log, w.Dated log := by
  induction attained with
  | refl => exact ⟨[],datedInitial outside⟩
  | tail before turn ih =>
    obtain ⟨log,dated⟩ := ih
    exact ⟨_,datedTurn before dated turn⟩

theorem Dated.mem {log : Log} (dated : w.Dated log) {event : Event} :
    event ∈ w.shared.journal ↔ ∃ entry ∈ log, entry.2 = event := by
  rw [← dated.journal]
  exact List.mem_map

theorem waitedBefore (attained : Attained P Alters outside w) {y : Wait}
    (member : y ∈ w.shared.unfinished) :
    w.shared.journal.any (Event.sends y.seeker.pool y.seeker.ticket) = y.seeker.hasWaited := by
  obtain ⟨log,dated⟩ := everyDated attained
  obtain ⟨entry,found,_⟩ := Option.map_eq_some_iff.mp (dated.reads.attends.awaits y member).asleep
  rw [(everyCallerUnspoilt attained y member).waited,List.any_eq_true]
  have sends := List.find?_some found
  exact ⟨entry.2,dated.mem.mpr ⟨entry,List.mem_of_find?_eq_some found,rfl⟩,sends⟩

theorem newcomerUncounted (attained : Attained P Alters outside w) (n : Nat) :
    w.shared.journal.any (Event.sends n w.slots.length) = false := by
  obtain ⟨log,dated⟩ := everyDated attained
  rw [List.any_eq_false]
  intro event member sends
  obtain ⟨entry,inside,rfl⟩ := dated.mem.mp member
  exact Nat.lt_irrefl _ (dated.reads.attends.seated entry inside _ (Event.sendsTicket sends))

theorem signsPool {event : Event} {s : Shared σ} (signs : p.Signs s event) :
    event.pool? = some p.number := by
  cases event with
  | opened => exact congrArg some signs.1
  | call => rw [signs.1]; rfl
  | _ => exact signs

theorem countedPut (slots : List Slot) (counted : w.Counted) (numbered : w.Numbered)
    (here : w.pools[n]? = some p) (acts : r.Acts w.shared q t) (number : r.number = n) (booked : q.Booked t) :
    Counted { w.put n q t with slots } where
  booked {m r'} there := by
    rcases poolAtPut (s := t) there with ⟨rfl,rfl⟩ | ⟨apart,old⟩
    · exact booked
    · refine (counted.booked old).plain rfl rfl (acts.writes.imp fun event signs => .inr ?_)
      rw [signsPool signs,number,numbered old]
      exact fun same => apart (Option.some.inj same).symm
  strangers event member m signed := by
    have inside := (List.getElem?_eq_some_iff.mp here).1
    simp only [put,List.length_set]
    rcases acts.writes.mem member with old | signs
    · exact counted.strangers event old m signed
    · rw [signsPool signs,number] at signed
      exact Option.some.inj signed ▸ inside

theorem countedFrame (counted : w.Counted) (pools : w'.pools = w.pools)
    (writes : w.shared.Writes (fun event => event.pool? = none) w'.shared) : w'.Counted where
  booked here := by
    rw [pools] at here
    exact (counted.booked here).plain rfl rfl (writes.imp fun event own => .inr (by simp [own]))
  strangers event member n signed := by
    rcases writes.mem member with old | foreign
    · exact pools ▸ counted.strangers event old n signed
    · exact nomatch foreign.symm.trans signed

theorem countedLetGo (counted : w.Counted) (numbered : w.Numbered) (n : Nat) :
    (w.letGo P n).Counted := by
  rcases letGoCases (P := P) numbered n with ⟨same,_⟩ | ⟨p,_,here,_,swept⟩
  · rwa [same]
  · rw [swept]
    exact countedPut w.slots counted numbered here (p.sweepActs P w.shared) (numbered here)
      (Pool.sweepBooked P (counted.booked here))

theorem countedFound (counted : w.Counted) {p : Pool} (number : p.number = w.pools.length)
    (none : p.counters = {}) (doors : List (Option Nat)) :
    Counted { w with pools := w.pools ++ [p], doors } where
  booked {m r} there := by
    simp only [List.getElem?_append] at there
    split at there
    · exact counted.booked there
    · obtain rfl := List.mem_singleton.mp (List.mem_of_getElem? there)
      have unsigned : booked w.pools.length w.shared.journal = {} := by
        rw [← List.append_nil w.shared.journal]
        exact bookedSame fun event member => .inr fun signed =>
          Nat.lt_irrefl _ (counted.strangers event member _ signed)
      unfold Pool.Booked
      rw [number,unsigned,none]
  strangers event member n signed := by
    simp only [List.length_append,List.length_singleton]
    exact Nat.lt_succ_of_lt (counted.strangers event member n signed)

theorem countedTurn (attained : Attained P Alters outside w) (counted : w.Counted)
    (turn : Turn P Alters w w') : w'.Counted := by
  have known := numbered attained
  cases turn with
  | found source valid => exact countedFound counted rfl rfl _
  | noDoor | share | advance | tamper | stray => exact countedFrame counted rfl (.nothing rfl)
  | ask => exact countedFrame counted rfl ⟨[_],rfl,by simp [Event.pool?]⟩
  | @leave door n =>
    have left : Counted { w with doors := w.doors.set door none } :=
      countedFrame counted rfl (.nothing rfl)
    refine countedLetGo left ?_ n
    exact known
  | @get door n p behind here =>
    have own : (w.newSeeker door n).pool = p.number := (known here).symm
    exact countedPut _ counted known here (p.enterActs P own w.shared) (known here)
      (Pool.enterBooked P own (counted.booked here) (newcomerUncounted attained p.number))
  | @resume index wait p awake here =>
    have own : wait.seeker.pool = p.number := (known here).symm
    have mine : wait ∈ w.shared.unfinished := List.mem_append_right _ (List.mem_of_getElem? awake)
    have roused : (w.rouse index).Counted := countedFrame counted rfl (.nothing rfl)
    refine countedLetGo (w := w.seatResumed P index wait p) ?_ (numberedResumed known here index) _
    exact countedPut _ roused known here (p.resumeActs P own _) (known here)
      (Pool.resumeBooked P own (roused.booked here) (own ▸ waitedBefore attained mine))
  | @renew n p source settings closed behind here =>
    have number := known here
    have books := counted.booked here
    have before : Pool.Booked { p with source, settings, closed } w.shared := books
    exact countedPut w.slots counted known here (Pool.closeAllActs P _ w.shared) number
      (Pool.closeAllBooked P before)
  | @tolerance n p count behind here =>
    have acts : p.Acts w.shared (p.setTolerance count) w.shared :=
      (Pool.Acts.same p w.shared).lists (List.Subset.refl _)
    have books := counted.booked here
    exact countedPut w.slots counted known here acts (known here) books
  | @giveBack slot h p held first here =>
    have returns := p.releaseReturns P h.wrapper w.shared
    have acts := Pool.returnsActs (holderOwns (everyOwned attained) held here) returns
    exact countedPut _ counted known here acts (known here)
      (Pool.returnsBooked (counted.booked here) returns)
  | @vacate slot h held spent =>
    refine countedLetGo (w := w.setSlot slot .empty) ?_ ?_ _
    · exact countedFrame counted rfl (.nothing rfl)
    · exact known

theorem everyCounted (attained : Attained P Alters outside w) : w.Counted :=
  everyAttained ⟨fun here => by simp [initial] at here,by simp [initial,Shared.initial]⟩
    countedTurn attained

end World
end ConnectionPool
