import Mathlib.Data.List.Perm.Basic
import ConnectionPool.Proofs.Custody
import ConnectionPool.Proofs.Queue
import ConnectionPool.Memory
/-! Who owns what: each lent wrapper has one holder, whose handle is valid until it is given back or
the wrapper is taken away, and no connection is in use under two wrappers. -/
namespace ConnectionPool.World
variable {σ : Type} {P : Platform σ} {Alters : (σ → σ) → Prop} {outside : σ} {w w' : World σ}
  {n m : Nat} {p p' q : Pool} {s' : Shared σ} {x y : Wrapper} {slot : Nat} {h : Handle}

def tracked (w : World σ) : List Wrapper := w.pools.flatMap Pool.tracked

def trackedElsewhere (w : World σ) (n : Nat) : List Wrapper :=
  (w.pools.eraseIdx n).flatMap Pool.tracked

theorem poolsPerm (here : w.pools[n]? = some p) : w.pools.Perm (p :: w.pools.eraseIdx n) := by
  obtain ⟨inside,rfl⟩ := List.getElem?_eq_some_iff.mp here
  exact (List.getElem_cons_eraseIdx_perm inside).symm

theorem poolsPut (here : w.pools[n]? = some p) (p' : Pool) (s' : Shared σ) :
    (w.put n p' s').pools.Perm (p' :: w.pools.eraseIdx n) :=
  List.set_perm_cons_eraseIdx (List.getElem?_eq_some_iff.mp here).1 p'

theorem trackedPerm (here : w.pools[n]? = some p) :
    w.tracked.Perm (p.tracked ++ w.trackedElsewhere n) :=
  (poolsPerm here).flatMap_right Pool.tracked

theorem memPools {lists : Pool → List Wrapper} :
    x ∈ w.pools.flatMap lists ↔ ∃ (n : Nat) (p : Pool), w.pools[n]? = some p ∧ x ∈ lists p := by
  rw [List.mem_flatMap]
  constructor
  · rintro ⟨p,known,member⟩
    obtain ⟨n,here⟩ := List.mem_iff_getElem?.mp known
    exact ⟨n,p,here,member⟩
  · rintro ⟨n,p,here,member⟩
    exact ⟨p,List.mem_of_getElem? here,member⟩

theorem memTracked :
    x ∈ w.tracked ↔ ∃ (n : Nat) (p : Pool), w.pools[n]? = some p ∧ x ∈ p.tracked :=
  memPools

theorem ledgerPut (ledger : Ledger w.tracked w.shared) (here : w.pools[n]? = some p)
    (acts : ∀ rest, Ledger (p.tracked ++ rest) w.shared → Ledger (p'.tracked ++ rest) s') :
    Ledger (w.put n p' s').tracked s' :=
  (acts _ (ledger.perm (trackedPerm here))).perm ((poolsPut here p' s').flatMap_right _).symm

theorem sameHome (ledger : Ledger w.tracked w.shared) (one : w.pools[n]? = some p)
    (other : w.pools[m]? = some q) (inOne : x ∈ p.tracked) (inOther : y ∈ q.tracked)
    (same : x.key = y.key) : n = m := by
  by_contra apart
  have elsewhere : y ∈ w.trackedElsewhere n :=
    List.mem_flatMap.mpr ⟨q,List.mem_eraseIdx_iff_getElem?.mpr ⟨m,Ne.symm apart,other⟩,inOther⟩
  have distinct := (ledger.perm (trackedPerm one)).distinct
  rw [List.map_append] at distinct
  exact List.disjoint_of_nodup_append distinct (List.mem_map_of_mem inOne)
    (same ▸ List.mem_map_of_mem elsewhere)

theorem ownKeys (ledger : Ledger w.tracked w.shared) (here : w.pools[n]? = some p) :
    (p.idle.map Wrapper.key ++ p.active.map Wrapper.key).Nodup := by
  have distinct := (ledger.perm (trackedPerm here)).distinct
  rw [Pool.tracked,List.map_append,List.map_append] at distinct
  exact (List.nodup_append.mp distinct).1

/-- Each lent wrapper has a holder; a handle is good for a wrapper that is lent, and for none that
another handle has. -/
structure Owned (w : World σ) : Prop where
  ledger : Ledger w.tracked w.shared
  lent {n : Nat} {p : Pool} {x : Wrapper} (here : w.pools[n]? = some p) (member : x ∈ p.active) :
    ∃ slot, w.handle? slot = some ⟨x,n,false⟩
  valid {slot : Nat} {h : Handle} (held : w.handle? slot = some h)
    (live : w.shared.IsLive h.wrapper) : h.released = false ∧ ∃ p, w.pools[h.pool]? = some p ∧ h.wrapper ∈ p.active
  used {slot : Nat} {h : Handle} (held : w.handle? slot = some h) :
    h.wrapper.key < w.shared.nextKey
  apart {i j : Nat} {h k : Handle} (one : w.handle? i = some h) (other : w.handle? j = some k)
    (same : h.wrapper.key = k.wrapper.key) : i = j

theorem trackedHolder (owned : w.Owned) (here : w.pools[n]? = some p) (member : y ∈ p.tracked)
    (held : w.handle? slot = some h) (same : h.wrapper.key = y.key) :
    h = ⟨y,n,false⟩ ∧ y ∈ p.active := by
  have tracked := memTracked.mpr ⟨n,p,here,member⟩
  have live : w.shared.IsLive h.wrapper := by
    unfold Shared.IsLive
    rw [same]
    exact owned.ledger.live tracked
  obtain ⟨first,q,there,lent⟩ := owned.valid held live
  have inQ : h.wrapper ∈ q.tracked := List.mem_append_right _ lent
  obtain rfl := sameHome owned.ledger there here inQ member same
  obtain rfl := Option.some.inj (there.symm.trans here)
  have own := owned.ledger.sameKey (memTracked.mpr ⟨_,q,there,inQ⟩) tracked same
  subst own
  refine ⟨?_,lent⟩
  cases h
  simp_all

theorem holderOwns (owned : w.Owned) (held : w.handle? slot = some h)
    (here : w.pools[h.pool]? = some p) : ∀ x ∈ p.active, x.key = h.wrapper.key → x = h.wrapper := by
  intro x member same
  have tracked : x ∈ p.tracked := List.mem_append_right _ member
  obtain ⟨only,_⟩ := trackedHolder owned here tracked held same.symm
  rw [only]

theorem idleUnheld (owned : w.Owned) (here : w.pools[n]? = some p) (member : y ∈ p.idle)
    (held : w.handle? slot = some h) : h.wrapper.key ≠ y.key := by
  intro same
  have tracked : y ∈ p.tracked := List.mem_append_left _ member
  have active := (trackedHolder owned here tracked held same).2
  exact List.disjoint_of_nodup_append (ownKeys owned.ledger here) (List.mem_map_of_mem member)
    (List.mem_map_of_mem active)

theorem unlentUnheld (owned : w.Owned) (here : w.pools[n]? = some p) (unlent : p.Unlent w.shared x)
    (held : w.handle? slot = some h) : h.wrapper.key ≠ x.key := by
  rcases unlent with idle | new
  · obtain ⟨y,member,same⟩ := List.mem_map.mp idle
    exact same ▸ idleUnheld owned here member held
  · exact Nat.ne_of_lt (Nat.lt_of_lt_of_le (owned.used held) new)

structure Seated (n : Nat) (granted? : Option Wrapper) (ticket : Nat) (w w' : World σ) : Prop where
  stays {i : Nat} {h : Handle} (held : w.handle? i = some h) : w'.handle? i = some h
  stems {i : Nat} {h : Handle} (held : w'.handle? i = some h) :
    w.handle? i = some h ∨ (i = ticket ∧ ∃ x, granted? = some x ∧ h = ⟨x,n,false⟩)
  seat {x : Wrapper} (granted : granted? = some x) : w'.handle? ticket = some ⟨x,n,false⟩

theorem sameSlotsSeated (n ticket : Nat) (same : w'.slots = w.slots) :
    Seated n none ticket w w' where
  stays held := by
    rw [handleAt,same]
    exact handleAt.mp held
  stems held := by
    rw [handleAt,same] at held
    exact .inl (handleAt.mpr held)
  seat granted := nomatch granted

theorem slotAfterSeated {ticket : Nat} {outcome : Outcome} (vacant : w.handle? ticket = none)
    (others : ∀ i, i ≠ ticket → w'.slots[i]? = w.slots[i]?)
    (after : w'.slots[ticket]? = some (slotAfter n outcome)) :
    Seated n outcome.wrapper? ticket w w' where
  stays {i h} held := by
    have other : i ≠ ticket := by
      rintro rfl
      cases vacant.symm.trans held
    rw [handleAt,others i other]
    exact handleAt.mp held
  stems {i h} held := by
    rw [handleAt] at held
    by_cases own : i = ticket
    · subst own
      have same := Option.some.inj (after.symm.trans held)
      cases outcome with
      | granted x => exact .inr ⟨rfl,x,rfl,(Slot.held.inj same).symm⟩
      | failed | blocked | overrun => cases same
    · rw [others i own] at held
      exact .inl (handleAt.mpr held)
  seat {x} granted := by
    rw [handleAt,after]
    cases outcome with
    | granted => rw [← Option.some.inj granted]; rfl
    | failed | blocked | overrun => cases granted

theorem getSeated (n : Nat) (stay : Outcome × Pool × Shared σ) :
    Seated n stay.1.wrapper? w.slots.length w (w.seat n stay fun slot => w.slots ++ [slot]) := by
  apply slotAfterSeated
  · simp [handle?]
  · intro i other
    rcases Nat.lt_or_gt_of_ne other with inside | beyond
    · exact List.getElem?_append_left inside
    · have outside : (w.slots ++ [slotAfter n stay.1]).length ≤ i := by
        simpa using Nat.succ_le_of_lt beyond
      exact (List.getElem?_eq_none outside).trans (List.getElem?_eq_none (Nat.le_of_lt beyond)).symm
  · simp [seat]

theorem resumeSeated {index : Nat} {wait : Wait} (queued : w.Queued)
    (awake : w.shared.woken[index]? = some wait) (p : Pool) :
    Seated wait.seeker.pool (p.resume P wait (w.rouse index).shared).1.wrapper? wait.seeker.ticket
      (w.rouse index) (w.seatResumed P index wait p) := by
  have free := queued.seat awake
  apply slotAfterSeated
  · simp [handle?,rouse,free]
  · intro i other
    exact List.getElem?_set_ne (Ne.symm other)
  · exact List.getElem?_set_self (List.getElem?_eq_some_iff.mp free).1

section Acts
variable {granted? : Option Wrapper} {ticket : Nat} {slots : List Slot} (owned : w.Owned)
  (here : w.pools[n]? = some p) (lends : Pool.Lends p w.shared granted? p' s')
  (seated : Seated n granted? ticket w { w.put n p' s' with slots })
include owned here lends seated

theorem lentAfter (there : (w.put n p' s').pools[m]? = some q) (member : x ∈ q.active) :
    ∃ slot, handle? { w.put n p' s' with slots } slot = some ⟨x,m,false⟩ := by
  rcases poolAtPut there with ⟨rfl,rfl⟩ | ⟨_,there⟩
  · rcases lends.active x member with old | granted
    · obtain ⟨slot,held⟩ := owned.lent here old
      exact ⟨slot,seated.stays held⟩
    · exact ⟨ticket,seated.seat granted⟩
  · obtain ⟨slot,held⟩ := owned.lent there member
    exact ⟨slot,seated.stays held⟩

theorem validAfter (ledger : Ledger (w.put n p' s').tracked s')
    (held : handle? { w.put n p' s' with slots } slot = some h) (live : s'.IsLive h.wrapper) :
    h.released = false ∧ ∃ q, (w.put n p' s').pools[h.pool]? = some q ∧ h.wrapper ∈ q.active := by
  rcases seated.stems held with old | ⟨_,x,granted,rfl⟩
  -- A wrapper in use has the key of the handle; only a lent one can have been this handle's.
  · obtain ⟨y,known,same⟩ := ledger.tracked live
    obtain ⟨m,q,there,member⟩ := memTracked.mp known
    rcases poolAtPut there with ⟨rfl,rfl⟩ | ⟨_,before⟩
    · rcases List.mem_append.mp member with idle | active
      · rcases lends.idle y idle with kept | new
        · exact absurd same.symm (idleUnheld owned here kept old)
        · exact absurd same.symm (Nat.ne_of_lt (Nat.lt_of_lt_of_le (owned.used old) new))
      · rcases lends.active y active with kept | granted
        · have tracked : y ∈ p.tracked := List.mem_append_right _ kept
          obtain ⟨rfl,_⟩ := trackedHolder owned here tracked old same.symm
          exact ⟨rfl,q,there,active⟩
        · have unlent := (lends.granted y granted).2
          exact absurd same.symm (unlentUnheld owned here unlent old)
    · obtain ⟨rfl,active⟩ := trackedHolder owned before member old same.symm
      exact ⟨rfl,q,there,active⟩
  · have present : (w.put n p' s').pools[n]? = some p' :=
      List.getElem?_set_self (List.getElem?_eq_some_iff.mp here).1
    exact ⟨rfl,p',present,(lends.granted x granted).1⟩

theorem usedAfter (ledger : Ledger (w.put n p' s').tracked s')
    (held : handle? { w.put n p' s' with slots } slot = some h) : h.wrapper.key < s'.nextKey := by
  rcases seated.stems held with old | ⟨_,x,granted,rfl⟩
  · exact Nat.lt_of_lt_of_le (owned.used old) lends.keys
  · have present : (w.put n p' s').pools[n]? = some p' :=
      List.getElem?_set_self (List.getElem?_eq_some_iff.mp here).1
    have active := (lends.granted x granted).1
    have tracked := memTracked.mpr ⟨n,p',present,List.mem_append_right _ active⟩
    exact ledger.used _ (ledger.live tracked)

theorem apartAfter {i j : Nat} {h k : Handle}
    (one : handle? { w.put n p' s' with slots } i = some h)
    (other : handle? { w.put n p' s' with slots } j = some k)
    (same : h.wrapper.key = k.wrapper.key) : i = j := by
  rcases seated.stems one with oldOne | ⟨rfl,x,granted,rfl⟩
  · rcases seated.stems other with oldOther | ⟨rfl,x,granted,rfl⟩
    · exact owned.apart oldOne oldOther same
    · exact absurd same (unlentUnheld owned here (lends.granted x granted).2 oldOne)
  · rcases seated.stems other with oldOther | ⟨rfl,_⟩
    · exact absurd same.symm (unlentUnheld owned here (lends.granted x granted).2 oldOther)
    · rfl

theorem ownedPut
    (acts : ∀ rest, Ledger (p.tracked ++ rest) w.shared → Ledger (p'.tracked ++ rest) s') :
    Owned { w.put n p' s' with slots } where
  ledger := ledgerPut owned.ledger here acts
  lent there member := lentAfter owned here lends seated there member
  valid held live :=
    validAfter owned here lends seated (ledgerPut owned.ledger here acts) held live
  used held := usedAfter owned here lends seated (ledgerPut owned.ledger here acts) held
  apart one other same := apartAfter owned here lends seated one other same

end Acts

theorem ownedFrame (owned : w.Owned) (live : s'.live = w.shared.live)
    (nextKey : s'.nextKey = w.shared.nextKey) (opened : w.shared.opened ≤ s'.opened)
    (nextId : w.shared.nextId ≤ s'.nextId) : Owned { w with shared := s' } where
  ledger := owned.ledger.frame live nextKey opened nextId
  lent here member := owned.lent here member
  valid held valid := by
    unfold Shared.IsLive at valid
    rw [live] at valid
    exact owned.valid held valid
  used held := nextKey ▸ owned.used held
  apart one other same := owned.apart one other same

theorem ownedSpend (owned : w.Owned) (held : w.handle? slot = some h)
    (dead : ¬w.shared.IsLive h.wrapper) {content : Slot}
    (own : ∀ k, content = .held k → k.wrapper = h.wrapper) : (w.setSlot slot content).Owned where
  ledger := owned.ledger
  lent {n p x} here member := by
    obtain ⟨i,lent⟩ := owned.lent here member
    have other : i ≠ slot := by
      rintro rfl
      obtain rfl := Option.some.inj (held.symm.trans lent)
      have tracked := memTracked.mpr ⟨n,p,here,List.mem_append_right _ member⟩
      exact dead (owned.ledger.live tracked)
    exact ⟨i,(handleElsewhere content other).trans lent⟩
  valid {i k} there live := by
    rcases handleAtSet there with ⟨rfl,same⟩ | ⟨_,old⟩
    · exact absurd (own k same ▸ live) dead
    · exact owned.valid old live
  used {i k} there := by
    rcases handleAtSet there with ⟨rfl,same⟩ | ⟨_,old⟩
    · rw [own k same]
      exact owned.used held
    · exact owned.used old
  apart {i j k l} one other same := by
    rcases handleAtSet one with ⟨rfl,mine⟩ | ⟨_,oldOne⟩
    · rcases handleAtSet other with ⟨rfl,_⟩ | ⟨_,oldOther⟩
      · rfl
      · exact owned.apart held oldOther (own k mine ▸ same)
    · rcases handleAtSet other with ⟨rfl,mine⟩ | ⟨_,oldOther⟩
      · exact owned.apart oldOne held (own l mine ▸ same)
      · exact owned.apart oldOne oldOther same

theorem ownedLetGo (owned : w.Owned) (numbered : w.Numbered) (n : Nat) : (w.letGo P n).Owned := by
  rcases letGoCases (P := P) numbered n with ⟨same,_⟩ | ⟨p,_,here,_,swept⟩
  · rwa [same]
  · rw [swept]
    exact ownedPut owned here (p.sweepLends P p w.shared) (sameSlotsSeated n 0 rfl)
      fun _ => Pool.sweepLedger P

theorem ownedFound (owned : w.Owned) {p : Pool} (none : p.tracked = []) (doors : List (Option Nat)) :
    Owned { w with pools := w.pools ++ [p], doors } where
  ledger := by
    refine owned.ledger.perm (.of_eq ?_)
    simp [tracked,none]
  lent {n q x} there member := by
    simp only [List.getElem?_append] at there
    split at there
    · exact owned.lent there member
    · obtain rfl := List.mem_singleton.mp (List.mem_of_getElem? there)
      have tracked : x ∈ q.tracked := List.mem_append_right _ member
      exact absurd (none ▸ tracked) List.not_mem_nil
  valid held live := by
    obtain ⟨first,q,there,lent⟩ := owned.valid held live
    refine ⟨first,q,?_,lent⟩
    exact (List.getElem?_append_left (List.getElem?_eq_some_iff.mp there).1).trans there
  used held := owned.used held
  apart one other same := owned.apart one other same

theorem ownedSeatResumed {index : Nat} {wait : Wait} (queued : w.Queued) (owned : w.Owned)
    (awake : w.shared.woken[index]? = some wait) (here : w.pools[wait.seeker.pool]? = some p) :
    (w.seatResumed P index wait p).Owned := by
  have roused : (w.rouse index).Owned :=
    ownedFrame owned rfl rfl (Nat.le_refl _) (Nat.le_refl _)
  have seated := resumeSeated (P := P) queued awake p
  exact ownedPut roused here (p.resumeLends P wait _) seated fun _ => Pool.resumeLedger P wait

theorem ownedVacate (owned : w.Owned) (held : w.handle? slot = some h)
    (spent : h.released = true ∨ w.pools[h.pool]? = none) : (w.setSlot slot .empty).Owned := by
  have dead : ¬w.shared.IsLive h.wrapper := by
    intro live
    obtain ⟨first,p,here,_⟩ := owned.valid held live
    simp_all
  exact ownedSpend owned held dead (by simp)

theorem ownedGiveBack (owned : w.Owned) (held : w.handle? slot = some h)
    (here : w.pools[h.pool]? = some p) (returned : Pool.Returns P h.wrapper p w.shared p' s') :
    ((w.put h.pool p' s').setSlot slot (.held { h with released := true })).Owned := by
  have own := holderOwns owned held here
  have after : (w.put h.pool p' s').Owned :=
    ownedPut owned here (Pool.returnsLends returned) (sameSlotsSeated h.pool 0 rfl)
      fun _ before => Pool.returnsLedger before own returned
  refine ownedSpend after held ?_ (by simp)
  intro live
  obtain ⟨_,q,there,lent⟩ := after.valid held live
  rcases poolAtPut there with ⟨_,rfl⟩ | ⟨apart,_⟩
  · have once := (List.nodup_append.mp (ownKeys owned.ledger here)).2.1
    exact Pool.returnsAway once returned (List.mem_map_of_mem lent)
  · exact absurd rfl apart

theorem ownedTurn (numbered : w.Numbered) (queued : w.Queued) (owned : w.Owned)
    (turn : Turn P Alters w w') : w'.Owned := by
  cases turn with
  | found source valid => exact ownedFound owned rfl _
  | noDoor | share => exact ⟨owned.ledger,owned.lent,owned.valid,owned.used,owned.apart⟩
  | ask | tamper | stray | advance =>
    exact ownedFrame owned rfl rfl (Nat.le_refl _) (Nat.le_refl _)
  | leave =>
    apply ownedLetGo
    · exact ⟨owned.ledger,owned.lent,owned.valid,owned.used,owned.apart⟩
    · exact numbered
  | @get door n p known here =>
    exact ownedPut owned here (p.enterLends P _ _) (getSeated n _) fun _ => Pool.enterLedger P _
  | @resume index wait p awake here =>
    apply ownedLetGo
    · exact ownedSeatResumed queued owned awake here
    · exact numberedResumed numbered here index
  | @renew n p source settings closed known here =>
    let renewed : Pool := { p with source, settings, closed }
    exact ownedPut owned here (renewed.closeAllLends P p w.shared) (sameSlotsSeated n 0 rfl)
      fun _ before => renewed.closeAllLedger P before
  | @tolerance n p count known here =>
    have lends : Pool.Lends p w.shared none (p.setTolerance count) w.shared :=
      Pool.lendsNothing (Nat.le_refl _) (List.Subset.refl _) (List.Subset.refl _)
    exact ownedPut owned here lends (sameSlotsSeated n 0 rfl) fun _ before => before
  | giveBack held first here => exact ownedGiveBack owned held here (Pool.releaseReturns ..)
  | vacate held spent =>
    apply ownedLetGo
    · exact ownedVacate owned held spent
    · exact numbered

theorem everyOwned (attained : Attained P Alters outside w) : w.Owned := by
  refine everyAttained ?_ (fun before => ownedTurn (numbered before) (everyCallerQueued before))
    attained
  refine ⟨.empty _ rfl,?_,?_,?_,?_⟩ <;> simp [World.initial,handle?]

def lentIn (s : Shared σ) (n : Nat) : Slot → Option Wrapper
  | .held h => if h.pool = n ∧ h.released = false ∧ s.IsLive h.wrapper then some h.wrapper else none
  | _ => none

def lent (w : World σ) (n : Nat) : List Wrapper := w.slots.filterMap (lentIn w.shared n)

theorem lentInSome {s : Shared σ} {content : Slot} :
    lentIn s n content = some x ↔ content = .held ⟨x,n,false⟩ ∧ s.IsLive x := by
  constructor
  · intro found
    cases content with
    | held h =>
      simp only [lentIn] at found
      split at found
      · rename_i good
        obtain ⟨rfl,first,live⟩ := good
        cases found
        exact ⟨by rw [← first],live⟩
      · cases found
    | pending | empty => cases found
  · rintro ⟨rfl,live⟩
    simp [lentIn,live]

theorem memLent :
    x ∈ w.lent n ↔ ∃ slot, w.handle? slot = some ⟨x,n,false⟩ ∧ w.shared.IsLive x := by
  simp only [lent,List.mem_filterMap,lentInSome,handleAt]
  constructor
  · rintro ⟨content,known,rfl,live⟩
    obtain ⟨slot,held⟩ := List.mem_iff_getElem?.mp known
    exact ⟨slot,held,live⟩
  · rintro ⟨slot,held,live⟩
    exact ⟨_,List.mem_of_getElem? held,rfl,live⟩

theorem lentNodup (owned : w.Owned) (n : Nat) : (w.lent n).Nodup := by
  refine List.pairwise_filterMap.mpr (List.pairwise_iff_getElem.mpr ?_)
  intro i j inOne inOther before x one y other same
  subst same
  have first := (lentInSome.mp one).1
  have second := (lentInSome.mp other).1
  have place : i = j := by
    refine owned.apart (h := ⟨x,n,false⟩) (k := ⟨x,n,false⟩) ?_ ?_ rfl
    · rw [handleAt,List.getElem?_eq_getElem inOne,first]
    · rw [handleAt,List.getElem?_eq_getElem inOther,second]
  exact absurd place (Nat.ne_of_lt before)

theorem lentPerm (owned : w.Owned) (here : w.pools[n]? = some p) :
    (w.lent n).Perm p.active := by
  have once := (List.nodup_append.mp (ownKeys owned.ledger here)).2.1
  refine (List.perm_ext_iff_of_nodup (lentNodup owned n) once.of_map).mpr fun x => ?_
  rw [memLent]
  constructor
  · rintro ⟨slot,held,live⟩
    obtain ⟨_,q,there,active⟩ := owned.valid held live
    obtain rfl := Option.some.inj (there.symm.trans here)
    exact active
  · intro active
    obtain ⟨slot,held⟩ := owned.lent here active
    have tracked := memTracked.mpr ⟨n,p,here,List.mem_append_right _ active⟩
    exact ⟨slot,held,owned.ledger.live tracked⟩

theorem sameConn (owned : w.Owned) (one : x ∈ w.tracked) (other : y ∈ w.tracked)
    (same : x.conn = y.conn) : x = y :=
  List.inj_on_of_nodup_map owned.ledger.conns one other same

/-- What a pool has lent is what its valid handles hold, one each; what the pools lend and keep is
valid, and wraps different connections of different identities. So valid handles share no connection,
and none of them reaches one that is kept. -/
structure OwnedOnce (w : World σ) : Prop where
  lent {n : Nat} {p : Pool} (here : w.pools[n]? = some p) : (w.lent n).Perm p.active
  live {x : Wrapper} (tracked : x ∈ w.tracked) : w.shared.IsLive x
  conns : (w.tracked.map Wrapper.conn).Nodup
  ids : (w.tracked.map Wrapper.id).Nodup
  unshared {i j : Nat} {h k : Handle} (one : w.handle? i = some h) (other : w.handle? j = some k)
    (liveOne : w.shared.IsLive h.wrapper) (liveOther : w.shared.IsLive k.wrapper)
    (same : h.wrapper.conn = k.wrapper.conn) : i = j
  unkept {i : Nat} {h : Handle} (held : w.handle? i = some h) (live : w.shared.IsLive h.wrapper)
    {p : Pool} (member : p ∈ w.pools) {x : Wrapper} (idle : x ∈ p.idle) :
    x.conn ≠ h.wrapper.conn

theorem connectionsOwnedOnce (reachable : w.Reachable P) : w.OwnedOnce := by
  obtain ⟨_,attained⟩ := reachableAttained reachable
  have owned := everyOwned attained
  have inUse {i : Nat} {h : Handle} (held : w.handle? i = some h)
      (live : w.shared.IsLive h.wrapper) : h.wrapper ∈ w.tracked := by
    obtain ⟨_,p,here,active⟩ := owned.valid held live
    exact memTracked.mpr ⟨h.pool,p,here,List.mem_append_right _ active⟩
  refine ⟨lentPerm owned,owned.ledger.live,owned.ledger.conns,owned.ledger.ids,?_,?_⟩
  · intro i j h k one other liveOne liveOther same
    have alike := sameConn owned (inUse one liveOne) (inUse other liveOther) same
    exact owned.apart one other (congrArg Wrapper.key alike)
  · intro i h held live p member x idle same
    obtain ⟨n,here⟩ := List.mem_iff_getElem?.mp member
    have tracked := memTracked.mpr ⟨n,p,here,List.mem_append_left _ idle⟩
    have alike := sameConn owned tracked (inUse held live) same
    exact idleUnheld owned here idle held (congrArg Wrapper.key alike.symm)

def returnedOnce : World Memory.Server :=
  World.run Memory.platform [.create {} {},.get 0,.get 0,.release 0] (.initial {})

theorem connectionsOwnedOnceReturned :
    ∃ p, returnedOnce.pools[0]? = some p ∧ p.idle.map Wrapper.conn = [0] ∧
      (returnedOnce.lent 0).map Wrapper.conn = [1] ∧ (returnedOnce.lent 0).Perm p.active ∧
      (returnedOnce.tracked.map Wrapper.conn).Nodup := by
  have reachable : returnedOnce.Reachable Memory.platform := reachableRun (.initial _) _
  have owned := connectionsOwnedOnce reachable
  have here : ∃ p, returnedOnce.pools[0]? = some p ∧ p.idle.map Wrapper.conn = [0] :=
    ⟨_,rfl,by decide⟩
  obtain ⟨p,here,idle⟩ := here
  exact ⟨p,here,idle,by decide,owned.lent here,owned.conns⟩

end ConnectionPool.World
