import ConnectionPool.Proofs.Footprint
import ConnectionPool.Proofs.Ownership
/-! What never goes back, however the world goes on: keys and connections that were used up, pools
that were closed, and slots, each of which is filled once. -/
namespace ConnectionPool

inductive Slot.Becomes : Slot → Slot → Prop
  | same (content : Slot) : Becomes content content
  | filled (content : Slot) : Becomes .pending content
  | spent (h : Handle) : Becomes (.held h) (.held { h with released := true })
  | left (h : Handle) : Becomes (.held h) .empty

theorem Slot.Becomes.trans {a b c : Slot} (first : a.Becomes b) (second : b.Becomes c) :
    a.Becomes c := by
  cases first with
  | same => exact second
  | filled => exact .filled c
  | left => cases second; exact .left _
  | spent h =>
    cases second with
    | same | spent => exact .spent h
    | left => exact .left h

namespace World
variable {σ : Type} {P : Platform σ} {Alters : (σ → σ) → Prop} {outside : σ} {w w' w'' : World σ}
  {n slot : Nat} {p p' : Pool} {h k : Handle}

structure Ages (w w' : World σ) : Prop where
  keys : w.shared.nextKey ≤ w'.shared.nextKey
  live : ∀ key ∈ w'.shared.live, key ∈ w.shared.live ∨ w.shared.nextKey ≤ key
  opened : w.shared.opened ≤ w'.shared.opened
  pools {n : Nat} {p : Pool} (here : w.pools[n]? = some p) : ∃ p', w'.pools[n]? = some p' ∧
    (p.closed = true → p'.closed = true) ∧ ∀ x ∈ p'.tracked, p.Reaches w.shared x.conn
  slots {i : Nat} {a : Slot} (here : w.slots[i]? = some a) : ∃ b, w'.slots[i]? = some b ∧ a.Becomes b

theorem ownReach {x : Wrapper} (member : x ∈ p.tracked) : p.Reaches w.shared x.conn :=
  .inl (List.mem_map_of_mem member)

theorem unreached {m : Nat} {q : Pool} {x : Wrapper} (here : w.pools[n]? = some p)
    (mine : x ∈ p.tracked) (ledger : Ledger w.tracked w.shared) (there : w.pools[m]? = some q)
    (apart : m ≠ n) : ¬q.Reaches w.shared x.conn := by
  have tracked := memTracked.mpr ⟨n,p,here,mine⟩
  rintro (known | new)
  · obtain ⟨y,member,same⟩ := List.mem_map.mp known
    have other := memTracked.mpr ⟨m,q,there,member⟩
    obtain rfl := List.inj_on_of_nodup_map ledger.conns other tracked same
    exact apart (sameHome ledger there here member mine rfl)
  · exact absurd (ledger.opened x tracked) (Nat.not_lt.mpr new)

theorem Ages.trans (first : w.Ages w') (second : w'.Ages w'') : w.Ages w'' where
  keys := Nat.le_trans first.keys second.keys
  live key member := by
    rcases second.live key member with old | new
    · exact first.live key old
    · exact .inr (Nat.le_trans first.keys new)
  opened := Nat.le_trans first.opened second.opened
  pools here := by
    obtain ⟨q,between,stays,reaches⟩ := first.pools here
    obtain ⟨r,there,remains,reached⟩ := second.pools between
    refine ⟨r,there,remains ∘ stays,fun x member => ?_⟩
    rcases reached x member with had | new
    · obtain ⟨y,tracked,same⟩ := List.mem_map.mp had
      exact same ▸ reaches y tracked
    · exact .inr (Nat.le_trans first.opened new)
  slots here := by
    obtain ⟨b,between,becomes⟩ := first.slots here
    obtain ⟨c,there,later⟩ := second.slots between
    exact ⟨c,there,becomes.trans later⟩

theorem agesFrame (pools : ∀ {n : Nat} {p : Pool}, w.pools[n]? = some p → w'.pools[n]? = some p)
    (slots : w'.slots = w.slots) (live : w'.shared.live = w.shared.live)
    (keys : w'.shared.nextKey = w.shared.nextKey) (opened : w'.shared.opened = w.shared.opened) :
    w.Ages w' where
  keys := Nat.le_of_eq keys.symm
  live _ member := .inl (live ▸ member)
  opened := Nat.le_of_eq opened.symm
  pools here := ⟨_,pools here,id,fun _ => ownReach⟩
  slots here := ⟨_,slots ▸ here,.same _⟩

theorem agesPut {q : Pool} {s' : Shared σ} {slots : List Slot} (here : w.pools[n]? = some p)
    (lists : q.tracked = p.tracked) (acts : q.Acts w.shared p' s')
    (stays : p.closed = true → p'.closed = true)
    (seats : ∀ {i : Nat} {a : Slot}, w.slots[i]? = some a → ∃ b, slots[i]? = some b ∧ a.Becomes b) :
    w.Ages { w.put n p' s' with slots } where
  keys := acts.keys
  live := acts.live
  opened := acts.opened
  pools {m r} there := by
    by_cases own : m = n
    · subst own
      obtain rfl := Option.some.inj (there.symm.trans here)
      have inside := (List.getElem?_eq_some_iff.mp here).1
      refine ⟨p',List.getElem?_set_self inside,stays,fun x member => ?_⟩
      simpa only [Pool.Reaches,lists] using acts.has x member
    · exact ⟨r,(List.getElem?_set_ne (Ne.symm own)).trans there,id,fun _ => ownReach⟩
  slots := seats

theorem agesLetGo (numbered : w.Numbered) (n : Nat) : w.Ages (w.letGo P n) := by
  rcases letGoCases (P := P) numbered n with ⟨same,_⟩ | ⟨p,_,here,_,swept⟩
  · rw [same]
    exact agesFrame id rfl rfl rfl rfl
  · rw [swept]
    refine agesPut here rfl (Pool.sweepActs P p w.shared) ?_ fun there => ⟨_,there,.same _⟩
    rw [Pool.sweepAlike]
    exact id

theorem seatsSet {content : Slot} {a : Slot} (here : w.slots[slot]? = some a)
    (becomes : a.Becomes content) {i : Nat} {b : Slot} (there : w.slots[i]? = some b) :
    ∃ c, (w.slots.set slot content)[i]? = some c ∧ b.Becomes c := by
  by_cases own : i = slot
  · subst own
    obtain rfl := Option.some.inj (here.symm.trans there)
    exact ⟨content,List.getElem?_set_self (List.getElem?_eq_some_iff.mp here).1,becomes⟩
  · exact ⟨b,(List.getElem?_set_ne (Ne.symm own)).trans there,.same b⟩

theorem seatsAppend {content b : Slot} {i : Nat} (there : w.slots[i]? = some b) :
    ∃ c, (w.slots ++ [content])[i]? = some c ∧ b.Becomes c :=
  have inside := (List.getElem?_eq_some_iff.mp there).1
  ⟨b,(List.getElem?_append_left inside).trans there,.same b⟩

theorem agesTurn (numbered : w.Numbered) (queued : w.Queued) (owned : w.Owned)
    (turn : Turn P Alters w w') : w.Ages w' := by
  cases turn with
  | found source valid =>
    refine agesFrame (fun here => ?_) rfl rfl rfl rfl
    exact (List.getElem?_append_left (List.getElem?_eq_some_iff.mp here).1).trans here
  | noDoor | share | stray | ask | advance | tamper => exact agesFrame id rfl rfl rfl rfl
  | @leave door n known =>
    have left : w.Ages { w with doors := w.doors.set door none } := agesFrame id rfl rfl rfl rfl
    refine left.trans (agesLetGo ?_ n)
    exact numbered
  | @get door n p known here =>
    have own : (w.newSeeker door n).pool = p.number := (numbered here).symm
    have acts := p.enterActs P own w.shared
    exact agesPut here rfl acts (fun shut => (p.enterAlike P _ _).closed.trans shut) seatsAppend
  | @resume index wait p awake here =>
    have roused : w.Ages (w.rouse index) := agesFrame id rfl rfl rfl rfl
    have free := queued.seat awake
    have alike := p.resumeAlike P wait (w.rouse index).shared
    have acts := p.resumeActs P (numbered here).symm (w.rouse index).shared
    have seated : (w.rouse index).Ages ((w.rouse index).seat wait.seeker.pool
        (p.resume P wait (w.rouse index).shared) (w.slots.set wait.seeker.ticket)) :=
      agesPut here rfl acts (fun shut => alike.closed.trans shut) (seatsSet free (.filled _))
    refine (roused.trans seated).trans (agesLetGo ?_ _)
    exact numberedSeat (w := w.rouse index) numbered here alike
  | @renew n p source settings closed known here valid stays =>
    have acts := Pool.closeAllActs P { p with source, settings, closed } w.shared
    refine agesPut (q := { p with source, settings, closed }) here rfl acts ?_ fun there =>
      ⟨_,there,.same _⟩
    intro shut
    have swept := Pool.sweepAlike P { p with source, settings, closed } w.shared
    exact (congrArg Pool.closed swept).trans (stays shut)
  | @tolerance n p count known here =>
    have acts : p.Acts w.shared (p.setTolerance count) w.shared :=
      (Pool.Acts.same p w.shared).lists (List.Subset.refl _)
    exact agesPut here rfl acts id fun there => ⟨_,there,.same _⟩
  | @giveBack slot h p held first here =>
    have returns := p.releaseReturns P h.wrapper w.shared
    have acts := Pool.returnsActs (holderOwns owned held here) returns
    exact agesPut here rfl acts (fun shut => (Pool.returnsAlike returns).closed.trans shut)
      (seatsSet (handleAt.mp held) (.spent h))
  | @vacate slot h held spent =>
    have emptied : w.Ages (w.setSlot slot .empty) := {
      agesFrame id rfl rfl rfl rfl with slots := seatsSet (handleAt.mp held) (.left h) }
    refine emptied.trans (agesLetGo ?_ _)
    exact numbered

theorem agesTurns (attained : Attained P Alters outside w) (turns : Turns P Alters w w') :
    w.Ages w' := by
  induction turns with
  | refl => exact agesFrame id rfl rfl rfl rfl
  | tail before turn ih =>
    have middle := attained.trans before
    exact ih.trans (agesTurn (numbered middle) (everyCallerQueued middle) (everyOwned middle) turn)

theorem runTurns (attained : Attained P (fun _ => True) outside w) (moves : List (Move σ)) :
    Turns P (fun _ => True) w (w.run P moves) :=
  turnsRun (numbered attained) moves fun _ _ => trivial

theorem letGoSlots (w : World σ) (n : Nat) : (w.letGo P n).slots = w.slots := by
  unfold letGo
  split
  · rfl
  · split <;> rfl

def Housed (w : World σ) : Prop :=
  ∀ ⦃slot : Nat⦄ ⦃h : Handle⦄, w.handle? slot = some h → ∃ p, w.pools[h.pool]? = some p

theorem housedTurn (numbered : w.Numbered) (queued : w.Queued) (owned : w.Owned) (housed : w.Housed)
    (turn : Turn P Alters w w') : w'.Housed := by
  have ages := agesTurn numbered queued owned turn
  suffices before : ∀ ⦃slot : Nat⦄ ⦃h : Handle⦄, w'.handle? slot = some h →
      ∃ p, w.pools[h.pool]? = some p by
    intro slot h held
    obtain ⟨p,here⟩ := before held
    obtain ⟨p',there,_⟩ := ages.pools here
    exact ⟨p',there⟩
  intro slot h held
  cases turn with
  | found | noDoor | share | stray | ask | advance | tamper | renew | tolerance => exact housed held
  | leave =>
    rw [handleAt,letGoSlots] at held
    exact housed (handleAt.mpr held)
  | @get door n p known here =>
    rcases (getSeated n (p.enter P (w.newSeeker door n) w.shared)).stems held with old | ⟨_,x,_,rfl⟩
    · exact housed old
    · exact ⟨p,here⟩
  | @resume index wait p awake here =>
    rw [handleAt,letGoSlots] at held
    rcases (resumeSeated (P := P) queued awake p).stems (handleAt.mpr held) with old | ⟨_,x,_,rfl⟩
    · exact housed old
    · exact ⟨p,here⟩
  | giveBack given first here =>
    rcases handleAtSet held with ⟨_,same⟩ | ⟨_,old⟩
    · cases same
      exact ⟨_,here⟩
    · exact housed old
  | vacate given spent =>
    rw [handleAt,letGoSlots] at held
    rcases handleAtSet (handleAt.mpr held) with ⟨_,same⟩ | ⟨_,old⟩
    · cases same
    · exact housed old

theorem everyHandleHoused (attained : Attained P Alters outside w) : w.Housed := by
  refine everyAttained ?_ (fun before => housedTurn (numbered before) (everyCallerQueued before)
    (everyOwned before)) attained
  intro slot h held
  simp [World.initial,handle?] at held

end World
end ConnectionPool
