import Mathlib.Logic.Relation
import ConnectionPool.Proofs.Moves
/-! Every move comes down to turns, each of which does one thing to the world. An invariant is shown
turn by turn and then holds of every world that can come about. -/
namespace ConnectionPool.World
variable {σ : Type} {P : Platform σ} {Alters : (σ → σ) → Prop} {outside : σ} {w w' : World σ}

/-- One thing that happens to the world. Its hypotheses say what is known where it happens; the
outside changes by itself only in the ways that are told. -/
inductive Turn (P : Platform σ) (Alters : (σ → σ) → Prop) (w : World σ) : World σ → Prop
  | found (source : DataSource) {settings} (valid : settings.Valid) :
      Turn P Alters w { w with
        pools := w.pools ++ [.create P w.pools.length source settings w.shared.now]
        doors := w.doors ++ [some w.pools.length] }
  | noDoor : Turn P Alters w { w with doors := w.doors ++ [none] }
  | share {n} (known : some n ∈ w.doors) : Turn P Alters w { w with doors := w.doors ++ [some n] }
  | leave {door n} (known : w.doors[door]? = some (some n)) :
      Turn P Alters w ({ w with doors := w.doors.set door none }.letGo P n)
  | get (door : Nat) {n p} (known : some n ∈ w.doors) (here : w.pools[n]? = some p) :
      Turn P Alters w
        (w.seat n (p.enter P (w.newSeeker door n) w.shared) fun slot => w.slots ++ [slot])
  | resume {index wait p} (awake : w.shared.woken[index]? = some wait)
      (here : w.pools[wait.seeker.pool]? = some p) :
      Turn P Alters w
        (((w.rouse index).seat wait.seeker.pool (p.resume P wait (w.rouse index).shared)
          (w.slots.set wait.seeker.ticket)).letGo P wait.seeker.pool)
  | stray {index wait} (awake : w.shared.woken[index]? = some wait)
      (away : w.pools[wait.seeker.pool]? = none) : Turn P Alters w (w.rouse index)
  | renew {n p} (source : DataSource) (settings : Settings) (closed : Bool)
      (known : some n ∈ w.doors) (here : w.pools[n]? = some p)
      (valid : p.settings.Valid → settings.Valid) (stays : p.closed → closed) :
      Turn P Alters w (w.put n ({ p with source, settings, closed }.closeAll P w.shared).1
        ({ p with source, settings, closed }.closeAll P w.shared).2)
  | tolerance {n p} (count : UInt32) (known : some n ∈ w.doors) (here : w.pools[n]? = some p) :
      Turn P Alters w (w.put n (p.setTolerance count) w.shared)
  | giveBack {slot h p} (held : w.handle? slot = some h) (first : h.released = false)
      (here : w.pools[h.pool]? = some p) :
      Turn P Alters w
        ((w.put h.pool (p.release P h.wrapper w.shared).1 (p.release P h.wrapper w.shared).2).setSlot
          slot (.held { h with released := true }))
  | vacate {slot h} (held : w.handle? slot = some h)
      (spent : h.released = true ∨ w.pools[h.pool]? = none) :
      Turn P Alters w ((w.setSlot slot .empty).letGo P h.pool)
  | ask {slot h} (held : w.handle? slot = some h) (live : w.shared.IsLive h.wrapper)
      (request : Request) :
      Turn P Alters w { w with
        shared := (w.shared.ask P (.holder h.wrapper.key) h.wrapper.conn request).2 }
  | advance (time : Nat) : Turn P Alters w (w.advance time)
  | tamper {change} (allowed : Alters change) : Turn P Alters w (w.tamper change)

abbrev Step (P : Platform σ) (Alters : (σ → σ) → Prop) : World σ → World σ → Prop :=
  Relation.ReflGen (Turn P Alters)

abbrev Turns (P : Platform σ) (Alters : (σ → σ) → Prop) : World σ → World σ → Prop :=
  Relation.ReflTransGen (Turn P Alters)

abbrev Attained (P : Platform σ) (Alters : (σ → σ) → Prop) (outside : σ) : World σ → Prop :=
  Turns P Alters (.initial outside)

theorem numberedTurn (numbered : w.Numbered) (turn : Turn P Alters w w') : w'.Numbered := by
  cases turn with
  | found source valid =>
    intro n p here
    simp only [List.getElem?_append] at here
    split at here
    · exact numbered here
    · rename_i beyond
      obtain ⟨inside,rfl⟩ := List.getElem?_eq_some_iff.mp here
      simp at inside ⊢
      simp only [Pool.create]
      omega
  | noDoor | share | ask | advance | tamper => exact numbered
  | leave =>
    apply numberedLetGo
    exact numbered
  | get door known here => exact numberedSeat numbered here (Pool.enterAlike ..)
  | @resume index wait p awake here =>
    apply numberedLetGo
    exact numberedSeat (w := w.rouse index) numbered here (p.resumeAlike P wait _)
  | stray => exact numbered
  | renew source settings closed known here =>
    exact numberedPut numbered here (Pool.sweepNumber ..)
  | tolerance count known here => exact numberedPut numbered here rfl
  | @giveBack slot h p held first here =>
    have alike := Pool.returnsAlike (p.releaseReturns P h.wrapper w.shared)
    exact numberedPut (s := (p.release P h.wrapper w.shared).2) numbered here alike.number
  | vacate =>
    apply numberedLetGo
    exact numbered

theorem releaseStep {slot : Nat} {h : Handle} (numbered : w.Numbered)
    (held : w.handle? slot = some h) : Step P Alters w (w.release P slot h) := by
  unfold release
  split
  · exact .refl
  · rename_i first
    cases here : w.pools[h.pool]? with
    | none => exact .refl
    | some p =>
      simp only [visitPut numbered here]
      exact .single (.giveBack held (by simpa using first) here)

theorem releaseTurns {slot : Nat} {h : Handle} (numbered : w.Numbered)
    (held : w.handle? slot = some h) : Turns P Alters w (w.release P slot h) :=
  (releaseStep numbered held).to_reflTransGen

theorem dropTurns {slot : Nat} {h : Handle} (numbered : w.Numbered)
    (held : w.handle? slot = some h) : Turns P Alters w (w.drop P slot h) := by
  have given : Turns P Alters w (w.release P slot h) := releaseTurns numbered held
  unfold World.drop
  cases here : w.pools[h.pool]? with
  | none =>
    rw [releaseHomeless slot here]
    exact .single (.vacate held (.inr here))
  | some p =>
    -- A handle that is given back stays in its slot, marked as released, until it is let go.
    exact given.tail
      (.vacate (h := { h with released := true }) (releaseSpends held here) (.inl rfl))

theorem renewsTurn {m : Move σ} {n : Nat} {p r : Pool} (here : w.pools[n]? = some p)
    (renews : w.Renews P n p m r) :
    Turn P Alters w (w.put n (r.closeAll P w.shared).1 (r.closeAll P w.shared).2) := by
  obtain ⟨source,settings,closed,rfl,valid,stays⟩ := renewsFrom renews
  obtain ⟨_,_,behind⟩ := renewsBehind renews
  exact .renew source settings closed (List.mem_of_getElem? behind) here valid stays

/-- Only to drop a handle takes two turns: it is given back, then its slot is emptied. -/
theorem moveStep (numbered : w.Numbered) (m : Move σ) (other : ∀ slot, m ≠ .drop slot)
    (allowed : ∀ change, m = .tamper change → Alters change) : Step P Alters w (w.move P m) := by
  have makes := moveMakes (P := P) numbered m
  generalize w.move P m = w' at makes ⊢
  cases makes with
  | nothing => exact .refl
  | noPool => exact .single .noDoor
  | found _ valid => exact .single (.found _ valid)
  | share behind => exact .single (.share (List.mem_of_getElem? behind))
  | leave behind => exact .single (.leave behind)
  | get behind here => exact .single (.get _ (List.mem_of_getElem? behind) here)
  | stray awake away => exact .single (.stray awake away)
  | resume awake here => exact .single (.resume awake here)
  | renew here renews => exact .single (renewsTurn here renews)
  | tolerance behind here => exact .single (.tolerance _ (List.mem_of_getElem? behind) here)
  | release held => exact releaseStep numbered held
  | drop => exact absurd rfl (other _)
  | call _ held live => exact .single (.ask held live _)
  | advance time => exact .single (.advance time)
  | tamper change => exact .single (.tamper (allowed change rfl))

theorem moveTurns (numbered : w.Numbered) (m : Move σ)
    (allowed : ∀ change, m = .tamper change → Alters change) : Turns P Alters w (w.move P m) := by
  by_cases drops : ∃ slot, m = .drop slot
  · obtain ⟨slot,rfl⟩ := drops
    exact atSlotCases .refl fun held => dropTurns numbered held
  · have other : ∀ slot, m ≠ .drop slot := fun slot same => drops ⟨slot,same⟩
    exact (moveStep numbered m other allowed).to_reflTransGen

theorem everyAttained {Holds : World σ → Prop} (start : Holds (.initial outside))
    (step : ∀ {w w'}, Attained P Alters outside w → Holds w → Turn P Alters w w' → Holds w')
    (attained : Attained P Alters outside w) : Holds w := by
  induction attained with
  | refl => exact start
  | tail before turn ih => exact step before ih turn

theorem numberedInitial (outside : σ) : (initial outside).Numbered := by
  intro n p here
  simp [World.initial] at here

theorem numbered (attained : Attained P Alters outside w) : w.Numbered :=
  everyAttained (numberedInitial outside) (fun _ before turn => numberedTurn before turn) attained

theorem numberedTurns (numbered : w.Numbered) (turns : Turns P Alters w w') : w'.Numbered := by
  induction turns with
  | refl => exact numbered
  | tail _ turn ih => exact numberedTurn ih turn

theorem turnsRun (numbered : w.Numbered) (moves : List (Move σ))
    (allowed : ∀ change, .tamper change ∈ moves → Alters change) :
    Turns P Alters w (w.run P moves) := by
  induction moves generalizing w with
  | nil => exact .refl
  | cons m rest ih =>
    have first : Turns P Alters w (w.move P m) :=
      moveTurns numbered m fun change same => allowed change (same ▸ List.mem_cons_self)
    refine first.trans (ih (numberedTurns numbered first) fun change later => ?_)
    exact allowed change (List.mem_cons_of_mem m later)

theorem runAttained {moves : List (Move σ)}
    (allowed : ∀ change, .tamper change ∈ moves → Alters change)
    (attained : Attained P Alters outside w) : Attained P Alters outside (w.run P moves) :=
  attained.trans (turnsRun (numbered attained) moves allowed)

theorem reachableAttained (reachable : w.Reachable P) :
    ∃ outside, Attained P (fun _ => True) outside w := by
  induction reachable with
  | initial outside => exact ⟨outside,.refl⟩
  | move m _ ih =>
    obtain ⟨outside,attained⟩ := ih
    exact ⟨outside,attained.trans (moveTurns (numbered attained) m fun _ _ => trivial)⟩

structure Lasting (P : Platform σ) (Holds : Pool → Prop) : Prop where
  created (n : Nat) (source : DataSource) {settings} (valid : settings.Valid) (now : Nat) :
    Holds (.create P n source settings now)
  enters {p} (before : Holds p) (seeker : Seeker) (s : Shared σ) : Holds (p.enter P seeker s).2.1
  resumes {p} (before : Holds p) (wait : Wait) (s : Shared σ) : Holds (p.resume P wait s).2.1
  releases {p} (before : Holds p) (x : Wrapper) (s : Shared σ) : Holds (p.release P x s).1
  renewed {p} (before : Holds p) (source : DataSource) (settings : Settings) (closed : Bool)
    (valid : p.settings.Valid → settings.Valid) (stays : p.closed → closed) (s : Shared σ) :
    Holds ({ p with source, settings, closed }.sweep P s).1
  tolerates {p} (before : Holds p) (count : UInt32) : Holds (p.setTolerance count)

theorem everyPoolPut {Holds : Pool → Prop} (before : ∀ p ∈ w.pools, Holds p) {n : Nat} {p : Pool}
    {s : Shared σ} (holds : Holds p) : ∀ q ∈ (w.put n p s).pools, Holds q := by
  intro q member
  rcases List.mem_or_eq_of_mem_set member with old | rfl
  · exact before q old
  · exact holds

theorem everyPoolLetGo {Holds : Pool → Prop} (lasting : Lasting P Holds) (numbered : w.Numbered)
    (before : ∀ p ∈ w.pools, Holds p) (n : Nat) : ∀ p ∈ (w.letGo P n).pools, Holds p := by
  rcases letGoCases (P := P) numbered n with ⟨same,_⟩ | ⟨p,_,here,_,swept⟩
  · rwa [same]
  · rw [swept]
    exact everyPoolPut before
      (lasting.renewed (before p (List.mem_of_getElem? here)) p.source p.settings p.closed id id _)

theorem everyPoolTurn {Holds : Pool → Prop} (lasting : Lasting P Holds) (numbered : w.Numbered)
    (before : ∀ p ∈ w.pools, Holds p) (turn : Turn P Alters w w') : ∀ p ∈ w'.pools, Holds p := by
  cases turn with
  | found source valid =>
    intro p member
    rcases List.mem_append.mp member with old | new
    · exact before p old
    · rw [List.mem_singleton.mp new]
      exact lasting.created _ source valid _
  | noDoor | share | stray | ask | advance | tamper => exact before
  | leave =>
    apply everyPoolLetGo lasting
    · exact numbered
    · exact before
  | @get door n p known here =>
    let stay := p.enter P (w.newSeeker door n) w.shared
    have holds : Holds stay.2.1 := lasting.enters (before p (List.mem_of_getElem? here)) _ _
    exact everyPoolPut (s := stay.2.2) before holds
  | @resume index wait p awake here =>
    let stay := p.resume P wait (w.rouse index).shared
    have holds : Holds stay.2.1 := lasting.resumes (before p (List.mem_of_getElem? here)) _ _
    apply everyPoolLetGo lasting
    · exact numberedResumed numbered here index
    · exact everyPoolPut (w := w.rouse index) (s := stay.2.2) before holds
  | renew source settings closed known here valid stays =>
    exact everyPoolPut before
      (lasting.renewed (before _ (List.mem_of_getElem? here)) source settings closed valid stays _)
  | tolerance count known here =>
    exact everyPoolPut before (lasting.tolerates (before _ (List.mem_of_getElem? here)) count)
  | @giveBack slot h p held first here =>
    have holds := lasting.releases (before p (List.mem_of_getElem? here)) h.wrapper w.shared
    exact everyPoolPut (s := (p.release P h.wrapper w.shared).2) before holds
  | vacate =>
    apply everyPoolLetGo lasting
    · exact numbered
    · exact before

theorem everyPool {Holds : Pool → Prop} (lasting : Lasting P Holds)
    (attained : Attained P Alters outside w) : ∀ p ∈ w.pools, Holds p :=
  everyAttained (by simp [World.initial])
    (fun before => everyPoolTurn lasting (numbered before)) attained

end ConnectionPool.World
