import ConnectionPool.Proofs.Identity
import ConnectionPool.Proofs.View
/-! A program from which the moves out of view are left out. Whichever pools are to be kept in view,
every program can be sifted, and what stays of it does in a world of its own what it did among the
rest. -/
namespace ConnectionPool
variable {σ : Type} {P : Platform σ}

namespace Pool
variable {p q : Pool} {s t : Shared σ} {w : Wrapper}

theorem stayNumbers (P : Platform σ) (seeker : Seeker) (s : Shared σ) :
    StayRule P seeker (fun _ t => s.Grows t) (fun _ _ t => s.Grows t) (fun _ _ t => s.Grows t) where
  finds grows picks := grows.trans (picksGrow picks)
  misses grows picks := grows.trans (picksGrow picks)
  blocks grows _ _ := ⟨grows.opened,grows.ids,grows.keys⟩
  grants grows good :=
    grows.trans (((admitsTalks ..).ends good).books.trans (Shared.noteBooks ..)).grows
  rejects grows bad := (grows.trans ((admitsTalks ..).ends bad).books.grows).trans (rejectGrows ..)
  fails grows _ := grows.trans (Shared.noteBooks ..).grows
  overruns grows := grows

theorem enterGrows (P : Platform σ) (seeker : Seeker) (p : Pool) (s : Shared σ) :
    s.Grows (p.enter P seeker s).2.2 :=
  (stayNumbers P seeker s).enter (fun _ => (s.noteBooks _).grows) (fun _ => .refl s)

theorem resumeGrows (P : Platform σ) (wait : Wait) (p : Pool) (s : Shared σ) :
    s.Grows (p.resume P wait s).2.2 := by
  have rises : s.Grows (p.rises wait s) := (s.noteBooks _).grows
  exact (stayNumbers P wait.seeker s).resume
    (fun _ => rises.trans (Shared.noteBooks ..).grows) (fun _ => rises)

theorem releaseGrows (P : Platform σ) (w : Wrapper) (p : Pool) (s : Shared σ) :
    s.Grows (p.release P w s).2 := by
  have returns := p.releaseReturns P w s
  have rests := returnsRests returns
  exact ⟨Nat.le_of_eq rests.opened.symm,Nat.le_of_eq rests.nextId.symm,(returnsLends returns).keys⟩

end Pool

namespace World
variable {Alters : (σ → σ) → Prop} {w w' w'' : World σ}

theorem growsTurn (numbered : w.Numbered) (turn : Turn P Alters w w') :
    w.shared.Grows w'.shared := by
  cases turn with
  | found | noDoor | share | stray | tolerance | advance | tamper =>
    exact ⟨Nat.le_refl _,Nat.le_refl _,Nat.le_refl _⟩
  | @leave door n =>
    have home : Numbered { w with doors := w.doors.set door none } := numbered
    exact letGoGrows home n
  | @get door n p => exact p.enterGrows P (w.newSeeker door n) w.shared
  | @resume index wait p awake here =>
    have stayed : w.shared.Grows (w.seatResumed P index wait p).shared := by
      obtain ⟨opened,ids,keys⟩ := p.resumeGrows P wait (w.rouse index).shared
      exact ⟨opened,ids,keys⟩
    exact stayed.trans (letGoGrows (numberedResumed numbered here index) _)
  | @renew n p source settings closed =>
    exact (Pool.sweepGrows P { p with source, settings, closed } w.shared).trans
      (Shared.notifyGrows ..)
  | @giveBack slot h p => exact p.releaseGrows P h.wrapper w.shared
  | @vacate slot h =>
    have home : Numbered (w.setSlot slot .empty) := numbered
    exact letGoGrows home h.pool
  | @ask slot h _ _ request =>
    exact (Shared.Talks.one P (.holder h.wrapper.key) h.wrapper.conn request _).books.grows

theorem movesOn (numbered : w.Numbered) (m : Move σ) : Turns P (fun _ => True) w (w.move P m) :=
  moveTurns numbered m fun _ _ => trivial

theorem numberedMove (numbered : w.Numbered) (m : Move σ) : (w.move P m).Numbered :=
  numberedTurns numbered (movesOn numbered m)

theorem moveGrows (numbered : w.Numbered) (m : Move σ) : w.shared.Grows (w.move P m).shared := by
  have turns := movesOn (P := P) numbered m
  generalize w.move P m = w' at turns ⊢
  induction turns with
  | refl => exact .refl _
  | tail turns turn ih => exact ih.trans (growsTurn (numberedTurns numbered turns) turn)

structure Extends (w w' : World σ) : Prop where
  pools : w'.pools.length = w.pools.length
  doors : w.doors.length ≤ w'.doors.length
  slots : w.slots.length ≤ w'.slots.length

namespace Extends

theorem refl (w : World σ) : w.Extends w := ⟨rfl,Nat.le_refl _,Nat.le_refl _⟩

theorem trans (first : w.Extends w') (second : w'.Extends w'') : w.Extends w'' where
  pools := second.pools.trans first.pools
  doors := Nat.le_trans first.doors second.doors
  slots := Nat.le_trans first.slots second.slots

theorem visit (w : World σ) (p : Pool) (act : Pool → Shared σ → Pool × Shared σ) :
    w.Extends (w.visit p act) := ⟨List.length_set,Nat.le_refl _,Nat.le_refl _⟩

theorem setSlot (w : World σ) (slot : Nat) (content : Slot) : w.Extends (w.setSlot slot content) :=
  ⟨rfl,Nat.le_refl _,Nat.le_of_eq List.length_set.symm⟩

theorem letGo (P : Platform σ) (w : World σ) (n : Nat) : w.Extends (w.letGo P n) := by
  unfold World.letGo
  split
  · exact .refl w
  · split
    · exact .visit ..
    · exact .refl w

theorem release (P : Platform σ) (slot : Nat) (h : Handle) (w : World σ) :
    w.Extends (w.release P slot h) := by
  unfold World.release
  split
  · exact .refl w
  · split
    · exact .refl w
    · exact (visit ..).trans (setSlot ..)

theorem makes {m : Move σ} (older : m.order? = none) (makes : w.Makes P m w') :
    w.Extends w' := by
  cases makes with
  | nothing => exact .refl w
  | noPool ordered | found ordered => cases older.symm.trans ordered
  | share => exact ⟨rfl,by simp,Nat.le_refl _⟩
  | @leave door =>
    have shut : w.Extends { w with doors := w.doors.set door none } :=
      ⟨rfl,Nat.le_of_eq List.length_set.symm,Nat.le_refl _⟩
    exact shut.trans (letGo ..)
  | get => exact ⟨List.length_set,Nat.le_refl _,by simp [seat]⟩
  | @resume index wait p =>
    have seated : w.Extends (w.seatResumed P index wait p) :=
      ⟨List.length_set,Nat.le_refl _,Nat.le_of_eq List.length_set.symm⟩
    exact seated.trans (letGo ..)
  | renew | tolerance => exact ⟨List.length_set,Nat.le_refl _,Nat.le_refl _⟩
  | release => exact release ..
  | drop => exact (release ..).trans ((setSlot ..).trans (letGo ..))
  | stray | call | advance | tamper => exact ⟨rfl,Nat.le_refl _,Nat.le_refl _⟩

end Extends
end World

namespace Scope
variable {scope base : Scope} {own : Bool} {w : World σ} {m : Move σ}

def side (scope : Scope) (w : World σ) (m : Move σ) : Bool :=
  match m with
  | .create _ _ | .createFrom _ => scope.pool w.pools.length
  | m => scope.keeps w m

def extend (base : Scope) (w : World σ) (own : Bool) : Scope where
  pool := base.pool
  door i := if i < w.doors.length then base.door i else own
  slot i := if i < w.slots.length then base.slot i else own
  conn k := if k < w.shared.opened then base.conn k else own
  id k := if k = 0 ∨ k < w.shared.nextId then base.id k else own
  key k := if k < w.shared.nextKey then base.key k else own
  zero := (if_pos (.inl rfl)).trans base.zero

structure Matches (scope base : Scope) (w : World σ) : Prop where
  pool : scope.pool = base.pool
  door {i : Nat} (below : i < w.doors.length) : scope.door i = base.door i
  slot {i : Nat} (below : i < w.slots.length) : scope.slot i = base.slot i
  conn {k : Nat} (below : k < w.shared.opened) : scope.conn k = base.conn k
  id {k : Nat} (below : k < w.shared.nextId) : scope.id k = base.id k
  key {k : Nat} (below : k < w.shared.nextKey) : scope.key k = base.key k

theorem Matches.refl (base : Scope) (w : World σ) : base.Matches base w :=
  ⟨rfl,fun _ => rfl,fun _ => rfl,fun _ => rfl,fun _ => rfl,fun _ => rfl⟩

theorem Matches.before {w' : World σ} (found : scope.Matches (base.extend w own) w')
    (grows : w.shared.Grows w'.shared) (doors : w.doors.length ≤ w'.doors.length)
    (slots : w.slots.length ≤ w'.slots.length) : scope.Matches base w where
  pool := found.pool
  door below := (found.door (Nat.lt_of_lt_of_le below doors)).trans (if_pos below)
  slot below := (found.slot (Nat.lt_of_lt_of_le below slots)).trans (if_pos below)
  conn below := (found.conn (Nat.lt_of_lt_of_le below grows.opened)).trans (if_pos below)
  id below := (found.id (Nat.lt_of_lt_of_le below grows.ids)).trans (if_pos (.inr below))
  key below := (found.key (Nat.lt_of_lt_of_le below grows.keys)).trans (if_pos below)

theorem Matches.grants {w' : World σ} (found : scope.Matches (base.extend w own) w')
    (ids : 0 < w.shared.nextId)
    (pools : ∀ n, w.pools.length ≤ n → n < w'.pools.length → base.pool n = own) :
    scope.Grants own w w' where
  numbers := {
    conn := fun above below => (found.conn below).trans (if_neg (Nat.not_lt.mpr above))
    id := fun above below => (found.id below).trans (if_neg (by omega))
    key := fun above below => (found.key below).trans (if_neg (Nat.not_lt.mpr above)) }
  pool above below := (congrFun found.pool _).trans (pools _ above below)
  door above below := (found.door below).trans (if_neg (Nat.not_lt.mpr above))
  slot above below := (found.slot below).trans (if_neg (Nat.not_lt.mpr above))

end Scope

namespace World
variable {scope : Scope} {w : World σ}

theorem createSizes (P : Platform σ) (source : DataSource) (settings : Settings) (w : World σ) :
    (w.create P source settings).2.doors.length = w.doors.length + 1 ∧
      (w.create P source settings).2.pools.length ≤ w.pools.length + 1 ∧
      (w.create P source settings).2.slots = w.slots := by
  unfold create
  split <;> simp

theorem createFromSizes (P : Platform σ) (text : String) (w : World σ) :
    (w.createFrom P text).2.doors.length = w.doors.length + 1 ∧
      (w.createFrom P text).2.pools.length ≤ w.pools.length + 1 ∧
      (w.createFrom P text).2.slots = w.slots := by
  unfold createFrom
  split
  · simp
  · exact createSizes ..

theorem sideGrants {base : Scope} (numbered : w.Numbered) (ids : 0 < w.shared.nextId) (m : Move σ)
    (found : scope.Matches (base.extend w (base.side w m)) (w.move P m)) :
    scope.Matches base w ∧ scope.keeps w m = base.side w m ∧
      scope.Grants (base.side w m) w (w.move P m) := by
  have grows := moveGrows (P := P) numbered m
  have making (sizes : (w.move P m).doors.length = w.doors.length + 1 ∧
      (w.move P m).pools.length ≤ w.pools.length + 1 ∧ (w.move P m).slots = w.slots)
      (kept : scope.keeps w m = scope.door w.doors.length)
      (same : base.side w m = base.pool w.pools.length) :
      scope.Matches base w ∧ scope.keeps w m = base.side w m ∧
        scope.Grants (base.side w m) w (w.move P m) := by
    obtain ⟨doors,pools,slots⟩ := sizes
    -- Its side is that of the pool it would make, even if it makes none.
    have door : scope.door w.doors.length = base.side w m :=
      (found.door (by omega)).trans (if_neg (Nat.lt_irrefl _))
    refine ⟨found.before grows (by omega) (by rw [slots]),kept.trans door,found.grants ids ?_⟩
    intro n above below
    obtain rfl : n = w.pools.length := by omega
    exact same.symm
  have acting (larger : w.Extends (w.move P m)) (same : scope.keeps w m = base.side w m) :
      scope.Matches base w ∧ scope.keeps w m = base.side w m ∧
        scope.Grants (base.side w m) w (w.move P m) := by
    refine ⟨found.before grows larger.doors larger.slots,same,found.grants ids ?_⟩
    intro n above below
    exact absurd (Nat.lt_of_le_of_lt above below) (by simp [larger.pools])
  have pool : scope.pool = base.pool := found.pool
  have awaits : scope.awaits = base.awaits := funext fun x => congrFun pool x.seeker.pool
  cases m with
  | create source settings => exact making (createSizes ..) rfl rfl
  | createFrom text => exact making (createFromSizes ..) rfl rfl
  | _ =>
    refine acting (.makes rfl (moveMakes numbered _)) ?_
    simp only [Scope.side,Scope.keeps,awaits,pool]

/-- What is left of a program from a world on when the moves out of view are left out, and what is
told of it in view: for each move that stays, the answer and what there is to see afterwards. -/
inductive Sifts (division : P.Division scope.conn) :
    World σ → List (Move σ) → List (Move σ) → List (Answer × Sight) → Prop
  | nil {w : World σ} : Sifts division w [] [] []
  | keep {w : World σ} {m moves left told} (inside : ∀ change, m ≠ .tamper change)
      (kept : scope.keeps w m = true) (grants : scope.Grants true w (w.move P m))
      (later : Sifts division (w.move P m) moves left told) :
      Sifts division w (m :: moves) (m.within scope w :: left)
        (((w.answer P m).1.within scope,((w.move P m).within scope division.part).sight) :: told)
  | erase {w : World σ} {m moves left told} (inside : ∀ change, m ≠ .tamper change)
      (away : scope.keeps w m = false) (grants : scope.Grants false w (w.move P m))
      (later : Sifts division (w.move P m) moves left told) :
      Sifts division w (m :: moves) left told
  | alter {w : World σ} {change change' moves left told}
      (narrows : division.Narrows change (some change'))
      (later : Sifts division (w.tamper change) moves left told) :
      Sifts division w (.tamper change :: moves) (.tamper change' :: left)
        ((.done,((w.tamper change).within scope division.part).sight) :: told)
  | pass {w : World σ} {change moves left told} (narrows : division.Narrows change none)
      (later : Sifts division (w.tamper change) moves left told) :
      Sifts division w (.tamper change :: moves) left told

section Sifted
variable {division : P.Division scope.conn} {moves left : List (Move σ)}
  {told : List (Answer × Sight)}

theorem sizedMove (numbered : w.Numbered) (sized : division.Sized w.shared) (m : Move σ)
    (inside : ∀ change, m ≠ .tamper change) : division.Sized (w.move P m).shared := by
  have turns : Turns P (fun _ => False) w (w.move P m) :=
    moveTurns numbered m fun change same => inside change same
  exact turnsEndure division.endures (fun _ none => none.elim) numbered sized turns

theorem movedWithin (divided : w.Divided scope) (numbered : w.Numbered)
    (sized : division.Sized w.shared) (m : Move σ) (inside : ∀ change, m ≠ .tamper change)
    (kept : scope.keeps w m = true) (grants : scope.Grants true w (w.move P m)) :
    (w.within scope division.part).answer P (m.within scope w) =
      ((w.answer P m).1.within scope,(w.move P m).within scope division.part) := by
  rw [answerWithin division divided numbered kept grants sized inside,← answerMoves]
  rfl

theorem siftedRun (sifts : Sifts division w moves left told) (divided : w.Divided scope)
    (numbered : w.Numbered) (sized : division.Sized w.shared) :
    (w.run P moves).Divided scope ∧ (w.within scope division.part).observe P left = told ∧
      (w.within scope division.part).run P left = (w.run P moves).within scope division.part := by
  induction sifts with
  | nil => exact ⟨divided,rfl,rfl⟩
  | @keep w m moves left told inside kept grants later ih =>
    have sided := makesSided division divided numbered sized (moveMakes numbered m) inside (kept.symm ▸ grants)
    have moved := movedWithin divided numbered sized m inside kept grants
    have world := congrArg Prod.snd moved
    rw [answerMoves] at world
    obtain ⟨stays,seen,ran⟩ :=
      ih sided.divided (numberedMove numbered m) (sizedMove numbered sized m inside)
    refine ⟨stays,?_,(congrArg (run P left) world).trans ran⟩
    rw [observe,moved]
    exact congrArg (_ :: ·) seen
  | @erase w m moves left told inside away grants later ih =>
    have sided := makesSided division divided numbered sized (moveMakes numbered m) inside (away.symm ▸ grants)
    have later := ih sided.divided (numberedMove numbered m) (sizedMove numbered sized m inside)
    -- A move out of view does not change what is left of the world, so that it can be passed over.
    rw [sided.aside away] at later
    exact later
  | @alter w change change' moves left told narrows later ih =>
    have changed : (w.within scope division.part).tamper change' =
        (w.tamper change).within scope division.part :=
      congrArg (fun outside => ({ w.within scope division.part with
        shared := { w.shared.within scope division.part with outside } } : World σ))
        (division.keeps narrows w.shared.outside).symm
    obtain ⟨stays,seen,ran⟩ := ih ⟨divided.doors,divided.slots,divided.handles,divided.callers,
      divided.pools⟩ numbered (division.alters narrows sized)
    refine ⟨stays,?_,(congrArg (run P left) changed).trans ran⟩
    rw [observe,answer,changed]
    exact congrArg (_ :: ·) seen
  | @pass w change moves left told narrows later ih =>
    have unchanged : (w.tamper change).within scope division.part = w.within scope division.part :=
      congrArg (fun outside => ({ w.within scope division.part with
        shared := { w.shared.within scope division.part with outside } } : World σ))
        (division.passes narrows w.shared.outside)
    have later := ih ⟨divided.doors,divided.slots,divided.handles,divided.callers,divided.pools⟩
      numbered (division.alters narrows sized)
    rw [unchanged] at later
    exact later

theorem Sifts.upTo {before after : List (Move σ)}
    (sifts : Sifts division w (before ++ after) left told) :
    ∃ first rest said, left = first ++ rest ∧ Sifts division w before first said := by
  induction before generalizing w left told with
  | nil => exact ⟨[],left,[],rfl,.nil⟩
  | cons m before ih =>
    cases sifts with
    | keep inside kept grants later =>
      obtain ⟨first,rest,said,rfl,earlier⟩ := ih later
      exact ⟨_,rest,_,rfl,.keep inside kept grants earlier⟩
    | erase inside away grants later =>
      obtain ⟨first,rest,said,rfl,earlier⟩ := ih later
      exact ⟨first,rest,said,rfl,.erase inside away grants earlier⟩
    | alter narrows later =>
      obtain ⟨first,rest,said,rfl,earlier⟩ := ih later
      exact ⟨_,rest,_,rfl,.alter narrows earlier⟩
    | pass narrows later =>
      obtain ⟨first,rest,said,rfl,earlier⟩ := ih later
      exact ⟨first,rest,said,rfl,.pass narrows earlier⟩

end Sifted

theorem siftsExist (divide : (inside : Nat → Bool) → P.Division inside) {moves : List (Move σ)}
    (narrows : ∀ change, .tamper change ∈ moves → ∀ inside, ∃ left,
      (divide inside).Narrows change left)
    (numbered : w.Numbered) (ids : 0 < w.shared.nextId) (base : Scope) :
    ∃ scope : Scope, scope.Matches base w ∧
      ∃ left told, Sifts (divide scope.conn) w moves left told := by
  induction moves generalizing w base with
  | nil => exact ⟨base,.refl base w,[],[],.nil⟩
  | cons m moves ih =>
    have after : (w.move P m).Numbered := numberedMove numbered m
    have given := Nat.lt_of_lt_of_le ids (moveGrows (P := P) numbered m).ids
    -- What comes later is sifted first, with all that this move gives out on the side it is made on.
    obtain ⟨scope,found,left,told,sifts⟩ := ih
      (fun change later => narrows change (List.mem_cons_of_mem m later)) after given
      (base.extend w (base.side w m))
    obtain ⟨same,kept,grants⟩ := sideGrants numbered ids m found
    refine ⟨scope,same,?_⟩
    by_cases inside : ∀ change, m ≠ .tamper change
    · cases own : base.side w m with
      | true =>
        rw [own] at kept grants
        exact ⟨_,_,.keep inside kept grants sifts⟩
      | false =>
        rw [own] at kept grants
        exact ⟨_,_,.erase inside kept grants sifts⟩
    · obtain ⟨change,rfl⟩ : ∃ change, m = .tamper change := by simpa using inside
      obtain ⟨some | none,narrowed⟩ := narrows change List.mem_cons_self scope.conn
      · exact ⟨_,_,.pass narrowed sifts⟩
      · exact ⟨_,_,.alter narrowed sifts⟩

end World
end ConnectionPool
