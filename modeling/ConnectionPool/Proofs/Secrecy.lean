import ConnectionPool.Proofs.Coherence
import ConnectionPool.Proofs.Sight
/-! Two programs that differ in the texts of passwords alone are the same to look at, move by
move. Each move is followed through what is left of a world without passwords and type codes. -/
namespace ConnectionPool
variable {σ : Type} {P : Platform σ} {Same : Setoid σ}

def Handle.veil (h : Handle) : Handle := { h with wrapper := h.wrapper.veil }

def Slot.veil : Slot → Slot
  | held h => .held h.veil
  | slot => slot

inductive Move.Alike (Same : Setoid σ) : Move σ → Move σ → Prop
  | same (m : Move σ) (inside : ∀ change, m ≠ .tamper change) : Alike Same m m
  | create {source source' : DataSource} (settings : Settings) (same : source.veil = source'.veil) :
      Alike Same (.create source settings) (.create source' settings)
  | createFrom {text text' : String} (same : Properties.SameText text text') :
      Alike Same (.createFrom text) (.createFrom text')
  | configure (door : Nat) {change change' : Change} (same : change.veil = change'.veil) :
      Alike Same (.configure door change) (.configure door change')
  | tamper {change change' : σ → σ} (same : ∀ {o o'}, Same o o' → Same (change o) (change' o')) :
      Alike Same (.tamper change) (.tamper change')

namespace World

def veil (Same : Setoid σ) (w : World σ) : World (Quotient Same) where
  shared := w.shared.veil Same
  pools := w.pools.map Pool.veil
  doors := w.doors
  slots := w.slots.map Slot.veil

section Lookups
variable (w : World σ)

theorem veilPoolAt (n : Nat) : (w.veil Same).pools[n]? = (w.pools[n]?).map Pool.veil :=
  List.getElem?_map ..

theorem veilDoorPool (door : Nat) :
    (w.veil Same).doorPool? door = (w.doorPool? door).map Pool.veil := by
  have behind : (w.veil Same).doors = w.doors := rfl
  unfold doorPool?
  rw [behind]
  cases (w.doors[door]?).join with
  | none => rfl
  | some n => exact veilPoolAt w n

theorem veilHandle (slot : Nat) :
    (w.veil Same).handle? slot = (w.handle? slot).map Handle.veil := by
  have there : (w.veil Same).slots[slot]? = (w.slots[slot]?).map Slot.veil := List.getElem?_map ..
  unfold handle?
  rw [there]
  rcases w.slots[slot]? with _ | _ | _ | _ <;> rfl

theorem veilSetSlot (slot : Nat) (content : Slot) :
    (w.veil Same).setSlot slot content.veil = (w.setSlot slot content).veil Same :=
  congrArg (fun slots => ({ w.veil Same with slots } : World (Quotient Same))) List.map_set.symm

theorem veilIsReferred (n : Nat) : (w.veil Same).IsReferred n ↔ w.IsReferred n := by
  have refers : (w.slots.map Slot.veil).any (Slot.refersTo n) = w.slots.any (Slot.refersTo n) := by
    rw [List.any_map]
    congr 1
    funext slot
    cases slot <;> rfl
  unfold IsReferred veil
  rw [refers]
  rfl

end Lookups

section Acts
variable (blind : P.Blind Same) {w : World σ} {p : Pool}

theorem veilVisit {act : Pool → Shared σ → Pool × Shared σ}
    {act' : Pool → Shared (Quotient Same) → Pool × Shared (Quotient Same)}
    (acts : act' p.veil (w.shared.veil Same) = Pool.veilWith Same (act p w.shared)) :
    (w.veil Same).visit p.veil act' = (w.visit p act).veil Same := by
  have shared : (w.veil Same).shared = w.shared.veil Same := rfl
  unfold visit
  rw [shared,acts]
  rcases act p w.shared with ⟨q,t⟩
  exact congrArg (fun pools => ({ w.veil Same with shared := t.veil Same, pools } :
    World (Quotient Same))) List.map_set.symm

theorem veilConsult {α : Type} {mask : α → α} {act : Pool → Shared σ → α × Pool × Shared σ}
    {act' : Pool → Shared (Quotient Same) → α × Pool × Shared (Quotient Same)}
    (acts : act' p.veil (w.shared.veil Same) = (act p w.shared).map mask (Pool.veilWith Same)) :
    (w.veil Same).consult p.veil act' = (w.consult p act).map mask (veil Same) := by
  have shared : (w.veil Same).shared = w.shared.veil Same := rfl
  unfold consult
  rw [shared,acts]
  rcases act p w.shared with ⟨a,q,t⟩
  exact congrArg (fun pools => (mask a,({ w.veil Same with shared := t.veil Same, pools } :
    World (Quotient Same)))) List.map_set.symm

theorem veilLetGo (n : Nat) :
    (w.veil Same).letGo (P.veiled blind) n = (w.letGo P n).veil Same := by
  unfold letGo
  by_cases referred : w.IsReferred n
  · rw [if_pos referred,if_pos ((veilIsReferred w n).mpr referred)]
  · rw [if_neg referred,if_neg (mt (veilIsReferred w n).mp referred),veilPoolAt]
    cases w.pools[n]? with
    | none => rfl
    | some p => exact veilVisit (Pool.veilAbandon blind p w.shared)

theorem veilSlotAfter (n : Nat) (outcome : Outcome) :
    slotAfter n outcome.veil = (slotAfter n outcome).veil := by
  cases outcome <;> rfl

theorem veilNewSeeker (door n : Nat) (w : World σ) :
    (w.veil Same).newSeeker door n = w.newSeeker door n :=
  congrArg (fun ticket => ({ w.newSeeker door n with ticket } : Seeker)) (List.length_map ..)

theorem veilGet (door : Nat) (p : Pool) (w : World σ) :
    (w.veil Same).get (P.veiled blind) door p.veil =
      (w.get P door p).map id (Prod.map Outcome.veil (veil Same)) := by
  have entered : (w.veil Same).consult p.veil
      (Pool.enter (P.veiled blind) ((w.veil Same).newSeeker door p.number)) =
        (w.consult p (Pool.enter P (w.newSeeker door p.number))).map Outcome.veil (veil Same) := by
    rw [veilNewSeeker]
    exact veilConsult (Pool.veilEnter blind p w.shared _)
  refine (congrArg (fun stay => ((w.veil Same).slots.length,stay.1,({ stay.2 with
    slots := stay.2.slots ++ [slotAfter p.number stay.1] } : World _))) entered).trans ?_
  have met : w.get P door p = (fun stay => (w.slots.length,stay.1,({ stay.2 with
    slots := stay.2.slots ++ [slotAfter p.number stay.1] } : World σ)))
      (w.consult p (Pool.enter P (w.newSeeker door p.number))) := rfl
  rw [met]
  rcases w.consult p (Pool.enter P (w.newSeeker door p.number)) with ⟨outcome,w'⟩
  simp only [Prod.map_apply,veil,List.length_map,List.map_append,List.map_cons,List.map_nil,
    veilSlotAfter,id_eq]

theorem veilFinished (ticket : Nat) (outcome : Outcome) :
    finished? ticket outcome.veil = (finished? ticket outcome).map Finished.veil := by
  cases outcome <;> rfl

theorem veilResumeAt (index : Nat) (w : World σ) :
    (w.veil Same).resumeAt (P.veiled blind) index =
      (w.resumeAt P index).map (Option.map Finished.veil) (veil Same) := by
  have awake : (w.veil Same).shared.woken = w.shared.woken := rfl
  unfold resumeAt
  rw [awake]
  cases w.shared.woken[index]? with
  | none => rfl
  | some wait =>
    simp only [veilPoolAt]
    cases w.pools[wait.seeker.pool]? with
    | none => rfl
    | some p =>
      have woken : ({ w.veil Same with shared := { (w.veil Same).shared with
          woken := w.shared.woken.eraseIdx index } } : World _) = (w.rouse index).veil Same := rfl
      have resumed :
          ((w.rouse index).veil Same).consult p.veil (Pool.resume (P.veiled blind) wait) =
          ((w.rouse index).consult p (Pool.resume P wait)).map Outcome.veil (veil Same) :=
        veilConsult (Pool.veilResume blind p (w.rouse index).shared wait)
      simp only [Option.map_some,woken,resumed]
      rcases met : (w.rouse index).consult p (Pool.resume P wait) with ⟨outcome,w'⟩
      have seated : (w'.veil Same).setSlot wait.seeker.ticket (slotAfter p.number outcome.veil) =
          (w'.setSlot wait.seeker.ticket (slotAfter p.number outcome)).veil Same := by
        rw [veilSlotAfter]
        exact veilSetSlot w' _ _
      simp only [rouse] at met
      simp only [met]
      refine Prod.ext (veilFinished _ outcome) ?_
      exact (congrArg (letGo (P.veiled blind) · p.number) seated).trans (veilLetGo blind p.number)

theorem veilRaw (h : Handle) (request : Request) (w : World σ) :
    (w.veil Same).raw (P.veiled blind) h.veil request = (w.raw P h request).map id (veil Same) := by
  have live : (w.veil Same).shared.IsLive h.veil.wrapper ↔ w.shared.IsLive h.wrapper := Iff.rfl
  unfold raw
  simp only [live]
  split <;> rfl

theorem veilForward (h : Handle) (request : Request) (w : World σ) :
    (w.veil Same).forward (P.veiled blind) h.veil request =
      (w.forward P h request).map id (veil Same) := by
  unfold forward
  rw [veilRaw]
  rcases w.raw P h request with ⟨_ | _ | _,w'⟩ <;> rfl

theorem veilIsClosed (h : Handle) (w : World σ) :
    (w.veil Same).isClosed (P.veiled blind) h.veil = (w.isClosed P h).map id (veil Same) := by
  have live : (w.veil Same).shared.IsLive h.veil.wrapper ↔ w.shared.IsLive h.wrapper := Iff.rfl
  rw [isClosedForward,isClosedForward]
  simp only [live]
  split
  · exact veilForward blind h .isClosed w
  · rfl

def Coded (w : World σ) : Prop :=
  ∀ ⦃slot h p⦄, w.handle? slot = some h → w.pools[h.pool]? = some p → p.IsActive h.wrapper →
    h.wrapper.typeCode = some p.expected

variable {slot : Nat} {h : Handle}

theorem veilRelease (coded : w.Coded) (held : w.handle? slot = some h) :
    (w.veil Same).release (P.veiled blind) slot h.veil = (w.release P slot h).veil Same := by
  have again : h.veil.released = h.released := rfl
  have pool : h.veil.pool = h.pool := rfl
  unfold release
  rw [again,pool,veilPoolAt]
  split
  · rfl
  · cases here : w.pools[h.pool]? with
    | none => rfl
    | some p =>
      have taken : (w.veil Same).visit p.veil (Pool.release (P.veiled blind) h.veil.wrapper) =
          (w.visit p (Pool.release P h.wrapper)).veil Same :=
        veilVisit (Pool.veilRelease blind p w.shared h.wrapper (coded held here))
      simp only [Option.map_some,taken]
      exact veilSetSlot _ slot (.held { h with released := true })

theorem veilDrop (coded : w.Coded) (held : w.handle? slot = some h) :
    (w.veil Same).drop (P.veiled blind) slot h.veil = (w.drop P slot h).veil Same := by
  unfold drop
  rw [veilRelease blind coded held]
  have emptied : ((w.release P slot h).veil Same).setSlot slot .empty = _ :=
    veilSetSlot (w.release P slot h) slot .empty
  exact (congrArg (letGo (P.veiled blind) · h.pool) emptied).trans (veilLetGo blind h.pool)

theorem veilLeave (door : Nat) (w : World σ) :
    (w.veil Same).leave (P.veiled blind) door = (w.leave P door).veil Same := by
  unfold leave
  rw [veilDoorPool]
  cases w.doorPool? door with
  | none => rfl
  | some p => exact veilLetGo blind (w := { w with doors := w.doors.set door none }) p.number

theorem veilCreate (source : DataSource) (settings : Settings) (w : World σ) :
    (w.veil Same).create (P.veiled blind) source.veil settings =
      (w.create P source settings).map id (veil Same) := by
  unfold create
  split
  · rfl
  · refine Prod.ext rfl ?_
    simp only [Prod.map_apply,veil,List.map_append,List.length_map]
    rfl

end Acts

section Pairs
variable {w w' : World σ}

theorem askDoorAlike (same : w.veil Same = w'.veil Same) (door : Nat)
    {act act' : Pool → Answer × World σ}
    (acts : ∀ {p p' : Pool}, p.veil = p'.veil →
      (act p).map id (veil Same) = (act' p').map id (veil Same)) :
    (w.askDoor door act).map id (veil Same) = (w'.askDoor door act').map id (veil Same) := by
  have behind := congrArg (doorPool? · door) same
  simp only [veilDoorPool] at behind
  unfold askDoor
  cases here : w.doorPool? door with
  | none =>
    cases there : w'.doorPool? door with
    | none => exact Prod.ext rfl same
    | some => rw [here,there] at behind; cases behind
  | some p =>
    cases there : w'.doorPool? door with
    | none => rw [here,there] at behind; cases behind
    | some p' =>
      rw [here,there] at behind
      exact acts (Option.some.inj behind)

theorem askSlotAlike (same : w.veil Same = w'.veil Same) (slot : Nat)
    {act act' : Handle → Answer × World σ}
    (acts : ∀ {h h' : Handle}, w.handle? slot = some h → w'.handle? slot = some h' →
      h.veil = h'.veil → (act h).map id (veil Same) = (act' h').map id (veil Same)) :
    (w.askSlot slot act).map id (veil Same) = (w'.askSlot slot act').map id (veil Same) := by
  have held := congrArg (handle? · slot) same
  simp only [veilHandle] at held
  unfold askSlot
  cases here : w.handle? slot with
  | none =>
    cases there : w'.handle? slot with
    | none => exact Prod.ext rfl same
    | some => rw [here,there] at held; cases held
  | some h =>
    cases there : w'.handle? slot with
    | none => rw [here,there] at held; cases held
    | some h' =>
      rw [here,there] at held
      exact acts here there (Option.some.inj held)

variable (blind : P.Blind Same)
include blind

theorem createAlike (same : w.veil Same = w'.veil Same) {source source' : DataSource}
    (sources : source.veil = source'.veil) (settings : Settings) :
    (w.create P source settings).map id (veil Same) =
      (w'.create P source' settings).map id (veil Same) := by
  rw [← veilCreate blind,← veilCreate blind,sources,same]

theorem createFromAlike (same : w.veil Same = w'.veil Same) {text text' : String}
    (texts : Properties.SameText text text') :
    (w.createFrom P text).map id (veil Same) = (w'.createFrom P text').map id (veil Same) := by
  have read := Properties.readSameText texts
  unfold createFrom
  cases first : Properties.read text with
  | error fault =>
    cases other : Properties.read text' with
    | error fault' =>
      rw [first,other] at read
      obtain rfl := Except.error.inj read
      exact Prod.ext rfl
        (congrArg (fun v : World _ => { v with doors := v.doors ++ [none] }) same)
    | ok => rw [first,other] at read; cases read
  | ok made =>
    cases other : Properties.read text' with
    | error => rw [first,other] at read; cases read
    | ok made' =>
      rw [first,other] at read
      obtain ⟨source,settings⟩ := made
      obtain ⟨source',settings'⟩ := made'
      have parts := Prod.mk.inj (Except.ok.inj read)
      obtain rfl : settings = settings' := parts.2
      exact createAlike blind same parts.1 settings

theorem configureAlike (same : w.veil Same = w'.veil Same) {p p' : Pool} (pools : p.veil = p'.veil)
    {change change' : Change} (changes : change.veil = change'.veil) :
    (w.consult p (Pool.configure P change)).map id (veil Same) =
      (w'.consult p' (Pool.configure P change')).map id (veil Same) := by
  rw [← veilConsult (Pool.veilConfigure blind p w.shared change),
    ← veilConsult (Pool.veilConfigure blind p' w'.shared change'),same,pools,changes]

omit blind in
theorem visitAlike (same : w.veil Same = w'.veil Same) {p p' : Pool} (pools : p.veil = p'.veil)
    {act : Pool → Shared σ → Pool × Shared σ}
    (act' : Pool → Shared (Quotient Same) → Pool × Shared (Quotient Same))
    (acts : ∀ q t, act' q.veil (t.veil Same) = Pool.veilWith Same (act q t)) :
    (w.visit p act).veil Same = (w'.visit p' act).veil Same := by
  rw [← veilVisit (acts p w.shared),← veilVisit (acts p' w'.shared),same,pools]

omit blind in
theorem outsidesAlike (same : w.veil Same = w'.veil Same) :
    Same w.shared.outside w'.shared.outside :=
  Quotient.exact (congrArg (fun v : World (Quotient Same) => v.shared.outside) same)

section Moves
variable {m m' : Move σ} (same : w.veil Same = w'.veil Same)
include same

theorem doorMoveAlike {door : Nat} (through : m.door? = some door) :
    (w.answer P m).map id (veil Same) = (w'.answer P m).map id (veil Same) := by
  cases m with
  | share =>
    refine askDoorAlike same _ fun pools => ?_
    exact congrArg₂ (fun (v : World (Quotient Same)) (q : Pool) =>
      (Answer.door (.ok v.doors.length),{ v with doors := v.doors ++ [some q.number] })) same pools
  | leave door =>
    refine askDoorAlike same door fun _ => Prod.ext rfl ?_
    exact (veilLeave blind door w).symm.trans
      ((congrArg (leave (P.veiled blind) door) same).trans (veilLeave blind door w'))
  | get door =>
    refine askDoorAlike same door fun {p p'} pools => ?_
    have told : (w.get P door p).map id (Prod.map Outcome.veil (veil Same)) =
        (w'.get P door p').map id (Prod.map Outcome.veil (veil Same)) := by
      rw [← veilGet blind,← veilGet blind,same,pools]
    exact congrArg (fun told => (Answer.stay told.1 told.2.1,told.2.2)) told
  | closeAll =>
    refine askDoorAlike same _ fun pools => Prod.ext rfl ?_
    exact visitAlike same pools _ (Pool.veilCloseAll blind)
  | close =>
    refine askDoorAlike same _ fun pools => Prod.ext rfl ?_
    exact visitAlike same pools _ (Pool.veilClose blind)
  | configure =>
    refine askDoorAlike same _ fun pools => ?_
    exact congrArg (Prod.map Answer.changed id) (configureAlike blind same pools rfl)
  | setTolerance _ count =>
    refine askDoorAlike same _ fun pools => Prod.ext rfl ?_
    exact visitAlike same pools (fun q t => (q.setTolerance count,t)) fun _ _ => rfl
  | _ => cases through

theorem slotMoveAlike (coded : w.Coded) (coded' : w'.Coded) {slot : Nat}
    (uses : m.slot? = some slot) :
    (w.answer P m).map id (veil Same) = (w'.answer P m).map id (veil Same) := by
  cases m with
  | release slot =>
    refine askSlotAlike same slot fun {h h'} held held' alike => Prod.ext rfl ?_
    have back : (w.release P slot h).veil Same = (w'.release P slot h').veil Same := by
      rw [← veilRelease blind coded held,← veilRelease blind coded' held',same,alike]
    exact back
  | drop slot =>
    refine askSlotAlike same slot fun {h h'} held held' alike => Prod.ext rfl ?_
    have gone : (w.drop P slot h).veil Same = (w'.drop P slot h').veil Same := by
      rw [← veilDrop blind coded held,← veilDrop blind coded' held',same,alike]
    exact gone
  | forward _ request =>
    refine askSlotAlike same _ fun {h h'} _ _ alike => ?_
    have told : (w.forward P h request).map id (veil Same) =
        (w'.forward P h' request).map id (veil Same) := by
      rw [← veilForward blind,← veilForward blind,same,alike]
    exact congrArg (Prod.map (Answer.replied request) id) told
  | raw _ request =>
    refine askSlotAlike same _ fun {h h'} _ _ alike => ?_
    have told : (w.raw P h request).map id (veil Same) =
        (w'.raw P h' request).map id (veil Same) := by
      rw [← veilRaw blind,← veilRaw blind,same,alike]
    exact congrArg (Prod.map (Answer.reached request) id) told
  | isClosed =>
    refine askSlotAlike same _ fun {h h'} _ _ alike => ?_
    have told : (w.isClosed P h).map id (veil Same) = (w'.isClosed P h').map id (veil Same) := by
      rw [← veilIsClosed blind,← veilIsClosed blind,same,alike]
    exact congrArg (Prod.map Answer.closed id) told
  | _ => cases uses

theorem answerAlike (alike : m.Alike Same m') (coded : w.Coded) (coded' : w'.Coded) :
    (w.answer P m).map id (veil Same) = (w'.answer P m').map id (veil Same) := by
  -- Each operation acts alike on a world and on what is left of it, and of both worlds the same is left.
  cases alike with
  | create settings sources =>
    exact congrArg (Prod.map Answer.door id) (createAlike blind same sources settings)
  | createFrom texts =>
    exact congrArg (Prod.map Answer.door id) (createFromAlike blind same texts)
  | configure door changes =>
    refine askDoorAlike same door fun pools => ?_
    exact congrArg (Prod.map Answer.changed id) (configureAlike blind same pools changes)
  | @tamper change change' changes =>
    have outsides : Quotient.mk Same (change w.shared.outside) =
        Quotient.mk Same (change' w'.shared.outside) :=
      Quotient.sound (changes (outsidesAlike same))
    refine Prod.ext rfl ?_
    exact congrArg₂ (fun (v : World (Quotient Same)) outside =>
      { v with shared := { v.shared with outside } }) same outsides
  | same _ inside =>
    cases m with
    | create source settings =>
      exact congrArg (Prod.map Answer.door id) (createAlike blind same rfl settings)
    | createFrom text =>
      exact congrArg (Prod.map Answer.door id) (createFromAlike blind same (.same text))
    | share | leave | get | closeAll | close | configure | setTolerance =>
      exact doorMoveAlike blind same rfl
    | release | drop | forward | raw | isClosed =>
      exact slotMoveAlike blind same coded coded' rfl
    | resume index =>
      have told : (w.resumeAt P index).map (Option.map Finished.veil) (veil Same) =
          (w'.resumeAt P index).map (Option.map Finished.veil) (veil Same) := by
        rw [← veilResumeAt blind,← veilResumeAt blind,same]
      exact congrArg (Prod.map Answer.resumed id) told
    | advance time =>
      exact congrArg (fun v : World (Quotient Same) => (Answer.done,v.advance time)) same
    | tamper change => exact absurd rfl (inside change)

end Moves
end Pairs

section Sights

theorem veilPoolSight (now : Nat) (p : Pool) : p.veil.sight now = p.sight now := by
  have status : p.veil.status = p.status := by simp only [Pool.status,Pool.veil,List.length_map]
  have metrics : p.veil.metrics = p.metrics := by simp only [Pool.metrics,Pool.veil,List.length_map]
  have source : p.veil.source = p.source.veil := rfl
  have settings : p.veil.settings = p.settings := rfl
  have closed : p.veil.closed = p.closed := rfl
  have dump : p.veil.dump = p.dump := by
    simp only [Pool.dump,source,p.source.veilDump,settings,status,closed]
  simp only [Pool.sight,status,metrics,source,settings,closed,dump,p.source.veilDump,
    p.source.veilTwice]
  rfl

theorem veilSightOf (w : World σ) (h : Handle) : (w.veil Same).sightOf h.veil = w.sightOf h := by
  have stamped : h.veil.wrapper.typeCode.isSome = h.wrapper.typeCode.isSome := Option.isSome_map
  exact congrArg (fun stamped => ({ w.sightOf h with stamped } : Handle.Sight)) stamped

theorem veilRecords (journal : List Event) :
    records (journal.map Event.veil) = records journal := by
  have told : Event.record? ∘ Event.veil = Event.record? := by
    funext event
    cases event <;> rfl
  rw [records,← List.map_reverse,List.filterMap_map,told,records]

theorem veilEvents (journal : List Event) :
    (journal.map Event.veil).map Event.veil = journal.map Event.veil := by
  rw [List.map_map]
  refine List.map_congr_left fun event _ => ?_
  cases event with
  | opened pool conn id source => exact congrArg (Event.opened pool conn id) source.veilTwice
  | rejected pool w => exact congrArg (Event.rejected pool) w.veilTwice
  | reclaimed pool w held => exact congrArg (Event.reclaimed pool · held) w.veilTwice
  | granted pool ticket w took => exact congrArg (Event.granted pool ticket · took) w.veilTwice
  | staleReturn pool w => exact congrArg (Event.staleReturn pool) w.veilTwice
  | returned pool w healthy held => exact congrArg (Event.returned pool · healthy held) w.veilTwice
  | _ => rfl

theorem veilSight (Same : Setoid σ) (w : World σ) : (w.veil Same).sight = w.sight := by
  have pools (door : Nat) : ((w.veil Same).doorPool? door).map (Pool.sight w.shared.now) =
      (w.doorPool? door).map (Pool.sight w.shared.now) := by
    rw [veilDoorPool,Option.map_map]
    exact congrArg (Option.map · _) (funext (veilPoolSight w.shared.now))
  have handles (slot : Nat) : ((w.veil Same).handle? slot).map (w.veil Same).sightOf =
      (w.handle? slot).map w.sightOf := by
    rw [veilHandle,Option.map_map]
    exact congrArg (Option.map · _) (funext (veilSightOf w))
  have slots : (w.veil Same).slots.length = w.slots.length := List.length_map ..
  apply Sight.ext
  · rfl
  · exact List.map_congr_left fun door _ => pools door
  · rw [sight,sight,slots]
    exact List.map_congr_left fun slot _ => handles slot
  · rfl
  · rfl
  · exact veilRecords w.shared.journal
  · exact veilEvents w.shared.journal

end Sights

theorem everyCoded {Alters : (σ → σ) → Prop} {outside : σ} {w : World σ}
    (attained : Attained P Alters outside w) : w.Coded := by
  intro slot h p held here lent
  obtain ⟨x,member,same⟩ := List.mem_map.mp lent
  obtain rfl := holderOwns (everyOwned attained) held here x member same
  exact (everyPool (Pool.coherentLasts P) attained p (List.mem_of_getElem? here)).2 _ member

theorem reachableAnswer {w : World σ} (reachable : w.Reachable P) (m : Move σ) :
    (w.answer P m).2.Reachable P := by
  rw [answerMoves]
  exact .move m reachable

theorem observeAlike (blind : P.Blind Same) {moves moves' : List (Move σ)}
    (alike : List.Forall₂ (Move.Alike Same) moves moves') {w w' : World σ}
    (reachable : w.Reachable P) (reachable' : w'.Reachable P) (same : w.veil Same = w'.veil Same) :
    w.observe P moves = w'.observe P moves' ∧
      (w.run P moves).veil Same = (w'.run P moves').veil Same := by
  induction alike generalizing w w' with
  | nil => exact ⟨rfl,same⟩
  | @cons m m' moves moves' first others ih =>
    obtain ⟨_,attained⟩ := reachableAttained reachable
    obtain ⟨_,attained'⟩ := reachableAttained reachable'
    have told := answerAlike blind same first (everyCoded attained) (everyCoded attained')
    have answers := congrArg Prod.fst told
    have worlds := congrArg Prod.snd told
    simp only [Prod.map_fst,Prod.map_snd,id_eq] at answers worlds
    have seen : (w.answer P m).2.sight = (w'.answer P m').2.sight := by
      rw [← veilSight Same,worlds,veilSight]
    have later := ih (reachableAnswer reachable m) (reachableAnswer reachable' m') worlds
    have moved := later.2
    rw [answerMoves,answerMoves] at moved
    exact ⟨congrArg₂ List.cons (congrArg₂ Prod.mk answers seen) later.1,moved⟩

end World
end ConnectionPool
