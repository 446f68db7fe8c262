import Mathlib.Data.List.Forall2
import Mathlib.Data.List.ReduceOption
import ConnectionPool.Properties
import ConnectionPool.Proofs.Lexis
/-! What is left of a data source, of changes to it and of settings texts when the texts of
passwords are left out. Whether there is a password still shows. -/
namespace ConnectionPool
namespace DataSource

def veil (source : DataSource) : DataSource :=
  { source with password := source.password.map fun _ => "" }

theorem veilTwice (source : DataSource) : source.veil.veil = source.veil := by
  simp only [veil,Option.map_map]
  rfl

theorem veilDump (source : DataSource) : source.veil.dump = source.dump := by
  simp only [dump,veil,Option.map_map]
  rfl

def Change.veil : Change → Change
  | .password _ => .password ""
  | .replace source => .replace source.veil
  | change => change

theorem veilApply (source : DataSource) (change : Change) :
    (source.apply change).veil = source.veil.apply change.veil := by
  cases change <;> rfl

theorem veilBuild (changes : List Change) :
    (build changes).veil = build (changes.map Change.veil) := by
  rw [build,build,List.foldl_map]
  exact (List.foldl_hom veil fun source change => (veilApply source change).symm).symm

end DataSource

namespace Change

def veil : Change → Change
  | source change => source change.veil
  | settings change => settings change

theorem veilApply (change : Change) (state : DataSource × Settings) :
    (change.apply state).map DataSource.veil id =
      change.veil.apply (state.map DataSource.veil id) := by
  cases change with
  | source change => exact Prod.ext (state.1.veilApply change) rfl
  | settings => rfl

theorem veilAll (changes : List Change) (start : DataSource × Settings) :
    (applyAll changes start).map DataSource.veil id =
      applyAll (changes.map veil) (start.map DataSource.veil id) := by
  rw [applyAll,applyAll,List.foldl_map]
  exact (List.foldl_hom (Prod.map DataSource.veil id) fun state change =>
    (veilApply change state).symm).symm

end Change

namespace Properties

inductive SamePart : List Char → List Char → Prop
  | same (part : List Char) : SamePart part part
  | password {key : List Char} (bare : '=' ∉ key)
      (named : (Text.trim key).map Char.toLower = "password".toList) (value value' : List Char) :
      SamePart (key ++ '=' :: value) (key ++ '=' :: value')

/-- Settings texts that differ at most in the values of passwords, none of which has a semicolon. -/
def SameText (text text' : String) : Prop :=
  List.Forall₂ SamePart (text.toList.splitOn ';') (text'.toList.splitOn ';')

theorem SameText.same (text : String) : SameText text text :=
  List.forall₂_same.mpr fun part _ => .same part

def Pair.veil (pair : Pair) : Pair :=
  if pair.word = "password" then { pair with value := [] } else pair

theorem readPassword {key : List Char} (bare : '=' ∉ key) (value : List Char) :
    readPair (Text.trim (key ++ '=' :: value)) =
      .ok ⟨Text.trim key,Text.trim (Text.trimEnd value)⟩ := by
  have first : '=' ∉ Text.trimStart key := fun member =>
    bare ((List.dropWhile_sublist _).subset member)
  have again : Text.trim (Text.trimStart key) = Text.trim key := by
    unfold Text.trim Text.trimStart
    rw [List.dropWhile_idempotent]
  unfold readPair
  rw [Text.trimKeeps (by decide),Text.splitFirstAt first]
  simp only [again]

theorem partsSame {text text' : String} (same : SameText text text') :
    (parts text.toList).map (fun part => (readPair part).map Pair.veil) =
      (parts text'.toList).map (fun part => (readPair part).map Pair.veil) := by
  unfold SameText at same
  unfold parts
  generalize text.toList.splitOn ';' = segments,text'.toList.splitOn ';' = segments' at same
  induction same with
  | nil => rfl
  | @cons a b as bs head tail ih =>
    cases head with
    | same =>
      simp only [List.map_cons,List.filter_cons]
      split
      · exact congrArg (List.cons _) ih
      · exact ih
    | @password key bare named value value' =>
      have there (v : List Char) : Text.trim (key ++ '=' :: v) ≠ [] := by
        rw [Text.trimKeeps (by decide)]
        exact List.append_ne_nil_of_right_ne_nil _ (List.cons_ne_nil _ _)
      have veiled (v : List Char) : Pair.veil ⟨Text.trim key,v⟩ = ⟨Text.trim key,[]⟩ := by
        have word : Pair.word ⟨Text.trim key,v⟩ = "password" := by
          rw [Pair.word,named]
          rfl
        exact if_pos word
      simp only [List.map_cons,List.filter_cons,decide_true,there,ne_eq,not_false_eq_true,if_true,
        readPassword bare,Except.map,veiled]
      exact congrArg (List.cons _) ih

theorem readingsOf {α β γ ε : Type} (f : α → Except ε β) (g : β → γ) (as : List α) :
    (as.mapM f).map (List.map g) = (as.map fun a => (f a).map g).mapM id := by
  -- The first part that cannot be read decides, masked or not.
  induction as with
  | nil => rfl
  | cons a as ih =>
    rw [List.mapM_cons,List.map_cons,List.mapM_cons,← ih]
    cases f a with
    | error => rfl
    | ok => cases as.mapM f <;> rfl

theorem namedPassword {pair : Pair} (named : pair.word = "password") :
    sourceChange? pair = .ok (some (.password (String.ofList pair.value))) ∧
      settingsChange? pair = .ok none := by
  have lower : pair.key.map Char.toLower = "password".toList := by
    have same := congrArg String.toList named
    rwa [Pair.word,String.toList_ofList] at same
  have own : pair.driverProperty? = none := by
    unfold Pair.driverProperty? Text.sameLetters
    rw [List.map_take,lower]
    rfl
  constructor
  · rw [sourceChange?,own,named]
    rfl
  · rw [settingsChange?,named]
    rfl

def Overlooks (select : Pair → Except Misconfiguration (Option α)) (mask : α → α) : Prop :=
  ∃ shown, ∀ pair, pair.word = "password" → (select pair).map (Option.map mask) = .ok shown

theorem changesSame {α : Type} {select : Pair → Except Misconfiguration (Option α)} {mask : α → α}
    (overlooks : Overlooks select mask) {text text' : String} (same : SameText text text') :
    (changes select text).map (List.map mask) = (changes select text').map (List.map mask) := by
  have masks (pair : Pair) : (select pair).map (Option.map mask) =
      (select pair.veil).map (Option.map mask) := by
    obtain ⟨shown,shows⟩ := overlooks
    unfold Pair.veil
    split
    · rename_i named
      exact (shows pair named).trans (shows { pair with value := [] } named).symm
    · rfl
  have through (text : String) : (changes select text).map (List.map mask) =
      ((readPairs text.toList).map (List.map Pair.veil)).bind fun pairs =>
        ((pairs.mapM select).map (List.map (Option.map mask))).map (List.filterMap id) := by
    unfold changes
    cases readPairs text.toList with
    | error => rfl
    | ok pairs =>
      have selected : (pairs.mapM select).map (List.map (Option.map mask)) =
          ((pairs.map Pair.veil).mapM select).map (List.map (Option.map mask)) := by
        rw [readingsOf,readingsOf,List.map_map]
        exact congrArg (List.mapM id) (List.map_congr_left fun pair _ => masks pair)
      refine Eq.trans ?_ (congrArg (Except.map (List.filterMap id)) selected)
      change ((pairs.mapM select).bind fun found => .ok (found.filterMap id)).map _ = _
      rcases pairs.mapM select with fault | found
      · rfl
      · exact congrArg Except.ok List.reduceOption_map.symm
  have read : (readPairs text.toList).map (List.map Pair.veil) =
      (readPairs text'.toList).map (List.map Pair.veil) := by
    unfold readPairs
    rw [readingsOf,readingsOf,partsSame same]
  rw [through,through,read]

theorem sourceOverlooks : Overlooks sourceChange? DataSource.Change.veil := by
  refine ⟨some (.password ""),fun pair named => ?_⟩
  rw [(namedPassword named).1]
  rfl

theorem settingsOverlooks : Overlooks settingsChange? id := by
  refine ⟨none,fun pair named => ?_⟩
  rw [(namedPassword named).2]
  rfl

theorem changeOverlooks : Overlooks change? Change.veil := by
  refine ⟨some (.source (.password "")),fun pair named => ?_⟩
  rw [change?,(namedPassword named).1]
  rfl

end Properties

section Texts
variable {text text' : String} (same : Properties.SameText text text')
include same

theorem DataSource.ofSameText :
    (ofProperties text).map veil = (ofProperties text').map veil := by
  have through (text : String) : (ofProperties text).map veil =
      ((Properties.changes Properties.sourceChange? text).map (List.map Change.veil)).map
        build := by
    unfold ofProperties
    cases Properties.changes Properties.sourceChange? text with
    | error => rfl
    | ok changes => exact congrArg Except.ok (veilBuild changes)
  rw [through,through,Properties.changesSame Properties.sourceOverlooks same]

theorem Settings.ofSameText : ofProperties text = ofProperties text' := by
  have changes := Properties.changesSame Properties.settingsOverlooks same
  simp only [List.map_id_fun,Except.map_id] at changes
  exact congrArg (Except.map build) changes

theorem Properties.readSameText : (read text).map (Prod.map DataSource.veil id) =
    (read text').map (Prod.map DataSource.veil id) := by
  have through (text : String) : (read text).map (Prod.map DataSource.veil id) =
      ((changes change? text).map (List.map Change.veil)).map fun all =>
        Change.applyAll all ({},{}) := by
    unfold read
    cases changes change? text with
    | error => rfl
    | ok changes => exact congrArg Except.ok (Change.veilAll changes ({},{}))
  rw [through,through,changesSame changeOverlooks same]

end Texts
end ConnectionPool
