import Mathlib.Data.List.Forall2
import ConnectionPool.Isolation
import ConnectionPool.Proofs.Lexis
/-! Which texts stand for an isolation level, and how the others are turned down. -/
namespace ConnectionPool.Isolation

def joints : List Char := [' ','-','_']

/-- The same letter in either case, or what may join two words. -/
def Alike (a b : Char) : Prop := a.toLower = b.toLower ∨ a ∈ joints ∧ b ∈ joints

def Alikes : List Char → List Char → Prop := List.Forall₂ Alike

/-- A level is spelt by its code or by its name, with white space around. -/
inductive Spelt (text : List Char) (level : Isolation) : Prop
  | code {inner} (trims : Text.Trims text inner) (spells : Text.SpellsSigned inner level.code)
  | name {inner} (trims : Text.Trims text inner) (alike : Alikes inner level.name.toList)

def Fits (n : Int) : Prop := -0x80000000 ≤ n ∧ n < 0x80000000

instance (n : Int) : Decidable (Fits n) := by unfold Fits; infer_instance

inductive Misspelt (text : List Char) : Misconfiguration → Prop
  | code {inner n} (trims : Text.Trims text inner) (spells : Text.SpellsSigned inner n)
      (fits : Fits n) (none : ∀ level : Isolation, level.code ≠ n) :
      Misspelt text (.noSuchLevelCode n)
  | name {inner} (trims : Text.Trims text inner) (wordy : ∀ n, Fits n → ¬Text.SpellsSigned inner n)
      (none : ∀ level : Isolation, ¬Alikes inner level.name.toList) :
      Misspelt text (.noSuchLevel (String.ofList inner))

section Letters
variable {a b : Char} {cs : List Char} {level : Isolation}

theorem lowerJoint : a.toLower ∈ joints ↔ a ∈ joints := by
  simp only [joints,List.mem_cons,List.not_mem_nil,or_false]
  unfold Char.toLower
  split
  · -- A capital letter is no joint, and neither is the small one.
    simp only [Char.ext_iff,Char.reduceVal]
    grind
  · rfl

theorem underscoredSame : underscored a = underscored b ↔ a = b ∨ a ∈ joints ∧ b ∈ joints := by
  simp only [underscored,joints,List.mem_cons,List.not_mem_nil,or_false]
  grind

theorem underscoredLower : underscored a.toLower = underscored b.toLower ↔ Alike a b := by
  rw [underscoredSame,lowerJoint,lowerJoint,Alike]

theorem nameTag (level : Isolation) :
    level.name.toList.map (fun c => underscored c.toLower) = level.tag.toList := by
  cases level <;> decide

theorem tagAlike :
    cs.map (fun c => underscored c.toLower) = level.tag.toList ↔ Alikes cs level.name.toList := by
  rw [← nameTag,← List.forall₂_eq_eq_eq,List.forall₂_map_left_iff,List.forall₂_map_right_iff]
  simp only [underscoredLower]
  rfl

theorem digitLower (digit : a.isDigit) : a.toLower = a := by
  unfold Char.toLower
  refine dif_neg fun upper => ?_
  simp only [Char.isDigit,Char.reduceVal] at digit upper
  grind

theorem nameWordy {n : Int} (alike : Alikes cs level.name.toList) : ¬Text.SpellsSigned cs n := by
  -- A name begins with a letter, and a number with a digit or a sign.
  intro spells
  obtain ⟨first,rest,rfl,sign⟩ := spells.first
  obtain ⟨letter,others,same,_,letters⟩ := List.forall₂_cons_left_iff.mp alike
  have initial : letter ∉ joints ∧ letter.toLower.isDigit = false ∧
      letter.toLower ≠ '+' ∧ letter.toLower ≠ '-' := by
    cases level <;> cases letters <;> decide
  obtain ⟨other,word,unsigned⟩ := initial
  rcases same with same | ⟨_,joint⟩
  · rcases sign with digit | rfl | rfl
    · rw [← same,digitLower digit,digit] at word
      cases word
    · exact unsigned.1 same.symm
    · exact unsigned.2 same.symm
  · exact other joint

end Letters

section Reading
variable {text : List Char} {level other : Isolation} {fault : Misconfiguration} {n : Int}

theorem codeFits (level : Isolation) : Fits level.code := by
  cases level <;> decide

theorem ofCodeSome : ofCode? n = some level ↔ level.code = n := by
  constructor
  · intro found
    have same := List.find?_some found
    exact beq_iff_eq.mp same
  · rintro rfl
    exact codeRoundTrip level

theorem ofTagSome {tag : String} : ofTag? tag = some level ↔ level.tag = tag := by
  constructor
  · intro found
    have same := List.find?_some found
    exact beq_iff_eq.mp same
  · rintro rfl
    exact tagRoundTrip level

theorem ofTagAlike {cs : List Char} :
    ofTag? (String.ofList (cs.map fun c => underscored c.toLower)) = some level ↔
      Alikes cs level.name.toList := by
  rw [ofTagSome,← tagAlike,← String.toList_inj,String.toList_ofList,eq_comm]

theorem speltOrMisspelt (text : List Char) :
    (∃ level, Spelt text level) ∨ ∃ fault, Misspelt text fault := by
  have trims := Text.trimTrims text
  cases number : Text.signed32? (Text.trim text) with
  | some n =>
    obtain ⟨spells,fits⟩ := Text.signed32Some.mp number
    cases coded : ofCode? n with
    | some level => exact .inl ⟨level,.code trims (ofCodeSome.mp coded ▸ spells)⟩
    | none =>
      refine .inr ⟨_,.code trims spells fits fun level same => ?_⟩
      cases coded.symm.trans (ofCodeSome.mpr same)
  | none =>
    cases tagged : ofTag? (String.ofList ((Text.trim text).map fun c => underscored c.toLower)) with
    | some level => exact .inl ⟨level,.name trims (ofTagAlike.mp tagged)⟩
    | none =>
      refine .inr ⟨_,.name trims (fun n fits spells => ?_) fun level alike => ?_⟩
      · cases number.symm.trans (Text.signed32Some.mpr ⟨spells,fits⟩)
      · cases tagged.symm.trans (ofTagAlike.mpr alike)

theorem Spelt.read (spelt : Spelt text level) : read text = .ok level := by
  cases spelt with
  | code trims spells =>
    have number := Text.signed32Some.mpr ⟨spells,codeFits level⟩
    simp only [Isolation.read,trims.trim,number,codeRoundTrip]
  | name trims alike =>
    have unread : Text.signed32? _ = .none := Option.eq_none_iff_forall_ne_some.mpr
      fun n number => nameWordy alike (Text.signed32Some.mp number).1
    simp only [Isolation.read,trims.trim,unread,ofTagAlike.mpr alike]

theorem Misspelt.read (misspelt : Misspelt text fault) : read text = .error fault := by
  cases misspelt with
  | code trims spells fits none =>
    have number := Text.signed32Some.mpr ⟨spells,fits⟩
    have uncoded : ofCode? _ = .none := Option.eq_none_iff_forall_ne_some.mpr
      fun level coded => none level (ofCodeSome.mp coded)
    simp only [Isolation.read,trims.trim,number,uncoded]
  | name trims wordy none =>
    have unread : Text.signed32? _ = .none := Option.eq_none_iff_forall_ne_some.mpr
      fun n number => have ⟨spells,fits⟩ := Text.signed32Some.mp number; wordy n fits spells
    have untagged : ofTag? _ = .none := Option.eq_none_iff_forall_ne_some.mpr
      fun level tagged => none level (ofTagAlike.mp tagged)
    simp only [Isolation.read,trims.trim,unread,untagged]

theorem Spelt.same (one : Spelt text level) (again : Spelt text other) : level = other :=
  Except.ok.inj (one.read.symm.trans again.read)

end Reading

section Language
variable {a b : Char} {cs name core text : List Char} {level : Isolation}

/-- The number of a level, or its name in letters of any case and with any joints. -/
def Stands (text : List Char) (level : Isolation) : Prop :=
  Text.SpellsSigned text level.code ∨ Alikes text level.name.toList

theorem lowerBlank (a : Char) : Text.isBlank a.toLower = Text.isBlank a := by
  unfold Char.toLower
  split
  · -- Neither a capital letter nor the small one is white space.
    rename_i upper
    simp only [Char.reduceVal,UInt32.le_iff_toNat_le,UInt32.reduceToNat] at upper
    have small : (a.val + ('a'.val - 'A'.val)).toNat = a.val.toNat + 32 := by
      rw [UInt32.toNat_add]
      simp only [Char.reduceVal,UInt32.reduceSub,UInt32.reduceToNat]
      omega
    simp only [Text.isBlank,Char.toNat,small]
    grind
  · rfl

theorem alikeVisible (alike : Alike a b) (letter : Text.isBlank b = false ∧ b ∉ joints) :
    Text.isBlank a = false := by
  rcases alike with same | ⟨_,joint⟩
  · rw [← lowerBlank,same,lowerBlank,letter.1]
  · exact absurd joint letter.2

theorem firstVisible (alike : Alikes cs name)
    (letter : ∀ b ∈ name.head?, Text.isBlank b = false ∧ b ∉ joints) :
    ∀ a ∈ cs.head?, Text.isBlank a = false := by
  intro a same
  cases alike with
  | nil => cases same
  | cons first =>
    cases same
    exact alikeVisible first (letter _ rfl)

theorem standsTrimmed (stands : Stands core level) :
    (∀ c ∈ core.head?, Text.isBlank c = false) ∧ ∀ c ∈ core.getLast?, Text.isBlank c = false := by
  rcases stands with spells | alike
  · exact ⟨fun c first => spells.visible c (List.mem_of_mem_head? first),
      fun c last => spells.visible c (List.mem_of_getLast? last)⟩
  · refine ⟨firstVisible alike ?_,?_⟩
    · cases level <;> rintro _ ⟨⟩ <;> decide
    · rw [← List.head?_reverse]
      refine firstVisible (List.forall₂_reverse_iff.mpr alike) ?_
      cases level <;> rintro _ ⟨⟩ <;> decide

theorem Stands.spelt {before after : List Char} (stands : Stands core level)
    (blank : ∀ c ∈ before, Text.isBlank c) (later : ∀ c ∈ after, Text.isBlank c) :
    Spelt (before ++ (core ++ after)) level := by
  obtain ⟨first,last⟩ := standsTrimmed stands
  have trims : Text.Trims (before ++ (core ++ after)) core :=
    ⟨⟨before,after,rfl,blank,later⟩,first,last⟩
  exact stands.elim (.code trims) (.name trims)

theorem messagesApart (n : Int) (core : String) :
    (Misconfiguration.noSuchLevel core).message ≠ (Misconfiguration.noSuchLevelCode n).message := by
  intro same
  have letters : ("invalid isolation level: " ++ core).toList =
      ("invalid isolation level code: " ++ toString n).toList := congrArg String.toList same
  rw [String.toList_append,String.toList_append] at letters
  -- The messages part where one has a colon and the other goes on.
  have worded : 24 ≤ "invalid isolation level: ".toList.length := by decide
  have coded : 24 ≤ "invalid isolation level code: ".toList.length := by decide
  have alike := (List.take_append_of_le_length worded).symm.trans
    ((congrArg (List.take 24) letters).trans (List.take_append_of_le_length coded))
  exact absurd alike (by decide)

theorem readSpelt : read text = .ok level ↔ Spelt text level := by
  refine ⟨fun found => ?_,Spelt.read⟩
  rcases speltOrMisspelt text with ⟨other,spelt⟩ | ⟨fault,misspelt⟩
  · rwa [← Except.ok.inj (spelt.read.symm.trans found)]
  · cases misspelt.read.symm.trans found

theorem readMisspelt {fault : Misconfiguration} : read text = .error fault ↔ Misspelt text fault := by
  refine ⟨fun found => ?_,Misspelt.read⟩
  rcases speltOrMisspelt text with ⟨level,spelt⟩ | ⟨other,misspelt⟩
  · cases spelt.read.symm.trans found
  · rwa [← Except.error.inj (misspelt.read.symm.trans found)]

theorem Misspelt.numeric {fault : Misconfiguration} (misspelt : Misspelt text fault) :
    (∃ n, fault.message = (Misconfiguration.noSuchLevelCode n).message) ↔
      ∃ inner n, Text.Trims text inner ∧ Fits n ∧ Text.SpellsSigned inner n := by
  cases misspelt with
  | code trims spells fits => exact ⟨fun _ => ⟨_,_,trims,fits,spells⟩,fun _ => ⟨_,rfl⟩⟩
  | name trims wordy =>
    constructor
    · rintro ⟨n,same⟩
      exact absurd same (messagesApart n _)
    · rintro ⟨inner,n,again,fits,spells⟩
      rw [← again.trim,trims.trim] at spells
      exact absurd spells (wordy n fits)

/-- A level is read from its number and from its name, however they are written and with any white
space around, and from no other text. -/
theorem levelReadIffSpelt :
    (∀ text,
      (∀ level, read text = .ok level ↔ Spelt text level) ∧
      (∀ fault, read text = .error fault ↔ Misspelt text fault) ∧
      ∀ fault, read text = .error fault →
        ((∃ n : Int, fault.message = "invalid isolation level code: " ++ toString n) ↔
          ∃ inner n, Text.Trims text inner ∧ Fits n ∧ Text.SpellsSigned inner n)) ∧
      ∀ level core before after, Stands core level → (∀ c ∈ before, Text.isBlank c) →
        (∀ c ∈ after, Text.isBlank c) → read (before ++ (core ++ after)) = .ok level := by
  refine ⟨fun text => ⟨fun level => readSpelt,fun fault => readMisspelt,fun fault failed => ?_⟩,?_⟩
  · exact (readMisspelt.mp failed).numeric
  · intro level core before after stands blank later
    exact (stands.spelt blank later).read

end Language

end ConnectionPool.Isolation
