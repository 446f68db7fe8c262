import Mathlib.Data.List.DropRight
import Mathlib.Data.Nat.Digits.Defs
import Mathlib.Tactic.Ring
import ConnectionPool.Text
/-! How a text is cut at marks and freed of white space, and which numbers it spells. Each is said in
terms of the text alone, and what is computed is shown to be that and nothing else. -/
namespace ConnectionPool.Text

inductive Segments (mark : Char) : List Char → List (List Char) → Prop
  | whole {cs} (unmarked : mark ∉ cs) : Segments mark cs [cs]
  | cut {cs rest segments} (unmarked : mark ∉ cs) (others : Segments mark rest segments) :
      Segments mark (cs ++ mark :: rest) (cs :: segments)

section Cutting
variable {mark : Char} {cs inner before after : List Char} {segments : List (List Char)}

theorem segmentsExist (mark : Char) (cs : List Char) : ∃ segments, Segments mark cs segments := by
  induction cs with
  | nil => exact ⟨[[]],.whole List.not_mem_nil⟩
  | cons c cs ih =>
    obtain ⟨segments,found⟩ := ih
    by_cases same : mark = c
    · subst same
      exact ⟨[] :: segments,.cut List.not_mem_nil found⟩
    · cases found with
      | whole unmarked => exact ⟨_,.whole (List.not_mem_cons_of_ne_of_not_mem same unmarked)⟩
      | cut unmarked others => exact ⟨_,.cut (List.not_mem_cons_of_ne_of_not_mem same unmarked) others⟩

theorem Segments.splitOn (found : Segments mark cs segments) : cs.splitOn mark = segments := by
  induction found with
  | whole unmarked => exact List.splitOn_eq_singleton unmarked
  | cut unmarked _ ih => rw [List.splitOn_append_cons_self_of_not_mem unmarked,ih]

theorem splitOnSegments : cs.splitOn mark = segments ↔ Segments mark cs segments := by
  refine ⟨fun same => ?_,Segments.splitOn⟩
  obtain ⟨_,found⟩ := segmentsExist mark cs
  rwa [← same,found.splitOn]

structure Trims (cs inner : List Char) : Prop where
  around : ∃ before after, cs = before ++ (inner ++ after) ∧
    (∀ c ∈ before, isBlank c) ∧ ∀ c ∈ after, isBlank c
  first : ∀ c ∈ inner.head?, isBlank c = false
  last : ∀ c ∈ inner.getLast?, isBlank c = false

theorem blankTrimmed (blank : ∀ c ∈ cs, isBlank c) : trimEnd cs = [] := by
  rw [trimEnd,List.dropWhile_eq_nil_iff.mpr fun c member => blank c (List.mem_reverse.mp member),
    List.reverse_nil]

theorem trimEndInner (last : ∀ c ∈ inner.getLast?, isBlank c = false)
    (blank : ∀ c ∈ after, isBlank c) : trimEnd (inner ++ after) = inner := by
  unfold trimEnd
  rw [List.reverse_append,
    List.dropWhile_append_of_pos fun c member => blank c (List.mem_reverse.mp member)]
  rw [← List.head?_reverse] at last
  cases turned : inner.reverse with
  | nil => simpa using turned.symm
  | cons c rest =>
    rw [turned] at last
    rw [List.dropWhile_cons,last c rfl,if_neg Bool.false_ne_true,← turned,List.reverse_reverse]

theorem Trims.trim (trims : Trims cs inner) : trim cs = inner := by
  obtain ⟨before,after,rfl,blank,later⟩ := trims.around
  unfold Text.trim trimStart
  rw [List.dropWhile_append_of_pos blank]
  cases inner with
  | nil =>
    exact blankTrimmed fun c member => later c ((List.dropWhile_sublist _).subset member)
  | cons c rest =>
    rw [List.cons_append,List.dropWhile_cons,trims.first c rfl,if_neg Bool.false_ne_true]
    exact trimEndInner trims.last later

theorem trimTrims (cs : List Char) : Trims cs (trim cs) := by
  have front : cs.takeWhile isBlank ++ trimStart cs = cs := List.takeWhile_append_dropWhile
  have back : trim cs ++ (trimStart cs).rtakeWhile isBlank = trimStart cs :=
    List.rdropWhile_append_rtakeWhile
  have blank : ∀ c ∈ cs.takeWhile isBlank, isBlank c := fun c => List.mem_takeWhile_imp
  have later : ∀ c ∈ (trimStart cs).rtakeWhile isBlank, isBlank c := fun c => List.mem_rtakeWhile_imp
  refine ⟨⟨_,_,by rw [back,front],blank,later⟩,?_,?_⟩
  · intro c first
    have same : c ∈ (trimStart cs).head? := by
      rw [← back]
      exact List.mem_head?_append_of_mem_head? first
    have stops := List.head?_dropWhile_not isBlank cs
    rw [trimStart] at same
    rw [same] at stops
    simpa using stops
  · intro c last
    obtain ⟨some,rfl⟩ := List.mem_getLast?_eq_getLast last
    exact Bool.eq_false_of_not_eq_true (List.rdropWhile_last_not isBlank (trimStart cs) some)

theorem trimStartKeeps (visible : isBlank mark = false) :
    trimStart (before ++ mark :: after) = trimStart before ++ mark :: after := by
  have stops : (mark :: after).dropWhile isBlank = mark :: after := by
    rw [List.dropWhile_cons,visible,if_neg Bool.false_ne_true]
  unfold trimStart
  rw [List.dropWhile_append,stops]
  split
  · rename_i blank
    rw [List.isEmpty_iff.mp blank,List.nil_append]
  · rfl

theorem trimEndKeeps (visible : isBlank mark = false) :
    trimEnd (before ++ mark :: after) = before ++ mark :: trimEnd after := by
  have turned : (before ++ mark :: after).reverse = after.reverse ++ mark :: before.reverse := by
    simp
  have kept : trimStart (after.reverse ++ mark :: before.reverse) = _ := trimStartKeeps visible
  unfold trimStart at kept
  unfold trimEnd
  rw [turned,kept]
  simp

theorem trimKeeps (visible : isBlank mark = false) :
    trim (before ++ mark :: after) = trimStart before ++ mark :: trimEnd after := by
  unfold trim
  rw [trimStartKeeps visible,trimEndKeeps visible]

theorem splitFirstAt (first : mark ∉ before) :
    splitFirst? mark (before ++ mark :: after) = some (before,after) := by
  have others : ∀ c ∈ before, (c != mark) = true := fun c member =>
    bne_iff_ne.mpr fun same => first (same ▸ member)
  unfold splitFirst?
  rw [List.dropWhile_append_of_pos others,List.takeWhile_append_of_pos others]
  simp

theorem splitFirstNone (unmarked : mark ∉ cs) : splitFirst? mark cs = none := by
  have others : cs.dropWhile (· != mark) = [] :=
    List.dropWhile_eq_nil_iff.mpr fun c member => bne_iff_ne.mpr fun same => unmarked (same ▸ member)
  simp only [splitFirst?,others]

end Cutting

section Counting
variable {cs digits : List Char} {n m : Nat}

def digitValue (c : Char) : Nat := c.toNat - '0'.toNat

/-- A text spells a number in decimal: with a plus sign or without, and with one digit or more. -/
inductive Spells : List Char → Nat → Prop
  | digits {digits : List Char} (some : digits ≠ []) (each : ∀ c ∈ digits, c.isDigit) :
      Spells digits (Nat.ofDigits 10 (digits.map digitValue).reverse)
  | signed {digits : List Char} (some : digits ≠ []) (each : ∀ c ∈ digits, c.isDigit) :
      Spells ('+' :: digits) (Nat.ofDigits 10 (digits.map digitValue).reverse)

theorem foldDigits (digits : List Char) (start : Nat) :
    digits.foldl (fun n c => n * 10 + (c.toNat - 48)) start =
      start * 10 ^ digits.length + Nat.ofDigits 10 (digits.map digitValue).reverse := by
  induction digits generalizing start with
  | nil => simp
  | cons c digits ih =>
    rw [List.foldl_cons,ih,List.map_cons,Nat.ofDigits_reverse_cons,List.length_map,
      List.length_cons,Nat.pow_succ]
    have zero : '0'.toNat = 48 := rfl
    rw [digitValue,zero]
    ring

theorem digitsSome : digits? cs = some n ↔ cs ≠ [] ∧ (∀ c ∈ cs, c.isDigit) ∧
    Nat.ofDigits 10 (cs.map digitValue).reverse = n := by
  unfold digits?
  rw [foldDigits,Nat.zero_mul,Nat.zero_add]
  split
  · rename_i spelt
    simpa [spelt.1] using fun _ => List.all_eq_true.mp spelt.2
  · rename_i other
    simp only [reduceCtorEq,false_iff]
    rintro ⟨some,each,_⟩
    exact other ⟨some,List.all_eq_true.mpr each⟩

theorem naturalSome : natural? cs = some n ↔ Spells cs n := by
  constructor
  · intro read
    unfold natural? at read
    split at read
    · obtain ⟨some,each,rfl⟩ := digitsSome.mp read
      exact .signed some each
    · obtain ⟨some,each,rfl⟩ := digitsSome.mp read
      exact .digits some each
  · rintro (⟨some,each⟩ | ⟨some,each⟩)
    · have unsigned : natural? cs = digits? cs := by
        unfold natural?
        split
        · exact absurd (each '+' List.mem_cons_self) (by decide)
        · rfl
      rw [unsigned]
      exact digitsSome.mpr ⟨some,each,rfl⟩
    · exact digitsSome.mpr ⟨some,each,rfl⟩

theorem Spells.same (one : Spells cs n) (other : Spells cs m) : n = m :=
  Option.some.inj ((naturalSome.mpr one).symm.trans (naturalSome.mpr other))

theorem word32Some {n : UInt32} : word32? cs = some n ↔ Spells cs n.toNat := by
  rw [← naturalSome]
  unfold word32?
  cases natural? cs with
  | none => simp
  | some m =>
    simp only [Option.bind_eq_bind,Option.bind_some,Option.some.injEq]
    constructor
    · intro read
      split at read
      · rename_i fits
        rw [← Option.some.inj read,UInt32.toNat_ofNat_of_lt' fits]
      · cases read
    · rintro rfl
      rw [if_pos n.toNat_lt,UInt32.ofNat_toNat]

theorem word64Some {n : UInt64} : word64? cs = some n ↔ Spells cs n.toNat := by
  rw [← naturalSome]
  unfold word64?
  cases natural? cs with
  | none => simp
  | some m =>
    simp only [Option.bind_eq_bind,Option.bind_some,Option.some.injEq]
    constructor
    · intro read
      split at read
      · rename_i fits
        rw [← Option.some.inj read,UInt64.toNat_ofNat_of_lt' fits]
      · cases read
    · rintro rfl
      rw [if_pos n.toNat_lt,UInt64.ofNat_toNat]

inductive SpellsSigned : List Char → Int → Prop
  | natural {cs : List Char} {n : Nat} (spells : Spells cs n) : SpellsSigned cs n
  | negative {digits : List Char} (some : digits ≠ []) (each : ∀ c ∈ digits, c.isDigit) :
      SpellsSigned ('-' :: digits) (-(Nat.ofDigits 10 (digits.map digitValue).reverse : Nat))

theorem Spells.unsigned (spells : Spells cs n) (rest : List Char) : cs ≠ '-' :: rest := by
  rintro rfl
  cases spells with
  | digits _ each => exact absurd (each '-' List.mem_cons_self) (by decide)

theorem SpellsSigned.first {n : Int} (spells : SpellsSigned cs n) :
    ∃ c rest, cs = c :: rest ∧ (c.isDigit ∨ c = '+' ∨ c = '-') := by
  rcases spells with ⟨⟨some,each⟩ | _⟩ | _
  · obtain ⟨c,rest,rfl⟩ := List.exists_cons_of_ne_nil some
    exact ⟨c,rest,rfl,.inl (each c List.mem_cons_self)⟩
  · exact ⟨_,_,rfl,.inr (.inl rfl)⟩
  · exact ⟨_,_,rfl,.inr (.inr rfl)⟩

theorem digitVisible {c : Char} (digit : c.isDigit) : isBlank c = false := by
  have range : 48 ≤ c.toNat ∧ c.toNat ≤ 57 := Char.isDigit_iff_toNat.mp digit
  simp only [isBlank]
  grind

theorem SpellsSigned.visible {n : Int} (spells : SpellsSigned cs n) : ∀ c ∈ cs, isBlank c = false := by
  cases spells with
  | natural spells =>
    cases spells with
    | digits _ each => exact fun c member => digitVisible (each c member)
    | signed _ each =>
      exact List.forall_mem_cons.mpr ⟨by decide,fun c member => digitVisible (each c member)⟩
  | negative _ each =>
    exact List.forall_mem_cons.mpr ⟨by decide,fun c member => digitVisible (each c member)⟩

theorem integerSome {n : Int} : integer? cs = some n ↔ SpellsSigned cs n := by
  constructor
  · intro read
    unfold integer? at read
    split at read
    · rename_i digits
      cases counted : digits? digits with
      | none => simp [counted] at read
      | some m =>
        obtain ⟨some,each,rfl⟩ := digitsSome.mp counted
        obtain rfl : -_ = n := by simpa [counted] using read
        exact .negative some each
    · cases counted : natural? cs with
      | none => simp [counted] at read
      | some m =>
        obtain rfl : (m : Int) = n := by simpa [counted] using read
        exact .natural (naturalSome.mp counted)
  · rintro (spells | ⟨some,each⟩)
    · unfold integer?
      split
      · exact absurd rfl (spells.unsigned _)
      · rw [naturalSome.mpr spells]
        rfl
    · have counted := digitsSome.mpr ⟨some,each,rfl⟩
      simp [integer?,counted]

theorem signed32Some {n : Int} :
    signed32? cs = some n ↔ SpellsSigned cs n ∧ -0x80000000 ≤ n ∧ n < 0x80000000 := by
  rw [← integerSome]
  unfold signed32?
  cases integer? cs with
  | none => simp
  | some m =>
    simp only [Option.bind_eq_bind,Option.bind_some,Option.some.injEq]
    constructor
    · intro read
      split at read
      · rename_i fits
        obtain rfl := Option.some.inj read
        exact ⟨rfl,fits⟩
      · cases read
    · rintro ⟨rfl,fits⟩
      rw [if_pos fits]

end Counting
end ConnectionPool.Text
