import Mathlib.Data.List.Forall2
import ConnectionPool.Json.Reader
/-! What is written as JSON is read back as it was: its texts character by character, its numbers
digit by digit, then the tokens of a value, then the value. -/
namespace ConnectionPool.Json

inductive Piece.Stands : Piece → Char → Prop
  | char (c : Char) : Stands (.char c) c
  | unit {c : Char} (control : c.toNat < 0x20) : Stands (.unit c.toNat) c

inductive Escapes (c : Char) : List Char → Prop
  | plain (visible : 0x20 ≤ c.toNat) (unquoted : c ≠ '"') (unescaped : c ≠ '\\') : Escapes c [c]
  | short {e} (short : e ≠ 'u') (stands : escape? e = some c) : Escapes c ['\\',e]
  | long (control : c.toNat < 0x20) : Escapes c
      ['\\','u','0','0',Nat.digitChar (c.toNat / 16),Nat.digitChar (c.toNat % 16)]

section Texts
variable {c : Char} {cs spelling rest after : List Char} {ps : List Piece}

theorem escapedEscapes (c : Char) : Escapes c (escaped c) := by
  unfold escaped
  split_ifs with quote backslash b f n r t control
  iterate 7 subst_vars; exact .short (by decide) rfl
  · exact .long control
  · exact .plain (Nat.not_lt.mp control) quote backslash

theorem unitControl : ∀ n < 0x20,
    unit? '0' '0' (Nat.digitChar (n / 16)) (Nat.digitChar (n % 16)) = some n := by
  decide

theorem Escapes.pieces (escapes : Escapes c spelling) (found : pieces rest = some (ps,after)) :
    ∃ p : Piece, p.Stands c ∧ Json.pieces (spelling ++ rest) = some (p :: ps,after) := by
  cases escapes with
  | plain visible unquoted unescaped =>
    refine ⟨_,.char c,?_⟩
    have printed : ¬(c = '\\' ∨ c.toNat < 0x20) := not_or.mpr ⟨unescaped,Nat.not_lt.mpr visible⟩
    rw [List.singleton_append,Json.pieces,if_neg printed,found]
    · rfl
    all_goals grind
  | short short stands =>
    refine ⟨_,.char c,?_⟩
    rw [List.cons_append,List.singleton_append,Json.pieces,stands,found]
    · rfl
    all_goals grind
  | long control =>
    refine ⟨_,.unit control,?_⟩
    simp only [List.cons_append,List.nil_append,Json.pieces,unitControl _ control,found]
    rfl

theorem piecesFlat (cs rest : List Char) : ∃ ps, List.Forall₂ Piece.Stands ps cs ∧
    pieces (cs.flatMap escaped ++ '"' :: rest) = some (ps,rest) := by
  induction cs with
  | nil => exact ⟨[],.nil,rfl⟩
  | cons c cs ih =>
    obtain ⟨ps,stand,found⟩ := ih
    obtain ⟨p,stands,more⟩ := (escapedEscapes c).pieces found
    refine ⟨p :: ps,.cons stands stand,?_⟩
    rw [List.flatMap_cons,List.append_assoc,more]

theorem joinedWhole {n : Nat} (whole : n < 0xd800) (ps : List Piece) :
    joined (.unit n :: ps) = (joined ps).map (Char.ofNat n :: ·) := by
  have high : isHighUnit n = false := by simp only [isHighUnit]; grind
  have low : isLowUnit n = false := by simp only [isLowUnit]; grind
  rcases ps with _ | ⟨_ | _,_⟩ <;> simp [joined,high,low]

theorem joinedStands (stand : List.Forall₂ Piece.Stands ps cs) : joined ps = some cs := by
  induction stand with
  | nil => rfl
  | cons first others ih =>
    cases first with
    | char => rw [joined,ih,Option.map_some]
    | unit control => rw [joinedWhole (by omega),ih,Option.map_some,Char.ofNat_toNat]

theorem tokenQuoted (cs rest : List Char) :
    token '"' (cs.flatMap escaped ++ '"' :: rest) = some (.leaf (.text (some (String.ofList cs))),rest) := by
  obtain ⟨ps,stand,found⟩ := piecesFlat cs rest
  rw [token,found]
  simp only [Option.bind_eq_bind,Option.bind_some,joinedStands stand,Option.map_some]

theorem tokenSpoilt (rest : List Char) :
    token '"' (['\\','u','d','8','0','0','"'] ++ rest) = some (.leaf (.text none),rest) := by
  have alone : unit? 'd' '8' '0' '0' = some 0xd800 := by decide
  simp only [token,List.cons_append,List.nil_append,pieces,alone]
  rfl

end Texts

section Numbers
variable {c : Char} {cs rest : List Char} {n : Nat}

def Ends (rest : List Char) : Prop :=
  ∀ c ∈ rest.head?, c.isDigit = false ∧ c ≠ '.' ∧ c ≠ 'e' ∧ c ≠ 'E'

theorem firstDigit (positive : 0 < n) : (Nat.toDigits 10 n).head? ≠ some '0' := by
  induction n using Nat.strongRecOn with
  | ind n ih =>
    by_cases small : n < 10
    · rw [Nat.toDigits_of_lt_base small]
      have other : ∀ n < 10, 0 < n → [Nat.digitChar n].head? ≠ some '0' := by decide
      exact other n small positive
    · rw [Nat.toDigits_of_base_le (by decide) (Nat.not_lt.mp small),
        List.head?_append_of_ne_nil _ Nat.toDigits_ne_nil]
      exact ih (n / 10) (by omega) (by omega)

theorem naturalOfToDigits (n : Nat) : naturalOf (Nat.toDigits 10 n) = n := by
  have read : Nat.ofDigitChars 10 (Nat.toDigits 10 n) 0 = n := Nat.ofDigitChars_ten_toDigits
  rw [Nat.ofDigitChars_eq_foldl] at read
  simpa only [naturalOf,Nat.mul_comm] using read

theorem digitsToDigits (n : Nat) (ends : Ends rest) :
    digits (Nat.toDigits 10 n ++ rest) = some (Nat.toDigits 10 n,rest) := by
  have each : ∀ c ∈ Nat.toDigits 10 n, c.isDigit := fun c member =>
    Nat.isDigit_of_mem_toDigits (by decide) (by decide) member
  have stops : rest.takeWhile Char.isDigit = [] ∧ rest.dropWhile Char.isDigit = rest := by
    cases rest with
    | nil => exact ⟨rfl,rfl⟩
    | cons c rest => simp [(ends c rfl).1]
  unfold digits
  rw [List.takeWhile_append_of_pos each,List.dropWhile_append_of_pos each,stops.1,stops.2,
    List.append_nil]
  split
  · exact absurd ‹_› Nat.toDigits_ne_nil
  · rfl

theorem wholeToDigits (n : Nat) (ends : Ends rest) :
    wholePart (Nat.toDigits 10 n ++ rest) = some (Nat.toDigits 10 n,rest) := by
  have short : ¬((Nat.toDigits 10 n).head? = some '0' ∧ Nat.toDigits 10 n ≠ ['0']) := by
    rintro ⟨zero,long⟩
    cases n with
    | zero => exact long rfl
    | succ n => exact firstDigit (Nat.succ_pos n) zero
  unfold wholePart
  rw [digitsToDigits n ends]
  exact if_neg short

theorem Ends.fraction (ends : Ends rest) : fractionPart rest = some ([],rest) := by
  unfold fractionPart
  split
  · exact absurd rfl (ends '.' rfl).2.1
  · rfl

theorem Ends.exponent (ends : Ends rest) : exponentPart rest = some ([],rest) := by
  cases rest with
  | nil => rfl
  | cons c rest =>
    obtain ⟨_,_,small,capital⟩ := ends c rfl
    unfold exponentPart
    exact if_neg (not_or.mpr ⟨small,capital⟩)

theorem toDigitsFirst (n : Nat) : ∃ c ds, Nat.toDigits 10 n = c :: ds ∧ c.isDigit := by
  obtain ⟨c,ds,same⟩ := List.exists_cons_of_ne_nil (Nat.toDigits_ne_nil (n := n) (b := 10))
  have first : c ∈ Nat.toDigits 10 n := same ▸ List.mem_cons_self
  exact ⟨c,ds,same,Nat.isDigit_of_mem_toDigits (by decide) (by decide) first⟩

theorem numeralToDigits (n : Nat) (ends : Ends rest) :
    numeral (Nat.toDigits 10 n ++ rest) = some (.natural n,rest) := by
  obtain ⟨c,ds,same,digit⟩ := toDigitsFirst n
  have unsigned : c ≠ '-' := by rintro rfl; cases digit
  have whole := wholeToDigits n ends
  rw [same,List.cons_append] at whole ⊢
  unfold numeral
  split
  rename_i sign cs found
  split at found
  · rename_i same
    exact absurd (List.cons.inj same).1 unsigned
  · cases found
    simp [whole,ends.fraction,ends.exponent,← same,naturalOfToDigits]

theorem tokenDigit (digit : c.isDigit) (cs : List Char) :
    token c cs = (numeral (c :: cs)).map fun read => (.leaf read.1,read.2) := by
  rw [Option.map_eq_bind]
  unfold token
  split <;> first | cases digit | rfl

end Numbers

mutual
def spelt : Json → List Token
  | array items => .openArray :: (itemsSpelt items ++ [.closeArray])
  | object fields => .openObject :: (fieldsSpelt fields ++ [.closeObject])
  | value => [.leaf value]

def itemsSpelt : List Json → List Token
  | [] => []
  | [item] => spelt item
  | item :: rest => spelt item ++ .comma :: itemsSpelt rest

def fieldsSpelt : List (Option String × Json) → List Token
  | [] => []
  | [(name,value)] => .leaf (.text name) :: .colon :: spelt value
  | (name,value) :: rest =>
      .leaf (.text name) :: .colon :: (spelt value ++ .comma :: fieldsSpelt rest)
end

inductive Plain : Json → Prop
  | null : Plain null
  | bool (value : Bool) : Plain (bool value)
  | natural (n : Nat) : Plain (natural n)
  | text (content : Option String) : Plain (text content)
  | array {items} (each : ∀ item ∈ items, Plain item) : Plain (array items)
  | object {fields : List (Option String × Json)} (each : ∀ field ∈ fields, Plain field.2) :
      Plain (object fields)

section Tokens
variable {c : Char} {cs rest : List Char} {t : Token} {ts : List Token} {v : Json}

def Lexes (cs : List Char) (ts : List Token) : Prop :=
  ∀ bound, cs.length ≤ bound → tokensWithin bound cs = some ts

theorem lexesNil : Lexes [] [] := fun _ _ => by rw [tokensWithin]

theorem endsNil : Ends [] := by
  intro c first
  cases first

theorem Lexes.cons (lexes : Lexes rest ts) (visible : isSpace c = false)
    (read : token c cs = some (t,rest)) (shorter : rest.length ≤ cs.length) :
    Lexes (c :: cs) (t :: ts) := by
  intro bound long
  cases bound with
  | zero => cases long
  | succ bound =>
    rw [tokensWithin,visible,read]
    have later := lexes bound (by simp only [List.length_cons] at long; omega)
    simp only [Bool.false_eq_true,if_false,Option.bind_eq_bind,Option.bind_some,later]

def Scans (v : Json) : Prop :=
  ∀ rest ts, Ends rest → Lexes rest ts → Lexes (v.render.toList ++ rest) (v.spelt ++ ts)

theorem quoteLexes (content : Option String) (lexes : Lexes rest ts) :
    Lexes ((quote content).toList ++ rest) (.leaf (.text content) :: ts) := by
  cases content with
  | none =>
    have written : (quote none).toList = '"' :: ['\\','u','d','8','0','0','"'] := by decide
    rw [written,List.cons_append]
    exact lexes.cons rfl (tokenSpoilt rest) (by rw [List.length_append]; omega)
  | some s =>
    have read := tokenQuoted s.toList rest
    rw [String.ofList_toList] at read
    have written : (quote (some s)).toList ++ rest =
        '"' :: (s.toList.flatMap escaped ++ '"' :: rest) := by
      simp [quote]
    rw [written]
    exact lexes.cons rfl read (by rw [List.length_append,List.length_cons]; omega)

theorem digitVisible (digit : c.isDigit) : isSpace c = false := by
  refine Bool.eq_false_iff.mpr fun space => ?_
  simp only [isSpace,Bool.or_eq_true,beq_iff_eq] at space
  rcases space with ((rfl | rfl) | rfl) | rfl <;> cases digit

theorem naturalScans (n : Nat) : Scans (natural n) := by
  intro rest ts ends lexes
  obtain ⟨c,ds,same,digit⟩ := toDigitsFirst n
  have read := numeralToDigits n ends
  have written : (natural n).render.toList ++ rest = c :: (ds ++ rest) := by
    rw [render,Nat.toString_eq_repr,Nat.toList_repr,same,List.cons_append]
  rw [same,List.cons_append] at read
  rw [written]
  refine lexes.cons (digitVisible digit) ?_ (by rw [List.length_append]; omega)
  rw [tokenDigit digit,read,Option.map_some]

theorem endsMark (mark : c = ',' ∨ c = ']' ∨ c = '\x7d') (rest : List Char) : Ends (c :: rest) := by
  rintro _ ⟨⟩
  rcases mark with rfl | rfl | rfl <;> decide

theorem itemsLexes {items : List Json} (each : ∀ item ∈ items, Scans item)
    (lexes : Lexes (']' :: rest) ts) :
    Lexes ((renderItems items).toList ++ ']' :: rest) (itemsSpelt items ++ ts) := by
  have close := endsMark (.inr (.inl rfl)) rest
  induction items with
  | nil => simpa [renderItems,itemsSpelt] using lexes
  | cons item others ih =>
    obtain ⟨first,later⟩ := List.forall_mem_cons.mp each
    cases others with
    | nil => exact first _ _ close lexes
    | cons second others =>
      have more := (ih later).cons rfl (t := .comma) (c := ',') rfl (Nat.le_refl _)
      have lexed := first _ _ (endsMark (.inl rfl) _) more
      simpa [renderItems,itemsSpelt] using lexed

theorem fieldsLexes {fields : List (Option String × Json)} (each : ∀ field ∈ fields, Scans field.2)
    (lexes : Lexes ('\x7d' :: rest) ts) :
    Lexes ((renderFields fields).toList ++ '\x7d' :: rest) (fieldsSpelt fields ++ ts) := by
  have close := endsMark (.inr (.inr rfl)) rest
  induction fields with
  | nil => simpa [renderFields,fieldsSpelt] using lexes
  | cons field others ih =>
    obtain ⟨name,value⟩ := field
    obtain ⟨first,later⟩ := List.forall_mem_cons.mp each
    have colon : ∀ {rest ts}, Lexes rest ts → Lexes (':' :: rest) (.colon :: ts) :=
      fun lexes => lexes.cons rfl rfl (Nat.le_refl _)
    cases others with
    | nil =>
      have lexed := quoteLexes name (colon (first _ _ close lexes))
      simpa [renderFields,fieldsSpelt] using lexed
    | cons second others =>
      have more := (ih later).cons rfl (t := .comma) (c := ',') rfl (Nat.le_refl _)
      have lexed := quoteLexes name (colon (first _ _ (endsMark (.inl rfl) _) more))
      simpa [renderFields,fieldsSpelt] using lexed

theorem Plain.scans (plain : Plain v) : Scans v := by
  induction plain with
  | null => exact fun rest ts _ lexes => lexes.cons rfl rfl (Nat.le_add_right _ 3)
  | bool value =>
    cases value
    · exact fun rest ts _ lexes => lexes.cons rfl rfl (Nat.le_add_right _ 4)
    · exact fun rest ts _ lexes => lexes.cons rfl rfl (Nat.le_add_right _ 3)
  | natural n => exact naturalScans n
  | text content => exact fun rest ts _ lexes => quoteLexes content lexes
  | array _ ih =>
    intro rest ts _ lexes
    have close : Lexes (']' :: rest) (.closeArray :: ts) := lexes.cons rfl rfl (Nat.le_refl _)
    have lexed := (itemsLexes ih close).cons rfl (t := .openArray) (c := '[') rfl (Nat.le_refl _)
    simpa [render,spelt] using lexed
  | object _ ih =>
    intro rest ts _ lexes
    have close : Lexes ('\x7d' :: rest) (.closeObject :: ts) := lexes.cons rfl rfl (Nat.le_refl _)
    have lexed := (fieldsLexes ih close).cons rfl (t := .openObject) (c := '\x7b') rfl (Nat.le_refl _)
    simpa [render,spelt] using lexed

end Tokens
section Values
variable {bound : Nat} {rest : List Token} {v : Json}

def Parses (v : Json) : Prop :=
  ∀ bound rest, v.spelt.length ≤ bound → valueWithin bound (v.spelt ++ rest) = some (v,rest)

theorem speltOpens (v : Json) : ∃ t ts, v.spelt = t :: ts ∧ t ≠ .closeArray := by
  cases v <;> exact ⟨_,_,rfl,by simp⟩

theorem itemsSpeltCons (first second : Json) (others : List Json) :
    itemsSpelt (first :: second :: others) =
      spelt first ++ .comma :: itemsSpelt (second :: others) := by
  rw [itemsSpelt]
  exact List.cons_ne_nil second others

theorem fieldsSpeltCons (name : Option String) (first : Json)
    (second : Option String × Json) (others : List (Option String × Json)) :
    fieldsSpelt ((name,first) :: second :: others) =
      .leaf (.text name) :: .colon :: (spelt first ++ .comma :: fieldsSpelt (second :: others)) := by
  rw [fieldsSpelt]
  exact List.cons_ne_nil second others

theorem itemsParse (rest : List Token) {items : List Json} (filled : items ≠ []) (each : ∀ item ∈ items, Parses item)
    (long : (itemsSpelt items).length < bound) :
    itemsWithin bound (itemsSpelt items ++ .closeArray :: rest) = some (items,rest) := by
  induction items generalizing bound with
  | nil => exact absurd rfl filled
  | cons item others ih =>
    obtain ⟨first,later⟩ := List.forall_mem_cons.mp each
    cases bound with
    | zero => cases long
    | succ bound =>
      cases others with
      | nil =>
        have read := first bound (.closeArray :: rest) (Nat.le_of_lt_succ long)
        rw [itemsSpelt,itemsWithin,read]
        rfl
      | cons second others =>
        rw [itemsSpeltCons,List.length_append,List.length_cons] at long
        have read := first bound (.comma :: (itemsSpelt (second :: others) ++ .closeArray :: rest))
          (by omega)
        have short : (itemsSpelt (second :: others)).length < bound := by omega
        have more := ih (List.cons_ne_nil _ _) later short
        rw [itemsSpeltCons,List.append_assoc,List.cons_append,itemsWithin,read]
        simp only [Option.bind_eq_bind,Option.bind_some,more]

theorem fieldsParse (rest : List Token) {fields : List (Option String × Json)}
    (filled : fields ≠ []) (each : ∀ field ∈ fields, Parses field.2) (long : (fieldsSpelt fields).length ≤ bound) :
    fieldsWithin bound (fieldsSpelt fields ++ .closeObject :: rest) = some (fields,rest) := by
  induction fields generalizing bound with
  | nil => exact absurd rfl filled
  | cons field others ih =>
    obtain ⟨name,value⟩ := field
    have first : Parses value := each _ List.mem_cons_self
    have later := (List.forall_mem_cons.mp each).2
    cases bound with
    | zero => cases others <;> cases long
    | succ bound =>
      cases others with
      | nil =>
        simp only [fieldsSpelt,List.length_cons] at long
        have read := first bound (.closeObject :: rest) (by omega)
        rw [fieldsSpelt,List.cons_append,List.cons_append,fieldsWithin,read]
        rfl
      | cons second others =>
        rw [fieldsSpeltCons,List.length_cons,List.length_cons,List.length_append,
          List.length_cons] at long
        have read := first bound (.comma :: (fieldsSpelt (second :: others) ++ .closeObject :: rest))
          (by omega)
        have short : (fieldsSpelt (second :: others)).length ≤ bound := by omega
        have more := ih (List.cons_ne_nil _ _) later short
        rw [fieldsSpeltCons,List.cons_append,List.cons_append,List.append_assoc,List.cons_append,
          fieldsWithin,read]
        simp only [Option.bind_eq_bind,Option.bind_some,more]

theorem leafParses (same : v.spelt = [.leaf v]) : Parses v := by
  intro bound rest long
  rw [same] at long ⊢
  cases bound with
  | zero => cases long
  | succ bound => rw [List.singleton_append,valueWithin]

theorem itemsOpen (first : Json) (others : List Json) :
    ∃ t ts, itemsSpelt (first :: others) = t :: ts ∧ t ≠ .closeArray := by
  obtain ⟨t,ts,same,opens⟩ := speltOpens first
  cases others with
  | nil => exact ⟨t,ts,same,opens⟩
  | cons second others =>
    exact ⟨t,_,by rw [itemsSpeltCons,same,List.cons_append],opens⟩

theorem arrayParses {items : List Json} (each : ∀ item ∈ items, Parses item) :
    Parses (array items) := by
  intro bound rest long
  cases bound with
  | zero => cases long
  | succ bound =>
    cases items with
    | nil => rfl
    | cons first others =>
      rw [spelt,List.length_cons,List.length_append,List.length_singleton] at long
      have short : (itemsSpelt (first :: others)).length < bound := by omega
      have read := itemsParse rest (List.cons_ne_nil _ _) each short
      obtain ⟨t,ts,same,opens⟩ := itemsOpen first others
      rw [spelt,List.cons_append,List.append_assoc,List.singleton_append]
      rw [same,List.cons_append] at read ⊢
      rw [valueWithin]
      · rw [read]
        rfl
      all_goals simp_all

theorem fieldsOpen (first : Option String × Json) (others : List (Option String × Json)) :
    ∃ ts, fieldsSpelt (first :: others) = .leaf (.text first.1) :: ts := by
  cases others with
  | nil => exact ⟨_,rfl⟩
  | cons second others => exact ⟨_,fieldsSpeltCons _ _ _ _⟩

theorem objectParses {fields : List (Option String × Json)}
    (each : ∀ field ∈ fields, Parses field.2) : Parses (object fields) := by
  intro bound rest long
  cases bound with
  | zero => cases long
  | succ bound =>
    cases fields with
    | nil => rfl
    | cons first others =>
      rw [spelt,List.length_cons,List.length_append,List.length_singleton] at long
      have short : (fieldsSpelt (first :: others)).length ≤ bound := by omega
      have read := fieldsParse rest (List.cons_ne_nil _ _) each short
      obtain ⟨ts,same⟩ := fieldsOpen first others
      rw [spelt,List.cons_append,List.append_assoc,List.singleton_append]
      rw [same,List.cons_append] at read ⊢
      rw [valueWithin]
      · rw [read]
        rfl
      all_goals simp_all

theorem Plain.parses (plain : Plain v) : Parses v := by
  induction plain with
  | null | bool | natural | text => exact leafParses rfl
  | array _ ih => exact arrayParses ih
  | object _ ih => exact objectParses ih

theorem Plain.tokens (plain : Plain v) : tokens v.render.toList = some v.spelt := by
  have lexed := plain.scans [] [] endsNil lexesNil
  rw [List.append_nil,List.append_nil] at lexed
  exact lexed _ (Nat.le_refl _)

theorem Plain.readRender (plain : Plain v) : read? v.render = some v := by
  have read := plain.parses (v.spelt.length + 1) [] (Nat.le_succ _)
  rw [List.append_nil] at read
  unfold read?
  simp only [plain.tokens,read,Option.bind_eq_bind,Option.bind_some,List.isEmpty_nil,if_true]

end Values
end ConnectionPool.Json
