import ConnectionPool.Json
/-! Reading JSON: characters to tokens, tokens to one value with nothing after it. -/
namespace ConnectionPool.Json

inductive Token where
  | openArray
  | closeArray
  | openObject
  | closeObject
  | comma
  | colon
  | leaf (value : Json)
  deriving Repr

inductive Piece where
  | char (c : Char)
  | unit (n : Nat)
  deriving DecidableEq, Repr

def hexDigit? (c : Char) : Option Nat :=
  if c.isDigit then some (c.toNat - '0'.toNat)
  else if 'a' ≤ c ∧ c ≤ 'f' then some (c.toNat - 'a'.toNat + 10)
  else if 'A' ≤ c ∧ c ≤ 'F' then some (c.toNat - 'A'.toNat + 10)
  else none

def unit? (a b c d : Char) : Option Nat := do
  let a ← hexDigit? a
  let b ← hexDigit? b
  let c ← hexDigit? c
  let d ← hexDigit? d
  some (((a * 16 + b) * 16 + c) * 16 + d)

def escape? : Char → Option Char
  | '"' => some '"'
  | '\\' => some '\\'
  | '/' => some '/'
  | 'b' => some '\x08'
  | 'f' => some '\x0c'
  | 'n' => some '\n'
  | 'r' => some '\r'
  | 't' => some '\t'
  | _ => none

def pieces : List Char → Option (List Piece × List Char)
  | [] => none
  | '"' :: rest => some ([],rest)
  | '\\' :: 'u' :: a :: b :: c :: d :: rest => do
      let n ← unit? a b c d
      let (ps,rest) ← pieces rest
      some (.unit n :: ps,rest)
  | '\\' :: e :: rest => do
      let c ← escape? e
      let (ps,rest) ← pieces rest
      some (.char c :: ps,rest)
  | c :: rest =>
      if c = '\\' ∨ c.toNat < 0x20 then none else do
        let (ps,rest) ← pieces rest
        some (.char c :: ps,rest)

def isHighUnit (n : Nat) : Bool := 0xd800 ≤ n && n < 0xdc00
def isLowUnit (n : Nat) : Bool := 0xdc00 ≤ n && n < 0xe000

/-- Joins surrogate pairs; a half without its other half spoils the text. -/
def joined : List Piece → Option (List Char)
  | [] => some []
  | .char c :: rest => (joined rest).map (c :: ·)
  | .unit n :: .unit m :: rest =>
      if isHighUnit n then
        if isLowUnit m then
          (joined rest).map (Char.ofNat (0x10000 + (n - 0xd800) * 0x400 + (m - 0xdc00)) :: ·)
        else none
      else if isLowUnit n then none
      else (joined (.unit m :: rest)).map (Char.ofNat n :: ·)
  | .unit n :: rest =>
      if isHighUnit n ∨ isLowUnit n then none else (joined rest).map (Char.ofNat n :: ·)

def digits (cs : List Char) : Option (List Char × List Char) :=
  match cs.takeWhile Char.isDigit with
  | [] => none
  | ds => some (ds,cs.dropWhile Char.isDigit)

def wholePart (cs : List Char) : Option (List Char × List Char) := do
  let (ds,rest) ← digits cs
  if ds.head? = some '0' ∧ ds ≠ ['0'] then none else some (ds,rest)

def fractionPart : List Char → Option (List Char × List Char)
  | '.' :: rest => do
      let (ds,rest) ← digits rest
      some ('.' :: ds,rest)
  | cs => some ([],cs)

def exponentPart : List Char → Option (List Char × List Char)
  | e :: rest =>
      if e = 'e' ∨ e = 'E' then
        match rest with
        | s :: after =>
            if s = '+' ∨ s = '-' then do
              let (ds,rest) ← digits after
              some (e :: s :: ds,rest)
            else do
              let (ds,rest) ← digits rest
              some (e :: ds,rest)
        | [] => none
      else some ([],e :: rest)
  | [] => some ([],[])

def naturalOf (ds : List Char) : Nat := ds.foldl (fun n c => n * 10 + (c.toNat - '0'.toNat)) 0

def numeral (cs : List Char) : Option (Json × List Char) := do
  let (sign,cs) := match cs with
    | '-' :: rest => (['-'],rest)
    | _ => ([],cs)
  let (whole,cs) ← wholePart cs
  let (fraction,cs) ← fractionPart cs
  let (exponent,cs) ← exponentPart cs
  if sign = [] ∧ fraction = [] ∧ exponent = [] then some (.natural (naturalOf whole),cs)
  else some (.number (String.ofList (sign ++ whole ++ fraction ++ exponent)),cs)

def isSpace (c : Char) : Bool := c == ' ' || c == '\n' || c == '\t' || c == '\r'

def token : Char → List Char → Option (Token × List Char)
  | '[',cs => some (.openArray,cs)
  | ']',cs => some (.closeArray,cs)
  | '\x7b',cs => some (.openObject,cs)
  | '\x7d',cs => some (.closeObject,cs)
  | ',',cs => some (.comma,cs)
  | ':',cs => some (.colon,cs)
  | 'n','u' :: 'l' :: 'l' :: cs => some (.leaf .null,cs)
  | 't','r' :: 'u' :: 'e' :: cs => some (.leaf (.bool true),cs)
  | 'f','a' :: 'l' :: 's' :: 'e' :: cs => some (.leaf (.bool false),cs)
  | '"',cs => do
      let (ps,cs) ← pieces cs
      some (.leaf (.text ((joined ps).map String.ofList)),cs)
  | c,cs => do
      let (value,cs) ← numeral (c :: cs)
      some (.leaf value,cs)

def tokensWithin : Nat → List Char → Option (List Token)
  | _,[] => some []
  | 0,_ :: _ => none
  | bound + 1,c :: cs =>
      if isSpace c then tokensWithin bound cs else do
        let (t,cs) ← token c cs
        let ts ← tokensWithin bound cs
        some (t :: ts)

def tokens (cs : List Char) : Option (List Token) := tokensWithin cs.length cs

mutual
def valueWithin : Nat → List Token → Option (Json × List Token)
  | 0,_ => none
  | bound + 1,ts =>
      match ts with
      | .leaf value :: ts => some (value,ts)
      | .openArray :: .closeArray :: ts => some (.array [],ts)
      | .openArray :: ts => do
          let (items,ts) ← itemsWithin bound ts
          some (.array items,ts)
      | .openObject :: .closeObject :: ts => some (.object [],ts)
      | .openObject :: ts => do
          let (fields,ts) ← fieldsWithin bound ts
          some (.object fields,ts)
      | _ => none

def itemsWithin : Nat → List Token → Option (List Json × List Token)
  | 0,_ => none
  | bound + 1,ts => do
      let (item,ts) ← valueWithin bound ts
      match ts with
      | .closeArray :: ts => some ([item],ts)
      | .comma :: ts =>
          let (items,ts) ← itemsWithin bound ts
          some (item :: items,ts)
      | _ => none

def fieldsWithin : Nat → List Token → Option (List (Option String × Json) × List Token)
  | 0,_ => none
  | bound + 1,ts =>
      match ts with
      | .leaf (.text name) :: .colon :: ts => do
          let (value,ts) ← valueWithin bound ts
          match ts with
          | .closeObject :: ts => some ([(name,value)],ts)
          | .comma :: ts =>
              let (fields,ts) ← fieldsWithin bound ts
              some ((name,value) :: fields,ts)
          | _ => none
      | _ => none
end

def read? (s : String) : Option Json := do
  let ts ← tokens s.toList
  let (value,rest) ← valueWithin (ts.length + 1) ts
  if rest.isEmpty then some value else none

end ConnectionPool.Json
