/-! JSON values. A text whose escapes leave half of a surrogate pair over has no content. A number
is a natural number or, in any other spelling, known by its literal alone. The spelling of a value is
compact: no space between tokens, fields in their order, and in texts escapes only for the quote, the
backslash and the controls. -/
namespace ConnectionPool

inductive Json where
  | null
  | bool (value : Bool)
  | natural (value : Nat)
  | number (literal : String)
  | text (content : Option String)
  | array (items : List Json)
  | object (fields : List (Option String × Json))
  deriving Repr

namespace Json

def optional (write : α → Json) : Option α → Json
  | none => null
  | some a => write a

def ofString (s : String) : Json := text (some s)

def record (fields : List (String × Json)) : Json :=
  object (fields.map fun f => (some f.1,f.2))

def asString? : Json → Option String
  | text content => content
  | _ => none

def asBool? : Json → Option Bool
  | bool value => some value
  | _ => none

def asWord32? : Json → Option UInt32
  | natural n => if n < 0x100000000 then some (UInt32.ofNat n) else none
  | _ => none

def asWord64? : Json → Option UInt64
  | natural n => if n < 0x10000000000000000 then some (UInt64.ofNat n) else none
  | _ => none

def escaped (c : Char) : List Char :=
  if c = '"' then ['\\','"']
  else if c = '\\' then ['\\','\\']
  else if c = '\x08' then ['\\','b']
  else if c = '\x0c' then ['\\','f']
  else if c = '\n' then ['\\','n']
  else if c = '\r' then ['\\','r']
  else if c = '\t' then ['\\','t']
  else if c.toNat < 0x20 then
    ['\\','u','0','0',Nat.digitChar (c.toNat / 16),Nat.digitChar (c.toNat % 16)]
  else [c]

/-- A text without content is written as one unpaired escape. -/
def quote : Option String → String
  | some s => String.ofList ('"' :: s.toList.flatMap escaped ++ ['"'])
  | none => "\"\\ud800\""

mutual
def render : Json → String
  | null => "null"
  | bool value => if value then "true" else "false"
  | natural value => toString value
  | number literal => literal
  | text content => quote content
  | array items => "[" ++ renderItems items ++ "]"
  | object fields => "\x7b" ++ renderFields fields ++ "\x7d"

def renderItems : List Json → String
  | [] => ""
  | [item] => render item
  | item :: rest => render item ++ "," ++ renderItems rest

def renderFields : List (Option String × Json) → String
  | [] => ""
  | [(name,value)] => quote name ++ ":" ++ render value
  | (name,value) :: rest => quote name ++ ":" ++ render value ++ "," ++ renderFields rest
end

end Json
end ConnectionPool
