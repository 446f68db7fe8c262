/-! Debug layouts: a value as named records, wrapped values and mappings, written on one line or
spread over indented lines. -/
namespace ConnectionPool

inductive Dump where
  | atom (text : String)
  | wrapped (name : String) (content : Dump)
  | record (name : String) (fields : List (String × Dump))
  | mapping (entries : List (String × Dump))
  deriving Repr

namespace Dump

def optional : Option Dump → Dump
  | none => atom "None"
  | some d => wrapped "Some" d

def flag (b : Bool) : Dump := atom (if b then "true" else "false")

mutual
def plain : Dump → String
  | atom text => text
  | wrapped name content => name ++ "(" ++ plain content ++ ")"
  | record name [] => name
  | record name (f :: fs) => name ++ " \x7b " ++ plainEntries (f :: fs) ++ " \x7d"
  | mapping entries => "\x7b" ++ plainEntries entries ++ "\x7d"

def plainEntries : List (String × Dump) → String
  | [] => ""
  | [(key,value)] => key ++ ": " ++ plain value
  | (key,value) :: rest => key ++ ": " ++ plain value ++ ", " ++ plainEntries rest
end

def margin (depth : Nat) : String := String.ofList (List.replicate (4 * depth) ' ')

mutual
def pretty (depth : Nat) : Dump → String
  | atom text => text
  | wrapped name content =>
      name ++ "(\n" ++ margin (depth + 1) ++ pretty (depth + 1) content ++ ",\n" ++ margin depth ++ ")"
  | record name [] => name
  | record name (f :: fs) =>
      name ++ " \x7b\n" ++ prettyEntries (depth + 1) (f :: fs) ++ margin depth ++ "\x7d"
  | mapping [] => "\x7b\x7d"
  | mapping (e :: es) => "\x7b\n" ++ prettyEntries (depth + 1) (e :: es) ++ margin depth ++ "\x7d"

def prettyEntries (depth : Nat) : List (String × Dump) → String
  | [] => ""
  | (key,value) :: rest =>
      margin depth ++ key ++ ": " ++ pretty depth value ++ ",\n" ++ prettyEntries depth rest
end

end Dump
end ConnectionPool
