import ConnectionPool.Error
/-! Transaction isolation levels, their names, their numeric codes and the statement that sets them. A
level is read from a numeric code, or from a name in any case whose words are parted by spaces,
hyphens or underscores. -/
namespace ConnectionPool

inductive Isolation where
  | none
  | readUncommitted
  | readCommitted
  | repeatableRead
  | serializable
  deriving DecidableEq, Repr

namespace Isolation

instance : Inhabited Isolation := ⟨readCommitted⟩

def all : List Isolation := [none,readUncommitted,readCommitted,repeatableRead,serializable]

def name : Isolation → String
  | none => "NONE"
  | readUncommitted => "READ UNCOMMITTED"
  | readCommitted => "READ COMMITTED"
  | repeatableRead => "REPEATABLE READ"
  | serializable => "SERIALIZABLE"

def word : Isolation → String
  | none => "None"
  | readUncommitted => "ReadUncommitted"
  | readCommitted => "ReadCommitted"
  | repeatableRead => "RepeatableRead"
  | serializable => "Serializable"

def tag : Isolation → String
  | none => "none"
  | readUncommitted => "read_uncommitted"
  | readCommitted => "read_committed"
  | repeatableRead => "repeatable_read"
  | serializable => "serializable"

def code : Isolation → Int
  | none => 0
  | readUncommitted => 1
  | readCommitted => 2
  | repeatableRead => 4
  | serializable => 8

def sql? : Isolation → Option String
  | none => Option.none
  | level => some ("SET TRANSACTION ISOLATION LEVEL " ++ level.name)

def ofCode? (n : Int) : Option Isolation := all.find? (·.code == n)

def ofTag? (text : String) : Option Isolation := all.find? (·.tag == text)

theorem codeRoundTrip (level : Isolation) : ofCode? level.code = some level := by
  cases level <;> rfl

theorem tagRoundTrip (level : Isolation) : ofTag? level.tag = some level := by
  cases level <;> decide

def underscored (c : Char) : Char := if c = ' ' ∨ c = '-' then '_' else c

/-- A 32-bit numeral is always taken for a code. -/
def read (text : List Char) : Except Misconfiguration Isolation :=
  let inner := Text.trim text
  match Text.signed32? inner with
  | some n =>
      match ofCode? n with
      | some level => .ok level
      | .none => .error (.noSuchLevelCode n)
  | .none =>
      match ofTag? (String.ofList (inner.map fun c => underscored c.toLower)) with
      | some level => .ok level
      | .none => .error (.noSuchLevel (String.ofList inner))

end Isolation
end ConnectionPool
