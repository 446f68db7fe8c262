import ConnectionPool.Settings
/-! Settings as text: `key=value` parts between semicolons. The first part without an equals sign
is the fault of the whole text; otherwise the first pair whose value does not fit its key is, and of
pairs with the same key the last one counts. Keys that nobody knows are passed over. -/
namespace ConnectionPool.Properties

structure Pair where
  key : List Char
  value : List Char
  deriving DecidableEq, Repr

def parts (text : List Char) : List (List Char) :=
  ((text.splitOn ';').map Text.trim).filter (· ≠ [])

def readPair (part : List Char) : Except Misconfiguration Pair :=
  match Text.splitFirst? '=' part with
  | some (key,value) => .ok ⟨Text.trim key,Text.trim value⟩
  | none => .error (.notAPair (String.ofList part))

def readPairs (text : List Char) : Except Misconfiguration (List Pair) :=
  (parts text).mapM readPair

abbrev Reader (α : Type) := Pair → Except Misconfiguration α

def text (make : String → α) : Reader α := fun pair => .ok (make (String.ofList pair.value))

def flag (make : Bool → α) : Reader α := fun pair =>
  if pair.value.map Char.toLower ∈ ["true".toList,"yes".toList,"1".toList] then .ok (make true)
  else if pair.value.map Char.toLower ∈ ["false".toList,"no".toList,"0".toList] then
    .ok (make false)
  else .error (.notABoolean (String.ofList pair.key) (String.ofList pair.value))

def number (read : List Char → Option ν) (make : ν → α) : Reader α := fun pair =>
  match read pair.value with
  | some n => .ok (make n)
  | none => .error (.notANumber (String.ofList pair.key) (String.ofList pair.value))

def count (make : UInt32 → α) : Reader α := number Text.word32? make

def millis (make : Nat → α) : Reader α :=
  number Text.word64? fun n => make (Nanos.ofMillis n.toNat)

def level (make : Isolation → α) : Reader α := fun pair => (Isolation.read pair.value).map make

def sourceReaders : List (String × Reader DataSource.Change) :=
  [("driver",text .driver),("url",text .url),("username",text .username),("user",text .username),
   ("password",text .password),("autocommit",flag .autoCommit),
   ("defaultautocommit",flag .autoCommit),
   ("defaulttransactionisolationlevel",level fun l => .isolation (some l))]

def settingsReaders : List (String × Reader Settings.Change) :=
  [("poolmaximumactiveconnections",count .maxActive),
   ("poolmaximumidleconnections",count .maxIdle),
   ("poolmaximumcheckouttime",millis .maxCheckoutTime),
   ("pooltimetowait",millis .timeToWait),
   ("poolmaximumlocalbadconnectiontolerance",count .tolerance),
   ("poolpingenabled",flag .pingEnabled),("poolpingquery",text .pingQuery),
   ("poolpingconnectionsnotusedfor",millis .pingAfter)]

def Pair.word (pair : Pair) : String := String.ofList (pair.key.map Char.toLower)

def Pair.driverProperty? (pair : Pair) : Option (List Char) :=
  if Text.sameLetters (pair.key.take 7) "driver.".toList ∧ pair.key.drop 7 ≠ [] then
    some (pair.key.drop 7)
  else none

def sourceChange? (pair : Pair) : Except Misconfiguration (Option DataSource.Change) :=
  match pair.driverProperty? with
  | some name => .ok (some (.property (String.ofList name) (String.ofList pair.value)))
  | none =>
      match sourceReaders.lookup pair.word with
      | some reader => (reader pair).map some
      | none => .ok none

def settingsChange? (pair : Pair) : Except Misconfiguration (Option Settings.Change) :=
  match settingsReaders.lookup pair.word with
  | some reader => (reader pair).map some
  | none => .ok none

/-- A pair that is for data sources is not looked at as a setting. -/
def change? (pair : Pair) : Except Misconfiguration (Option Change) := do
  match ← sourceChange? pair with
  | some change => pure (some (.source change))
  | none =>
      match ← settingsChange? pair with
      | some change => pure (some (.settings change))
      | none => pure none

def changes (select : Pair → Except Misconfiguration (Option α)) (properties : String) :
    Except Misconfiguration (List α) := do
  let pairs ← readPairs properties.toList
  return (← pairs.mapM select).filterMap id

end ConnectionPool.Properties

namespace ConnectionPool

def DataSource.ofProperties (text : String) : Except Misconfiguration DataSource :=
  (Properties.changes Properties.sourceChange? text).map DataSource.build

def Settings.ofProperties (text : String) : Except Misconfiguration Settings :=
  (Properties.changes Properties.settingsChange? text).map Settings.build

def Properties.read (text : String) : Except Misconfiguration (DataSource × Settings) :=
  (Properties.changes Properties.change? text).map fun all => Change.applyAll all ({},{})

end ConnectionPool
