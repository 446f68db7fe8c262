import ConnectionPool.Settings
import ConnectionPool.Json.Reader
/-! Data sources and settings as JSON. A field that is missing keeps its default, an unknown one is
passed over, a known one must not come twice; an array gives the fields in their order and may stop
early. Times are whole milliseconds in 64 bits. -/
namespace ConnectionPool.Json

/-- A null for a field that may be unset changes nothing. -/
abbrev FieldReader (α : Type) := String × (Json → Option (Option α))

def required (name : String) (read : Json → Option β) (make : β → α) : FieldReader α :=
  (name,fun value => (read value).map fun b => some (make b))

def nullable (name : String) (read : Json → Option β) (make : β → α) : FieldReader α :=
  (name,fun value =>
    match value with
    | null => some none
    | _ => (read value).map fun b => some (make b))

def knownNames (readers : List (FieldReader α)) (names : List String) : List String :=
  names.filter fun name => (readers.lookup name).isSome

def readNamed (readers : List (FieldReader α)) (field : String × Json) : Option (Option α) :=
  match readers.lookup field.1 with
  | some read => read field.2
  | none => some none

def named (fields : List (Option String × Json)) : Option (List (String × Json)) :=
  fields.mapM fun field => field.1.map fun name => (name,field.2)

def changes? (readers : List (FieldReader α)) : Json → Option (List α)
  | object fields => do
      let fields ← named fields
      if (knownNames readers (fields.map Prod.fst)).Nodup then
        return (← fields.mapM (readNamed readers)).filterMap id
      else none
  | array items =>
      if items.length ≤ readers.length then do
        return (← (readers.zip items).mapM fun pair => pair.1.2 pair.2).filterMap id
      else none
  | _ => none

def asMillis? (value : Json) : Option Nat := value.asWord64?.map fun n => Nanos.ofMillis n.toNat

/-- A level is a text, or an object with that one name and null. -/
def asIsolation? : Json → Option Isolation
  | text (some tag) => Isolation.ofTag? tag
  | object [(some tag,null)] => Isolation.ofTag? tag
  | _ => none

def asProperties? : Json → Option DriverProperties
  | object fields => do
      let fields ← named fields
      let pairs ← fields.mapM fun field => field.2.asString?.map fun value => (field.1,value)
      some (.ofPairs pairs)
  | _ => none

def sourceFields : List (FieldReader DataSource.Change) :=
  [nullable "driver" asString? .driver,nullable "url" asString? .url,
   nullable "username" asString? .username,nullable "password" asString? .password,
   nullable "auto_commit" asBool? .autoCommit,
   nullable "default_transaction_isolation" asIsolation? fun l => .isolation (some l),
   required "driver_properties" asProperties? .properties]

def settingsFields : List (FieldReader Settings.Change) :=
  [required "max_active_connections" asWord32? .maxActive,
   required "max_idle_connections" asWord32? .maxIdle,
   required "max_checkout_time" asMillis? .maxCheckoutTime,
   required "time_to_wait" asMillis? .timeToWait,
   required "max_local_bad_connection_tolerance" asWord32? .tolerance,
   required "ping_enabled" asBool? .pingEnabled,
   required "ping_query" asString? .pingQuery,
   required "ping_connections_not_used_for" asMillis? .pingAfter]

def ofTime (nanos : Nat) : Json := natural (min (Nanos.millis nanos) 0xffffffffffffffff)

def ofWord (n : UInt32) : Json := natural n.toNat

end ConnectionPool.Json

namespace ConnectionPool
open Json (ofWord ofTime ofString optional)

def Settings.toJson (settings : Settings) : Json :=
  .record
    [("max_active_connections",ofWord settings.maxActive),
     ("max_idle_connections",ofWord settings.maxIdle),
     ("max_checkout_time",ofTime settings.maxCheckoutTime),
     ("time_to_wait",ofTime settings.timeToWait),
     ("max_local_bad_connection_tolerance",ofWord settings.tolerance),
     ("ping_enabled",.bool settings.pingEnabled),
     ("ping_query",ofString settings.pingQuery),
     ("ping_connections_not_used_for",ofTime settings.pingAfter)]

def Settings.ofJson? (value : Json) : Option Settings :=
  (Json.changes? Json.settingsFields value).map Settings.build

def DataSource.toJson (source : DataSource) : Json :=
  .record
    [("driver",optional ofString source.driver),("url",optional ofString source.url),
     ("username",optional ofString source.username),
     ("password",optional ofString source.password),
     ("auto_commit",optional .bool source.autoCommit),
     ("default_transaction_isolation",optional (fun l => ofString l.tag) source.isolation),
     ("driver_properties",.record (source.properties.entries.map fun e => (e.1,ofString e.2)))]

def DataSource.ofJson? (value : Json) : Option DataSource :=
  (Json.changes? Json.sourceFields value).map DataSource.build

def Settings.store (settings : Settings) : String := settings.toJson.render

def Settings.load? (text : String) : Option Settings := Json.read? text >>= Settings.ofJson?

def DataSource.store (source : DataSource) : String := source.toJson.render

def DataSource.load? (text : String) : Option DataSource := Json.read? text >>= DataSource.ofJson?

end ConnectionPool
