import ConnectionPool.Isolation
import ConnectionPool.Dump
/-! What is needed to open a connection. The URL and the credentials make up the type code that
tells connections opened under different ones apart; the password stays out of debug texts. -/
namespace ConnectionPool

structure DriverProperties where
  entries : List (String × String)
  sorted : entries.Pairwise fun a b => a.1 < b.1
  deriving DecidableEq, Repr

namespace DriverProperties

def empty : DriverProperties := ⟨[],.nil⟩

def insertEntry (key value : String) : List (String × String) → List (String × String)
  | [] => [(key,value)]
  | (k,v) :: rest =>
      if key < k then (key,value) :: (k,v) :: rest
      else if key = k then (key,value) :: rest
      else (k,v) :: insertEntry key value rest

theorem memInsertEntry {key value : String} {e : String × String} {es : List (String × String)}
    (h : e ∈ insertEntry key value es) : e = (key,value) ∨ e ∈ es := by
  induction es with
  | nil => simp_all [insertEntry]
  | cons x xs ih =>
    obtain ⟨k,v⟩ := x
    simp only [insertEntry] at h
    split at h
    · simpa using h
    · split at h
      · rcases List.mem_cons.mp h with same | inside
        · exact .inl same
        · exact .inr (List.mem_cons_of_mem _ inside)
      · rcases List.mem_cons.mp h with same | inside
        · exact .inr (by simp [same])
        · rcases ih inside with new | old
          · exact .inl new
          · exact .inr (List.mem_cons_of_mem _ old)

theorem sortedInsertEntry (key value : String) {es : List (String × String)}
    (h : es.Pairwise fun a b => a.1 < b.1) :
    (insertEntry key value es).Pairwise fun a b => a.1 < b.1 := by
  induction es with
  | nil => simp [insertEntry]
  | cons x xs ih =>
    obtain ⟨k,v⟩ := x
    have ⟨head,tail⟩ := List.pairwise_cons.mp h
    simp only [insertEntry]
    split
    · rename_i below
      refine List.pairwise_cons.mpr ⟨?_,h⟩
      intro e inside
      rcases List.mem_cons.mp inside with rfl | later
      · exact below
      · exact String.lt_trans below (head e later)
    · rename_i notBelow
      split
      · rename_i same
        subst same
        exact List.pairwise_cons.mpr ⟨head,tail⟩
      · rename_i other
        refine List.pairwise_cons.mpr ⟨?_,ih tail⟩
        intro e inside
        rcases memInsertEntry inside with rfl | old
        · have le : k ≤ key := String.not_lt.mp notBelow
          by_cases lt : k < key
          · exact lt
          · exact absurd (String.le_antisymm (String.not_lt.mp lt) le) other
        · exact head e old

def insert (props : DriverProperties) (key value : String) : DriverProperties :=
  ⟨insertEntry key value props.entries,sortedInsertEntry key value props.sorted⟩

/-- A later pair replaces an earlier one with the same key. -/
def ofPairs (pairs : List (String × String)) : DriverProperties :=
  pairs.foldl (fun props pair => props.insert pair.1 pair.2) empty

def get? (props : DriverProperties) (key : String) : Option String := props.entries.lookup key

theorem lookupInsertEntry (key value asked : String) (es : List (String × String)) :
    (insertEntry key value es).lookup asked = if asked = key then some value else es.lookup asked := by
  induction es with
  | nil => simp only [insertEntry,List.lookup_cons,List.lookup_nil]; grind
  | cons x xs ih =>
    obtain ⟨k,v⟩ := x
    simp only [insertEntry]
    split
    · simp only [List.lookup_cons]; grind
    · split <;> simp only [List.lookup_cons] <;> grind

theorem getInsert (props : DriverProperties) (key value asked : String) :
    (props.insert key value).get? asked = if asked = key then some value else props.get? asked :=
  lookupInsertEntry key value asked props.entries

end DriverProperties

structure TypeCode where
  url : Option String
  username : Option String
  password : Option String
  deriving DecidableEq, Repr

structure DataSource where
  driver : Option String := none
  url : Option String := none
  username : Option String := none
  password : Option String := none
  autoCommit : Option Bool := none
  isolation : Option Isolation := none
  properties : DriverProperties := .empty
  deriving DecidableEq, Repr

namespace DataSource

def typeCode (source : DataSource) : TypeCode := ⟨source.url,source.username,source.password⟩

inductive Change where
  | driver (name : String)
  | url (text : String)
  | username (name : String)
  | password (text : String)
  | autoCommit (on : Bool)
  | isolation (level : Option Isolation)
  | property (key value : String)
  | properties (all : DriverProperties)
  | replace (source : DataSource)
  deriving DecidableEq, Repr

def apply (source : DataSource) : Change → DataSource
  | .driver name => { source with driver := some name }
  | .url text => { source with url := some text }
  | .username name => { source with username := some name }
  | .password text => { source with password := some text }
  | .autoCommit on => { source with autoCommit := some on }
  | .isolation level => { source with isolation := level }
  | .property key value => { source with properties := source.properties.insert key value }
  | .properties all => { source with properties := all }
  | .replace other => other

def dumpText (text : String) : Dump := .atom (Text.quoted text)

def dump (source : DataSource) : Dump :=
  .record "DataSourceConfig"
    [("driver",.optional (source.driver.map dumpText)),
     ("url",.optional (source.url.map dumpText)),
     ("username",.optional (source.username.map dumpText)),
     ("password",.optional (source.password.map fun _ => dumpText "<redacted>")),
     ("auto_commit",.optional (source.autoCommit.map .flag)),
     ("default_transaction_isolation",.optional (source.isolation.map fun l => .atom l.word)),
     ("driver_properties",
      .mapping (source.properties.entries.map fun e => (Text.quoted e.1,dumpText e.2)))]

end DataSource
end ConnectionPool
