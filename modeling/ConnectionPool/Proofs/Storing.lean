import Mathlib.Data.List.Nodup
import ConnectionPool.Json.Stored
import ConnectionPool.Proofs.Rendering
/-! Data sources and settings come back from the JSON they were stored as, times as whole milliseconds
that fit 64 bits. A field that was taken out comes back with its default. -/
namespace ConnectionPool
open Json (FieldReader ofWord ofTime ofString optional readNamed)

def Nanos.stored (time : Nat) : Nat := ofMillis (min (millis time) 0xffffffffffffffff)

def Nanos.Storable (time : Nat) : Prop := ∃ n : UInt64, time = ofMillis n.toNat

section Times
variable {time : Nat}

theorem timeStored : Nanos.stored time = time ↔ Nanos.Storable time := by
  unfold Nanos.stored Nanos.Storable
  simp only [Nanos.ofMillis,Nanos.millis]
  constructor
  · intro same
    have fits : min (time / 1000000) 0xffffffffffffffff < 0x10000000000000000 := by omega
    exact ⟨.ofNat _,by rw [UInt64.toNat_ofNat_of_lt' fits,same]⟩
  · rintro ⟨n,rfl⟩
    have fits := n.toNat_lt
    omega

theorem ofTimeStored (time : Nat) : ofTime (Nanos.stored time) = ofTime time := by
  unfold ofTime Nanos.stored
  rw [Nanos.millisRoundTrip,Nat.min_assoc,Nat.min_self]

end Times

section Properties
variable {key value : String} {entries : List (String × String)}

theorem insertLast (last : ∀ entry ∈ entries, entry.1 < key) :
    DriverProperties.insertEntry key value entries = entries ++ [(key,value)] := by
  induction entries with
  | nil => rfl
  | cons entry entries ih =>
    obtain ⟨below,later⟩ := List.forall_mem_cons.mp last
    rw [DriverProperties.insertEntry,if_neg (String.lt_asymm below),
      if_neg (String.ne_of_lt below).symm,ih later,List.cons_append]

theorem insertAll (props : DriverProperties) (more : List (String × String))
    (sorted : (props.entries ++ more).Pairwise fun a b => a.1 < b.1) :
    (more.foldl (fun props pair => props.insert pair.1 pair.2) props).entries =
      props.entries ++ more := by
  induction more generalizing props with
  | nil => rw [List.foldl_nil,List.append_nil]
  | cons entry more ih =>
    have last : ∀ earlier ∈ props.entries, earlier.1 < entry.1 := fun earlier member =>
      (List.pairwise_append.mp sorted).2.2 earlier member entry List.mem_cons_self
    have inserted : (props.insert entry.1 entry.2).entries = props.entries ++ [entry] :=
      insertLast last
    have split : (props.insert entry.1 entry.2).entries ++ more = props.entries ++ entry :: more := by
      rw [inserted,List.append_assoc,List.singleton_append]
    rw [List.foldl_cons,ih _ (split ▸ sorted),split]

theorem entriesSame {props others : DriverProperties} (same : props.entries = others.entries) :
    props = others := by
  cases props
  cases others
  cases same
  rfl

theorem ofPairsEntries (props : DriverProperties) : .ofPairs props.entries = props :=
  entriesSame (insertAll .empty props.entries props.sorted)

theorem DriverProperties.keysDistinct (props : DriverProperties) :
    (props.entries.map Prod.fst).Nodup :=
  List.pairwise_map.mpr (props.sorted.imp fun below => String.ne_of_lt below)

end Properties

namespace Json

def keeping (kept : String → Bool) : Json → Json
  | object fields => object (fields.filter fun field => field.1.all kept)
  | value => value

structure Saved (α : Type) where
  name : String
  value : Json
  change : Option α

def Saved.field (part : Saved α) : String × Json := (part.name,part.value)

section Records
variable {α β σ : Type} {readers : List (FieldReader α)} {parts : List (Saved α)}
  {entries : List (String × Json)} {kept : String → Bool}

theorem mapMSome {f : α → Option β} {g : α → β} {as : List α} (each : ∀ a ∈ as, f a = some (g a)) :
    as.mapM f = some (as.map g) := by
  induction as with
  | nil => rfl
  | cons a as ih =>
    obtain ⟨first,later⟩ := List.forall_mem_cons.mp each
    rw [List.mapM_cons,first,ih later]
    rfl

theorem keepingRecord (entries : List (String × Json)) :
    (record entries).keeping kept = record (entries.filter fun entry => kept entry.1) := by
  simp only [record,keeping,List.filter_map]
  rfl

theorem namedRecord (entries : List (String × Json)) :
    named (entries.map fun entry => (some entry.1,entry.2)) = some entries := by
  rw [named,List.mapM_map]
  exact (mapMSome fun _ _ => rfl).trans (congrArg some (List.map_id entries))

theorem changesParts (distinct : (parts.map Saved.name).Nodup)
    (read : ∀ part ∈ parts, readNamed readers part.field = some part.change) :
    changes? readers (record (parts.map Saved.field)) = some (parts.filterMap Saved.change) := by
  have once : (knownNames readers ((parts.map Saved.field).map Prod.fst)).Nodup := by
    rw [List.map_map]
    exact distinct.filter _
  have all : (parts.map Saved.field).mapM (readNamed readers) = some (parts.map Saved.change) := by
    rw [List.mapM_map]
    exact mapMSome read
  simp only [record,changes?,namedRecord,Option.bind_eq_bind,Option.bind_some,if_pos once,all]
  simp [List.filterMap_map]

theorem changesKept (kept : String → Bool) (distinct : (parts.map Saved.name).Nodup)
    (read : ∀ part ∈ parts, readNamed readers part.field = some part.change) :
    changes? readers ((record (parts.map Saved.field)).keeping kept) =
      some ((parts.filter fun part => kept part.name).filterMap Saved.change) := by
  have fewer := List.filter_sublist (p := fun part : Saved α => kept part.name) (l := parts)
  rw [keepingRecord,List.filter_map]
  exact changesParts (distinct.sublist (fewer.map _)) fun part member =>
    read part (fewer.subset member)

def settle (apply : σ → α → σ) (kept : String → Bool) (state : σ) (part : Saved α) : σ :=
  if kept part.name then part.change.elim state (apply state) else state

theorem foldKept (apply : σ → α → σ) (state : σ) :
    ((parts.filter fun part => kept part.name).filterMap Saved.change).foldl apply state =
      parts.foldl (settle apply kept) state := by
  rw [List.foldl_filterMap,List.foldl_filter]
  congr
  funext state part
  simp only [settle]
  cases part.change <;> rfl

theorem foldOptional {apply : σ → α → σ} {make : β → α} {name : String} {value : Json}
    {content : Option β} (put : Option β → σ) (puts : ∀ b, apply (put none) (make b) = put (some b)) :
    List.foldl (settle apply kept) (put none) (⟨name,value,content.map make⟩ :: parts) =
      parts.foldl (settle apply kept) (put (if kept name then content else none)) := by
  rw [List.foldl_cons,settle]
  cases kept name with
  | false => rfl
  | true =>
    cases content with
    | none => rfl
    | some b => exact congrArg (parts.foldl _) (puts b)

theorem foldRequired {apply : σ → α → σ} {make : β → α} {name : String} {value : Json}
    {content before : β} (put : β → σ) (puts : ∀ b, apply (put before) (make b) = put b) :
    List.foldl (settle apply kept) (put before) (⟨name,value,some (make content)⟩ :: parts) =
      parts.foldl (settle apply kept) (put (if kept name then content else before)) := by
  rw [List.foldl_cons,settle]
  cases kept name with
  | false => rfl
  | true => exact congrArg (parts.foldl _) (puts content)

theorem readNullable {read : Json → Option β} {write : β → Json} {make : β → α} {name : String}
    (known : readers.lookup name = some (nullable name read make).2) (content : Option β)
    (reads : ∀ b, read (write b) = some b ∧ write b ≠ null) :
    readNamed readers (name,optional write content) = some (content.map make) := by
  simp only [readNamed,known,nullable]
  cases content with
  | none => rfl
  | some b =>
    obtain ⟨back,filled⟩ := reads b
    simp only [optional,back,Option.map_some]

theorem readRequired {read : Json → Option β} {make : β → α} {name : String} {value : Json} {b : β}
    (known : readers.lookup name = some (required name read make).2) (back : read value = some b) :
    readNamed readers (name,value) = some (some (make b)) := by
  simp only [readNamed,known,required,back,Option.map_some]

end Records

theorem textFilled (content : Option String) : text content ≠ null := by
  intro same
  cases same

theorem boolFilled (value : Bool) : bool value ≠ null := by
  intro same
  cases same

theorem asPropertiesRecord (props : DriverProperties) :
    asProperties? (.record (props.entries.map fun e => (e.1,ofString e.2))) = some props := by
  have texts : (props.entries.map fun e => (e.1,ofString e.2)).mapM
      (fun field => field.2.asString?.map fun value => (field.1,value)) = some props.entries := by
    rw [List.mapM_map]
    exact (mapMSome fun _ _ => rfl).trans (congrArg some (List.map_id _))
  simp only [record,asProperties?,namedRecord,Option.bind_eq_bind,Option.bind_some,texts,
    ofPairsEntries]

theorem asWordOfWord (n : UInt32) : asWord32? (ofWord n) = some n := by
  simp only [ofWord,asWord32?,if_pos n.toNat_lt,UInt32.ofNat_toNat]

theorem asMillisOfTime (time : Nat) : asMillis? (ofTime time) = some (Nanos.stored time) := by
  have fits : min (Nanos.millis time) 0xffffffffffffffff < 0x10000000000000000 := by omega
  simp only [ofTime,asMillis?,asWord64?,if_pos fits,Option.map_some,UInt64.toNat_ofNat_of_lt' fits,
    Nanos.stored]

inductive Content : Json → Prop
  | null : Content null
  | bool (value : Bool) : Content (bool value)
  | word {n : Nat} (fits : n < 0x10000000000000000) : Content (natural n)
  | text (s : String) : Content (ofString s)
  | texts {entries : List (String × String)} (distinct : (entries.map Prod.fst).Nodup) :
      Content (record (entries.map fun e => (e.1,ofString e.2)))

/-- Any way to write JSON as text that reads back the maps of such contents. -/
structure Codec where
  write : Json → String
  read? : String → Option Json
  back {entries : List (String × Json)} (distinct : (entries.map Prod.fst).Nodup)
    (each : ∀ entry ∈ entries, Content entry.2) :
    read? (write (record entries)) = some (record entries)

section Contents
variable {α : Type} {parts : List (Saved α)} {entries : List (String × Json)} {v : Json}

def Codec.load? (codec : Codec) (ofJson? : Json → Option α) (text : String) : Option α :=
  codec.read? text >>= ofJson?

theorem Codec.backKept (codec : Codec) (distinct : (parts.map Saved.name).Nodup)
    (each : ∀ part ∈ parts, Content part.value) (kept : String → Bool) :
    codec.read? (codec.write ((record (parts.map Saved.field)).keeping kept)) =
      some ((record (parts.map Saved.field)).keeping kept) := by
  rw [keepingRecord]
  have names : (parts.map Saved.field).map Prod.fst = parts.map Saved.name := List.map_map
  refine codec.back ((names ▸ distinct).sublist (List.filter_sublist.map _)) fun entry member => ?_
  obtain ⟨part,held,rfl⟩ := List.mem_map.mp (List.mem_of_mem_filter member)
  exact each part held

theorem recordPlain (each : ∀ entry ∈ entries, Plain entry.2) : Plain (record entries) := by
  refine .object fun field member => ?_
  obtain ⟨entry,entered,rfl⟩ := List.mem_map.mp member
  exact each entry entered

theorem Content.plain (content : Content v) : Plain v := by
  cases content with
  | null => exact .null
  | bool value => exact .bool value
  | word fits => exact .natural _
  | text s => exact .text _
  | texts =>
    refine recordPlain fun entry member => ?_
    obtain ⟨_,_,rfl⟩ := List.mem_map.mp member
    exact .text _

def Codec.rendered : Codec where
  write := render
  read? := Json.read?
  back _ each := (recordPlain fun entry member => (each entry member).plain).readRender

theorem optionalContent {write : α → Json} (each : ∀ a, Content (write a)) (content : Option α) :
    Content (optional write content) := by
  cases content with
  | none => exact .null
  | some a => exact each a

theorem wordContent (n : UInt32) : Content (ofWord n) := .word (Nat.lt_trans n.toNat_lt (by decide))

theorem timeContent (time : Nat) : Content (ofTime time) := .word (by omega)

end Contents

end Json

namespace DataSource
open Json (Saved Codec Content optionalContent)

def parts (source : DataSource) : List (Saved Change) :=
  [⟨"driver",optional ofString source.driver,source.driver.map .driver⟩,
   ⟨"url",optional ofString source.url,source.url.map .url⟩,
   ⟨"username",optional ofString source.username,source.username.map .username⟩,
   ⟨"password",optional ofString source.password,source.password.map .password⟩,
   ⟨"auto_commit",optional .bool source.autoCommit,source.autoCommit.map .autoCommit⟩,
   ⟨"default_transaction_isolation",optional (fun l => ofString l.tag) source.isolation,
    source.isolation.map fun l => .isolation (some l)⟩,
   ⟨"driver_properties",.record (source.properties.entries.map fun e => (e.1,ofString e.2)),
    some (.properties source.properties)⟩]

def only (kept : String → Bool) (source : DataSource) : DataSource where
  driver := if kept "driver" then source.driver else none
  url := if kept "url" then source.url else none
  username := if kept "username" then source.username else none
  password := if kept "password" then source.password else none
  autoCommit := if kept "auto_commit" then source.autoCommit else none
  isolation := if kept "default_transaction_isolation" then source.isolation else none
  properties := if kept "driver_properties" then source.properties else .empty

theorem partsDistinct (source : DataSource) : (source.parts.map Saved.name).Nodup := by
  have names : source.parts.map Saved.name = ["driver","url","username","password","auto_commit",
    "default_transaction_isolation","driver_properties"] := rfl
  rw [names]
  decide

theorem contents (source : DataSource) : ∀ part ∈ source.parts, Content part.value := by
  intro part member
  simp only [parts,List.mem_cons,List.not_mem_nil,or_false] at member
  rcases member with rfl | rfl | rfl | rfl | rfl | rfl | rfl
  iterate 4 exact optionalContent .text _
  · exact optionalContent .bool _
  · exact optionalContent (fun _ => .text _) _
  · exact .texts source.properties.keysDistinct

theorem partsRead (source : DataSource) :
    ∀ part ∈ source.parts, readNamed Json.sourceFields part.field = some part.change := by
  intro part member
  simp only [parts,List.mem_cons,List.not_mem_nil,or_false] at member
  rcases member with rfl | rfl | rfl | rfl | rfl | rfl | rfl
  iterate 4 exact Json.readNullable rfl _ fun _ => ⟨rfl,Json.textFilled _⟩
  · exact Json.readNullable rfl _ fun on => ⟨rfl,Json.boolFilled on⟩
  · exact Json.readNullable rfl _ fun level => ⟨Isolation.tagRoundTrip level,Json.textFilled _⟩
  · exact Json.readRequired rfl (Json.asPropertiesRecord _)

theorem buildParts (source : DataSource) (kept : String → Bool) :
    build ((source.parts.filter fun part => kept part.name).filterMap Saved.change) =
      source.only kept := by
  unfold build
  rw [Json.foldKept]
  -- Each field in its turn, with those before it as they were kept.
  let o := source.only kept
  refine (Json.foldOptional (mk · none none none none none .empty) fun _ => rfl).trans ?_
  refine (Json.foldOptional (mk o.driver · none none none none .empty) fun _ => rfl).trans ?_
  refine (Json.foldOptional (mk o.driver o.url · none none none .empty) fun _ => rfl).trans ?_
  refine (Json.foldOptional (mk o.driver o.url o.username · none none .empty) fun _ => rfl).trans ?_
  refine (Json.foldOptional (mk o.driver o.url o.username o.password · none .empty)
    fun _ => rfl).trans ?_
  refine (Json.foldOptional (mk o.driver o.url o.username o.password o.autoCommit · .empty)
    fun _ => rfl).trans ?_
  refine (Json.foldRequired (mk o.driver o.url o.username o.password o.autoCommit o.isolation ·)
    fun _ => rfl).trans ?_
  rfl

theorem readKept (source : DataSource) (kept : String → Bool) :
    ofJson? (source.toJson.keeping kept) = some (source.only kept) := by
  have read := Json.changesKept kept source.partsDistinct source.partsRead
  have same : source.toJson = .record (source.parts.map Saved.field) := rfl
  rw [ofJson?,same,read,Option.map_some,buildParts]

theorem loadKept (codec : Codec) (source : DataSource) (kept : String → Bool) :
    codec.load? ofJson? (codec.write (source.toJson.keeping kept)) = some (source.only kept) := by
  have back := codec.backKept source.partsDistinct source.contents kept
  exact (congrArg (· >>= ofJson?) back).trans (source.readKept kept)

end DataSource

namespace Settings
open Json (Saved Codec Content wordContent timeContent)
variable {settings : Settings}

def parts (settings : Settings) : List (Saved Change) :=
  [⟨"max_active_connections",ofWord settings.maxActive,some (.maxActive settings.maxActive)⟩,
   ⟨"max_idle_connections",ofWord settings.maxIdle,some (.maxIdle settings.maxIdle)⟩,
   ⟨"max_checkout_time",ofTime settings.maxCheckoutTime,
    some (.maxCheckoutTime (Nanos.stored settings.maxCheckoutTime))⟩,
   ⟨"time_to_wait",ofTime settings.timeToWait,
    some (.timeToWait (Nanos.stored settings.timeToWait))⟩,
   ⟨"max_local_bad_connection_tolerance",ofWord settings.tolerance,
    some (.tolerance settings.tolerance)⟩,
   ⟨"ping_enabled",.bool settings.pingEnabled,some (.pingEnabled settings.pingEnabled)⟩,
   ⟨"ping_query",ofString settings.pingQuery,some (.pingQuery settings.pingQuery)⟩,
   ⟨"ping_connections_not_used_for",ofTime settings.pingAfter,
    some (.pingAfter (Nanos.stored settings.pingAfter))⟩]

def stored (settings : Settings) : Settings :=
  { settings with
    maxCheckoutTime := Nanos.stored settings.maxCheckoutTime
    timeToWait := Nanos.stored settings.timeToWait
    pingAfter := Nanos.stored settings.pingAfter }

def only (kept : String → Bool) (settings : Settings) : Settings :=
  let unset : Settings := {}
  { maxActive := if kept "max_active_connections" then settings.maxActive else unset.maxActive
    maxIdle := if kept "max_idle_connections" then settings.maxIdle else unset.maxIdle
    maxCheckoutTime :=
      if kept "max_checkout_time" then settings.maxCheckoutTime else unset.maxCheckoutTime
    timeToWait := if kept "time_to_wait" then settings.timeToWait else unset.timeToWait
    tolerance :=
      if kept "max_local_bad_connection_tolerance" then settings.tolerance else unset.tolerance
    pingEnabled := if kept "ping_enabled" then settings.pingEnabled else unset.pingEnabled
    pingQuery := if kept "ping_query" then settings.pingQuery else unset.pingQuery
    pingAfter :=
      if kept "ping_connections_not_used_for" then settings.pingAfter else unset.pingAfter }

theorem partsDistinct (settings : Settings) : (settings.parts.map Saved.name).Nodup := by
  have names : settings.parts.map Saved.name = ["max_active_connections","max_idle_connections",
    "max_checkout_time","time_to_wait","max_local_bad_connection_tolerance","ping_enabled",
    "ping_query","ping_connections_not_used_for"] := rfl
  rw [names]
  decide

theorem contents (settings : Settings) : ∀ part ∈ settings.parts, Content part.value := by
  intro part member
  simp only [parts,List.mem_cons,List.not_mem_nil,or_false] at member
  rcases member with rfl | rfl | rfl | rfl | rfl | rfl | rfl | rfl
  iterate 2 exact wordContent _
  iterate 2 exact timeContent _
  · exact wordContent _
  · exact .bool _
  · exact .text _
  · exact timeContent _

theorem partsRead (settings : Settings) :
    ∀ part ∈ settings.parts, readNamed Json.settingsFields part.field = some part.change := by
  intro part member
  simp only [parts,List.mem_cons,List.not_mem_nil,or_false] at member
  rcases member with rfl | rfl | rfl | rfl | rfl | rfl | rfl | rfl
  · exact Json.readRequired rfl (Json.asWordOfWord _)
  · exact Json.readRequired rfl (Json.asWordOfWord _)
  · exact Json.readRequired rfl (Json.asMillisOfTime _)
  · exact Json.readRequired rfl (Json.asMillisOfTime _)
  · exact Json.readRequired rfl (Json.asWordOfWord _)
  · exact Json.readRequired rfl rfl
  · exact Json.readRequired rfl rfl
  · exact Json.readRequired rfl (Json.asMillisOfTime _)

theorem buildParts (settings : Settings) (kept : String → Bool) :
    build ((settings.parts.filter fun part => kept part.name).filterMap Saved.change) =
      settings.stored.only kept := by
  unfold build
  rw [Json.foldKept]
  let o := settings.stored.only kept
  let u : Settings := {}
  refine (Json.foldRequired (mk · u.maxIdle u.maxCheckoutTime u.timeToWait u.tolerance u.pingEnabled
    u.pingQuery u.pingAfter) fun _ => rfl).trans ?_
  refine (Json.foldRequired (mk o.maxActive · u.maxCheckoutTime u.timeToWait u.tolerance
    u.pingEnabled u.pingQuery u.pingAfter) fun _ => rfl).trans ?_
  refine (Json.foldRequired (mk o.maxActive o.maxIdle · u.timeToWait u.tolerance u.pingEnabled
    u.pingQuery u.pingAfter) fun _ => rfl).trans ?_
  refine (Json.foldRequired (mk o.maxActive o.maxIdle o.maxCheckoutTime · u.tolerance u.pingEnabled
    u.pingQuery u.pingAfter) fun _ => rfl).trans ?_
  refine (Json.foldRequired (mk o.maxActive o.maxIdle o.maxCheckoutTime o.timeToWait · u.pingEnabled
    u.pingQuery u.pingAfter) fun _ => rfl).trans ?_
  refine (Json.foldRequired (mk o.maxActive o.maxIdle o.maxCheckoutTime o.timeToWait o.tolerance ·
    u.pingQuery u.pingAfter) fun _ => rfl).trans ?_
  refine (Json.foldRequired (mk o.maxActive o.maxIdle o.maxCheckoutTime o.timeToWait o.tolerance
    o.pingEnabled · u.pingAfter) fun _ => rfl).trans ?_
  refine (Json.foldRequired (mk o.maxActive o.maxIdle o.maxCheckoutTime o.timeToWait o.tolerance
    o.pingEnabled o.pingQuery ·) fun _ => rfl).trans ?_
  rfl

theorem readKept (settings : Settings) (kept : String → Bool) :
    ofJson? (settings.toJson.keeping kept) = some (settings.stored.only kept) := by
  have read := Json.changesKept kept settings.partsDistinct settings.partsRead
  have same : settings.toJson = .record (settings.parts.map Saved.field) := rfl
  rw [ofJson?,same,read,Option.map_some,buildParts]

theorem loadKept (codec : Codec) (settings : Settings) (kept : String → Bool) :
    codec.load? ofJson? (codec.write (settings.toJson.keeping kept)) =
      some (settings.stored.only kept) := by
  have back := codec.backKept settings.partsDistinct settings.contents kept
  exact (congrArg (· >>= ofJson?) back).trans (settings.readKept kept)

structure Storable (settings : Settings) : Prop where
  maxCheckoutTime : Nanos.Storable settings.maxCheckoutTime
  timeToWait : Nanos.Storable settings.timeToWait
  pingAfter : Nanos.Storable settings.pingAfter

theorem storedSame : settings.stored = settings ↔ settings.Storable := by
  constructor
  · intro same
    exact ⟨timeStored.mp (congrArg Settings.maxCheckoutTime same),
      timeStored.mp (congrArg timeToWait same),timeStored.mp (congrArg pingAfter same)⟩
  · rintro ⟨checkout,wait,ping⟩
    rw [stored,timeStored.mpr checkout,timeStored.mpr wait,timeStored.mpr ping]

theorem storedJson (settings : Settings) : settings.stored.toJson = settings.toJson := by
  unfold toJson stored
  simp only [ofTimeStored]

end Settings

namespace Json

/-- Every data source comes back as it was, and settings with their times as they can be stored; a
field that was taken out comes back with its default and changes no other. -/
structure Codec.Reloads (codec : Codec) : Prop where
  source (source : DataSource) :
    codec.load? DataSource.ofJson? (codec.write source.toJson) = some source
  sourceOnce {source other : DataSource} (same : codec.write source.toJson = codec.write other.toJson) :
    source = other
  settings (settings : Settings) :
    codec.load? Settings.ofJson? (codec.write settings.toJson) = some settings.stored
  settingsAgain (settings : Settings) :
    codec.write settings.stored.toJson = codec.write settings.toJson
  settingsWhole (settings : Settings) :
    codec.load? Settings.ofJson? (codec.write settings.toJson) = some settings ↔ settings.Storable
  sourceKept (source : DataSource) (kept : String → Bool) :
    codec.load? DataSource.ofJson? (codec.write (source.toJson.keeping kept)) =
      some (source.only kept)
  settingsKept (settings : Settings) (kept : String → Bool) :
    codec.load? Settings.ofJson? (codec.write (settings.toJson.keeping kept)) =
      some (settings.stored.only kept)

end Json

theorem configurationsLoaded (codec : Json.Codec) : codec.Reloads := by
  have loaded (source : DataSource) :
      codec.load? DataSource.ofJson? (codec.write source.toJson) = some source :=
    source.loadKept codec fun _ => true
  have reloaded (settings : Settings) :
      codec.load? Settings.ofJson? (codec.write settings.toJson) = some settings.stored :=
    settings.loadKept codec fun _ => true
  constructor
  case source => exact loaded
  case sourceOnce =>
    intro source other same
    have read := loaded source
    rw [same,loaded other] at read
    exact (Option.some.inj read).symm
  case settings => exact reloaded
  case settingsAgain => exact fun settings => congrArg codec.write settings.storedJson
  case settingsWhole =>
    intro settings
    rw [reloaded settings,Option.some.injEq,Settings.storedSame]
  case sourceKept => exact DataSource.loadKept codec
  case settingsKept => exact Settings.loadKept codec

theorem configurationsLoadedRendered :
    Json.Codec.rendered.Reloads ∧ Settings.load? (Settings.store { timeToWait := 1500000 }) =
      some { timeToWait := 1000000 } :=
  ⟨configurationsLoaded .rendered,(configurationsLoaded .rendered).settings _⟩

end ConnectionPool
