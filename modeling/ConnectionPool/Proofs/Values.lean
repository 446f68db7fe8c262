import Mathlib.Data.List.Sort
import ConnectionPool.Properties
import ConnectionPool.Proofs.Levels
/-! What settings texts can set, and the texts that are values for it. The reader of each kind of value
takes those and turns down every other. -/
namespace ConnectionPool
namespace Properties

inductive Field where
  | driver
  | url
  | username
  | password
  | autoCommit
  | isolation
  | property (name : String)
  | maxActive
  | maxIdle
  | maxCheckoutTime
  | timeToWait
  | tolerance
  | pingEnabled
  | pingQuery
  | pingAfter
  deriving DecidableEq, Repr

inductive Value where
  | text (text : String)
  | flag (on : Bool)
  | count (count : UInt32)
  | time (time : Nat)
  | level (level : Isolation)
  deriving DecidableEq, Repr

inductive Kind where
  | text
  | flag
  | count
  | millis
  | level
  deriving DecidableEq, Repr

namespace Field

def kind : Field → Kind
  | driver | url | username | password | property _ | pingQuery => .text
  | autoCommit | pingEnabled => .flag
  | maxActive | maxIdle | tolerance => .count
  | maxCheckoutTime | timeToWait | pingAfter => .millis
  | isolation => .level

def isSource : Field → Bool
  | driver | url | username | password | autoCommit | isolation | property _ => true
  | _ => false

def value? : Field → DataSource × Settings → Option Value
  | driver,(source,_) => source.driver.map .text
  | url,(source,_) => source.url.map .text
  | username,(source,_) => source.username.map .text
  | password,(source,_) => source.password.map .text
  | autoCommit,(source,_) => source.autoCommit.map .flag
  | isolation,(source,_) => source.isolation.map .level
  | property name,(source,_) => (source.properties.get? name).map .text
  | maxActive,(_,settings) => some (.count settings.maxActive)
  | maxIdle,(_,settings) => some (.count settings.maxIdle)
  | maxCheckoutTime,(_,settings) => some (.time settings.maxCheckoutTime)
  | timeToWait,(_,settings) => some (.time settings.timeToWait)
  | tolerance,(_,settings) => some (.count settings.tolerance)
  | pingEnabled,(_,settings) => some (.flag settings.pingEnabled)
  | pingQuery,(_,settings) => some (.text settings.pingQuery)
  | pingAfter,(_,settings) => some (.time settings.pingAfter)

end Field

def flagWords : Bool → List String
  | true => ["true","yes","1"]
  | false => ["false","no","0"]

def Says (text : List Char) (on : Bool) : Prop :=
  ∃ word ∈ flagWords on, Text.sameLetters text word.toList

inductive Kind.Reads : Kind → List Char → Value → Prop
  | text (cs : List Char) : Reads .text cs (.text (String.ofList cs))
  | flag {cs on} (answer : Says cs on) : Reads .flag cs (.flag on)
  | count {cs} {n : UInt32} (spells : Text.Spells cs n.toNat) : Reads .count cs (.count n)
  | millis {cs} {n : UInt64} (spells : Text.Spells cs n.toNat) :
      Reads .millis cs (.time (Nanos.ofMillis n.toNat))
  | level {cs level} (spelt : Isolation.Spelt cs level) : Reads .level cs (.level level)

inductive Kind.Rejects : Kind → Pair → Misconfiguration → Prop
  | flag {pair} (neither : ∀ on, ¬Says pair.value on) :
      Rejects .flag pair (.notABoolean (String.ofList pair.key) (String.ofList pair.value))
  | count {pair} (none : ∀ n : UInt32, ¬Text.Spells pair.value n.toNat) :
      Rejects .count pair (.notANumber (String.ofList pair.key) (String.ofList pair.value))
  | millis {pair} (none : ∀ n : UInt64, ¬Text.Spells pair.value n.toNat) :
      Rejects .millis pair (.notANumber (String.ofList pair.key) (String.ofList pair.value))
  | level {pair fault} (misspelt : Isolation.Misspelt pair.value fault) :
      Rejects .level pair fault

def puts? : Change → Option (Field × Value)
  | .source (.driver name) => some (.driver,.text name)
  | .source (.url text) => some (.url,.text text)
  | .source (.username name) => some (.username,.text name)
  | .source (.password text) => some (.password,.text text)
  | .source (.autoCommit on) => some (.autoCommit,.flag on)
  | .source (.isolation (some level)) => some (.isolation,.level level)
  | .source (.property key value) => some (.property key,.text value)
  | .settings (.maxActive count) => some (.maxActive,.count count)
  | .settings (.maxIdle count) => some (.maxIdle,.count count)
  | .settings (.maxCheckoutTime time) => some (.maxCheckoutTime,.time time)
  | .settings (.timeToWait time) => some (.timeToWait,.time time)
  | .settings (.tolerance count) => some (.tolerance,.count count)
  | .settings (.pingEnabled on) => some (.pingEnabled,.flag on)
  | .settings (.pingQuery sql) => some (.pingQuery,.text sql)
  | .settings (.pingAfter time) => some (.pingAfter,.time time)
  | _ => none

theorem putsApply {change : Change} {field : Field} {value : Value}
    (puts : puts? change = some (field,value)) (other : Field) (state : DataSource × Settings) :
    other.value? (change.apply state) = if other = field then some value else other.value? state := by
  unfold puts? at puts
  split at puts
  case h_7 =>
    cases puts
    cases other with
    | property name =>
      simp only [Field.value?,Change.apply,DataSource.apply,DriverProperties.getInsert,
        Field.property.injEq]
      split <;> rfl
    | _ => rfl
  all_goals
    cases puts <;> cases other <;> rfl

attribute [ext] DataSource Settings

section States
variable {props others : DriverProperties} {state other : DataSource × Settings}

theorem getMem {key value : String} : props.get? key = some value ↔ (key,value) ∈ props.entries := by
  constructor
  · intro found
    obtain ⟨_,_,split,_⟩ := List.lookup_eq_some_iff.mp found
    simp [split]
  · intro entered
    obtain ⟨before,after,split⟩ := List.append_of_mem entered
    have sorted := props.sorted
    rw [split,List.pairwise_append] at sorted
    refine List.lookup_eq_some_iff.mpr ⟨before,after,split,fun entry earlier => ?_⟩
    have below : entry.1 < key := sorted.2.2 entry earlier _ List.mem_cons_self
    exact bne_iff_ne.mpr (String.ne_of_lt below).symm

theorem getSame (same : ∀ key, props.get? key = others.get? key) : props = others := by
  have antisymmetric : Std.Antisymm fun a b : String × String => a.1 < b.1 :=
    ⟨fun _ _ below above => absurd (String.lt_trans below above) (String.lt_irrefl _)⟩
  have irreflexive : Std.Irrefl fun a b : String × String => a.1 < b.1 :=
    ⟨fun _ => String.lt_irrefl _⟩
  have entries : props.entries = others.entries :=
    List.Pairwise.eq_of_mem_iff props.sorted others.sorted fun ⟨key,value⟩ => by
      rw [← getMem,← getMem,same]
  cases props
  cases others
  cases entries
  rfl

theorem valuesSame (same : ∀ field : Field, field.value? state = field.value? other) :
    state = other := by
  have texts : Function.Injective Value.text := fun _ _ => Value.text.inj
  have flags : Function.Injective Value.flag := fun _ _ => Value.flag.inj
  have levels : Function.Injective Value.level := fun _ _ => Value.level.inj
  have counts {n m : UInt32} (same : some (Value.count n) = some (.count m)) : n = m :=
    Value.count.inj (Option.some.inj same)
  have times {n m : Nat} (same : some (Value.time n) = some (.time m)) : n = m :=
    Value.time.inj (Option.some.inj same)
  refine Prod.ext (DataSource.ext ?_ ?_ ?_ ?_ ?_ ?_ ?_) (Settings.ext ?_ ?_ ?_ ?_ ?_ ?_ ?_ ?_)
  · exact Option.map_injective texts (same .driver)
  · exact Option.map_injective texts (same .url)
  · exact Option.map_injective texts (same .username)
  · exact Option.map_injective texts (same .password)
  · exact Option.map_injective flags (same .autoCommit)
  · exact Option.map_injective levels (same .isolation)
  · exact getSame fun name => Option.map_injective texts (same (.property name))
  · exact counts (same .maxActive)
  · exact counts (same .maxIdle)
  · exact times (same .maxCheckoutTime)
  · exact times (same .timeToWait)
  · exact counts (same .tolerance)
  · exact flags (Option.some.inj (same .pingEnabled))
  · exact texts (Option.some.inj (same .pingQuery))
  · exact times (same .pingAfter)

end States

section Letters
variable {cs : List Char} {word : String} {words : List String}

def Low (word : String) : Prop := word.toList.map Char.toLower = word.toList

instance (word : String) : Decidable (Low word) := by unfold Low; infer_instance

theorem lowLetters (low : Low word) :
    Text.sameLetters cs word.toList ↔ cs.map Char.toLower = word.toList := by
  rw [Text.sameLetters,low,beq_iff_eq]

theorem lettersListed (low : ∀ word ∈ words, Low word) :
    cs.map Char.toLower ∈ words.map String.toList ↔
      ∃ word ∈ words, Text.sameLetters cs word.toList := by
  rw [List.mem_map]
  refine exists_congr fun word => and_congr_right fun listed => ?_
  rw [lowLetters (low word listed),eq_comm]

end Letters

section Kinds
variable {α : Type} {kind : Kind} {pair : Pair} {cs : List Char} {value other : Value}
  {fault again : Misconfiguration} {Puts : Value → α → Prop} {on : Bool}

theorem saysLow : Says cs on ↔ cs.map Char.toLower ∈ (flagWords on).map String.toList :=
  (lettersListed (by cases on <;> decide)).symm

theorem saysTrue : Says cs true ↔
    cs.map Char.toLower ∈ ["true".toList,"yes".toList,"1".toList] := saysLow

theorem saysFalse : Says cs false ↔
    cs.map Char.toLower ∈ ["false".toList,"no".toList,"0".toList] := saysLow

theorem Says.not (yes : Says cs true) : ¬Says cs false := by
  rw [saysTrue] at yes
  rw [saysFalse]
  have apart : ∀ word ∈ ["true".toList,"yes".toList,"1".toList],
      word ∉ ["false".toList,"no".toList,"0".toList] := by decide
  exact apart _ yes

theorem Says.same {off : Bool} (one : Says cs on) (other : Says cs off) : on = off := by
  cases on with
  | true =>
    cases off with
    | true => rfl
    | false => exact absurd other one.not
  | false =>
    cases off with
    | true => exact absurd one other.not
    | false => rfl

theorem Kind.Reads.same (one : kind.Reads cs value) (again : kind.Reads cs other) : value = other := by
  cases one with
  | text => cases again; rfl
  | flag answer => cases again with | flag reply => rw [answer.same reply]
  | count spells => cases again with | count spelt => rw [UInt32.toNat_inj.mp (spells.same spelt)]
  | millis spells => cases again with | millis spelt => rw [spells.same spelt]
  | level spelt => cases again with | level again => rw [spelt.same again]

theorem Kind.Rejects.not (rejects : kind.Rejects pair fault) : ¬kind.Reads pair.value value := by
  intro reads
  cases rejects with
  | flag neither => cases reads with | flag answer => exact neither _ answer
  | count none => cases reads with | count spells => exact none _ spells
  | millis none => cases reads with | millis spells => exact none _ spells
  | level misspelt => cases reads with | level spelt => cases misspelt.read.symm.trans spelt.read

theorem Kind.Rejects.same (one : kind.Rejects pair fault) (other : kind.Rejects pair again) :
    fault = again := by
  cases one with
  | level misspelt =>
    cases other with
    | level also => exact Except.error.inj (misspelt.read.symm.trans also.read)
  | _ => cases other; rfl

structure Obeys (reader : Reader α) (kind : Kind) (Puts : Value → α → Prop) : Prop where
  reads {pair : Pair} {value : Value} (reads : kind.Reads pair.value value) :
    ∃ a, reader pair = .ok a ∧ Puts value a
  rejects {pair : Pair} {fault : Misconfiguration} (rejects : kind.Rejects pair fault) :
    reader pair = .error fault

theorem textObeys {make : String → α} (puts : ∀ text, Puts (.text text) (make text)) :
    Obeys (text make) .text Puts where
  reads reads := by
    cases reads with
    | text => exact ⟨_,rfl,puts _⟩
  rejects := nofun

theorem flagObeys {make : Bool → α} (puts : ∀ on, Puts (.flag on) (make on)) :
    Obeys (flag make) .flag Puts where
  reads reads := by
    cases reads with
    | @flag _ on answer =>
      refine ⟨make on,?_,puts on⟩
      cases on with
      | true => rw [flag,if_pos (saysTrue.mp answer)]
      | false => rw [flag,if_neg fun yes => (saysTrue.mpr yes).not answer,if_pos (saysFalse.mp answer)]
  rejects rejects := by
    cases rejects with
    | flag neither =>
      rw [flag,if_neg (mt saysTrue.mpr (neither true)),if_neg (mt saysFalse.mpr (neither false))]

theorem countObeys {make : UInt32 → α} (puts : ∀ n, Puts (.count n) (make n)) :
    Obeys (count make) .count Puts where
  reads reads := by
    cases reads with
    | count spells => exact ⟨_,by rw [count,number,Text.word32Some.mpr spells],puts _⟩
  rejects {pair fault} rejects := by
    cases rejects with
    | count none =>
      have unread : Text.word32? pair.value = .none :=
        Option.eq_none_iff_forall_ne_some.mpr fun n read => none n (Text.word32Some.mp read)
      rw [count,number,unread]

theorem millisObeys {make : Nat → α} (puts : ∀ time, Puts (.time time) (make time)) :
    Obeys (millis make) .millis Puts where
  reads reads := by
    cases reads with
    | millis spells => exact ⟨_,by rw [millis,number,Text.word64Some.mpr spells],puts _⟩
  rejects {pair fault} rejects := by
    cases rejects with
    | millis none =>
      have unread : Text.word64? pair.value = .none :=
        Option.eq_none_iff_forall_ne_some.mpr fun n read => none n (Text.word64Some.mp read)
      rw [millis,number,unread]

theorem levelObeys {make : Isolation → α} (puts : ∀ l, Puts (.level l) (make l)) :
    Obeys (level make) .level Puts where
  reads reads := by
    cases reads with
    | level spelt => exact ⟨_,by rw [level,spelt.read]; rfl,puts _⟩
  rejects rejects := by
    cases rejects with
    | level misspelt => rw [level,misspelt.read]; rfl

theorem readsOrRejects (kind : Kind) (pair : Pair) :
    (∃ value, kind.Reads pair.value value) ∨ ∃ fault, kind.Rejects pair fault := by
  cases kind with
  | text => exact .inl ⟨_,.text pair.value⟩
  | flag =>
    by_cases some : ∃ on, Says pair.value on
    · obtain ⟨on,answer⟩ := some
      exact .inl ⟨_,.flag answer⟩
    · exact .inr ⟨_,.flag (not_exists.mp some)⟩
  | count =>
    by_cases some : ∃ n : UInt32, Text.Spells pair.value n.toNat
    · obtain ⟨n,spells⟩ := some
      exact .inl ⟨_,.count spells⟩
    · exact .inr ⟨_,.count (not_exists.mp some)⟩
  | millis =>
    by_cases some : ∃ n : UInt64, Text.Spells pair.value n.toNat
    · obtain ⟨n,spells⟩ := some
      exact .inl ⟨_,.millis spells⟩
    · exact .inr ⟨_,.millis (not_exists.mp some)⟩
  | level =>
    obtain ⟨level,spelt⟩ | ⟨fault,misspelt⟩ := Isolation.speltOrMisspelt pair.value
    · exact .inl ⟨_,.level spelt⟩
    · exact .inr ⟨_,.level misspelt⟩

end Kinds

end Properties
end ConnectionPool
