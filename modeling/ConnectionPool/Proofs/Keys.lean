import Mathlib.Data.List.Nodup
import ConnectionPool.Proofs.Values
/-! The keys of settings texts. A key names one field at most, and with one field either the data source
or the settings: what the readers make of a pair is told by the field that its key names. -/
namespace ConnectionPool
namespace Properties

def sourceNames : List (String × Field) :=
  [("driver",.driver),("url",.url),("username",.username),("user",.username),
   ("password",.password),("autocommit",.autoCommit),("defaultautocommit",.autoCommit),
   ("defaulttransactionisolationlevel",.isolation)]

def settingsNames : List (String × Field) :=
  [("poolmaximumactiveconnections",.maxActive),("poolmaximumidleconnections",.maxIdle),
   ("poolmaximumcheckouttime",.maxCheckoutTime),("pooltimetowait",.timeToWait),
   ("poolmaximumlocalbadconnectiontolerance",.tolerance),("poolpingenabled",.pingEnabled),
   ("poolpingquery",.pingQuery),("poolpingconnectionsnotusedfor",.pingAfter)]

def names : List (String × Field) := sourceNames ++ settingsNames

/-- The key names the field, in letters of any case; a driver property has its name after a prefix. -/
inductive Pair.Addresses (pair : Pair) : Field → Prop
  | named {name field} (known : (name,field) ∈ names)
      (same : Text.sameLetters pair.key name.toList) : Addresses pair field
  | property {start : List Char} {name : String} (key : pair.key = start ++ name.toList)
      (same : Text.sameLetters start "driver.".toList) (some : name ≠ "") :
      Addresses pair (.property name)

def Known {α : Type} (make : α → Change) (entry : String × Reader α) (named : String × Field) : Prop :=
  entry.1 = named.1 ∧
    Obeys entry.2 named.2.kind fun value a => puts? (make a) = some (named.2,value)

theorem sourceKnown : List.Forall₂ (Known Change.source) sourceReaders sourceNames :=
  .cons ⟨rfl,textObeys fun _ => rfl⟩ <| .cons ⟨rfl,textObeys fun _ => rfl⟩ <|
    .cons ⟨rfl,textObeys fun _ => rfl⟩ <| .cons ⟨rfl,textObeys fun _ => rfl⟩ <|
    .cons ⟨rfl,textObeys fun _ => rfl⟩ <| .cons ⟨rfl,flagObeys fun _ => rfl⟩ <|
    .cons ⟨rfl,flagObeys fun _ => rfl⟩ <| .cons ⟨rfl,levelObeys fun _ => rfl⟩ .nil

theorem settingsKnown : List.Forall₂ (Known Change.settings) settingsReaders settingsNames :=
  .cons ⟨rfl,countObeys fun _ => rfl⟩ <| .cons ⟨rfl,countObeys fun _ => rfl⟩ <|
    .cons ⟨rfl,millisObeys fun _ => rfl⟩ <| .cons ⟨rfl,millisObeys fun _ => rfl⟩ <|
    .cons ⟨rfl,countObeys fun _ => rfl⟩ <| .cons ⟨rfl,flagObeys fun _ => rfl⟩ <|
    .cons ⟨rfl,textObeys fun _ => rfl⟩ <| .cons ⟨rfl,millisObeys fun _ => rfl⟩ .nil

section Keys
variable {α : Type} {make : α → Change} {readers : List (String × Reader α)}
  {fields : List (String × Field)} {word : String} {field other : Field} {pair : Pair}
  {name : List Char}

theorem knownLookup (known : List.Forall₂ (Known make) readers fields) (word : String) :
    (readers.lookup word = none ∧ fields.lookup word = none) ∨
      ∃ reader field, readers.lookup word = some reader ∧ fields.lookup word = some field ∧
        Obeys reader field.kind fun value a => puts? (make a) = some (field,value) := by
  induction known with
  | nil => exact .inl ⟨rfl,rfl⟩
  | @cons entry named _ _ first _ ih =>
    obtain ⟨key,reader⟩ := entry
    obtain ⟨name,field⟩ := named
    obtain ⟨rfl,obeys⟩ := first
    by_cases same : word = key
    · subst same
      exact .inr ⟨reader,field,List.lookup_cons_self,List.lookup_cons_self,obeys⟩
    · have passed : (word == key) = false := beq_false_of_ne same
      simpa only [List.lookup_cons,passed] using ih

theorem lookupListed (looked : fields.lookup word = some field) : (word,field) ∈ fields := by
  obtain ⟨_,_,split,_⟩ := List.lookup_eq_some_iff.mp looked
  simp [split]

theorem lookupAway (looked : fields.lookup word = none) (field : Field) : (word,field) ∉ fields :=
  fun known => by simpa using List.lookup_eq_none_iff.mp looked _ known

theorem namesLookup : names.lookup word = some field ↔ (word,field) ∈ names := by
  have once : (names.map Prod.fst).Nodup := by decide
  refine ⟨lookupListed,fun known => ?_⟩
  cases looked : names.lookup word with
  | none => exact absurd known (lookupAway looked field)
  | some found =>
    have same := List.inj_on_of_nodup_map once (lookupListed looked) known rfl
    exact congrArg (fun entry => some entry.2) same

theorem wordName {name : String} (low : Low name) :
    Text.sameLetters pair.key name.toList ↔ pair.word = name := by
  rw [lowLetters low,Pair.word,← String.toList_inj,String.toList_ofList]

theorem addressesNamed : (∃ name, (name,field) ∈ names ∧ Text.sameLetters pair.key name.toList) ↔
    names.lookup pair.word = some field := by
  have low : ∀ entry ∈ names, Low entry.1 := by decide
  rw [namesLookup]
  constructor
  · rintro ⟨name,known,same⟩
    exact (wordName (low _ known)).mp same ▸ known
  · intro known
    exact ⟨pair.word,known,(wordName (low _ known)).mpr rfl⟩

theorem driverPropertySome : pair.driverProperty? = some name ↔
    ∃ start, pair.key = start ++ name ∧ Text.sameLetters start "driver.".toList ∧ name ≠ [] := by
  unfold Pair.driverProperty?
  constructor
  · intro found
    split at found
    · rename_i fits
      obtain rfl := Option.some.inj found
      exact ⟨pair.key.take 7,(List.take_append_drop 7 pair.key).symm,fits.1,fits.2⟩
    · cases found
  · rintro ⟨start,key,same,some⟩
    have length : start.length = 7 := by
      have lengths := congrArg List.length (beq_iff_eq.mp same)
      simpa using lengths
    have front : pair.key.take 7 = start := by rw [key,← length,List.take_left]
    have back : pair.key.drop 7 = name := by rw [key,← length,List.drop_left]
    rw [front,back,if_pos ⟨same,some⟩]

theorem addressesCases : pair.Addresses field ↔ (∃ name, pair.driverProperty? = some name ∧
    field = .property (String.ofList name)) ∨ names.lookup pair.word = some field := by
  rw [← addressesNamed]
  constructor
  · rintro (⟨known,same⟩ | ⟨key,same,some⟩)
    · exact .inr ⟨_,known,same⟩
    · refine .inl ⟨_,driverPropertySome.mpr ⟨_,key,same,?_⟩,by simp⟩
      simpa using some
  · rintro (⟨name,found,rfl⟩ | ⟨name,known,same⟩)
    · obtain ⟨start,key,same,some⟩ := driverPropertySome.mp found
      exact .property (by simpa using key) same (by simpa [← String.toList_inj] using some)
    · exact .named known same

theorem driverPropertyUnnamed (found : pair.driverProperty? = some name) :
    names.lookup pair.word = none := by
  have apart : ∀ entry ∈ names, entry.1.toList.take 7 ≠ "driver.".toList := by decide
  refine Option.eq_none_iff_forall_ne_some.mpr fun field known => ?_
  obtain ⟨start,key,same,_⟩ := driverPropertySome.mp found
  refine apart _ (namesLookup.mp known) ?_
  have letters : start.map Char.toLower = "driver.".toList := beq_iff_eq.mp same
  have length : (start.map Char.toLower).length = 7 := by rw [letters]; rfl
  rw [Pair.word,String.toList_ofList,key,List.map_append,← length,List.take_left,letters]

theorem Pair.Addresses.same (one : pair.Addresses field) (also : pair.Addresses other) :
    field = other := by
  rcases addressesCases.mp one with ⟨name,found,rfl⟩ | known
  · rcases addressesCases.mp also with ⟨name',again,rfl⟩ | named
    · rw [Option.some.inj (found.symm.trans again)]
    · cases (driverPropertyUnnamed found).symm.trans named
  · rcases addressesCases.mp also with ⟨name',again,rfl⟩ | named
    · cases (driverPropertyUnnamed again).symm.trans known
    · exact Option.some.inj (known.symm.trans named)

end Keys

inductive Takes {α : Type} (make : α → Change) (minds : Field → Bool) (pair : Pair) :
    Except Misconfiguration (Option α) → Prop
  | ignores (away : ∀ field, minds field → ¬pair.Addresses field) : Takes make minds pair (.ok none)
  | reads {field value a} (minded : minds field) (addresses : pair.Addresses field)
      (reads : field.kind.Reads pair.value value) (puts : puts? (make a) = some (field,value)) :
      Takes make minds pair (.ok (some a))
  | rejects {field fault} (minded : minds field) (addresses : pair.Addresses field)
      (rejects : field.kind.Rejects pair fault) : Takes make minds pair (.error fault)

section Pairs
variable {α : Type} {make : α → Change} {minds : Field → Bool} {pair : Pair} {field : Field}
  {fault : Misconfiguration} {result : Except Misconfiguration (Option α)}

theorem readerTakes {reader : Reader α} (minded : minds field) (addresses : pair.Addresses field)
    (obeys : Obeys reader field.kind fun value a => puts? (make a) = some (field,value)) :
    Takes make minds pair ((reader pair).map some) := by
  rcases readsOrRejects field.kind pair with ⟨value,reads⟩ | ⟨fault,rejects⟩
  · obtain ⟨a,read,puts⟩ := obeys.reads reads
    rw [read]
    exact .reads minded addresses reads puts
  · rw [obeys.rejects rejects]
    exact .rejects minded addresses rejects

theorem sourceListed (known : (pair.word,field) ∈ sourceNames) : field.isSource = true := by
  have all : ∀ entry ∈ sourceNames, entry.2.isSource = true := by decide
  exact all _ known

theorem settingsListed (known : (pair.word,field) ∈ settingsNames) : field.isSource = false := by
  have all : ∀ entry ∈ settingsNames, entry.2.isSource = false := by decide
  exact all _ known

theorem addressesName : pair.Addresses field ↔ (∃ name, pair.driverProperty? = some name ∧
    field = .property (String.ofList name)) ∨ (pair.word,field) ∈ sourceNames ∨
      (pair.word,field) ∈ settingsNames := by
  rw [addressesCases,namesLookup,names,List.mem_append]

theorem sourceTakes (pair : Pair) : Takes .source Field.isSource pair (sourceChange? pair) := by
  unfold sourceChange?
  split
  · rename_i name found
    exact .reads rfl (addressesName.mpr (.inl ⟨name,found,rfl⟩)) (.text pair.value) rfl
  · rename_i unprefixed
    rcases knownLookup sourceKnown pair.word with ⟨unread,away⟩ | ⟨reader,field,read,known,obeys⟩
    · rw [unread]
      refine .ignores fun field minded addresses => ?_
      rcases addressesName.mp addresses with ⟨name,found,_⟩ | named | named
      · cases unprefixed.symm.trans found
      · exact lookupAway away field named
      · cases (settingsListed named).symm.trans minded
    · rw [read]
      have listed := lookupListed known
      exact readerTakes (sourceListed listed) (addressesName.mpr (.inr (.inl listed))) obeys

theorem settingsTakes (pair : Pair) :
    Takes .settings (!Field.isSource ·) pair (settingsChange? pair) := by
  unfold settingsChange?
  rcases knownLookup settingsKnown pair.word with ⟨unread,away⟩ | ⟨reader,field,read,known,obeys⟩
  · rw [unread]
    refine .ignores fun field minded addresses => ?_
    rcases addressesName.mp addresses with ⟨name,found,rfl⟩ | named | named
    · cases minded
    · simp [sourceListed named] at minded
    · exact lookupAway away field named
  · rw [read]
    have listed := lookupListed known
    have own : (!field.isSource) = true := by rw [settingsListed listed]; rfl
    exact readerTakes own (addressesName.mpr (.inr (.inr listed))) obeys

theorem changeTakes (pair : Pair) : Takes id (fun _ => true) pair (change? pair) := by
  have source := sourceTakes pair
  have settings := settingsTakes pair
  unfold change?
  rcases first : sourceChange? pair with fault | found
  · rw [first] at source
    cases source with
    | rejects _ addresses rejects => exact .rejects rfl addresses rejects
  · rw [first] at source
    cases source with
    | reads _ addresses reads puts => exact .reads rfl addresses reads puts
    | ignores away =>
      rcases second : settingsChange? pair with fault | found
      · rw [second] at settings
        cases settings with
        | rejects _ addresses rejects => exact .rejects rfl addresses rejects
      · rw [second] at settings
        cases settings with
        | reads _ addresses reads puts => exact .reads rfl addresses reads puts
        | ignores elsewhere =>
          refine .ignores fun field _ => ?_
          cases own : field.isSource with
          | true => exact away field own
          | false => exact elsewhere field (by simp [own])

end Pairs

end Properties
end ConnectionPool
