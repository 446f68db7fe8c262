import ConnectionPool.Proofs.Keys
/-! The grammar of settings texts. A text is cut at semicolons, the parts are trimmed and the empty ones
dropped; each part must be a pair, and each pair whose key is known must have a value that fits it. The
first that does not is the fault of the text; without a fault, each field has the value of the last pair
that is about it, or the value it starts with. -/
namespace ConnectionPool
namespace Properties

section First
variable {α β ε : Type} {f : α → Except ε β} {as before after : List α} {bs : List β} {a : α} {e : ε}

theorem mapMOk (each : List.Forall₂ (fun a b => f a = .ok b) as bs) : as.mapM f = .ok bs := by
  induction each with
  | nil => rfl
  | cons first _ ih => rw [List.mapM_cons,first,ih]; rfl

theorem mapMFails (fine : ∀ b ∈ before, ∃ c, f b = .ok c) (fails : f a = .error e) :
    (before ++ a :: after).mapM f = .error e := by
  induction before with
  | nil => rw [List.nil_append,List.mapM_cons,fails]; rfl
  | cons b before ih =>
    obtain ⟨⟨c,first⟩,rest⟩ := List.forall_mem_cons.mp fine
    rw [List.cons_append,List.mapM_cons,first,ih rest]
    rfl

theorem eachSome (each : ∀ a ∈ as, ∃ b, f a = .ok b) :
    ∃ bs, List.Forall₂ (fun a b => f a = .ok b) as bs := by
  induction as with
  | nil => exact ⟨[],.nil⟩
  | cons a as ih =>
    obtain ⟨⟨b,first⟩,others⟩ := List.forall_mem_cons.mp each
    obtain ⟨bs,rest⟩ := ih others
    exact ⟨b :: bs,.cons first rest⟩

theorem eachOrFirst (f : α → Except ε β) (as : List α) :
    (∀ a ∈ as, ∃ b, f a = .ok b) ∨
      ∃ before a after e, as = before ++ a :: after ∧ (∀ b ∈ before, ∃ c, f b = .ok c) ∧
        f a = .error e := by
  induction as with
  | nil => exact .inl nofun
  | cons a as ih =>
    cases first : f a with
    | error e => exact .inr ⟨[],a,as,e,rfl,nofun,first⟩
    | ok b =>
      rcases ih with each | ⟨before,c,after,e,rfl,fine,fails⟩
      · exact .inl (List.forall_mem_cons.mpr ⟨⟨b,first⟩,each⟩)
      · exact .inr ⟨a :: before,c,after,e,rfl,List.forall_mem_cons.mpr ⟨⟨b,first⟩,fine⟩,fails⟩

end First

/-- What stands between semicolons, trimmed, as far as there is anything. -/
def Parts (text : List Char) (parts : List (List Char)) : Prop :=
  ∃ segments trimmed, Text.Segments ';' text segments ∧ List.Forall₂ Text.Trims segments trimmed ∧
    parts = trimmed.filter (· ≠ [])

/-- Key and value stand on both sides of the first equals sign. -/
def Pair.Stands (part : List Char) (pair : Pair) : Prop :=
  ∃ key value, part = key ++ '=' :: value ∧ '=' ∉ key ∧ Text.Trims key pair.key ∧
    Text.Trims value pair.value

def Pair.Breaks (pair : Pair) (fault : Misconfiguration) : Prop :=
  ∃ field, pair.Addresses field ∧ field.kind.Rejects pair fault

/-- What a field is set to by pairs: what the last one that is about it says. -/
inductive Told (field : Field) (start : Option Value) (pairs : List Pair) : Option Value → Prop
  | untold (none : ∀ pair ∈ pairs, ¬pair.Addresses field) : Told field start pairs start
  | told {before pair after value} (split : pairs = before ++ pair :: after)
      (addresses : pair.Addresses field) (last : ∀ later ∈ after, ¬later.Addresses field)
      (reads : field.kind.Reads pair.value value) : Told field start pairs (some value)

inductive Means (text : String) : Except Misconfiguration (DataSource × Settings) → Prop
  | unpaired {before part after} (parts : Parts text.toList (before ++ part :: after))
      (paired : ∀ earlier ∈ before, '=' ∈ earlier) (unpaired : '=' ∉ part) :
      Means text (.error (.notAPair (String.ofList part)))
  | broken {parts before pair after fault} (parted : Parts text.toList parts)
      (stand : List.Forall₂ Pair.Stands parts (before ++ pair :: after))
      (sound : ∀ earlier ∈ before, ∀ fault, ¬earlier.Breaks fault) (breaks : pair.Breaks fault) :
      Means text (.error fault)
  | whole {parts pairs source settings} (parted : Parts text.toList parts)
      (stand : List.Forall₂ Pair.Stands parts pairs)
      (sound : ∀ pair ∈ pairs, ∀ fault, ¬pair.Breaks fault)
      (told : ∀ field : Field, Told field (field.value? ({},{})) pairs
        (field.value? (source,settings))) :
      Means text (.ok (source,settings))

section Text
variable {text part : List Char} {ps : List (List Char)} {pair : Pair}

theorem partsParts (text : List Char) : Parts text (parts text) := by
  refine ⟨text.splitOn ';',(text.splitOn ';').map Text.trim,Text.splitOnSegments.mp rfl,?_,rfl⟩
  exact List.forall₂_map_right_iff.mpr (List.forall₂_same.mpr fun part _ => Text.trimTrims part)

theorem Parts.parts (found : Parts text ps) : parts text = ps := by
  obtain ⟨segments,trimmed,cut,trims,rfl⟩ := found
  have same : segments.map Text.trim = trimmed := by
    clear cut
    induction trims with
    | nil => rfl
    | cons first _ ih => rw [List.map_cons,first.trim,ih]
  rw [Properties.parts,cut.splitOn,same]

theorem readPairStands : readPair part = .ok pair ↔ pair.Stands part := by
  constructor
  · intro read
    by_cases marked : '=' ∈ part
    · obtain ⟨key,value,rfl,unmarked⟩ := List.eq_append_cons_of_mem marked
      simp only [readPair,Text.splitFirstAt unmarked,Except.ok.injEq] at read
      subst read
      exact ⟨key,value,rfl,unmarked,Text.trimTrims key,Text.trimTrims value⟩
    · simp only [readPair,Text.splitFirstNone marked,reduceCtorEq] at read
  · rintro ⟨key,value,rfl,unmarked,trimKey,trimValue⟩
    simp only [readPair,Text.splitFirstAt unmarked,trimKey.trim,trimValue.trim]

theorem readPairFails (unpaired : '=' ∉ part) :
    readPair part = .error (.notAPair (String.ofList part)) := by
  simp only [readPair,Text.splitFirstNone unpaired]

theorem readPairOk (paired : '=' ∈ part) : ∃ pair, readPair part = .ok pair := by
  obtain ⟨key,value,rfl,unmarked⟩ := List.eq_append_cons_of_mem paired
  exact ⟨⟨Text.trim key,Text.trim value⟩,
    readPairStands.mpr ⟨key,value,rfl,unmarked,Text.trimTrims key,Text.trimTrims value⟩⟩

end Text

section Breaking
variable {pair : Pair} {fault : Misconfiguration}

theorem changeFails : change? pair = .error fault ↔ pair.Breaks fault := by
  have takes := changeTakes pair
  constructor
  · intro failed
    rw [failed] at takes
    cases takes with
    | rejects _ addresses rejects => exact ⟨_,addresses,rejects⟩
  · rintro ⟨field,addresses,rejects⟩
    generalize change? pair = result at takes ⊢
    cases takes with
    | ignores away => exact absurd addresses (away field rfl)
    | reads _ addressed reads _ =>
      obtain rfl := addresses.same addressed
      exact absurd reads rejects.not
    | rejects _ addressed rejected =>
      obtain rfl := addresses.same addressed
      rw [rejects.same rejected]

theorem changeOk : (∃ change, change? pair = .ok change) ↔ ∀ fault, ¬pair.Breaks fault := by
  simp only [← changeFails]
  cases change? pair <;> simp

end Breaking

section Telling
variable {field : Field} {start later value one other : Option Value} {pair : Pair}
  {pairs : List Pair}

theorem Told.away (told : Told field start pairs value) (away : ¬pair.Addresses field) :
    Told field start (pair :: pairs) value := by
  cases told with
  | untold none => exact .untold (List.forall_mem_cons.mpr ⟨away,none⟩)
  | told split addresses last reads =>
    subst split
    rw [← List.cons_append]
    exact .told rfl addresses last reads

theorem Told.own {value : Value} (told : Told field (some value) pairs later)
    (addresses : pair.Addresses field) (reads : field.kind.Reads pair.value value) :
    Told field start (pair :: pairs) later := by
  cases told with
  | untold none => exact .told (List.nil_append _).symm addresses none reads
  | told split addressed last read =>
    subst split
    rw [← List.cons_append]
    exact .told rfl addressed last read

theorem lastSame {before before' after after' : List Pair} {pair' : Pair}
    (split : before ++ pair :: after = before' ++ pair' :: after')
    (addresses : pair.Addresses field) (addresses' : pair'.Addresses field)
    (last : ∀ later ∈ after, ¬later.Addresses field)
    (last' : ∀ later ∈ after', ¬later.Addresses field) : pair = pair' := by
  -- Either stands nowhere after the other, for there is no pair about the field there.
  rcases List.append_eq_append_iff.mp split with ⟨between,_,rest⟩ | ⟨between,_,rest⟩
  · cases between with
    | nil => exact (List.cons.inj rest).1
    | cons _ between =>
      have later : pair' ∈ after := by simp [(List.cons.inj rest).2]
      exact absurd addresses' (last _ later)
  · cases between with
    | nil => exact (List.cons.inj rest).1.symm
    | cons _ between =>
      have later : pair ∈ after' := by simp [(List.cons.inj rest).2]
      exact absurd addresses (last' _ later)

theorem Told.same (told : Told field start pairs one) (again : Told field start pairs other) :
    one = other := by
  cases told with
  | untold none =>
    cases again with
    | untold => rfl
    | told split addresses => exact absurd addresses (none _ (by simp [split]))
  | told split addresses last reads =>
    cases again with
    | untold none => exact absurd addresses (none _ (by simp [split]))
    | told split' addresses' last' reads' =>
      obtain rfl := lastSame (split.symm.trans split') addresses addresses' last last'
      rw [reads.same reads']

theorem changesTell {found : List (Option Change)}
    (each : List.Forall₂ (fun pair change => change? pair = .ok change) pairs found)
    (state : DataSource × Settings) (field : Field) :
    Told field (field.value? state) pairs
      (field.value? (Change.applyAll (found.filterMap id) state)) := by
  -- By the pairs from the front: a state that has been changed is what the others start with.
  induction each generalizing state with
  | nil => exact .untold nofun
  | @cons pair change pairs found first _ ih =>
    have takes := changeTakes pair
    rw [first] at takes
    cases takes with
    | ignores away => exact (ih state).away (away field rfl)
    | @reads about _ change _ addresses reads puts =>
      have step := ih (change.apply state)
      have set : field.value? (change.apply state) = _ := putsApply puts field state
      rw [set] at step
      by_cases own : field = about
      · subst own
        rw [if_pos rfl] at step
        exact step.own addresses reads
      · rw [if_neg own] at step
        exact step.away fun also => own (also.same addresses)

end Telling

section Whole
variable {text : String} {result : Except Misconfiguration (DataSource × Settings)}

theorem pairOk {part : List Char} : (∃ pair, readPair part = .ok pair) ↔ '=' ∈ part := by
  refine ⟨fun ⟨pair,read⟩ => ?_,readPairOk⟩
  by_contra unpaired
  cases read.symm.trans (readPairFails unpaired)

theorem readsStand {parts : List (List Char)} {pairs : List Pair} :
    List.Forall₂ (fun part pair => readPair part = .ok pair) parts pairs ↔
      List.Forall₂ Pair.Stands parts pairs := by
  simp only [readPairStands]

theorem Parts.pairs {parts : List (List Char)} {pairs : List Pair} (parted : Parts text.toList parts)
    (stand : List.Forall₂ Pair.Stands parts pairs) : readPairs text.toList = .ok pairs := by
  rw [readPairs,parted.parts]
  exact mapMOk (readsStand.mpr stand)

theorem Parts.unpaired {before after : List (List Char)} {part : List Char}
    (parted : Parts text.toList (before ++ part :: after))
    (fine : ∀ earlier ∈ before, '=' ∈ earlier) (unpaired : '=' ∉ part) :
    readPairs text.toList = .error (.notAPair (String.ofList part)) := by
  rw [readPairs,parted.parts]
  exact mapMFails (fun part earlier => pairOk.mpr (fine part earlier)) (readPairFails unpaired)

theorem pairedOrNot (text : String) :
    (∃ parts pairs, Parts text.toList parts ∧ List.Forall₂ Pair.Stands parts pairs) ∨
      ∃ before part after, Parts text.toList (before ++ part :: after) ∧
        (∀ earlier ∈ before, '=' ∈ earlier) ∧ '=' ∉ part := by
  have parted := partsParts text.toList
  rcases eachOrFirst readPair (parts text.toList) with
    each | ⟨before,part,after,_,split,fine,fails⟩
  · obtain ⟨pairs,reads⟩ := eachSome each
    exact .inl ⟨_,pairs,parted,readsStand.mp reads⟩
  · rw [split] at parted
    refine .inr ⟨before,part,after,parted,fun earlier member => pairOk.mp (fine earlier member),?_⟩
    rw [← pairOk,fails]
    exact nofun

theorem meansSome (text : String) : ∃ result, Means text result := by
  rcases pairedOrNot text with ⟨parts,pairs,parted,stand⟩ | ⟨_,_,_,parted,fine,unpaired⟩
  · rcases eachOrFirst change? pairs with fine | ⟨before,pair,after,fault,rfl,fine,fails⟩
    · obtain ⟨found,changed⟩ := eachSome fine
      exact ⟨.ok _,.whole parted stand (fun pair member => changeOk.mp (fine pair member))
        (changesTell changed ({},{}))⟩
    · exact ⟨_,.broken parted stand (fun pair earlier => changeOk.mp (fine pair earlier))
        (changeFails.mp fails)⟩
  · exact ⟨_,.unpaired parted fine unpaired⟩

theorem Means.read (means : Means text result) : read text = result := by
  cases means with
  | unpaired parted fine unpaired =>
    simp only [Properties.read,changes,parted.unpaired fine unpaired]
    rfl
  | @broken _ before pair after _ parted stand sound breaks =>
    have failed : (before ++ pair :: after).mapM change? = _ :=
      mapMFails (fun pair earlier => changeOk.mpr (sound pair earlier)) (changeFails.mpr breaks)
    simp only [Properties.read,changes,parted.pairs stand,bind,Except.bind,failed]
    rfl
  | @whole _ pairs source settings parted stand sound told =>
    obtain ⟨found,changed⟩ := eachSome fun pair member => changeOk.mpr (sound pair member)
    have state : Change.applyAll (found.filterMap id) ({},{}) = (source,settings) :=
      valuesSame fun field => (changesTell changed ({},{}) field).same (told field)
    simp only [Properties.read,changes,parted.pairs stand,bind,Except.bind,mapMOk changed]
    exact congrArg Except.ok state

theorem readIffMeans (text : String) (result : Except Misconfiguration (DataSource × Settings)) :
    read text = result ↔ Means text result := by
  refine ⟨?_,Means.read⟩
  rintro rfl
  obtain ⟨result,means⟩ := meansSome text
  rwa [means.read]

end Whole

end Properties
end ConnectionPool
