import ConnectionPool.Proofs.Grammar
/-! The data source and the settings read from one text, together and apart. Together they are read just
when each can be read, and what is read is the same. Otherwise the fault is that of the one that cannot
be read, or, where neither can, of the one that fails on the earlier pair. -/
namespace ConnectionPool
namespace Properties

structure FailsAt {α : Type} (select : Pair → Except Misconfiguration (Option α)) (pairs : List Pair)
    (place : Nat) (fault : Misconfiguration) : Prop where
  here : ∃ pair, pairs[place]? = some pair ∧ select pair = .error fault
  before : ∀ pair ∈ pairs.take place, ∃ found, select pair = .ok found

/-- Whose fault it is that a text cannot be read. -/
inductive Blamed (text : String) : Misconfiguration → Prop
  | unpaired {before part after} (parts : Parts text.toList (before ++ part :: after))
      (paired : ∀ earlier ∈ before, '=' ∈ earlier) (unpaired : '=' ∉ part)
      (source : DataSource.ofProperties text = .error (.notAPair (String.ofList part)))
      (settings : Settings.ofProperties text = .error (.notAPair (String.ofList part))) :
      Blamed text (.notAPair (String.ofList part))
  | source {fault settings} (source : DataSource.ofProperties text = .error fault)
      (settings : Settings.ofProperties text = .ok settings) : Blamed text fault
  | settings {fault source} (source : DataSource.ofProperties text = .ok source)
      (settings : Settings.ofProperties text = .error fault) : Blamed text fault
  | sourceEarlier {parts pairs place later fault other} (parted : Parts text.toList parts)
      (stand : List.Forall₂ Pair.Stands parts pairs)
      (source : DataSource.ofProperties text = .error fault)
      (settings : Settings.ofProperties text = .error other)
      (here : FailsAt sourceChange? pairs place fault)
      (there : FailsAt settingsChange? pairs later other) (earlier : place < later) :
      Blamed text fault
  | settingsEarlier {parts pairs place later fault other} (parted : Parts text.toList parts)
      (stand : List.Forall₂ Pair.Stands parts pairs)
      (source : DataSource.ofProperties text = .error other)
      (settings : Settings.ofProperties text = .error fault)
      (here : FailsAt settingsChange? pairs place fault)
      (there : FailsAt sourceChange? pairs later other) (earlier : place < later) :
      Blamed text fault

section Selecting
variable {α : Type} {select : Pair → Except Misconfiguration (Option α)} {text : String}
  {pairs : List Pair} {found : List (Option α)} {fault : Misconfiguration} {place : Nat}

theorem changesOk (paired : readPairs text.toList = .ok pairs)
    (each : List.Forall₂ (fun pair found => select pair = .ok found) pairs found) :
    changes select text = .ok (found.filterMap id) := by
  simp only [changes,paired,bind,Except.bind,mapMOk each]
  rfl

theorem changesUnpaired (failed : readPairs text.toList = .error fault) :
    changes select text = .error fault := by
  simp only [changes,failed,bind,Except.bind]

theorem changesPaired {changed : List α} (ok : changes select text = .ok changed) :
    ∃ pairs, readPairs text.toList = .ok pairs := by
  cases paired : readPairs text.toList with
  | ok pairs => exact ⟨pairs,rfl⟩
  | error fault => cases ok.symm.trans (changesUnpaired paired)

theorem FailsAt.changes (paired : readPairs text.toList = .ok pairs)
    (fails : FailsAt select pairs place fault) : changes select text = .error fault := by
  obtain ⟨pair,here,failed⟩ := fails.here
  obtain ⟨inside,rfl⟩ := List.getElem?_eq_some_iff.mp here
  have all : (pairs.take place ++ pairs[place] :: pairs.drop (place + 1)).mapM select = .error fault :=
    mapMFails fails.before failed
  rw [List.getElem_cons_drop,List.take_append_drop] at all
  simp only [Properties.changes,paired,bind,Except.bind,all]

theorem allOrFailsAt (select : Pair → Except Misconfiguration (Option α)) (pairs : List Pair) :
    (∀ pair ∈ pairs, ∃ found, select pair = .ok found) ∨
      ∃ place fault, FailsAt select pairs place fault := by
  rcases eachOrFirst select pairs with each | ⟨before,pair,after,fault,rfl,fine,failed⟩
  · exact .inl each
  · exact .inr ⟨before.length,fault,⟨pair,by simp,failed⟩,by simpa using fine⟩

theorem changesEach (paired : readPairs text.toList = .ok pairs) {changed : List α}
    (ok : changes select text = .ok changed) : ∀ pair ∈ pairs, ∃ found, select pair = .ok found := by
  rcases allOrFailsAt select pairs with each | ⟨_,_,fails⟩
  · exact each
  · cases ok.symm.trans (fails.changes paired)

theorem changesFail (paired : readPairs text.toList = .ok pairs)
    (error : changes select text = .error fault) : ∃ place, FailsAt select pairs place fault := by
  rcases allOrFailsAt select pairs with each | ⟨place,_,fails⟩
  · obtain ⟨found,all⟩ := eachSome each
    cases error.symm.trans (changesOk paired all)
  · obtain rfl := Except.error.inj (error.symm.trans (fails.changes paired))
    exact ⟨place,fails⟩

theorem failsAlone {β : Type} {other : Pair → Except Misconfiguration (Option β)} {changed : List β}
    (failed : changes select text = .error fault) (ok : changes other text = .ok changed) :
    ∃ pairs place, readPairs text.toList = .ok pairs ∧ FailsAt select pairs place fault ∧
      ∀ pair ∈ pairs.take place, ∃ found, other pair = .ok found := by
  obtain ⟨pairs,paired⟩ := changesPaired ok
  obtain ⟨place,fails⟩ := changesFail paired failed
  have each := changesEach paired ok
  exact ⟨pairs,place,paired,fails,fun pair earlier => each pair (List.mem_of_mem_take earlier)⟩

theorem FailsAt.after {first : Nat} (fails : FailsAt select pairs place fault)
    (fine : ∀ pair ∈ pairs.take (first + 1), ∃ found, select pair = .ok found) : first < place := by
  by_contra reached
  obtain ⟨pair,here,failed⟩ := fails.here
  obtain ⟨inside,rfl⟩ := List.getElem?_eq_some_iff.mp here
  have member : pairs[place] ∈ pairs.take (first + 1) :=
    List.mem_take_iff_getElem.mpr ⟨place,by omega,rfl⟩
  obtain ⟨found,ok⟩ := fine _ member
  cases ok.symm.trans failed

end Selecting

inductive OneSided : Except Misconfiguration (Option DataSource.Change) →
    Except Misconfiguration (Option Settings.Change) →
    Except Misconfiguration (Option ConnectionPool.Change) → Prop
  | neither : OneSided (.ok none) (.ok none) (.ok none)
  | source (change : DataSource.Change) :
      OneSided (.ok (some change)) (.ok none) (.ok (some (.source change)))
  | settings (change : Settings.Change) :
      OneSided (.ok none) (.ok (some change)) (.ok (some (.settings change)))
  | sourceFails (fault : Misconfiguration) : OneSided (.error fault) (.ok none) (.error fault)
  | settingsFails (fault : Misconfiguration) : OneSided (.ok none) (.error fault) (.error fault)

section Dividing
variable {pair : Pair} {pairs : List Pair} {fault other : Misconfiguration} {place later : Nat}

theorem settingsSilent {field : Field} (addresses : pair.Addresses field) (own : field.isSource) :
    settingsChange? pair = .ok none := by
  have takes := settingsTakes pair
  generalize settingsChange? pair = result at takes ⊢
  cases takes with
  | ignores => rfl
  | reads minded addressed =>
    obtain rfl := addresses.same addressed
    simp [own] at minded
  | rejects minded addressed =>
    obtain rfl := addresses.same addressed
    simp [own] at minded

theorem pairOneSided (pair : Pair) :
    OneSided (sourceChange? pair) (settingsChange? pair) (change? pair) := by
  have takes := sourceTakes pair
  unfold change?
  generalize sourceChange? pair = source at takes ⊢
  cases takes with
  | rejects own addresses =>
    rw [settingsSilent addresses own]
    exact .sourceFails _
  | reads own addresses =>
    rw [settingsSilent addresses own]
    exact .source _
  | ignores =>
    rcases settingsChange? pair with fault | _ | change
    · exact .settingsFails fault
    · exact .neither
    · exact .settings change

theorem eitherFails : change? pair = .error fault ↔
    sourceChange? pair = .error fault ∨ settingsChange? pair = .error fault := by
  have sided := pairOneSided pair
  generalize sourceChange? pair = source, settingsChange? pair = settings,
    change? pair = change at sided ⊢
  cases sided <;> simp

theorem bothOk : (∃ found, change? pair = .ok found) ↔
    (∃ found, sourceChange? pair = .ok found) ∧ ∃ found, settingsChange? pair = .ok found := by
  have sided := pairOneSided pair
  generalize sourceChange? pair = source, settingsChange? pair = settings,
    change? pair = change at sided ⊢
  cases sided <;> simp

theorem FailsAt.sourceJoins (here : FailsAt sourceChange? pairs place fault)
    (fine : ∀ pair ∈ pairs.take place, ∃ found, settingsChange? pair = .ok found) :
    FailsAt change? pairs place fault where
  here := have ⟨pair,found,failed⟩ := here.here; ⟨pair,found,eitherFails.mpr (.inl failed)⟩
  before pair earlier := bothOk.mpr ⟨here.before pair earlier,fine pair earlier⟩

theorem FailsAt.settingsJoins (here : FailsAt settingsChange? pairs place fault)
    (fine : ∀ pair ∈ pairs.take place, ∃ found, sourceChange? pair = .ok found) :
    FailsAt change? pairs place fault where
  here := have ⟨pair,found,failed⟩ := here.here; ⟨pair,found,eitherFails.mpr (.inr failed)⟩
  before pair earlier := bothOk.mpr ⟨fine pair earlier,here.before pair earlier⟩

theorem FailsAt.divides (fails : FailsAt change? pairs place fault) :
    (FailsAt sourceChange? pairs place fault ∧
      ∀ pair ∈ pairs.take (place + 1), ∃ found, settingsChange? pair = .ok found) ∨
    (FailsAt settingsChange? pairs place fault ∧
      ∀ pair ∈ pairs.take (place + 1), ∃ found, sourceChange? pair = .ok found) := by
  obtain ⟨pair,here,failed⟩ := fails.here
  have sources : ∀ earlier ∈ pairs.take place, ∃ found, sourceChange? earlier = .ok found :=
    fun earlier member => (bothOk.mp (fails.before earlier member)).1
  have settings : ∀ earlier ∈ pairs.take place, ∃ found, settingsChange? earlier = .ok found :=
    fun earlier member => (bothOk.mp (fails.before earlier member)).2
  simp only [List.take_add_one,here,Option.toList_some,List.forall_mem_append,
    List.forall_mem_singleton]
  have sided := pairOneSided pair
  rw [failed] at sided
  generalize source : sourceChange? pair = ofSource at sided
  generalize setting : settingsChange? pair = ofSettings at sided
  cases sided with
  | sourceFails => exact .inl ⟨⟨⟨pair,here,source⟩,sources⟩,settings,none,rfl⟩
  | settingsFails => exact .inr ⟨⟨⟨pair,here,setting⟩,settings⟩,sources,none,rfl⟩

theorem changesDivide {found : List (Option Change)}
    (each : List.Forall₂ (fun pair found => change? pair = .ok found) pairs found) :
    ∃ sources settings, List.Forall₂ (fun pair found => sourceChange? pair = .ok found) pairs sources ∧
      List.Forall₂ (fun pair found => settingsChange? pair = .ok found) pairs settings ∧
      ∀ start : DataSource × Settings, Change.applyAll (found.filterMap id) start =
        ((sources.filterMap id).foldl DataSource.apply start.1,
          (settings.filterMap id).foldl Settings.apply start.2) := by
  induction each with
  | nil => exact ⟨[],[],.nil,.nil,fun _ => rfl⟩
  | @cons pair found pairs others first _ ih =>
    obtain ⟨sources,settings,eachSource,eachSetting,divided⟩ := ih
    have sided := pairOneSided pair
    rw [first] at sided
    generalize source : sourceChange? pair = ofSource at sided
    generalize setting : settingsChange? pair = ofSettings at sided
    cases sided with
    | neither =>
      exact ⟨none :: sources,none :: settings,.cons source eachSource,.cons setting eachSetting,
        divided⟩
    | source change =>
      exact ⟨some change :: sources,none :: settings,.cons source eachSource,
        .cons setting eachSetting,fun start => divided (start.1.apply change,start.2)⟩
    | settings change =>
      exact ⟨none :: sources,some change :: settings,.cons source eachSource,
        .cons setting eachSetting,fun start => divided (start.1,start.2.apply change)⟩

end Dividing

section Texts
variable {text : String} {fault : Misconfiguration} {source : DataSource} {settings : Settings}

theorem mapFails {α β ε : Type} {x : Except ε α} {f : α → β} {e : ε} :
    x.map f = .error e ↔ x = .error e := by
  cases x <;> simp [Except.map]

theorem mapOk {α β ε : Type} {x : Except ε α} {f : α → β} {b : β} :
    x.map f = .ok b ↔ ∃ a, x = .ok a ∧ f a = b := by
  cases x <;> simp [Except.map]

theorem readTogether {pairs : List Pair} (paired : readPairs text.toList = .ok pairs)
    (fine : ∀ pair ∈ pairs, ∃ found, change? pair = .ok found) :
    ∃ source settings, read text = .ok (source,settings) ∧ DataSource.ofProperties text = .ok source ∧
      Settings.ofProperties text = .ok settings := by
  obtain ⟨found,each⟩ := eachSome fine
  obtain ⟨sources,settings,eachSource,eachSetting,divided⟩ := changesDivide each
  refine ⟨_,_,mapOk.mpr ⟨_,changesOk paired each,divided ({},{})⟩,?_,?_⟩
  · exact mapOk.mpr ⟨_,changesOk paired eachSource,rfl⟩
  · exact mapOk.mpr ⟨_,changesOk paired eachSetting,rfl⟩

theorem FailsAt.read {pairs : List Pair} {place : Nat} (paired : readPairs text.toList = .ok pairs)
    (fails : FailsAt change? pairs place fault) : read text = .error fault :=
  mapFails.mpr (fails.changes paired)

theorem Blamed.read (blamed : Blamed text fault) : read text = .error fault := by
  cases blamed with
  | unpaired parts paired unpaired => exact (Means.unpaired parts paired unpaired).read
  | source source settings =>
    obtain ⟨_,ok,_⟩ := mapOk.mp settings
    obtain ⟨pairs,place,paired,fails,passed⟩ := failsAlone (mapFails.mp source) ok
    exact (fails.sourceJoins passed).read paired
  | settings source settings =>
    obtain ⟨_,ok,_⟩ := mapOk.mp source
    obtain ⟨pairs,place,paired,fails,passed⟩ := failsAlone (mapFails.mp settings) ok
    exact (fails.settingsJoins passed).read paired
  | sourceEarlier parted stand _ _ here there earlier =>
    have passed := fun pair member =>
      there.before pair (List.take_subset_take_left _ earlier.le member)
    exact (here.sourceJoins passed).read (parted.pairs stand)
  | settingsEarlier parted stand _ _ here there earlier =>
    have passed := fun pair member =>
      there.before pair (List.take_subset_take_left _ earlier.le member)
    exact (here.settingsJoins passed).read (parted.pairs stand)

theorem togetherOrBlamed (text : String) :
    (∃ source settings, Properties.read text = .ok (source,settings) ∧
      DataSource.ofProperties text = .ok source ∧ Settings.ofProperties text = .ok settings) ∨
      ∃ fault, Blamed text fault := by
  rcases pairedOrNot text with ⟨parts,pairs,parted,stand⟩ | ⟨_,_,_,parted,fine,unpaired⟩
  · have paired := parted.pairs stand
    rcases allOrFailsAt change? pairs with fine | ⟨place,fault,fails⟩
    · exact .inl (readTogether paired fine)
    · refine .inr ⟨fault,?_⟩
      rcases fails.divides with ⟨here,passed⟩ | ⟨here,passed⟩
      · have source : DataSource.ofProperties text = .error fault :=
          mapFails.mpr (here.changes paired)
        cases settings : Settings.ofProperties text with
        | ok => exact .source source settings
        | error other =>
          obtain ⟨later,there⟩ := changesFail paired (mapFails.mp settings)
          exact .sourceEarlier parted stand source settings here there (there.after passed)
      · have settings : Settings.ofProperties text = .error fault :=
          mapFails.mpr (here.changes paired)
        cases source : DataSource.ofProperties text with
        | ok => exact .settings source settings
        | error other =>
          obtain ⟨later,there⟩ := changesFail paired (mapFails.mp source)
          exact .settingsEarlier parted stand source settings here there (there.after passed)
  · have failed := parted.unpaired fine unpaired
    exact .inr ⟨_,.unpaired parted fine unpaired (mapFails.mpr (changesUnpaired failed))
      (mapFails.mpr (changesUnpaired failed))⟩

theorem Blamed.unread (blamed : Blamed text fault) (fine : DataSource.ofProperties text = .ok source)
    (also : Settings.ofProperties text = .ok settings) : False := by
  cases blamed with
  | unpaired _ _ _ failed => cases failed.symm.trans fine
  | source failed => cases failed.symm.trans fine
  | settings _ failed => cases failed.symm.trans also
  | sourceEarlier _ _ failed => cases failed.symm.trans fine
  | settingsEarlier _ _ failed => cases failed.symm.trans fine

/-- Data source and settings are read together as they are read apart. -/
theorem readersAgree (text : String) :
    (∀ source settings, Properties.read text = .ok (source,settings) ↔
      DataSource.ofProperties text = .ok source ∧ Settings.ofProperties text = .ok settings) ∧
    ∀ fault, Properties.read text = .error fault ↔ Blamed text fault := by
  rcases togetherOrBlamed text with ⟨source,settings,both,ofSource,ofSettings⟩ | ⟨fault,blamed⟩
  · refine ⟨fun other others => ?_,fun fault => ⟨fun failed => ?_,Blamed.read⟩⟩
    · rw [both,ofSource,ofSettings]
      simp
    · cases failed.symm.trans both
  · have failed := blamed.read
    refine ⟨fun source settings => ⟨fun read => ?_,fun ⟨fine,also⟩ => ?_⟩,
      fun other => ⟨fun again => ?_,Blamed.read⟩⟩
    · cases failed.symm.trans read
    · exact (blamed.unread fine also).elim
    · rwa [← Except.error.inj (failed.symm.trans again)]

end Texts

end Properties
end ConnectionPool
