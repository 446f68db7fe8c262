import ConnectionPool.Proofs.Life
/-! What is written about one connection, told stage by stage. As long as a connection is had, its pool
has not told it to close; once it has been discarded, nothing more is written about it. -/
namespace ConnectionPool

def story (conn : Nat) (journal : List Event) : List Event := journal.filter (Event.regards conn)

def Event.closes (conn : Nat) : Event → Bool
  | call (.pool _) other .close _ => other == conn
  | _ => false

def Event.closesHeld (conn : Nat) : Event → Bool
  | call (.holder _) other .close _ => other == conn
  | _ => false

def poolCloses (conn : Nat) (journal : List Event) : Nat := journal.countP (Event.closes conn)

def holderCloses (conn : Nat) (journal : List Event) : Nat := journal.countP (Event.closesHeld conn)

def Discarded (conn : Nat) (journal : List Event) : Prop := ∃ n, .discarded n conn ∈ journal

theorem discardedListed {conn : Nat} {journal : List Event} :
    Discarded conn journal ↔ conn ∈ (discards journal).map Prod.snd := by
  have listed {n : Nat} : .discarded n conn ∈ journal ↔ (n,conn) ∈ discards journal := by
    refine ⟨fun member => List.mem_filterMap.mpr ⟨_,member,rfl⟩,fun member => ?_⟩
    obtain ⟨event,member,found⟩ := List.mem_filterMap.mp member
    cases event with
    | discarded => cases found; exact member
    | _ => cases found
  simp [Discarded,listed]

instance (conn : Nat) (journal : List Event) : Decidable (Discarded conn journal) :=
  decidable_of_iff _ discardedListed.symm

section Story
variable {σ : Type} {P : Platform σ} {conn n : Nat} {s t : Shared σ} {caller : Caller}
  {journal newer older : List Event} {fits : Request → Prop}

theorem storyIgnored (silent : s.Ignores conn t) : story conn t.journal = story conn s.journal :=
  silent.filter

theorem storyAsked (P : Platform σ) (caller : Caller) (conn : Nat) (request : Request)
    (s : Shared σ) : story conn (s.ask P caller conn request).2.journal =
      .call caller conn request (s.ask P caller conn request).1 :: story conn s.journal := by
  simp [Shared.ask,Shared.note,story,Event.regards]

theorem countStory {chosen : Event → Bool} (about : ∀ event, chosen event → event.regards conn) :
    (story conn journal).countP chosen = journal.countP chosen := by
  simp only [story,List.countP_filter]
  refine List.countP_congr fun event _ => ?_
  simpa using about event

theorem discardedStory : Discarded conn (story conn journal) ↔ Discarded conn journal := by
  simp [Discarded,story,Event.regards]

theorem poolClosesStory (conn : Nat) (journal : List Event) :
    poolCloses conn (story conn journal) = poolCloses conn journal :=
  countStory fun event closes => by
    cases event with
    | call caller other request reply =>
      cases caller <;> cases request <;> simp_all [Event.closes,Event.regards]
    | _ => cases closes

theorem holderClosesStory (conn : Nat) (journal : List Event) :
    holderCloses conn (story conn journal) = holderCloses conn journal :=
  countStory fun event closes => by
    cases event with
    | call caller other request reply =>
      cases caller <;> cases request <;> simp_all [Event.closesHeld,Event.regards]
    | _ => cases closes

theorem speaksStory (speaks : s.Speaks fits P caller conn t) :
    ∃ new, story conn t.journal = new ++ story conn s.journal ∧
      ∀ event ∈ new, ∃ request reply, fits request ∧ event = .call caller conn request reply := by
  induction speaks with
  | silent => exact ⟨[],rfl,by simp⟩
  | @ask t before request fit ih =>
    obtain ⟨new,grown,calls⟩ := ih
    refine ⟨.call caller conn request (t.ask P caller conn request).1 :: new,?_,?_⟩
    · rw [storyAsked,grown,List.cons_append]
    · exact List.forall_mem_cons.mpr ⟨⟨request,_,fit,rfl⟩,calls⟩

end Story

def Tells (conn : Nat) (story : List Event) : Stage → Prop
  | .unborn | .had => poolCloses conn story = 0 ∧ ¬Discarded conn story
  | .bad => ¬Discarded conn story
  | .gone => ∃ n older, story = .discarded n conn :: older ∧ ¬Discarded conn older

section Tells
variable {σ : Type} {P : Platform σ} {Alters : (σ → σ) → Prop} {conn n : Nat} {outside : σ}
  {stage : Stage} {s t : Shared σ} {caller : Caller} {old new journal : List Event}
  {fits : Request → Prop}

theorem callsUndiscarded
    (calls : ∀ event ∈ new, ∃ request reply, fits request ∧ event = .call caller conn request reply) :
    Discarded conn (new ++ old) ↔ Discarded conn old := by
  simp only [Discarded,List.mem_append]
  refine exists_congr fun n => or_iff_right ?_
  intro member
  obtain ⟨_,_,_,same⟩ := calls _ member
  cases same

theorem callsUnclosed (calls : ∀ event ∈ new, ∃ request reply, request ≠ .close ∧
    event = .call caller conn request reply) : poolCloses conn (new ++ old) = poolCloses conn old := by
  have none : new.countP (Event.closes conn) = 0 := by
    refine List.countP_eq_zero.mpr fun event member => ?_
    obtain ⟨request,reply,other,rfl⟩ := calls event member
    cases caller <;> cases request <;> first | exact absurd rfl other | simp [Event.closes]
  rw [poolCloses,List.countP_append,none,Nat.zero_add,poolCloses]

theorem undiscardedTalks (talks : s.Talks P caller conn t)
    (kept : ¬Discarded conn (story conn s.journal)) : ¬Discarded conn (story conn t.journal) := by
  obtain ⟨new,grown,calls⟩ := speaksStory talks.speaks
  rwa [grown,callsUndiscarded calls]

theorem tellsSpeaks (tells : Tells conn (story conn s.journal) .had)
    (speaks : s.Speaks (· ≠ .close) P caller conn t) : Tells conn (story conn t.journal) .had := by
  obtain ⟨new,grown,calls⟩ := speaksStory speaks
  refine ⟨?_,undiscardedTalks speaks.talks tells.2⟩
  rw [grown,callsUnclosed calls]
  exact tells.1

theorem lifeTells (life : Life P Alters conn .unborn (.initial outside) stage t) :
    Tells conn (story conn t.journal) stage := by
  induction life with
  | start => exact ⟨rfl,by simp [Discarded,story,Shared.initial]⟩
  | quiet _ _ _ silent ih => rwa [storyIgnored silent]
  | @elsewhere stage t _ caller other apart request ih =>
    rwa [storyIgnored (askIgnores P caller request apart t)]
  | refused _ _ ih | altered _ _ ih => exact ih
  | @otherOpened stage t p outside _ _ apart ih =>
    rwa [storyIgnored (welcomeIgnores p outside apart)]
  | @opened t p outside _ _ here ih =>
    have grown : story conn (p.welcome outside t).journal =
        .opened p.number conn t.nextId p.source :: story conn t.journal := by
      subst here
      simp [Pool.welcome,Shared.note,story,Event.regards]
    rw [grown]
    exact ⟨by simpa [poolCloses,Event.closes] using ih.1,by simpa [Discarded] using ih.2⟩
  | @held t _ key request ih =>
    refine ⟨?_,undiscardedTalks (.one P (.holder key) conn request t) ih.2⟩
    rw [storyAsked]
    simpa [poolCloses,Event.closes] using ih.1
  | @asked t _ n request mild ih =>
    have speaks : t.Speaks (· ≠ .close) P (.pool n) conn (t.ask P (.pool n) conn request).2 :=
      .ask .silent request mild.leavesOpen
    exact tellsSpeaks ih speaks
  | @checked t u n unusedFor settings healthy _ checks ih =>
    cases healthy with
    | true => exact tellsSpeaks ih checks.speaks
    | false => exact undiscardedTalks checks.talks ih.2
  | spoilt _ ih => exact ih.2
  | @disposed t u n _ disposes ih =>
    obtain ⟨v,talks,same⟩ := disposes.talks
    refine ⟨n,story conn v.journal,?_,undiscardedTalks talks ih⟩
    rw [same]
    simp [Shared.note,story,Event.regards]

theorem lifeGone (life : Life P Alters conn .gone s stage t) :
    stage = .gone ∧ story conn t.journal = story conn s.journal := by
  induction life with
  | start => exact ⟨rfl,rfl⟩
  | quiet _ _ _ silent ih => exact ⟨ih.1,(storyIgnored silent).trans ih.2⟩
  | @elsewhere stage t _ caller other apart request ih =>
    exact ⟨ih.1,(storyIgnored (askIgnores P caller request apart t)).trans ih.2⟩
  | refused _ _ ih | altered _ _ ih => exact ih
  | @otherOpened stage t p outside _ _ apart ih =>
    exact ⟨ih.1,(storyIgnored (welcomeIgnores p outside apart)).trans ih.2⟩
  | opened _ _ _ ih | held _ _ _ ih | asked _ _ _ _ ih | checked _ _ ih | spoilt _ ih
  | disposed _ _ ih => exact absurd ih.1 nofun

end Tells

namespace World
variable {σ : Type} {P : Platform σ} {Alters : (σ → σ) → Prop} {outside : σ} {w : World σ}
  {conn n : Nat} {newer older : List Event}

theorem everyStory (attained : Attained P Alters outside w) (conn : Nat) :
    Tells conn (story conn w.shared.journal) (w.stage conn) := by
  have unborn : (initial outside).stage conn = .unborn :=
    stageUnborn (by simp [World.tracked,initial]) (Nat.zero_le _)
  have life := everyLife .refl (fun _ => id) attained conn
  rw [unborn] at life
  exact lifeTells life

theorem stageCases (attained : Attained P Alters outside w) (conn : Nat) :
    Discarded conn w.shared.journal ∧ w.stage conn = .gone ∨
      ¬Discarded conn w.shared.journal ∧ poolCloses conn w.shared.journal = 0 ∧
        (w.stage conn = .unborn ∨ w.stage conn = .had ∧ conn < w.shared.opened) := by
  have tells := everyStory attained conn
  by_cases has : conn ∈ w.tracked.map Wrapper.conn
  · have had : w.stage conn = .had := stageHad has
    rw [had,Tells,discardedStory,poolClosesStory] at tells
    obtain ⟨x,member,rfl⟩ := List.mem_map.mp has
    exact .inr ⟨tells.2,tells.1,.inr ⟨had,(everyOwned attained).ledger.opened x member⟩⟩
  · by_cases before : conn < w.shared.opened
    · have gone : w.stage conn = .gone := stageGone has before
      rw [gone] at tells
      obtain ⟨n,older,last,_⟩ := tells
      exact .inl ⟨discardedStory.mp ⟨n,by simp [last]⟩,gone⟩
    · have unborn : w.stage conn = .unborn := stageUnborn has (Nat.not_lt.mp before)
      rw [unborn,Tells,discardedStory,poolClosesStory] at tells
      exact .inr ⟨tells.2,tells.1,.inl unborn⟩

theorem discardedAway (attained : Attained P Alters outside w)
    (discarded : Discarded conn w.shared.journal) : ∀ x ∈ w.tracked, x.conn ≠ conn := by
  rintro x member rfl
  rcases stageCases attained x.conn with ⟨_,gone⟩ | ⟨kept,_⟩
  · cases gone.symm.trans (stageHad (List.mem_map_of_mem member))
  · exact kept discarded

theorem silentOnceDiscarded (attained : Attained P Alters outside w)
    (written : w.shared.journal = newer ++ .discarded n conn :: older) :
    ∀ event ∈ newer, event.regards conn = false := by
  have listed : story conn w.shared.journal =
      story conn newer ++ .discarded n conn :: story conn older := by
    simp [written,story,List.filter_append,Event.regards]
  rcases stageCases attained conn with ⟨_,gone⟩ | ⟨kept,_⟩
  · have tells := everyStory attained conn
    rw [gone,listed] at tells
    obtain ⟨_,before,last,none⟩ := tells
    cases after : story conn newer with
    | nil => simpa [story] using after
    | cons event rest =>
      rw [after,List.cons_append] at last
      refine absurd ⟨n,?_⟩ none
      rw [← (List.cons.inj last).2]
      simp
  · exact absurd ⟨n,by simp [written]⟩ kept

end World
end ConnectionPool
