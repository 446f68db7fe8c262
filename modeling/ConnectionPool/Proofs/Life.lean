import ConnectionPool.Proofs.Checks
import ConnectionPool.Proofs.Footprint
import ConnectionPool.Proofs.Ownership
/-! The life of one connection, as its record tells it: opened, had, perhaps found bad, discarded.
Whatever the pools and the holders do, each connection lives such a life, so what holds of all lives
holds of every run; it is shown by going through the life. -/
namespace ConnectionPool

inductive Stage where
  | unborn
  | had
  | bad
  | gone
  deriving DecidableEq, Repr

def Stage.checked : Bool → Stage
  | true => had
  | false => bad

def Event.regards (conn : Nat) : Event → Bool
  | opened _ other _ _ | call _ other _ _ | discarded _ other => other == conn
  | _ => false

abbrev Shared.Ignores {σ : Type} (conn : Nat) (s t : Shared σ) : Prop :=
  s.Writes (fun event => event.regards conn = false) t

theorem askIgnores {σ : Type} {conn other : Nat} (P : Platform σ) (caller : Caller)
    (request : Request) (apart : other ≠ conn) (t : Shared σ) :
    t.Ignores conn (t.ask P caller other request).2 :=
  ⟨[_],rfl,by simpa [Event.regards] using apart⟩

theorem welcomeIgnores {σ : Type} {conn : Nat} {t : Shared σ} (p : Pool) (outside : σ)
    (apart : t.opened ≠ conn) : t.Ignores conn (p.welcome outside t) :=
  ⟨[_],rfl,by simpa [Event.regards] using apart⟩

inductive Life {σ : Type} (P : Platform σ) (Alters : (σ → σ) → Prop) (conn : Nat) (first : Stage)
    (s : Shared σ) : Stage → Shared σ → Prop
  | start : Life P Alters conn first s first s
  | quiet {stage : Stage} {t u : Shared σ} (before : Life P Alters conn first s stage t)
      (outside : u.outside = t.outside) (opened : u.opened = t.opened) (silent : t.Ignores conn u) :
      Life P Alters conn first s stage u
  | elsewhere {stage : Stage} {t : Shared σ} (before : Life P Alters conn first s stage t)
      (caller : Caller) {other : Nat} (apart : other ≠ conn) (request : Request) :
      Life P Alters conn first s stage (t.ask P caller other request).2
  | refused {stage : Stage} {t : Shared σ} {source : DataSource} {cause : Cause} {outside : σ}
      (before : Life P Alters conn first s stage t)
      (connect : P.connect t.opened source t.outside = (.error cause,outside)) :
      Life P Alters conn first s stage { t with outside }
  | otherOpened {stage : Stage} {t : Shared σ} {p : Pool} {outside : σ}
      (before : Life P Alters conn first s stage t)
      (connect : P.connect t.opened p.source t.outside = (.ok (),outside)) (apart : t.opened ≠ conn) :
      Life P Alters conn first s stage (p.welcome outside t)
  | opened {t : Shared σ} {p : Pool} {outside : σ} (before : Life P Alters conn first s .unborn t)
      (connect : P.connect t.opened p.source t.outside = (.ok (),outside)) (here : t.opened = conn) :
      Life P Alters conn first s .had (p.welcome outside t)
  | held {t : Shared σ} (before : Life P Alters conn first s .had t) (key : Nat) (request : Request) :
      Life P Alters conn first s .had (t.ask P (.holder key) conn request).2
  | asked {t : Shared σ} (before : Life P Alters conn first s .had t) (n : Nat) (request : Request)
      (mild : request.Mild) : Life P Alters conn first s .had (t.ask P (.pool n) conn request).2
  | checked {t u : Shared σ} {n unusedFor : Nat} {settings : Settings} {healthy : Bool}
      (before : Life P Alters conn first s .had t)
      (checks : t.Checks P (.pool n) conn unusedFor settings healthy u) :
      Life P Alters conn first s (.checked healthy) u
  | spoilt {t : Shared σ} (before : Life P Alters conn first s .had t) :
      Life P Alters conn first s .bad t
  | disposed {t u : Shared σ} {n : Nat} (before : Life P Alters conn first s .bad t)
      (disposes : t.Disposes P n conn u) : Life P Alters conn first s .gone u
  | altered {stage : Stage} {t : Shared σ} {change : σ → σ}
      (before : Life P Alters conn first s stage t) (allowed : Alters change) :
      Life P Alters conn first s stage { t with outside := change t.outside }

namespace Life
variable {σ : Type} {P : Platform σ} {Alters : (σ → σ) → Prop} {conn other n : Nat} {first stage : Stage}
  {s t u v : Shared σ} {caller : Caller} {p : Pool} {w : Wrapper} {healthy : Bool}

theorem note (life : Life P Alters conn first s stage t) {e : Event}
    (silent : e.regards conn = false) : Life P Alters conn first s stage (t.note e) :=
  life.quiet rfl rfl (.one silent)

theorem talks (life : Life P Alters conn first s stage t) (apart : other ≠ conn)
    (talks : t.Talks P caller other u) : Life P Alters conn first s stage u := by
  induction talks with
  | silent => exact life
  | ask _ request ih => exact ih.elsewhere caller apart request

theorem speaks (life : Life P Alters conn first s .had t)
    (speaks : t.Speaks Request.Mild P (.pool n) conn u) : Life P Alters conn first s .had u := by
  induction speaks with
  | silent => exact life
  | ask _ request mild ih => exact ih.asked n request mild

theorem others (life : Life P Alters conn first s stage t) (apart : other ≠ conn) (n : Nat) :
    Life P Alters conn first s stage (t.dispose P n other) := by
  obtain ⟨u,talks,_,same⟩ := t.disposeParts P n other
  rw [same]
  exact (life.talks apart talks).note (beq_false_of_ne apart)

theorem inspected (life : Life P Alters conn first s .had t) (own : w.conn = conn)
    (found : p.inspect P w t = (healthy,u)) :
    Life P Alters conn first s (.checked healthy) u := by
  subst own
  rcases Pool.inspectCases found with ⟨_,checks⟩ | ⟨_,rfl,rfl⟩
  · exact life.checked checks
  · exact life.spoilt

theorem admitted (life : Life P Alters conn first s .had t) (own : w.conn = conn)
    (admits : p.admits P w t = (healthy,u)) :
    Life P Alters conn first s (.checked healthy) u := by
  cases Pool.admitsCases admits with
  | unfit found => exact life.inspected own found
  | stuck found cleared | fit found cleared =>
    have healthy := life.inspected own found
    subst own
    have cleared := healthy.speaks ((Shared.rollbackSpeaks ..).ends cleared)
    first
      | exact cleared
      | exact cleared.spoilt

end Life

def stageOf (ws : List Wrapper) (opened conn : Nat) : Stage :=
  if conn ∈ ws.map Wrapper.conn then .had else if conn < opened then .gone else .unborn

abbrev Lives {σ : Type} (P : Platform σ) (Alters : (σ → σ) → Prop) (conn : Nat) (first : Stage)
    (s : Shared σ) (ws : List Wrapper) (t : Shared σ) : Prop :=
  Life P Alters conn first s (stageOf ws t.opened conn) t

section Stages
variable {ws xs : List Wrapper} {x : Wrapper} {opened later conn : Nat}

theorem stageHad (has : conn ∈ ws.map Wrapper.conn) : stageOf ws opened conn = .had := if_pos has

theorem stageGone (away : conn ∉ ws.map Wrapper.conn) (before : conn < opened) :
    stageOf ws opened conn = .gone := by
  simp only [stageOf,if_neg away,if_pos before]

theorem stageUnborn (away : conn ∉ ws.map Wrapper.conn) (after : opened ≤ conn) :
    stageOf ws opened conn = .unborn := by
  simp only [stageOf,if_neg away,if_neg (Nat.not_lt.mpr after)]

theorem stagePerm (same : ws.Perm xs) : stageOf ws opened conn = stageOf xs opened conn := by
  simp only [stageOf,(same.map Wrapper.conn).mem_iff]

theorem stageOther (apart : x.conn ≠ conn) :
    stageOf (x :: ws) opened conn = stageOf ws opened conn := by
  simp [stageOf,Ne.symm apart]

theorem stageLater (apart : opened ≠ conn) : stageOf ws (opened + 1) conn = stageOf ws opened conn := by
  have same : conn < opened + 1 ↔ conn < opened := by omega
  simp only [stageOf,same]

end Stages

namespace Pool
variable {σ : Type} {P : Platform σ} {Alters : (σ → σ) → Prop} {conn : Nat} {first : Stage}
  {start s t u : Shared σ} {p q : Pool} {w x : Wrapper} {rest : List Wrapper}

theorem headApart (ledger : Ledger (x :: rest) s) : x.conn ∉ rest.map Wrapper.conn :=
  (List.nodup_cons.mp ledger.conns).1

theorem unopened (ledger : Ledger rest s) : s.opened ∉ rest.map Wrapper.conn := by
  intro known
  obtain ⟨x,member,same⟩ := List.mem_map.mp known
  exact Nat.lt_irrefl _ (same ▸ ledger.opened x member)

theorem picksLives (ledger : Ledger (p.tracked ++ rest) s)
    (lives : Lives P Alters conn first start (p.tracked ++ rest) s)
    (picks : Picks P p s (.candidate w) q t) :
    Lives P Alters conn first start (w :: (q.tracked ++ rest)) t := by
  cases picks with
  | kept idle => simpa [tracked,idle] using lives
  | @fresh outside v idle room connect setUp =>
    have away := unopened ledger
    have opened : v.opened = s.opened + 1 := ((Shared.setUpTalks ..).ends setUp).books.opened
    by_cases own : s.opened = conn
    · subst own
      have unborn := lives
      rw [Lives,stageUnborn away (Nat.le_refl _)] at unborn
      have had := (unborn.opened connect rfl).speaks ((Shared.setUpSpeaks ..).ends setUp)
      rw [Lives,stageHad (by simp [Wrapper.fresh])]
      exact had.quiet rfl rfl ⟨[_],rfl,by simp [Event.regards]⟩
    · have called := (lives.otherOpened connect own).talks own ((Shared.setUpTalks ..).ends setUp)
      have created := called.quiet (u := v.newKey.2.note (.created p.number s.opened)) rfl rfl
        ⟨[_],rfl,by simp [Event.regards]⟩
      rw [Lives,stageOther own]
      change Life P Alters conn first start (stageOf (p.tracked ++ rest) v.opened conn) _
      rwa [opened,stageLater own]
  | @overdue oldest others idle full active late =>
    have taken := lives.quiet
      (u := (s.invalidate oldest).note (.reclaimed p.number oldest (oldest.heldFor s.now))) rfl rfl
      ⟨[_],rfl,by simp [Event.regards]⟩
    have listed : p.tracked ++ rest = oldest :: (others ++ rest) := by simp [tracked,idle,active]
    have opened : (p.seize P oldest s).opened = s.opened := (p.seizeTalks P oldest s).books.opened
    have seized : Life P Alters conn first start
        (stageOf (p.tracked ++ rest) s.opened conn) (p.seize P oldest s) := by
      by_cases own : oldest.conn = conn
      · subst own
        rw [stageHad (by simp [listed])] at taken ⊢
        exact taken.speaks (Shared.rollbackSpeaks ..)
      · exact taken.talks own (p.seizeTalks P oldest s)
    have done := seized.quiet
      (u := ((p.seize P oldest s).rewrap oldest oldest.lastUsedAt).2.notify p.number) rfl rfl
      ⟨[_],rfl,by simp [Event.regards]⟩
    have same : stageOf (p.tracked ++ rest) s.opened conn =
        stageOf (((p.seize P oldest s).rewrap oldest oldest.lastUsedAt).1 :: (others ++ rest))
          s.opened conn := by
      simp [stageOf,listed,Shared.rewrap,Wrapper.rewrapped,Wrapper.fresh]
    rw [same,← opened] at done
    simp only [tracked,count,idle,List.nil_append]
    exact done

theorem missesLives (ledger : Ledger (p.tracked ++ rest) s)
    (lives : Lives P Alters conn first start (p.tracked ++ rest) s) {error : PoolError}
    (picks : Picks P p s (.failed error) q t) :
    Lives P Alters conn first start (q.tracked ++ rest) t := by
  cases picks with
  | refused idle room connect =>
    exact (lives.refused connect).quiet rfl rfl ⟨[_],rfl,by simp [Event.regards]⟩
  | @unfit cause outside v idle room connect setUp =>
    have away := unopened ledger
    have talked := ((Shared.setUpTalks ..).ends setUp).books.opened
    have opened : (v.dispose P p.number s.opened).opened = s.opened + 1 :=
      (v.disposeBooks P p.number s.opened).opened.trans talked
    rw [Lives,opened]
    by_cases own : s.opened = conn
    · subst own
      rw [Lives,stageUnborn away (Nat.le_refl _)] at lives
      have had := (lives.opened connect rfl).speaks ((Shared.setUpSpeaks ..).ends setUp)
      rw [stageGone away (Nat.lt_succ_self _)]
      exact had.spoilt.disposed (Shared.disposeDisposes ..)
    · have called := (lives.otherOpened connect own).talks own ((Shared.setUpTalks ..).ends setUp)
      rw [stageLater own]
      exact called.others own p.number

structure Doomed (P : Platform σ) (Alters : (σ → σ) → Prop) (conn : Nat) (first : Stage)
    (start : Shared σ) (w : Wrapper) (rest : List Wrapper) (s : Shared σ) : Prop where
  own (same : w.conn = conn) : Life P Alters conn first start .bad s
  others (apart : w.conn ≠ conn) : Lives P Alters conn first start rest s

theorem spoilt (lives : Lives P Alters conn first start (w :: rest) s) :
    Doomed P Alters conn first start w rest s where
  own same := by
    subst same
    rw [Lives,stageHad (by simp)] at lives
    exact lives.spoilt
  others apart := by rwa [Lives,stageOther apart] at lives

theorem Doomed.note (doomed : Doomed P Alters conn first start w rest s) {e : Event}
    (silent : e.regards conn = false) : Doomed P Alters conn first start w rest (s.note e) where
  own same := (doomed.own same).note silent
  others apart := (doomed.others apart).note silent

theorem discardLives (ledger : Ledger (w :: rest) s) (p : Pool)
    (doomed : Doomed P Alters conn first start w rest s) :
    Lives P Alters conn first start rest (p.discard P w s).2 := by
  have opened : (p.discard P w s).2.opened = s.opened :=
    ((s.invalidate w).disposeBooks P p.number w.conn).opened
  rw [Lives,opened]
  by_cases same : w.conn = conn
  · have bad := (doomed.own same).quiet (u := s.invalidate w) rfl rfl (.nothing rfl)
    subst same
    rw [stageGone (headApart ledger) (ledger.opened w List.mem_cons_self)]
    exact bad.disposed (Shared.disposeDisposes ..)
  · have apart := (doomed.others same).quiet (u := s.invalidate w) rfl rfl (.nothing rfl)
    exact apart.others same p.number

section InHand
variable {caller : Caller} (lives : Lives P Alters conn first start (w :: rest) s)
  (talks : s.Talks P caller w.conn t)
include lives talks

theorem goodLives (own : w.conn = conn → Life P Alters conn first start .had s →
    Life P Alters conn first start .had t) : Lives P Alters conn first start (w :: rest) t := by
  rw [Lives,talks.books.opened]
  by_cases same : w.conn = conn
  · rw [Lives,stageHad (by simp [same])] at lives
    rw [stageHad (by simp [same])]
    exact own same lives
  · exact lives.talks same talks

theorem badDoomed (own : w.conn = conn → Life P Alters conn first start .had s →
    Life P Alters conn first start .bad t) : Doomed P Alters conn first start w rest t where
  own same := by
    rw [Lives,stageHad (by simp [same])] at lives
    exact own same lives
  others apart := by
    rw [Lives,stageOther apart] at lives
    rw [Lives,talks.books.opened]
    exact lives.talks apart talks

end InHand

theorem stayLives (P : Platform σ) (Alters : (σ → σ) → Prop) (conn : Nat) (first : Stage)
    (start : Shared σ) (seeker : Seeker) (rest : List Wrapper) :
    StayRule P seeker
      (fun q t => Ledger (q.tracked ++ rest) t ∧
        Lives P Alters conn first start (q.tracked ++ rest) t)
      (fun w q t => Ledger (w :: (q.tracked ++ rest)) t ∧
        Lives P Alters conn first start (w :: (q.tracked ++ rest)) t)
      (fun _ q t => Lives P Alters conn first start (q.tracked ++ rest) t) where
  finds before picks := ⟨picksLedger before.1 picks,picksLives before.1 before.2 picks⟩
  misses before picks := ⟨missesLedger before.1 picks,missesLives before.1 before.2 picks⟩
  blocks {q t} before _ bad := by
    have slept : Lives P Alters conn first start (q.tracked ++ rest) (q.block seeker bad t).2.2 :=
      before.2.quiet rfl rfl ⟨[_],rfl,by simp [Event.regards]⟩
    unfold block
    split <;> exact slept
  grants {w q t u} holding good := by
    have admitted := goodLives holding.2 ((admitsTalks ..).ends good) fun own had =>
      had.admitted own good
    have granted := admitted.quiet (u := (q.grant seeker w u).2.2) rfl rfl
      ⟨[_],rfl,by simp [Event.regards]⟩
    have same : stageOf (w :: (q.tracked ++ rest)) u.opened conn =
        stageOf ((q.grant seeker w u).2.1.tracked ++ rest) u.opened conn := by
      have alike : conn = w.conn ∨ conn ∈ (q.tracked ++ rest).map Wrapper.conn ↔
          conn ∈ ((q.grant seeker w u).2.1.tracked ++ rest).map Wrapper.conn := by
        simp only [grant,count,tracked,Wrapper.stamped,List.map_append,List.map_cons,List.mem_append,
          List.mem_cons,List.map_nil]
        tauto
      simp only [stageOf,List.map_cons,List.mem_cons,alike]
    rw [same] at granted
    exact granted
  rejects {w q t u} holding bad := by
    have talks := (admitsTalks ..).ends bad
    have books := (holding.1.books talks.books).note (.rejected q.number w)
    have doomed := badDoomed holding.2 talks fun own had => had.admitted own bad
    exact ⟨discardLedger P _ books rfl,discardLives books _ (doomed.note rfl)⟩
  fails before _ := before.2.note rfl
  overruns before := before.2

section Acts
variable (ledger : Ledger (p.tracked ++ rest) s)
  (lives : Lives P Alters conn first start (p.tracked ++ rest) s)
include ledger lives

theorem enterLives (seeker : Seeker) :
    Lives P Alters conn first start ((p.enter P seeker s).2.1.tracked ++ rest)
      (p.enter P seeker s).2.2 :=
  (stayLives P Alters conn first start seeker rest).enter (fun _ => lives.note rfl)
    (fun _ => ⟨ledger,lives⟩)

theorem resumeLives (wait : Wait) :
    Lives P Alters conn first start ((p.resume P wait s).2.1.tracked ++ rest)
      (p.resume P wait s).2.2 := by
  have rises : Lives P Alters conn first start (p.tracked ++ rest) (p.rises wait s) := lives.note rfl
  exact (stayLives P Alters conn first start wait.seeker rest).resume (fun _ => rises.note rfl)
    (fun _ => ⟨ledger.note _,rises⟩)

theorem returnsLives (own : ∀ x ∈ p.active, x.key = w.key → x = w)
    (returns : Returns P w p s q t) : Lives P Alters conn first start (q.tracked ++ rest) t := by
  have taken (lent : p.IsActive w) : Ledger (w :: ((p.removeActive w).tracked ++ rest)) s ∧
      Lives P Alters conn first start (w :: ((p.removeActive w).tracked ++ rest)) s := by
    obtain ⟨x,member,same,apart⟩ := trackedApart lent
    obtain rfl := own x member same
    have order := apart.append_right rest
    exact ⟨ledger.perm order,by rwa [Lives,stagePerm order] at lives⟩
  cases returns with
  | stale => exact lives.note rfl
  | unfit lent found =>
    obtain ⟨books,lives⟩ := taken lent
    have talks := (inspectTalks ..).ends found
    have doomed := badDoomed lives talks fun own had => had.inspected own found
    have discarded := discardLives ((books.books talks.books).note _) (p.removeActive w)
      (doomed.note (e := .returned p.number w false (w.heldFor s.now)) rfl)
    exact discarded.quiet rfl rfl ⟨[_],rfl,by simp [Event.regards]⟩
  | @dropped v u lent found unwelcome =>
    obtain ⟨books,lives⟩ := taken lent
    have talks := (inspectTalks ..).ends found
    have turnedDown := droppedTalks unwelcome
    have good := goodLives lives talks fun own had => had.inspected own found
    have noted := good.note (e := .returned p.number w true (w.heldFor s.now)) rfl
    have called := goodLives noted turnedDown fun own had => by
      subst own
      exact had.speaks (droppedSpeaks unwelcome)
    have listed := ((books.books talks.books).note (.returned p.number w true
      (w.heldFor s.now))).books turnedDown.books
    have discarded := discardLives listed (p.removeActive w) (spoilt called)
    exact discarded.quiet rfl rfl ⟨[_],rfl,by simp [Event.regards]⟩
  | @kept v u lent found welcome cleared =>
    obtain ⟨books,lives⟩ := taken lent
    have good := goodLives lives ((inspectTalks ..).ends found) fun own had =>
      had.inspected own found
    have noted := good.note (e := .returned p.number w true (w.heldFor s.now)) rfl
    have called := goodLives noted ((Shared.rollbackTalks ..).ends cleared) fun own had => by
      subst own
      exact had.speaks ((Shared.rollbackSpeaks ..).ends cleared)
    have kept := called.quiet (u := ((p.checkIn w s.now).keep w u).2.notify p.number) rfl rfl
      ⟨[_],rfl,by simp [Event.regards]⟩
    have same : stageOf (w :: ((p.removeActive w).tracked ++ rest)) u.opened conn =
        stageOf (((p.checkIn w s.now).keep w u).1.tracked ++ rest) u.opened conn := by
      have alike : conn = w.conn ∨ conn ∈ ((p.removeActive w).tracked ++ rest).map Wrapper.conn ↔
          conn ∈ (((p.checkIn w s.now).keep w u).1.tracked ++ rest).map Wrapper.conn := by
        simp only [keep,checkIn,count,tracked,Shared.rewrap,Wrapper.rewrapped,Wrapper.fresh,
          List.map_append,List.map_cons,List.mem_append,List.mem_cons,List.map_nil]
        tauto
      simp only [stageOf,List.map_cons,List.mem_cons,alike]
    rw [same] at kept
    exact kept

theorem sweepLives : Lives P Alters conn first start ((p.sweep P s).1.tracked ++ rest)
    (p.sweep P s).2 := by
  rw [sweepTracked]
  refine (discardAllKeeps (fun ws _ t => Ledger (ws ++ rest) t ∧
    Lives P Alters conn first start (ws ++ rest) t) ?_ ?_).2
  · intro w ws q t left
    exact ⟨discardLedger P q left.1 rfl,discardLives left.1 q (spoilt left.2)⟩
  · have order := p.sweepOrder.append_right rest
    refine ⟨(ledger.perm order).note _,?_⟩
    have swept : Lives P Alters conn first start (p.tracked ++ rest)
        (s.note (.swept p.number p.active.length p.idle.length)) := lives.note rfl
    rwa [Lives,stagePerm order] at swept

end Acts

end Pool

namespace World
variable {σ : Type} {P : Platform σ} {Base Alters : (σ → σ) → Prop} {outside : σ} {w w' : World σ}
  {conn n : Nat} {first : Stage} {start s' : Shared σ} {p p' : Pool}

def stage (w : World σ) (conn : Nat) : Stage := stageOf w.tracked w.shared.opened conn

theorem livesPut (ledger : Ledger w.tracked w.shared)
    (lives : Lives P Alters conn first start w.tracked w.shared) (here : w.pools[n]? = some p)
    (acts : ∀ rest, Ledger (p.tracked ++ rest) w.shared →
      Lives P Alters conn first start (p.tracked ++ rest) w.shared →
      Lives P Alters conn first start (p'.tracked ++ rest) s') :
    Lives P Alters conn first start (w.put n p' s').tracked s' := by
  have before := trackedPerm here
  have after : (w.put n p' s').tracked.Perm (p'.tracked ++ w.trackedElsewhere n) :=
    (poolsPut here p' s').flatMap_right Pool.tracked
  rw [Lives,stagePerm before] at lives
  rw [Lives,stagePerm after]
  exact acts _ (ledger.perm before) lives

theorem livesLetGo (numbered : w.Numbered) (ledger : Ledger w.tracked w.shared)
    (lives : Lives P Alters conn first start w.tracked w.shared) (n : Nat) :
    Lives P Alters conn first start (w.letGo P n).tracked (w.letGo P n).shared := by
  rcases letGoCases (P := P) numbered n with ⟨same,_⟩ | ⟨p,_,here,_,swept⟩
  · rwa [same]
  · rw [swept]
    exact livesPut ledger lives here fun _ => Pool.sweepLives

theorem livesTurn (numbered : w.Numbered) (queued : w.Queued) (owned : w.Owned)
    (lives : Lives P Alters conn first start w.tracked w.shared) (turn : Turn P Alters w w') :
    Lives P Alters conn first start w'.tracked w'.shared := by
  have ledger := owned.ledger
  cases turn with
  | found source valid => simpa [tracked,Pool.tracked,Pool.create] using lives
  | noDoor | share => exact lives
  | stray | advance => exact lives.quiet rfl rfl (.nothing rfl)
  | tamper allowed => exact lives.altered allowed
  | leave =>
    apply livesLetGo
    · exact numbered
    · exact ledger
    · exact lives
  | get door known here =>
    exact livesPut ledger lives here fun _ books before => Pool.enterLives books before _
  | @resume index wait p awake here =>
    have roused : Lives P Alters conn first start (w.rouse index).tracked (w.rouse index).shared :=
      lives.quiet rfl rfl (.nothing rfl)
    have books : Ledger (w.rouse index).tracked (w.rouse index).shared :=
      ledger.frame rfl rfl (Nat.le_refl _) (Nat.le_refl _)
    apply livesLetGo
    · exact numberedResumed numbered here index
    · exact (ownedSeatResumed queued owned awake here).ledger
    · exact livesPut books roused here fun _ books before => Pool.resumeLives books before wait
  | @renew n p source settings closed known here =>
    refine livesPut ledger lives here fun rest books before => ?_
    have swept := Pool.sweepLives (p := { p with source, settings, closed }) books before
    exact swept.quiet rfl rfl ⟨[_],rfl,by simp [Event.regards]⟩
  | tolerance count known here => exact livesPut ledger lives here fun _ _ before => before
  | giveBack held first here =>
    exact livesPut ledger lives here fun _ books before =>
      Pool.returnsLives books before (holderOwns owned held here) (Pool.releaseReturns ..)
  | vacate held spent =>
    apply livesLetGo
    · exact numbered
    · exact ledger
    · exact lives
  | @ask slot h held live request =>
    by_cases own : h.wrapper.conn = conn
    · obtain ⟨_,p,here,lent⟩ := owned.valid held live
      have member := memTracked.mpr ⟨h.pool,p,here,List.mem_append_right _ lent⟩
      have had : h.wrapper.conn ∈ w.tracked.map Wrapper.conn := List.mem_map_of_mem member
      subst own
      rw [Lives,stageHad had] at lives
      have called := lives.held h.wrapper.key request
      rwa [← stageHad had] at called
    · exact lives.elsewhere _ own request

theorem turnMono (weaker : ∀ change, Alters change → Base change) (turn : Turn P Alters w w') :
    Turn P Base w w' := by
  cases turn with
  | found source valid => exact .found source valid
  | noDoor => exact .noDoor
  | share known => exact .share known
  | leave known => exact .leave known
  | get door known here => exact .get door known here
  | resume awake here => exact .resume awake here
  | stray awake away => exact .stray awake away
  | renew source settings closed known here valid stays =>
    exact .renew source settings closed known here valid stays
  | tolerance count known here => exact .tolerance count known here
  | giveBack held first here => exact .giveBack held first here
  | vacate held spent => exact .vacate held spent
  | ask held live request => exact .ask held live request
  | advance time => exact .advance time
  | tamper allowed => exact .tamper (weaker _ allowed)

theorem turnsMono (weaker : ∀ change, Alters change → Base change) (turns : Turns P Alters w w') :
    Turns P Base w w' := by
  induction turns with
  | refl => exact .refl
  | tail _ turn ih => exact ih.tail (turnMono weaker turn)

/-- From any world that can come about, each connection lives on from the stage that it is in. -/
theorem everyLife (attained : Attained P Base outside w) (weaker : ∀ change, Alters change → Base change)
    (turns : Turns P Alters w w') (conn : Nat) :
    Life P Alters conn (w.stage conn) w.shared (w'.stage conn) w'.shared := by
  induction turns with
  | refl => exact .start
  | tail turns turn ih =>
    have before := attained.trans (turnsMono weaker turns)
    exact livesTurn (numbered before) (everyCallerQueued before) (everyOwned before) ih turn

end World
end ConnectionPool
