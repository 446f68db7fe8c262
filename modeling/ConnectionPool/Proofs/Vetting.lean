import ConnectionPool.Proofs.Ages
import ConnectionPool.Proofs.Checks
/-! What a pool has to see before it lends or keeps a connection, as the record tells it, and when it
may have a connection execute anything: only to ping it, when it has been unused for long enough. -/
namespace ConnectionPool

def Event.isQuery : Event → Bool
  | call (.pool _) _ (.execute _) _ => true
  | _ => false

inductive Clearing (n conn : Nat) : List Event → Prop
  | idle : Clearing n conn [.call (.pool n) conn .autoCommit (.ok true)]
  | rolledBack : Clearing n conn
      [.call (.pool n) conn .rollback (.ok ()),.call (.pool n) conn .autoCommit (.ok false)]

/-- The connection said that it is open and, if it was due, passed the ping. -/
inductive Vetting (n conn unusedFor : Nat) (settings : Settings) : List Event → Prop
  | early (early : ¬(settings.pingEnabled ∧ settings.pingAfter ≤ unusedFor)) :
      Vetting n conn unusedFor settings [.call (.pool n) conn .isClosed (.ok false)]
  | pinged (count : Nat) {clear} (due : settings.pingEnabled ∧ settings.pingAfter ≤ unusedFor)
      (clearing : Clearing n conn clear) : Vetting n conn unusedFor settings
        (clear ++ [.call (.pool n) conn (.execute settings.pingQuery) (.ok count),
          .call (.pool n) conn .isClosed (.ok false)])

def Vetted (n conn unusedFor : Nat) (settings : Settings) (before after : List Event) : Prop :=
  ∃ newer vet older, after = newer ++ vet ++ older ∧ before <:+ older ∧
    Vetting n conn unusedFor settings vet

theorem Vetted.later {n conn unusedFor : Nat} {settings : Settings}
    {before after later : List Event} (vetted : Vetted n conn unusedFor settings before after)
    (grows : after <:+ later) : Vetted n conn unusedFor settings before later := by
  obtain ⟨newer,vet,older,written,within,vetting⟩ := vetted
  obtain ⟨newest,rfl⟩ := grows
  exact ⟨newest ++ newer,vet,older,by simp [written],within,vetting⟩

namespace Shared
variable {σ : Type} {P : Platform σ} {n conn unusedFor pool : Nat} {settings : Settings}
  {s t : Shared σ} {caller : Caller} {request : Request} {ok : Event → Prop} {fits : Request → Prop}

abbrev Plainly (s t : Shared σ) : Prop := s.Writes (fun event => event.isQuery = false) t

theorem notifyPlain (s : Shared σ) (pool : Nat) : s.Plainly (s.notify pool) := .one rfl

theorem Writes.suffix (writes : s.Writes ok t) : s.journal <:+ t.journal := by
  obtain ⟨new,grown,_⟩ := writes
  exact ⟨new,grown.symm⟩

theorem Speaks.writes (speaks : s.Speaks fits P caller conn t)
    (calls : ∀ request reply, fits request → ok (.call caller conn request reply)) :
    s.Writes ok t := by
  induction speaks with
  | silent => exact .nothing rfl
  | ask _ request fit ih => exact ih.trans (.one (calls request _ fit))

theorem mildPlain (speaks : s.Speaks Request.Mild P caller conn t) : s.Plainly t := by
  refine speaks.writes fun request reply mild => ?_
  cases caller <;> cases request <;> first | rfl | exact mild.elim

theorem Disposes.plainly (disposes : s.Disposes P pool conn t) : s.Plainly t := by
  cases disposes with
  | shut asked => exact (mildPlain (.asked asked trivial)).trans (.one rfl)
  | closes asked unsure cleared =>
    have told := (mildPlain (.asked asked trivial)).trans (mildPlain cleared)
    exact told.trans ⟨[_,_],rfl,by simp [Event.isQuery]⟩

theorem askedJournal {reply : Except Cause request.Reply}
    (asked : s.ask P caller conn request = (reply,t)) :
    t.journal = .call caller conn request reply :: s.journal := by
  obtain ⟨rfl,rfl⟩ := Prod.mk.inj asked
  rfl

theorem clearedClearing
    (cleared : s.rollbackUnlessAutoCommit P (.pool n) conn = (.ok (),t)) :
    ∃ clear, Clearing n conn clear ∧ t.journal = clear ++ s.journal := by
  unfold rollbackUnlessAutoCommit at cleared
  rcases asked : s.ask P (.pool n) conn .autoCommit with ⟨reply,u⟩
  rw [asked] at cleared
  match reply with
  | .error _ => cases cleared
  | .ok true =>
    cases cleared
    exact ⟨_,.idle,askedJournal asked⟩
  | .ok false =>
    have again := askedJournal cleared
    rw [askedJournal asked] at again
    exact ⟨_,.rolledBack,again⟩

theorem passedPing {sql : String} (ping : s.ping P (.pool n) conn sql = (.ok (),t)) :
    ∃ count clear, Clearing n conn clear ∧
      t.journal = clear ++ .call (.pool n) conn (.execute sql) (.ok count) :: s.journal := by
  unfold Shared.ping at ping
  rcases executed : s.ask P (.pool n) conn (.execute sql) with ⟨reply,u⟩
  rw [executed] at ping
  match reply with
  | .error _ => cases ping
  | .ok count =>
    obtain ⟨clear,clearing,written⟩ := clearedClearing ping
    exact ⟨count,clear,clearing,by rw [written,askedJournal executed]⟩

theorem Checks.vetting (checks : s.Checks P (.pool n) conn unusedFor settings true t) :
    ∃ vet, Vetting n conn unusedFor settings vet ∧ t.journal = vet ++ s.journal := by
  cases checks with
  | early asked early => exact ⟨_,.early early,askedJournal asked⟩
  | passed asked due ping =>
    obtain ⟨count,clear,clearing,written⟩ := passedPing ping
    refine ⟨_,.pinged count due clearing,?_⟩
    rw [written,askedJournal asked,List.append_assoc]
    rfl

theorem Checks.queries {healthy : Bool}
    (checks : s.Checks P (.pool n) conn unusedFor settings healthy t)
    (plain : ∀ event, event.isQuery = false → ok event)
    (ping : settings.pingEnabled ∧ settings.pingAfter ≤ unusedFor →
      ∀ reply, ok (.call (.pool n) conn (.execute settings.pingQuery) reply)) : s.Writes ok t := by
  have opened {reply : Except Cause Bool} {u : Shared σ}
      (asked : s.ask P (.pool n) conn .isClosed = (reply,u)) : s.Writes ok u :=
    ⟨[_],askedJournal asked,by simpa using plain _ rfl⟩
  have pings {reply : Except Cause Unit} {u v : Shared σ}
      (due : settings.pingEnabled ∧ settings.pingAfter ≤ unusedFor)
      (pinged : u.ping P (.pool n) conn settings.pingQuery = (reply,v)) : u.Writes ok v := by
    unfold Shared.ping at pinged
    rcases executed : u.ask P (.pool n) conn (.execute settings.pingQuery) with ⟨answer,w⟩
    have first : u.Writes ok w := ⟨[_],askedJournal executed,by simpa using ping due _⟩
    rw [executed] at pinged
    match answer with
    | .error _ => cases pinged; exact first
    | .ok _ => exact first.trans ((mildPlain ((rollbackSpeaks ..).ends pinged)).imp plain)
  cases checks with
  | shut asked => exact opened asked
  | early asked => exact opened asked
  | passed asked due pinged => exact (opened asked).trans (pings due pinged)
  | failed asked due pinged =>
    exact ((opened asked).trans (pings due pinged)).trans (.one (plain _ rfl))

end Shared

namespace Pool
variable {σ : Type}

def Unused (p : Pool) (s : Shared σ) (conn unusedFor : Nat) : Prop :=
  (∃ x ∈ p.tracked, x.conn = conn ∧ unusedFor = x.unusedFor s.now) ∨
    (s.opened ≤ conn ∧ unusedFor = 0)

def MayQuery (p : Pool) (s : Shared σ) (n conn : Nat) (sql : String) : Prop :=
  n = p.number ∧ p.settings.pingEnabled ∧ sql = p.settings.pingQuery ∧
    ∃ unusedFor, p.Unused s conn unusedFor ∧ p.settings.pingAfter ≤ unusedFor

def Polite (p : Pool) (s : Shared σ) : Event → Prop
  | .call (.pool n) conn (.execute sql) _ => p.MayQuery s n conn sql
  | _ => True

def Readies (p : Pool) (s : Shared σ) (x : Wrapper) (t : Shared σ) : Prop :=
  x.lastUsedAt = s.now ∧ ∃ unusedFor, p.Unused s x.conn unusedFor ∧
    Vetted p.number x.conn unusedFor p.settings s.journal t.journal

structure Minds (p : Pool) (s : Shared σ) (q : Pool) (t : Shared σ) : Prop where
  writes : s.Writes (p.Polite s) t
  lent : ∀ x ∈ q.active, x ∈ p.active ∨ p.Readies s x t
  kept : ∀ x ∈ q.idle, x ∈ p.idle ∨ p.Readies s x t

structure Roams (p : Pool) (s : Shared σ) (q : Pool) (t : Shared σ) : Prop where
  alike : p.Alike q
  acts : Acts p s q t
  writes : s.Writes (p.Polite s) t
  lent : q.active ⊆ p.active
  kept : q.idle ⊆ p.idle

variable {P : Platform σ} {p q q' : Pool} {s t u : Shared σ} {w x : Wrapper} {healthy : Bool}

theorem politePlain {event : Event} (plain : event.isQuery = false) : p.Polite s event := by
  cases event with
  | call caller conn request reply =>
    cases caller <;> cases request <;> trivial
  | _ => trivial

theorem plainPolite (writes : t.Plainly u) :
    t.Writes (p.Polite s) u :=
  writes.imp fun _ => politePlain

theorem ownUnused (member : x ∈ p.tracked) : p.Unused s x.conn (x.unusedFor s.now) :=
  .inl ⟨x,member,rfl,rfl⟩

namespace Roams

theorem leaves (roams : Roams p s q t) (writes : t.Plainly u)
    (lent : q'.active = q.active) (kept : q'.idle = q.idle) : Minds p s q' u where
  writes := roams.writes.trans (plainPolite writes)
  lent _ member := .inl (roams.lent (lent ▸ member))
  kept _ member := .inl (roams.kept (kept ▸ member))

theorem start (p : Pool) (s : Shared σ) : Roams p s p s :=
  ⟨.same p,.same p s,.nothing rfl,List.Subset.refl _,List.Subset.refl _⟩

theorem member (roams : Roams p s q t) (member : x ∈ q.tracked) : x ∈ p.tracked := by
  rcases List.mem_append.mp member with kept | lent
  · exact List.mem_append_left _ (roams.kept kept)
  · exact List.mem_append_right _ (roams.lent lent)

theorem plainly (roams : Roams p s q t) (alike : p.Alike q') (acts : Acts p s q' u)
    (writes : t.Plainly u) (lent : q'.active ⊆ q.active)
    (kept : q'.idle ⊆ q.idle) : Roams p s q' u where
  alike := alike
  acts := acts
  writes := roams.writes.trans (plainPolite writes)
  lent := List.Subset.trans lent roams.lent
  kept := List.Subset.trans kept roams.kept

end Roams

theorem inspectPolite (number : q.number = p.number) (settings : q.settings = p.settings)
    (now : t.now = s.now) (unused : p.Unused s w.conn (w.unusedFor s.now))
    (found : q.inspect P w t = (healthy,u)) : t.Writes (p.Polite s) u := by
  rcases inspectCases found with ⟨_,checks⟩ | ⟨_,_,same⟩
  · rw [number,settings,now] at checks
    exact checks.queries (fun _ => politePlain) fun due _ => ⟨rfl,due.1,rfl,_,unused,due.2⟩
  · exact .nothing (by rw [same])

theorem inspectVetted (number : q.number = p.number) (settings : q.settings = p.settings)
    (now : t.now = s.now) (within : s.journal <:+ t.journal)
    (found : q.inspect P w t = (true,u)) :
    Vetted p.number w.conn (w.unusedFor s.now) p.settings s.journal u.journal := by
  rcases inspectCases found with ⟨_,checks⟩ | ⟨_,healthy,_⟩
  · rw [number,settings,now] at checks
    obtain ⟨vet,vetting,written⟩ := checks.vetting
    exact ⟨[],vet,t.journal,by rw [written,List.nil_append],within,vetting⟩
  · cases healthy

theorem admitsPolite (number : q.number = p.number) (settings : q.settings = p.settings)
    (now : t.now = s.now) (unused : p.Unused s w.conn (w.unusedFor s.now))
    (admits : q.admits P w t = (healthy,u)) : t.Writes (p.Polite s) u := by
  cases admitsCases admits with
  | unfit found => exact inspectPolite number settings now unused found
  | stuck found cleared | fit found cleared =>
    have inspected := inspectPolite number settings now unused found
    have rolledBack := Shared.mildPlain ((Shared.rollbackSpeaks ..).ends cleared)
    exact inspected.trans (plainPolite rolledBack)

theorem admitsVetted (number : q.number = p.number) (settings : q.settings = p.settings)
    (now : t.now = s.now) (within : s.journal <:+ t.journal) (admits : q.admits P w t = (true,u)) :
    Vetted p.number w.conn (w.unusedFor s.now) p.settings s.journal u.journal := by
  cases admitsCases admits with
  | fit found cleared =>
    have vetted := inspectVetted number settings now within found
    exact vetted.later (Shared.mildPlain ((Shared.rollbackSpeaks ..).ends cleared)).suffix

theorem picksPlain {pick : Pick} (picks : Picks P q t pick q' u) :
    t.Plainly u ∧ q'.active ⊆ q.active ∧ q'.idle ⊆ q.idle := by
  cases picks with
  | kept idle => exact ⟨.nothing rfl,List.Subset.refl _,by simp [idle]⟩
  | nothing => exact ⟨.nothing rfl,List.Subset.refl _,List.Subset.refl _⟩
  | refused => exact ⟨⟨[_],rfl,by simp [Event.isQuery]⟩,List.Subset.refl _,List.Subset.refl _⟩
  | @unfit cause outside v idle room connect setUp =>
    have opened : t.Plainly (q.welcome outside t) :=
      ⟨[_],rfl,by simp [Event.isQuery]⟩
    have told := opened.trans (Shared.mildPlain ((Shared.setUpSpeaks ..).ends setUp))
    exact ⟨told.trans (Shared.disposeDisposes ..).plainly,List.Subset.refl _,List.Subset.refl _⟩
  | @fresh outside v idle room connect setUp =>
    have opened : t.Plainly (q.welcome outside t) :=
      ⟨[_],rfl,by simp [Event.isQuery]⟩
    have told := opened.trans (Shared.mildPlain ((Shared.setUpSpeaks ..).ends setUp))
    exact ⟨told.trans ⟨[_],rfl,by simp [Event.isQuery]⟩,List.Subset.refl _,List.Subset.refl _⟩
  | @overdue oldest rest idle full active late =>
    have taken : t.Plainly
        ((t.invalidate oldest).note (.reclaimed q.number oldest (oldest.heldFor t.now))) :=
      ⟨[_],rfl,by simp [Event.isQuery]⟩
    have cleared := taken.trans
      (Shared.mildPlain (Shared.rollbackSpeaks P (.pool q.number) oldest.conn _))
    refine ⟨cleared.trans ⟨[_],rfl,by simp [Event.isQuery]⟩,?_,List.Subset.refl _⟩
    simp [count,active]

theorem picksUnused (roams : Roams p s q t) (picks : Picks P q t (.candidate w) q' u) :
    p.Unused s w.conn (w.unusedFor s.now) := by
  cases picks with
  | kept idle => exact ownUnused (roams.member (by simp [tracked,idle]))
  | @fresh outside v idle room connect setUp =>
    have now : v.now = s.now := ((Shared.setUpTalks ..).ends setUp).books.now.trans roams.acts.now
    refine .inr ⟨roams.acts.opened,?_⟩
    simp [Wrapper.unusedFor,Wrapper.fresh,now]
  | @overdue oldest rest idle full active late =>
    exact .inl ⟨oldest,roams.member (by simp [tracked,active]),rfl,rfl⟩

theorem picksRoams (roams : Roams p s q t) {pick : Pick} (picks : Picks P q t pick q' u) :
    Roams p s q' u := by
  obtain ⟨writes,lent,kept⟩ := picksPlain picks
  exact roams.plainly (roams.alike.trans (picksAlike picks))
    (picksActs roams.alike roams.acts picks).1 writes lent kept

theorem stayRoams (P : Platform σ) {seeker : Seeker} (own : seeker.pool = p.number) (s : Shared σ) :
    StayRule P seeker (Roams p s)
      (fun w q t => Roams p s q t ∧ p.Reaches s w.conn ∧ p.Unused s w.conn (w.unusedFor s.now))
      (fun _ q t => Minds p s q t) where
  finds before picks := ⟨picksRoams before picks,
    (picksActs before.alike before.acts picks).2 _ rfl,picksUnused before picks⟩
  misses before picks := picksRoams before picks
  blocks {q t} before _ bad := by
    have slept : t.Plainly (q.block seeker bad t).2.2 := .one rfl
    unfold block at slept ⊢
    split <;> exact before.leaves slept rfl rfl
  grants {w q t u} holding good := by
    obtain ⟨roams,reaches,unused⟩ := holding
    have number := roams.alike.number
    have settings := roams.alike.settings
    have now : u.now = s.now := ((admitsTalks ..).ends good).books.now.trans roams.acts.now
    have polite := admitsPolite number settings roams.acts.now unused good
    have vetted := admitsVetted number settings roams.acts.now roams.writes.suffix good
    refine ⟨(roams.writes.trans polite).trans (.one trivial),fun x member => ?_,?_⟩
    · rcases List.mem_append.mp member with old | new
      · exact .inl (roams.lent old)
      · obtain rfl := List.mem_singleton.mp new
        exact .inr ⟨now,_,unused,vetted.later (List.suffix_cons ..)⟩
    · exact fun x member => .inl (roams.kept member)
  rejects {w q t u} holding bad := by
    obtain ⟨roams,reaches,unused⟩ := holding
    have rejected := (stayActs P own s).rejects ⟨roams.alike,roams.acts,reaches⟩ bad
    have polite := admitsPolite roams.alike.number roams.alike.settings roams.acts.now unused bad
    have disposed := plainPolite (p := p) (s := s)
      (Shared.disposeDisposes P q.number w.conn ((u.note (.rejected q.number w)).invalidate w)).plainly
    have noted : u.Writes (p.Polite s) ((u.note (.rejected q.number w)).invalidate w) :=
      ⟨[_],rfl,by simp [Polite]⟩
    exact ⟨rejected.1,rejected.2,((roams.writes.trans polite).trans noted).trans disposed,
      roams.lent,roams.kept⟩
  fails before _ := before.leaves (.one rfl) rfl rfl
  overruns before := before.leaves (.nothing rfl) rfl rfl

theorem enterMinds (P : Platform σ) {seeker : Seeker} (own : seeker.pool = p.number)
    (s : Shared σ) : Minds p s (p.enter P seeker s).2.1 (p.enter P seeker s).2.2 := by
  have start := Roams.start p s
  exact (stayRoams P own s).enter (fun _ => start.leaves (.one rfl) rfl rfl) (fun _ => start)

theorem resumeMinds (P : Platform σ) {wait : Wait} (own : wait.seeker.pool = p.number)
    (s : Shared σ) : Minds p s (p.resume P wait s).2.1 (p.resume P wait s).2.2 := by
  have acts := ((Acts.same p s).note (.resumed p.number wait.seeker.ticket (s.now - wait.since)) rfl)
  have rises : Roams p s (p.lingered (s.now - wait.since)) (p.rises wait s) :=
    (Roams.start p s).plainly rfl (acts.lists (List.Subset.refl _)) (.one rfl) (List.Subset.refl _)
      (List.Subset.refl _)
  exact (stayRoams P own s).resume (fun _ => rises.leaves (.one rfl) rfl rfl) (fun _ => rises)

theorem discardPlain (P : Platform σ) (w : Wrapper) (p : Pool) (s : Shared σ) :
    s.Plainly (p.discard P w s).2 := by
  have dead : s.Plainly (s.invalidate w) := .nothing rfl
  exact dead.trans (Shared.disposeDisposes ..).plainly

theorem returnsMinds (own : ∀ x ∈ p.active, x.key = w.key → x = w) (returns : Returns P w p s q t) :
    Minds p s q t := by
  have left : (p.removeActive w).active ⊆ p.active := fun _ => List.mem_of_mem_eraseP
  have unused (lent : p.IsActive w) : p.Unused s w.conn (w.unusedFor s.now) := by
    obtain ⟨x,member,same⟩ := List.mem_map.mp lent
    obtain rfl := own x member same
    exact ownUnused (List.mem_append_right _ member)
  cases returns with
  | stale => exact ⟨.one trivial,fun _ => .inl,fun _ => .inl⟩
  | @unfit u lent found =>
    have polite := inspectPolite rfl rfl rfl (unused lent) found
    have noted : u.Plainly
        (u.note (.returned p.number w false (w.heldFor s.now))) := .one rfl
    have gone := (noted.trans (discardPlain P w (p.removeActive w) _)).trans
      (Shared.notifyPlain _ p.number)
    exact ⟨polite.trans (plainPolite gone),fun _ member => .inl (left member),fun _ => .inl⟩
  | @dropped v u lent found unwelcome =>
    have polite := inspectPolite rfl rfl rfl (unused lent) found
    have noted : v.Plainly
        (v.note (.returned p.number w true (w.heldFor s.now))) := .one rfl
    have told := noted.trans (Shared.mildPlain (droppedSpeaks unwelcome))
    have gone := (told.trans (discardPlain P w (p.removeActive w) _)).trans
      (Shared.notifyPlain _ p.number)
    exact ⟨polite.trans (plainPolite gone),fun _ member => .inl (left member),fun _ => .inl⟩
  | @kept v u lent found welcome cleared =>
    have polite := inspectPolite rfl rfl rfl (unused lent) found
    have vetted := inspectVetted rfl rfl rfl List.suffix_rfl found
    have noted : v.Plainly
        (v.note (.returned p.number w true (w.heldFor s.now))) := .one rfl
    have told := noted.trans (Shared.mildPlain ((Shared.rollbackSpeaks ..).ends cleared))
    have kept : v.Plainly
        (((p.checkIn w s.now).keep w u).2.notify p.number) :=
      told.trans ⟨[_],rfl,by simp [Event.isQuery]⟩
    have now : u.now = s.now := by
      have inspected := ((inspectTalks ..).ends found).books.now
      exact ((Shared.rollbackTalks ..).ends cleared).books.now.trans inspected
    refine ⟨polite.trans (plainPolite kept),fun _ member => .inl (left member),fun x member => ?_⟩
    rcases List.mem_append.mp member with old | new
    · exact .inl old
    · obtain rfl := List.mem_singleton.mp new
      exact .inr ⟨now,_,unused lent,vetted.later kept.suffix⟩

theorem sweepPlain (P : Platform σ) (p : Pool) (s : Shared σ) :
    s.Plainly (p.sweep P s).2 := by
  refine discardAllKeeps (fun _ _ t => s.Plainly t) ?_ (.one rfl)
  intro w _ q t before
  exact before.trans (discardPlain P w q t)

end Pool

namespace World
variable {σ : Type} {P : Platform σ} {Alters : (σ → σ) → Prop} {outside : σ} {w w' w'' : World σ}
  {n m slot : Nat} {p p' q : Pool} {s' : Shared σ} {x : Wrapper} {h : Handle} {a : Move σ}

def Unused (w : World σ) (conn unusedFor : Nat) : Prop :=
  (∃ x ∈ w.tracked, x.conn = conn ∧ unusedFor = x.unusedFor w.shared.now) ∨
    (w.shared.opened ≤ conn ∧ unusedFor = 0)

def MayQuery (w : World σ) (n conn : Nat) (sql : String) : Prop :=
  ∃ p, w.pools[n]? = some p ∧ p.settings.pingEnabled ∧ sql = p.settings.pingQuery ∧
    ∃ unusedFor, w.Unused conn unusedFor ∧ p.settings.pingAfter ≤ unusedFor

def Polite (w : World σ) : Event → Prop
  | .call (.pool n) conn (.execute sql) _ => w.MayQuery n conn sql
  | _ => True

def Readies (w : World σ) (n : Nat) (p : Pool) (x : Wrapper) (w' : World σ) : Prop :=
  w'.shared.now = w.shared.now ∧ x.lastUsedAt = w.shared.now ∧
    ∃ unusedFor, w.Unused x.conn unusedFor ∧
      Vetted n x.conn unusedFor p.settings w.shared.journal w'.shared.journal

structure Minds (w w' : World σ) : Prop where
  now : w.shared.now ≤ w'.shared.now
  opened : w.shared.opened ≤ w'.shared.opened
  writes : w.shared.Writes w.Polite w'.shared
  lent {n : Nat} {p' : Pool} {x : Wrapper} (here : w'.pools[n]? = some p') (member : x ∈ p'.active) :
    ∃ p, w.pools[n]? = some p ∧ (x ∈ p.active ∨ w.Readies n p x w')
  kept {n : Nat} {p' : Pool} {x : Wrapper} (here : w'.pools[n]? = some p') (member : x ∈ p'.idle) :
    ∃ p, w.pools[n]? = some p ∧ (x ∈ p.idle ∨ w.Readies n p x w')

structure Lessens (w w' : World σ) : Prop where
  now : w.shared.now ≤ w'.shared.now
  opened : w.shared.opened ≤ w'.shared.opened
  writes : w.shared.Plainly w'.shared
  lent {n : Nat} {p' : Pool} {x : Wrapper} (here : w'.pools[n]? = some p') (member : x ∈ p'.active) :
    ∃ p, w.pools[n]? = some p ∧ x ∈ p.active
  kept {n : Nat} {p' : Pool} {x : Wrapper} (here : w'.pools[n]? = some p') (member : x ∈ p'.idle) :
    ∃ p, w.pools[n]? = some p ∧ x ∈ p.idle

theorem Lessens.trans (first : w.Lessens w') (second : w'.Lessens w'') : w.Lessens w'' where
  now := Nat.le_trans first.now second.now
  opened := Nat.le_trans first.opened second.opened
  writes := first.writes.trans second.writes
  lent here member := by
    obtain ⟨q,there,had⟩ := second.lent here member
    exact first.lent there had
  kept here member := by
    obtain ⟨q,there,had⟩ := second.kept here member
    exact first.kept there had

theorem politePlain {event : Event} (plain : event.isQuery = false) : w.Polite event := by
  cases event with
  | call caller conn request reply => cases caller <;> cases request <;> trivial
  | _ => trivial

theorem Lessens.minds (lessens : w.Lessens w') : w.Minds w' where
  now := lessens.now
  opened := lessens.opened
  writes := lessens.writes.imp fun _ => politePlain
  lent here member := (lessens.lent here member).imp fun _ => And.imp_right .inl
  kept here member := (lessens.kept here member).imp fun _ => And.imp_right .inl

theorem Readies.later (readies : w.Readies n p x w') (lessens : w'.Lessens w'')
    (same : w''.shared.now = w'.shared.now) : w.Readies n p x w'' := by
  obtain ⟨now,used,unusedFor,unused,vetted⟩ := readies
  exact ⟨same.trans now,used,unusedFor,unused,vetted.later lessens.writes.suffix⟩

theorem Minds.lessen (minds : w.Minds w') (lessens : w'.Lessens w'')
    (same : w''.shared.now = w'.shared.now) : w.Minds w'' where
  now := Nat.le_trans minds.now lessens.now
  opened := Nat.le_trans minds.opened lessens.opened
  writes := minds.writes.trans (lessens.writes.imp fun _ => politePlain)
  lent here member := by
    obtain ⟨q,there,had⟩ := lessens.lent here member
    exact (minds.lent there had).imp fun _ => And.imp_right (.imp_right (·.later lessens same))
  kept here member := by
    obtain ⟨q,there,had⟩ := lessens.kept here member
    exact (minds.kept there had).imp fun _ => And.imp_right (.imp_right (·.later lessens same))

theorem lessensFrame (pools : w'.pools = w.pools) (now : w.shared.now ≤ w'.shared.now)
    (opened : w'.shared.opened = w.shared.opened) (plain : w.shared.Plainly w'.shared) :
    w.Lessens w' where
  now := now
  opened := Nat.le_of_eq opened.symm
  writes := plain
  lent here member := ⟨_,pools ▸ here,member⟩
  kept here member := ⟨_,pools ▸ here,member⟩

theorem lessensPut (here : w.pools[n]? = some p) (lent : p'.active ⊆ p.active)
    (kept : p'.idle ⊆ p.idle) (acts : q.Acts w.shared p' s') (plain : w.shared.Plainly s') :
    w.Lessens (w.put n p' s') where
  now := Nat.le_of_eq acts.now.symm
  opened := acts.opened
  writes := plain
  lent there member := by
    rcases poolAtPut there with ⟨rfl,rfl⟩ | ⟨_,old⟩
    · exact ⟨p,here,lent member⟩
    · exact ⟨_,old,member⟩
  kept there member := by
    rcases poolAtPut there with ⟨rfl,rfl⟩ | ⟨_,old⟩
    · exact ⟨p,here,kept member⟩
    · exact ⟨_,old,member⟩

theorem lessensEmptied (here : w.pools[n]? = some p) (none : p'.tracked = [])
    (acts : q.Acts w.shared p' s') (plain : w.shared.Plainly s') : w.Lessens (w.put n p' s') := by
  obtain ⟨idle,active⟩ := List.append_eq_nil_iff.mp none
  exact lessensPut here (active ▸ List.nil_subset _) (idle ▸ List.nil_subset _) acts plain

theorem lessensFound (none : p.tracked = []) (doors : List (Option Nat)) :
    w.Lessens { w with pools := w.pools ++ [p], doors } := by
  obtain ⟨idle,active⟩ := List.append_eq_nil_iff.mp none
  refine ⟨Nat.le_refl _,Nat.le_refl _,.nothing rfl,?_,?_⟩ <;>
  · intro n r x here member
    simp only [List.getElem?_append] at here
    split at here
    · exact ⟨r,here,member⟩
    · rw [List.mem_singleton.mp (List.mem_of_getElem? here)] at member
      simp_all

theorem lessensLetGo (numbered : w.Numbered) (n : Nat) :
    w.Lessens (w.letGo P n) ∧ (w.letGo P n).shared.now = w.shared.now := by
  rcases letGoCases (P := P) numbered n with ⟨same,_⟩ | ⟨p,_,here,_,swept⟩
  · rw [same]
    exact ⟨lessensFrame rfl (Nat.le_refl _) rfl (.nothing rfl),rfl⟩
  · rw [swept]
    exact ⟨lessensEmptied here (p.sweepTracked P w.shared) (p.sweepActs P w.shared)
      (p.sweepPlain P w.shared),(p.sweepActs P w.shared).now⟩

theorem unusedHere (here : w.pools[n]? = some p) {conn unusedFor : Nat}
    (unused : p.Unused w.shared conn unusedFor) : w.Unused conn unusedFor := by
  rcases unused with ⟨x,member,known⟩ | new
  · exact .inl ⟨x,memTracked.mpr ⟨n,p,here,member⟩,known⟩
  · exact .inr new

theorem politeHere (numbered : w.Numbered) (here : w.pools[n]? = some p) {event : Event}
    (polite : p.Polite w.shared event) : w.Polite event := by
  cases event with
  | call caller conn request reply =>
    cases caller with
    | holder => cases request <;> trivial
    | pool =>
      cases request with
      | execute sql =>
        obtain ⟨own,enabled,query,unusedFor,unused,due⟩ := polite
        exact ⟨p,by rw [own,numbered here,here],enabled,query,unusedFor,unusedHere here unused,due⟩
      | _ => trivial
  | _ => trivial

theorem readiesHere (numbered : w.Numbered) (here : w.pools[n]? = some p)
    (acts : p.Acts w.shared q s') (readies : p.Readies w.shared x s') (slots : List Slot) :
    w.Readies n p x { w.put n q s' with slots } := by
  obtain ⟨used,unusedFor,unused,vetted⟩ := readies
  exact ⟨acts.now,used,unusedFor,unusedHere here unused,numbered here ▸ vetted⟩

theorem mindsPut (numbered : w.Numbered) (here : w.pools[n]? = some p)
    (acts : p.Acts w.shared q s') (minds : p.Minds w.shared q s') (slots : List Slot) :
    w.Minds { w.put n q s' with slots } where
  now := Nat.le_of_eq acts.now.symm
  opened := acts.opened
  writes := minds.writes.imp fun _ => politeHere numbered here
  lent there member := by
    rcases poolAtPut (s := s') there with ⟨rfl,rfl⟩ | ⟨_,old⟩
    · have fresh := (minds.lent _ member).imp_right (readiesHere numbered here acts · slots)
      exact ⟨p,here,fresh⟩
    · exact ⟨_,old,.inl member⟩
  kept there member := by
    rcases poolAtPut (s := s') there with ⟨rfl,rfl⟩ | ⟨_,old⟩
    · have fresh := (minds.kept _ member).imp_right (readiesHere numbered here acts · slots)
      exact ⟨p,here,fresh⟩
    · exact ⟨_,old,.inl member⟩

theorem mindsTurn (numbered : w.Numbered) (owned : w.Owned) (turn : Turn P Alters w w') :
    w.Minds w' := by
  cases turn with
  | found => exact Lessens.minds (lessensFound rfl _)
  | noDoor | share | stray | tamper =>
    exact Lessens.minds (lessensFrame rfl (Nat.le_refl _) rfl (.nothing rfl))
  | advance time => exact Lessens.minds (lessensFrame rfl (Nat.le_add_right _ _) rfl (.nothing rfl))
  | ask held live request =>
    exact Lessens.minds
      (lessensFrame rfl (Nat.le_refl _) rfl ⟨[_],rfl,by simp [Event.isQuery]⟩)
  | @leave door n known =>
    have left : w.Lessens { w with doors := w.doors.set door none } :=
      lessensFrame rfl (Nat.le_refl _) rfl (.nothing rfl)
    exact Lessens.minds
      (left.trans (lessensLetGo (w := { w with doors := w.doors.set door none }) numbered n).1)
  | @vacate slot h held spent =>
    have emptied : w.Lessens (w.setSlot slot .empty) :=
      lessensFrame rfl (Nat.le_refl _) rfl (.nothing rfl)
    exact Lessens.minds
      (emptied.trans (lessensLetGo (w := w.setSlot slot .empty) numbered h.pool).1)
  | @get door n p known here =>
    have own : (w.newSeeker door n).pool = p.number := (numbered here).symm
    exact mindsPut numbered here (p.enterActs P own w.shared) (Pool.enterMinds P own w.shared) _
  | @resume index wait p awake here =>
    have own : wait.seeker.pool = p.number := (numbered here).symm
    let stay := p.resume P wait (w.rouse index).shared
    have minds := mindsPut (w := w.rouse index) numbered here
      (p.resumeActs P own (w.rouse index).shared) (Pool.resumeMinds P own (w.rouse index).shared)
      (w.slots.set wait.seeker.ticket (slotAfter wait.seeker.pool stay.1))
    have seated : w.Minds (w.seatResumed P index wait p) :=
      ⟨minds.now,minds.opened,minds.writes,minds.lent,minds.kept⟩
    have left := lessensLetGo (P := P) (w := w.seatResumed P index wait p)
      (numberedResumed numbered here index) wait.seeker.pool
    exact seated.lessen left.1 left.2
  | @renew n p source settings closed known here =>
    let r : Pool := { p with source, settings, closed }
    have closed := (r.sweepPlain P w.shared).trans (Shared.notifyPlain _ (r.sweep P w.shared).1.number)
    exact Lessens.minds (lessensEmptied here (r.sweepTracked P w.shared)
      (r.closeAllActs P w.shared) closed)
  | @tolerance n p count known here =>
    exact Lessens.minds (lessensPut here (List.Subset.refl _) (List.Subset.refl _)
      ((Pool.Acts.same p w.shared).lists (List.Subset.refl _)) (.nothing rfl))
  | @giveBack slot h p held first here =>
    have returns := p.releaseReturns P h.wrapper w.shared
    have own := holderOwns owned held here
    exact mindsPut numbered here (Pool.returnsActs own returns) (Pool.returnsMinds own returns) _

theorem mindsStep (numbered : w.Numbered) (owned : w.Owned) (step : Step P Alters w w') :
    w.Minds w' := by
  cases step with
  | refl => exact Lessens.minds (lessensFrame rfl (Nat.le_refl _) rfl (.nothing rfl))
  | single turn => exact mindsTurn numbered owned turn

theorem mindsDrop (numbered : w.Numbered) (owned : w.Owned) (held : w.handle? slot = some h) :
    w.Minds (w.drop P slot h) := by
  have step : Step P (fun _ => False) w (w.release P slot h) := releaseStep numbered held
  have known : (w.release P slot h).Numbered := numberedTurns numbered step.to_reflTransGen
  have emptied : (w.release P slot h).Lessens ((w.release P slot h).setSlot slot .empty) :=
    lessensFrame rfl (Nat.le_refl _) rfl (.nothing rfl)
  have left := lessensLetGo (P := P) (w := (w.release P slot h).setSlot slot .empty) known h.pool
  exact (mindsStep numbered owned step).lessen (emptied.trans left.1) left.2

theorem mindsMove (attained : Attained P Alters outside w) (a : Move σ)
    (allowed : ∀ change, a = .tamper change → Alters change) : w.Minds (w.move P a) := by
  have numbered := numbered attained
  have owned := everyOwned attained
  by_cases drops : ∃ slot, a = .drop slot
  · obtain ⟨slot,rfl⟩ := drops
    have still : Step P Alters w w := .refl
    exact atSlotCases (mindsStep numbered owned still) fun held => mindsDrop numbered owned held
  · have other : ∀ slot, a ≠ .drop slot := fun slot same => drops ⟨slot,same⟩
    exact mindsStep numbered owned (moveStep numbered a other allowed)

end World
end ConnectionPool
