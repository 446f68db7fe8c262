import ConnectionPool.Proofs.Cleared
import ConnectionPool.Proofs.Discard
import ConnectionPool.Proofs.LastUse
/-! Pings from first to last. A connection is pinged right after it said that it is open, the ping is
over before anything else is done, and a connection that fails it is closed at once. -/
namespace ConnectionPool

def Event.queries (conn : Nat) : Event → Bool
  | call (.pool _) other (.execute _) _ => other == conn
  | _ => false

def Event.succeeds : Event → Bool
  | call _ _ _ (.ok _) => true
  | _ => false

inductive FailedPing (n conn : Nat) : List Event → Prop
  | refused (sql : String) (cause : Cause) :
      FailedPing n conn [.call (.pool n) conn (.execute sql) (.error cause)]
  | unsure (sql : String) (count : Nat) (cause : Cause) : FailedPing n conn
      [.call (.pool n) conn .autoCommit (.error cause),.call (.pool n) conn (.execute sql) (.ok count)]
  | stuck (sql : String) (count : Nat) (cause : Cause) : FailedPing n conn
      [.call (.pool n) conn .rollback (.error cause),.call (.pool n) conn .autoCommit (.ok false),
        .call (.pool n) conn (.execute sql) (.ok count)]

inductive Pinged (conn : Nat) (base : List Event) : List Event → Prop
  | start : Pinged conn base base
  | other {event journal} (before : Pinged conn base journal) (silent : event.queries conn = false) :
      Pinged conn base (event :: journal)
  | passed {n journal clear} (before : Pinged conn base journal) (sql : String) (count : Nat)
      (clearing : Clearing n conn clear) :
      Pinged conn base (clear ++ .call (.pool n) conn (.execute sql) (.ok count) ::
        .call (.pool n) conn .isClosed (.ok false) :: journal)
  | failed {n journal failure} (before : Pinged conn base journal) (fails : FailedPing n conn failure)
      (reply : Except Cause Unit) :
      Pinged conn base (.call (.pool n) conn .close reply ::
        (failure ++ .call (.pool n) conn .isClosed (.ok false) :: journal))

namespace Pinged
variable {σ : Type} {P : Platform σ} {Alters : (σ → σ) → Prop} {conn n unusedFor : Nat}
  {base journal : List Event} {s t : Shared σ} {settings : Settings} {healthy : Bool}
  {first stage : Stage}

theorem writes (pinged : Pinged conn base s.journal)
    (silent : s.Writes (fun event => event.queries conn = false) t) : Pinged conn base t.journal := by
  obtain ⟨new,grown,fits⟩ := silent
  rw [grown]
  clear grown
  induction new with
  | nil => exact pinged
  | cons event older ih =>
    exact .other (ih fun other member => fits other (List.mem_cons_of_mem _ member))
      (fits event List.mem_cons_self)

theorem plainly (pinged : Pinged conn base s.journal) (plain : s.Plainly t) :
    Pinged conn base t.journal :=
  pinged.writes <| plain.imp fun event silent => by
    cases event with
    | call caller other request reply =>
      cases caller <;> cases request <;> first | rfl | cases silent
    | _ => rfl

theorem ignores (pinged : Pinged conn base s.journal) (silent : s.Ignores conn t) :
    Pinged conn base t.journal :=
  pinged.writes <| silent.imp fun event silent => by
    cases event with
    | call caller other request reply =>
      cases caller <;> cases request <;> first | rfl | exact silent
    | _ => rfl

theorem failedPing {cause : Cause} {sql : String}
    (ping : s.ping P (.pool n) conn sql = (.error cause,t)) :
    ∃ failure, FailedPing n conn failure ∧ t.journal = failure ++ s.journal := by
  unfold Shared.ping at ping
  rcases executed : s.ask P (.pool n) conn (.execute sql) with ⟨reply,u⟩
  rw [executed] at ping
  have first := Shared.askedJournal executed
  match reply with
  | .error _ =>
    cases ping
    exact ⟨_,.refused sql cause,first⟩
  | .ok count =>
    simp only [Shared.rollbackUnlessAutoCommit] at ping
    rcases asked : u.ask P (.pool n) conn .autoCommit with ⟨mode,v⟩
    rw [asked] at ping
    have second := Shared.askedJournal asked
    rw [first] at second
    match mode with
    | .error _ =>
      cases ping
      exact ⟨_,.unsure sql count cause,second⟩
    | .ok true => cases ping
    | .ok false =>
      have third := Shared.askedJournal ping
      rw [second] at third
      exact ⟨_,.stuck sql count cause,third⟩

theorem checks (pinged : Pinged conn base s.journal)
    (checks : s.Checks P (.pool n) conn unusedFor settings healthy t) :
    Pinged conn base t.journal := by
  cases checks with
  | shut asked | early asked =>
    rw [Shared.askedJournal asked]
    exact pinged.other rfl
  | passed asked due ping =>
    obtain ⟨count,clear,clearing,written⟩ := Shared.passedPing ping
    rw [written,Shared.askedJournal asked]
    exact pinged.passed _ count clearing
  | @failed u v cause asked due ping =>
    obtain ⟨failure,fails,written⟩ := failedPing ping
    rw [Shared.askedJournal asked] at written
    have closed := pinged.failed fails (v.ask P (.pool n) conn .close).1
    rw [← written] at closed
    exact closed

theorem life (life : Life P Alters conn first s stage t) : Pinged conn s.journal t.journal := by
  induction life with
  | start => exact .start
  | quiet _ _ _ silent ih => exact ih.ignores silent
  | @elsewhere stage t before caller other apart request ih =>
    exact ih.ignores (askIgnores P caller request apart t)
  | refused | spoilt | altered => assumption
  | otherOpened | opened => rename_i ih; exact ih.other rfl
  | held before key request ih => exact ih.other rfl
  | @asked t before n request mild ih =>
    have speaks : t.Speaks Request.Mild P (.pool n) conn (t.ask P (.pool n) conn request).2 :=
      .ask .silent request mild
    exact ih.plainly (Shared.mildPlain speaks)
  | checked before checks ih => exact ih.checks checks
  | disposed before disposes ih => exact ih.plainly disposes.plainly

theorem within (pinged : Pinged conn base journal) : base <:+ journal := by
  induction pinged with
  | start => exact List.suffix_rfl
  | other _ _ ih => exact ih.trans (List.suffix_cons ..)
  | @passed n journal clear _ sql count _ ih =>
    exact ih.trans ⟨clear ++ [_,_],List.append_assoc clear [_,_] journal⟩
  | @failed n journal failure _ _ reply ih =>
    exact ih.trans ⟨_ :: (failure ++ [_]),congrArg _ (List.append_assoc failure [_] journal)⟩

end Pinged

section Queries
variable {conn n : Nat} {base journal failure older : List Event} {event : Event}

def Heralded (conn : Nat) (base journal : List Event) : Prop :=
  ∀ newer n sql reply older, journal = newer ++ .call (.pool n) conn (.execute sql) reply :: older →
    base <:+ older → ∃ before, older = .call (.pool n) conn .isClosed (.ok false) :: before ∧
      base <:+ before

namespace Heralded

theorem cons (heralded : Heralded conn base journal) (silent : event.queries conn = false) :
    Heralded conn base (event :: journal) := by
  intro newer n sql reply older whole within
  cases newer with
  | nil =>
    obtain ⟨rfl,_⟩ := List.cons.inj whole
    simp [Event.queries] at silent
  | cons first newer => exact heralded newer n sql reply older (List.cons.inj whole).2 within

theorem query (heralded : Heralded conn base journal) (within : base <:+ journal) (n : Nat)
    (sql : String) (reply : Except Cause Nat) :
    Heralded conn base (.call (.pool n) conn (.execute sql) reply ::
      .call (.pool n) conn .isClosed (.ok false) :: journal) := by
  intro newer m query answer older whole later
  cases newer with
  | nil =>
    obtain ⟨same,rfl⟩ := List.cons.inj whole
    obtain rfl := Caller.pool.inj (Event.call.inj same).1
    exact ⟨journal,rfl,within⟩
  | cons first newer =>
    exact heralded.cons rfl newer m query answer older (List.cons.inj whole).2 later

end Heralded

theorem pingedHeralded (pinged : Pinged conn base journal) : Heralded conn base journal := by
  induction pinged with
  | start =>
    intro newer n sql reply older whole within
    have longer := within.length_le
    simp only [whole,List.length_append,List.length_cons] at longer
    omega
  | other _ silent ih => exact ih.cons silent
  | @passed n journal clear before sql count clearing ih =>
    have queried := ih.query before.within n sql (.ok count)
    cases clearing with
    | idle => exact queried.cons rfl
    | rolledBack => exact (queried.cons rfl).cons rfl
  | @failed n journal failure before fails reply ih =>
    cases fails with
    | refused sql cause => exact (ih.query before.within n sql (.error cause)).cons rfl
    | unsure sql count cause =>
      exact ((ih.query before.within n sql (.ok count)).cons rfl).cons rfl
    | stuck sql count cause =>
      exact (((ih.query before.within n sql (.ok count)).cons rfl).cons rfl).cons rfl

inductive Pending (conn : Nat) : List Event → Prop
  | queried {n sql reply older} : Pending conn (.call (.pool n) conn (.execute sql) reply :: older)
  | asked {n m sql reply older} : Pending conn (.call (.pool n) conn .autoCommit (.ok false) ::
      .call (.pool m) conn (.execute sql) reply :: older)

def Answered (conn : Nat) (journal : List Event) : Prop :=
  ∀ newer n failure older, journal = newer ++ (failure ++ older) → FailedPing n conn failure →
    ∃ newest reply, newer = newest ++ [.call (.pool n) conn .close reply]

theorem failedPending (fails : FailedPing n conn failure) (top : event :: journal = failure ++ older) :
    event.queries conn = true ∨ Pending conn journal := by
  cases fails with
  | refused sql cause =>
    obtain ⟨rfl,_⟩ := List.cons.inj top
    exact .inl (by simp [Event.queries])
  | unsure sql count cause =>
    obtain ⟨_,rfl⟩ := List.cons.inj top
    exact .inr .queried
  | stuck sql count cause =>
    obtain ⟨_,rfl⟩ := List.cons.inj top
    exact .inr .asked

theorem failedQuery (failed : event.queries conn && !event.succeeds) :
    ∃ n sql cause, event = .call (.pool n) conn (.execute sql) (.error cause) := by
  cases event with
  | call caller other request reply =>
    cases caller <;> cases request <;> cases reply <;> simp_all [Event.queries,Event.succeeds]
  | _ => simp [Event.queries] at failed

namespace Answered

theorem cons (answered : Answered conn journal)
    (passes : ∀ n failure older, FailedPing n conn failure → event :: journal ≠ failure ++ older) :
    Answered conn (event :: journal) := by
  intro newer n failure older whole fails
  cases newer with
  | nil => exact absurd whole (passes n failure older fails)
  | cons first newer =>
    obtain ⟨rfl,rest⟩ := List.cons.inj whole
    obtain ⟨newest,reply,rfl⟩ := answered newer n failure older rest fails
    exact ⟨event :: newest,reply,rfl⟩

theorem succeeds (answered : Answered conn journal) (good : event.succeeds) :
    Answered conn (event :: journal) :=
  answered.cons fun n failure older fails top => by
    cases fails <;>
    · obtain ⟨rfl,_⟩ := List.cons.inj top
      cases good

theorem closed (answered : Answered conn journal) (n : Nat) (request : Request)
    (cause : Cause) (reply : Except Cause Unit) : Answered conn (.call (.pool n) conn .close reply ::
      .call (.pool n) conn request (.error cause) :: journal) := by
  intro newer m failure older whole fails
  rcases newer with _ | ⟨first,_ | ⟨second,newer⟩⟩
  · cases fails <;> cases whole
  · obtain ⟨rfl,rest⟩ := List.cons.inj whole
    have own : m = n := by
      cases fails <;> exact (Caller.pool.inj (Event.call.inj (List.cons.inj rest).1).1).symm
    exact ⟨[],reply,by rw [own]; rfl⟩
  · obtain ⟨rfl,tail⟩ := List.cons.inj whole
    obtain ⟨rfl,deeper⟩ := List.cons.inj tail
    obtain ⟨newest,again,rfl⟩ := answered newer m failure older deeper fails
    exact ⟨_ :: _ :: newest,again,rfl⟩

end Answered

theorem pingedAnswered (pinged : Pinged conn [] journal) :
    Answered conn journal ∧ ¬Pending conn journal := by
  -- That no ping is under way keeps what is written next from completing one that fails.
  induction pinged with
  | start =>
    refine ⟨fun newer n failure older whole fails => ?_,nofun⟩
    cases newer <;> cases fails <;> cases whole
  | other before silent ih =>
    refine ⟨ih.1.cons fun n failure older fails top => ?_,fun pending => ?_⟩
    · rcases failedPending fails top with query | pending
      · exact Bool.false_ne_true (silent.symm.trans query)
      · exact ih.2 pending
    · cases pending with
      | queried => simp [Event.queries] at silent
      | asked => exact ih.2 .queried
  | @passed n journal clear before sql count clearing ih =>
    have queried : Answered conn (.call (.pool n) conn (.execute sql) (.ok count) ::
        .call (.pool n) conn .isClosed (.ok false) :: journal) := (ih.1.succeeds rfl).succeeds rfl
    cases clearing with
    | idle => exact ⟨queried.succeeds rfl,nofun⟩
    | rolledBack => exact ⟨(queried.succeeds rfl).succeeds rfl,nofun⟩
  | @failed n journal failure before fails reply ih =>
    have isOpen : Answered conn (.call (.pool n) conn .isClosed (.ok false) :: journal) :=
      ih.1.succeeds rfl
    cases fails with
    | refused sql cause => exact ⟨isOpen.closed n (.execute sql) cause reply,nofun⟩
    | unsure sql count cause =>
      exact ⟨(isOpen.succeeds rfl).closed n .autoCommit cause reply,nofun⟩
    | stuck sql count cause =>
      exact ⟨((isOpen.succeeds rfl).succeeds rfl).closed n .rollback cause reply,nofun⟩

end Queries
namespace World
variable {σ : Type} {P : Platform σ} {Alters : (σ → σ) → Prop} {outside : σ} {w w' : World σ}
  {n slot conn : Nat} {p q : Pool} {s' : Shared σ} {x : Wrapper} {h : Handle} {a : Move σ}
  {newer failure older : List Event}

theorem newHandle (attained : Attained P (fun _ => True) outside w) (vacant : w.handle? slot = none)
    (held : (w.move P a).handle? slot = some h) :
    ∃ p', (w.move P a).pools[h.pool]? = some p' ∧ h.wrapper ∈ p'.active ∧ h.wrapper ∉ w.lentOut := by
  obtain ⟨seeker,p,s,grant⟩ := newGrant attained vacant held
  have lends := (Pool.stayLends P seeker p s).stay
    (Pool.lendsNothing (Nat.le_refl _) (List.Subset.refl _) (List.Subset.refl _))
  rw [grant.granted] at lends
  refine ⟨_,grant.pool,(lends.granted _ rfl).1,fun lent => ?_⟩
  -- Whoever had the wrapper before would have it still, in another slot.
  obtain ⟨m,q,there,member⟩ := memPools.mp lent
  obtain ⟨i,old⟩ := (everyOwned attained).lent there member
  have still := (searchSeated (P := P) attained grant.searches).stays old
  have after := everyOwned (attained.trans (moveTurns (numbered attained) a fun _ _ => trivial))
  obtain rfl := after.apart held still rfl
  cases vacant.symm.trans old

theorem newlyWritten {event : Event} {ok : Event → Prop} (writes : w.shared.Writes ok w'.shared)
    (written : w'.shared.journal = newer ++ event :: older) (within : w.shared.journal <:+ older) :
    ok event := by
  obtain ⟨new,grown,fits⟩ := writes
  obtain ⟨between,rfl⟩ := within
  rw [grown,← List.cons_append,← List.append_assoc] at written
  have split := List.append_cancel_right written
  exact fits event (by simp [split])

theorem closedUntracked (attained : Attained P Alters outside w) {reply : Except Cause Unit}
    (closed : .call (.pool n) conn .close reply ∈ w.shared.journal) : ∀ x ∈ w.tracked, x.conn ≠ conn := by
  rintro x member rfl
  rcases stageCases attained x.conn with ⟨_,gone⟩ | ⟨_,unclosed,_⟩
  · have had : w.stage x.conn = .had := stageHad (List.mem_map_of_mem member)
    cases had.symm.trans gone
  · have called := List.countP_eq_zero.mp unclosed _ closed
    simp [Event.closes] at called

theorem failedForGood (attained : Attained P (fun _ => True) outside w)
    (written : w.shared.journal = newer ++ (failure ++ older)) (fails : FailedPing n conn failure) :
    (∃ newest reply, newer = newest ++ [.call (.pool n) conn .close reply]) ∧
      ∀ later, ∀ x ∈ (w.run P later).tracked, x.conn ≠ conn := by
  have pinged := Pinged.life (everyLife .refl (fun _ => id) attained conn)
  obtain ⟨newest,reply,rfl⟩ := (pingedAnswered pinged).1 newer n failure older written fails
  refine ⟨⟨newest,reply,rfl⟩,fun later => ?_⟩
  have turns : Turns P (fun _ => True) w (w.run P later) :=
    turnsRun (numbered attained) later fun _ _ => trivial
  have grows := (Pinged.life (everyLife attained (fun _ => id) turns conn)).within
  have closed : .call (.pool n) conn .close reply ∈ w.shared.journal := by simp [written]
  exact closedUntracked (attained.trans turns) (grows.subset closed)

/-- A connection that a caller comes by or that a pool takes back has been vetted in the same move;
all that a pool has executed is a ping that is due, right after the connection said that it is open;
a connection that fails it is closed next, and no pool ever has it again. -/
structure Vets (P : Platform σ) (unused : Nat → Nat) (w w' : World σ) : Prop where
  lent {slot : Nat} {h : Handle} (vacant : w.handle? slot = none) (held : w'.handle? slot = some h) :
    ∃ p, w.pools[h.pool]? = some p ∧ Vetted h.pool h.wrapper.conn (unused h.wrapper.conn) p.settings
      w.shared.journal w'.shared.journal
  kept {n : Nat} {p' : Pool} {x : Wrapper} (here : w'.pools[n]? = some p') (member : x ∈ p'.idle) :
    ∃ p, w.pools[n]? = some p ∧ (x ∈ p.idle ∨
      Vetted n x.conn (unused x.conn) p.settings w.shared.journal w'.shared.journal)
  pings {newer older : List Event} {n conn : Nat} {sql : String}
    {reply : Except Cause (Request.execute sql).Reply}
    (written : w'.shared.journal = newer ++ .call (.pool n) conn (.execute sql) reply :: older)
    (within : w.shared.journal <:+ older) :
    (∃ p, w.pools[n]? = some p ∧ p.settings.pingEnabled ∧ sql = p.settings.pingQuery ∧
      p.settings.pingAfter ≤ unused conn) ∧
    ∃ before, older = .call (.pool n) conn .isClosed (.ok false) :: before ∧
      w.shared.journal <:+ before
  fails {newer failure older : List Event} {n conn : Nat}
    (written : w'.shared.journal = newer ++ (failure ++ older)) (failed : FailedPing n conn failure) :
    (∃ newest reply, newer = newest ++ [.call (.pool n) conn .close reply]) ∧
    ∀ later, ∀ x ∈ (w'.run P later).tracked, x.conn ≠ conn

theorem handoversVetted (P : Platform σ) (outside : σ) (moves : List (Move σ)) (a : Move σ) :
    Vets P (unusedFor P outside moves) ((initial outside).run P moves)
      (((initial outside).run P moves).move P a) := by
  let w := (initial outside).run P moves
  let w' := w.move P a
  have start : Attained P (fun _ => True) outside (.initial outside) := .refl
  have attained : Attained P (fun _ => True) outside w := runAttained (fun _ _ => trivial) start
  have turns : Turns P (fun _ => True) w w' := moveTurns (numbered attained) a fun _ _ => trivial
  have minds : w.Minds w' := mindsMove attained a fun _ _ => trivial
  have seen {n : Nat} {p : Pool} {x : Wrapper} (readies : w.Readies n p x w') :
      Vetted n x.conn (unusedFor P outside moves x.conn) p.settings w.shared.journal
        w'.shared.journal := by
    obtain ⟨_,_,_,idle,passed⟩ := readies
    obtain rfl := unusedAfter moves idle
    exact passed
  constructor
  case lent =>
    intro slot h vacant held
    obtain ⟨p',here,lent,new⟩ := newHandle attained vacant held
    obtain ⟨p,there,old | readies⟩ := minds.lent here lent
    · exact absurd (memPools.mpr ⟨h.pool,p,there,old⟩) new
    · exact ⟨p,there,seen readies⟩
  case kept =>
    intro n p' x here kept
    exact (minds.kept here kept).imp fun p => And.imp_right (.imp_right seen)
  case pings =>
    intro newer older n conn sql reply written within
    obtain ⟨p,here,enabled,query,_,idle,due⟩ := newlyWritten minds.writes written within
    obtain rfl := unusedAfter moves idle
    have life := everyLife attained (fun _ => id) turns conn
    exact ⟨⟨p,here,enabled,query,due⟩,
      pingedHeralded (Pinged.life life) newer n sql reply older written within⟩
  case fails =>
    intro newer failure older n conn written fails
    exact failedForGood (attained.trans turns) written fails

def pingMoves : List (Move Memory.Server) :=
  [.create {} { pingEnabled := true, pingAfter := 5 },.get 0,.release 0,.advance 5]

def spoilMoves : List (Move Memory.Server) :=
  pingMoves ++ [.get 0,.advance 5,.tamper (·.tamper (.kill 0))]

theorem handoversVettedPinged :
    let before := (initial {}).run Memory.platform pingMoves
    let spoilt := (initial {}).run Memory.platform spoilMoves
    let after := spoilt.move Memory.platform (.release 1)
    (∃ p, before.pools[0]? = some p ∧ p.settings.pingEnabled ∧ p.settings.pingAfter = 5 ∧
      unusedFor Memory.platform {} pingMoves 0 = 5 ∧ Vetted 0 0 5 p.settings before.shared.journal
        (before.move Memory.platform (.get 0)).shared.journal) ∧
    ∃ n newest reply failure older, FailedPing n 0 failure ∧
      after.shared.journal = newest ++ [.call (.pool n) 0 .close reply] ++ (failure ++ older) ∧
      ∀ later, ∀ x ∈ (after.run Memory.platform later).tracked, x.conn ≠ 0 := by
  intro before spoilt after
  constructor
  · have lent : ((before.move Memory.platform (.get 0)).handle? 1).map
        (fun h => (h.pool,h.wrapper.conn)) = some (0,0) := by decide +kernel
    obtain ⟨h,held,own⟩ := Option.map_eq_some_iff.mp lent
    obtain ⟨pool,conn⟩ := Prod.mk.inj own
    have vacant : before.handle? 1 = none := by decide +kernel
    obtain ⟨p,here,vetted⟩ := (handoversVetted Memory.platform {} pingMoves (.get 0)).lent vacant held
    have unused : unusedFor Memory.platform {} pingMoves 0 = 5 := by decide +kernel
    have known : before.pools[0]?.map (fun p => (p.settings.pingEnabled,p.settings.pingAfter)) =
        some (true,5) := by decide +kernel
    rw [pool] at here
    rw [pool,conn,unused] at vetted
    rw [here] at known
    obtain ⟨enabled,due⟩ := Prod.mk.inj (Option.some.inj known)
    exact ⟨p,here,enabled,due,unused,vetted⟩
  · have fails : after.shared.journal.any (fun event => event.queries 0 && !event.succeeds) := by
      decide +kernel
    obtain ⟨event,member,query⟩ := List.any_eq_true.mp fails
    obtain ⟨newer,older,written⟩ := List.append_of_mem member
    obtain ⟨n,sql,cause,rfl⟩ := failedQuery query
    obtain ⟨⟨newest,reply,rfl⟩,untracked⟩ :=
      (handoversVetted Memory.platform {} spoilMoves (.release 1)).fails written (.refused sql cause)
    exact ⟨n,newest,reply,_,older,.refused sql cause,written,untracked⟩

end World
end ConnectionPool
