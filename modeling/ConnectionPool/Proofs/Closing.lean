import Mathlib.Data.List.Infix
import ConnectionPool.Proofs.Discard
import ConnectionPool.Proofs.Server
/-! In memory, a connection that no fault strikes is closed by its pool once, when it is found bad or
let go of, and not at all if it was closed before the pool found out. -/
namespace ConnectionPool
namespace Memory

def Server.isShut (conn : Nat) (server : Server) : Bool :=
  server.connections[conn]?.any fun c => !c.isOpen

def Struck (conn : Nat) (journal : List Event) : Prop :=
  ∃ caller request, .call caller conn request (.error (Connection.struckError request)) ∈ journal

theorem strikeLength (method : String) (faults : List Fault) :
    (strike method faults).2.length = faults.length := by
  fun_induction strike method faults <;> simp_all

namespace Connection

theorem answerFaults (c : Connection) (request : Request) : (c.answer request).2.faults = c.faults := by
  cases request <;> simp only [answer,whenOpen] <;> split <;> first | rfl | (split <;> rfl)

theorem notStruck {text : String} (request : Request) (start : text.toList.head? ≠ some 'i') :
    Cause.ofText text ≠ struckError request := by
  intro same
  have texts : text = "injected fault: " ++ request.method := congrArg Cause.message same
  refine start ?_
  rw [texts,String.toList_append]
  rfl

theorem answerOwn (c : Connection) (request : Request) :
    (c.answer request).1 ≠ .error (struckError request) := by
  have closed : closedError ≠ struckError request := notStruck request (by decide)
  cases request with
  | isClosed => simp [answer]
  | close =>
    simp only [answer]
    split
    · exact fun same => notStruck _ (by decide) (Except.error.inj same)
    · simp
  | rollback =>
    simp only [answer,whenOpen]
    split
    · split
      · exact fun same => notStruck _ (by decide) (Except.error.inj same)
      · simp
    · exact fun same => closed (Except.error.inj same)
  | execute sql =>
    simp only [answer,whenOpen]
    split
    · split
      · refine fun same => notStruck _ ?_ (Except.error.inj same)
        simp
      · simp
    · exact fun same => closed (Except.error.inj same)
  | autoCommit | setAutoCommit | commit | isolation | setIsolation =>
    simp only [answer,whenOpen]
    split
    · simp
    · exact fun same => closed (Except.error.inj same)

theorem faultlessAfter (c : Connection) (request : Request) :
    (c.answerOrFault request).2.faults = [] ↔ c.faults = [] := by
  have length := strikeLength request.method c.faults
  rcases outcome : strike request.method c.faults with ⟨struck,faults⟩
  rw [outcome] at length
  simp only [answerOrFault,outcome,← List.length_eq_zero_iff,← length]
  cases struck with
  | true => rfl
  | false => exact Eq.congr_left (congrArg _ (answerFaults ..))

theorem faultlessUnstruck {c : Connection} (faultless : c.faults = []) (request : Request) :
    (c.answerOrFault request).1 ≠ .error (struckError request) := by
  simp only [answerOrFault,faultless,strike,Bool.false_eq_true,if_false]
  exact answerOwn _ request

end Connection

/-- No fault waits for a call on the connection. -/
def Server.isSpared (conn : Nat) (server : Server) : Bool :=
  server.connections[conn]?.all fun c => c.faults == []

theorem answerSpared (server : Server) (conn other : Nat) (request : Request) :
    (server.answer other request).2.isSpared conn = server.isSpared conn := by
  by_cases apart : conn = other
  · subst apart
    cases here : server.connections[conn]? with
    | none => simp only [Server.answer,here]
    | some c =>
      have inside := (List.getElem?_eq_some_iff.mp here).1
      rw [Bool.eq_iff_iff]
      simp [Server.answer,Server.isSpared,inside,Connection.faultlessAfter]
  · simp only [Server.isSpared,(answerElsewhere server other request).2 conn apart]

theorem sparedBefore {server outside : Server} {conn other : Nat} {source : DataSource}
    (connect : platform.connect other source server = (.ok (),outside))
    (spared : outside.isSpared conn) : server.isSpared conn := by
  obtain ⟨c,grown⟩ := connectOpened connect
  by_cases inside : conn < server.connections.length
  · simpa [Server.isSpared,grown,List.getElem?_append_left inside] using spared
  · simp [Server.isSpared,List.getElem?_eq_none (Nat.not_lt.mp inside)]

theorem sparedAnswered {server : Server} {conn : Nat} {request : Request}
    (spared : server.isSpared conn) :
    (server.answer conn request).1 ≠ .error (Connection.struckError request) := by
  cases here : server.connections[conn]? with
  | none =>
    simp only [Server.answer,here]
    exact fun same => Connection.notStruck _ (by decide) (Except.error.inj same)
  | some c =>
    simp only [Server.answer,here]
    simp only [Server.isSpared,here,Option.all_some,beq_iff_eq] at spared
    exact Connection.faultlessUnstruck spared request

section Answers
variable {server outside : Server} {conn other : Nat} {request : Request} {source : DataSource}

theorem answerUnstruck (inside : conn < server.connections.length)
    (reached : (server.answer conn request).1 ≠ .error (Connection.struckError request)) :
    ∃ c : Connection, server.isShut conn = !c.isOpen ∧ server.answer conn request =
      ((c.answer request).1,
        { server with connections := server.connections.set conn (c.answer request).2 }) := by
  have here := List.getElem?_eq_getElem inside
  rcases outcome : strike request.method server.connections[conn].faults with ⟨struck,faults⟩
  simp only [Server.answer,here,Connection.answerOrFault,outcome] at reached ⊢
  cases struck with
  | true => exact absurd rfl reached
  | false =>
    refine ⟨{ server.connections[conn] with faults },?_,rfl⟩
    simp [Server.isShut,here]

theorem answerShut (inside : conn < server.connections.length)
    (reached : (server.answer conn request).1 ≠ .error (Connection.struckError request)) :
    (server.answer conn request).2.isShut conn = (server.isShut conn || request == .close) := by
  obtain ⟨c,before,same⟩ := answerUnstruck inside reached
  have after : (server.answer conn request).2.connections[conn]? = some (c.answer request).2 := by
    rw [same]
    exact List.getElem?_set_self inside
  rw [Server.isShut,after,before]
  by_cases closing : request = .close
  · subst closing
    simp only [Connection.answer]
    split <;> simp
  · simp [c.answerKeeps closing,closing]

theorem answerAsked (inside : conn < server.connections.length)
    (reached : (server.answer conn .isClosed).1 ≠ .error (Connection.struckError .isClosed)) :
    (server.answer conn .isClosed).1 = .ok (server.isShut conn) := by
  obtain ⟨c,before,same⟩ := answerUnstruck inside reached
  simp [same,Connection.answer,before]

theorem shutElsewhere (apart : other ≠ conn) :
    (server.answer other request).2.isShut conn = server.isShut conn := by
  simp only [Server.isShut,(answerElsewhere server other request).2 conn (Ne.symm apart)]

theorem connectOpen (connect : platform.connect other source server = (.ok (),outside)) :
    ∃ c, outside.connections = server.connections ++ [c] ∧ c.isOpen = true := by
  simp only [platform,Server.connect] at connect
  split at connect
  · cases connect
  · cases connect
    exact ⟨_,rfl,rfl⟩

theorem shutConnected (connect : platform.connect other source server = (.ok (),outside)) :
    outside.isShut conn = server.isShut conn := by
  obtain ⟨c,grown,isOpen⟩ := connectOpen connect
  simp only [Server.isShut,grown,List.getElem?_append]
  split
  · rfl
  · rename_i beyond
    rw [List.getElem?_eq_none (Nat.not_lt.mp beyond)]
    cases found : [c][conn - server.connections.length]? with
    | none => rfl
    | some d =>
      obtain rfl := List.mem_singleton.mp (List.mem_of_getElem? found)
      simp [isOpen]

theorem shutTampered (server : Server) (t : Server.Tampering)
    (unsevered : t = .sever conn → server.isShut conn) :
    (server.tamper t).isShut conn = server.isShut conn := by
  cases t with
  | sever other =>
    by_cases same : other = conn
    · subst same
      have shut := unsevered rfl
      rw [shut]
      simp only [Server.isShut,Option.any_eq_true] at shut
      obtain ⟨c,here,_⟩ := shut
      simp [Server.tamper,Server.alter,Server.isShut,here]
    · simp [Server.tamper,Server.alter,Server.isShut,same]
  | kill other | failRollback other | failClose other | faults other =>
    simp only [Server.tamper,Server.alter,Server.isShut,List.getElem?_modify]
    split
    · cases server.connections[conn]? <;> rfl
    · simp
  | switch => rfl

end Answers

section Steady
variable {start s t u : Shared Server} {conn other n : Nat} {caller : Caller} {request : Request}
  {stage first : Stage}

structure Steady (conn : Nat) (s t : Shared Server) : Prop where
  spared (unstruck : ¬Struck conn t.journal) : ¬Struck conn s.journal
  shut (unstruck : ¬Struck conn t.journal) : t.outside.isShut conn = s.outside.isShut conn
  closes : poolCloses conn t.journal = poolCloses conn s.journal
  held : holderCloses conn t.journal = holderCloses conn s.journal

theorem Steady.trans (one : Steady conn s t) (two : Steady conn t u) : Steady conn s u where
  spared unstruck := one.spared (two.spared unstruck)
  shut unstruck := (two.shut unstruck).trans (one.shut (two.spared unstruck))
  closes := two.closes.trans one.closes
  held := two.held.trans one.held

theorem struckStory (journal : List Event) : Struck conn (story conn journal) ↔ Struck conn journal := by
  simp [Struck,story,Event.regards]

theorem ignoresSteady (silent : s.Ignores conn t)
    (shut : t.outside.isShut conn = s.outside.isShut conn) : Steady conn s t where
  spared unstruck := by rwa [← struckStory,← storyIgnored silent,struckStory]
  shut _ := shut
  closes := by rw [← poolClosesStory,storyIgnored silent,poolClosesStory]
  held := by rw [← holderClosesStory,storyIgnored silent,holderClosesStory]

theorem discardedSteady (s : Shared Server) (n conn : Nat) :
    Steady conn s (s.note (.discarded n conn)) where
  spared unstruck := by simpa [Struck,Shared.note] using unstruck
  shut _ := rfl
  closes := by simp [Shared.note,poolCloses,Event.closes]
  held := by simp [Shared.note,holderCloses,Event.closesHeld]

theorem welcomeSteady {outside : Server} {source : DataSource} (p : Pool)
    (connect : platform.connect other source s.outside = (.ok (),outside)) :
    Steady conn s (p.welcome outside s) where
  spared unstruck := by simpa [Struck,Pool.welcome,Shared.note] using unstruck
  shut _ := shutConnected connect
  closes := by simp [Pool.welcome,Shared.note,poolCloses,Event.closes]
  held := by simp [Pool.welcome,Shared.note,holderCloses,Event.closesHeld]

theorem askReached (unstruck : ¬Struck conn (s.ask platform caller conn request).2.journal) :
    ¬Struck conn s.journal ∧
      (s.outside.answer conn request).1 ≠ .error (Connection.struckError request) := by
  refine ⟨?_,fun struck => unstruck ⟨caller,request,?_⟩⟩
  · rintro ⟨caller,request,before⟩
    exact unstruck ⟨caller,request,List.mem_cons_of_mem _ before⟩
  · rw [← struck]
    exact List.mem_cons_self

theorem askSteady (inside : conn < s.outside.connections.length) (other : request ≠ .close) :
    Steady conn s (s.ask platform caller conn request).2 where
  spared unstruck := (askReached unstruck).1
  shut unstruck := (answerShut inside (askReached unstruck).2).trans (by simp [other])
  closes := by
    cases caller <;> cases request <;>
      first | exact absurd rfl other | simp [Shared.ask,Shared.note,poolCloses,Event.closes]
  held := by
    cases caller <;> cases request <;>
      first | exact absurd rfl other | simp [Shared.ask,Shared.note,holderCloses,Event.closesHeld]

theorem askLength (s : Shared Server) (caller : Caller) (other : Nat) (request : Request) :
    (s.ask platform caller other request).2.outside.connections.length =
      s.outside.connections.length :=
  (answerElsewhere s.outside other request).1

theorem talksLength (talks : s.Talks platform caller conn t) :
    t.outside.connections.length = s.outside.connections.length := by
  induction talks with
  | silent => rfl
  | ask _ request ih => exact (askLength ..).trans ih

theorem speaksSteady (inside : conn < s.outside.connections.length)
    (speaks : s.Speaks (· ≠ .close) platform caller conn t) : Steady conn s t := by
  induction speaks with
  | silent => exact ignoresSteady (.nothing rfl) rfl
  | ask before request fit ih =>
    rw [← talksLength before.talks] at inside
    exact ih.trans (askSteady inside fit)

theorem toldShut {reply : Bool} (inside : conn < s.outside.connections.length)
    (asked : s.ask platform caller conn .isClosed = (.ok reply,t)) :
    s.outside.isShut conn = reply := by
  have told : (s.outside.answer conn .isClosed).1 = .ok reply := (Prod.mk.inj asked).1
  have right := answerAsked inside (told ▸ nofun)
  exact (Except.ok.inj (told.symm.trans right)).symm

theorem unsureOpen {reply : Except Cause Bool} (inside : conn < s.outside.connections.length)
    (asked : s.ask platform caller conn .isClosed = (reply,t)) (unsure : reply ≠ .ok true)
    (unstruck : ¬Struck conn t.journal) : s.outside.isShut conn = false := by
  have told : (s.outside.answer conn .isClosed).1 = reply := (Prod.mk.inj asked).1
  rw [← (Prod.mk.inj asked).2] at unstruck
  have right := answerAsked inside (askReached unstruck).2
  rw [← told,right] at unsure
  simpa using unsure

theorem poolShuts (inside : conn < s.outside.connections.length) (n : Nat) :
    let t := (s.ask platform (.pool n) conn .close).2
    poolCloses conn t.journal = poolCloses conn s.journal + 1 ∧
      holderCloses conn t.journal = holderCloses conn s.journal ∧
      (¬Struck conn t.journal → ¬Struck conn s.journal ∧ t.outside.isShut conn = true) := by
  refine ⟨?_,?_,fun unstruck => ⟨(askReached unstruck).1,?_⟩⟩
  · simp [Shared.ask,Shared.note,poolCloses,Event.closes]
  · simp [Shared.ask,Shared.note,holderCloses,Event.closesHeld]
  · exact (answerShut inside (askReached unstruck).2).trans (by simp)

end Steady

/-- The connection was closed at the start, or its holder has closed it since. -/
def Forestalled (start s : Shared Server) (conn : Nat) : Prop :=
  start.outside.isShut conn ∨ holderCloses conn start.journal < holderCloses conn s.journal

instance (start s : Shared Server) (conn : Nat) : Decidable (Forestalled start s conn) := by
  unfold Forestalled; infer_instance

def Verdict (forestalled : Prop) (shut : Bool) (closes : Nat) : Stage → Prop
  | .unborn | .had => closes = 0 ∧ (shut ↔ forestalled)
  | .bad => (closes = 0 ∧ (shut ↔ forestalled)) ∨ (closes = 1 ∧ shut ∧ ¬forestalled)
  | .gone => (forestalled → closes = 0) ∧ (¬forestalled → closes = 1)

structure Settles (start : Shared Server) (conn : Nat) (stage : Stage) (s : Shared Server) : Prop where
  numbered : s.outside.connections.length = s.opened
  inside (born : stage ≠ .unborn) : conn < s.opened
  more : holderCloses conn start.journal ≤ holderCloses conn s.journal
  verdict (unstruck : ¬Struck conn s.journal) : Verdict (Forestalled start s conn)
    (s.outside.isShut conn) (poolCloses conn s.journal) stage

def Unsevering (start : Shared Server) (conn : Nat) (change : Server → Server) : Prop :=
  ∃ t : Server.Tampering, change = (·.tamper t) ∧ (t = .sever conn → start.outside.isShut conn)

theorem Unsevering.tampers {start : Shared Server} {conn : Nat} {change : Server → Server}
    (unsevering : Unsevering start conn change) : Tampers change :=
  unsevering.imp fun _ => And.left

namespace Verdict
variable {forestalled : Prop} {shut : Bool} {closes : Nat}

theorem foundShut (bad : Verdict forestalled shut closes .bad) (found : shut = true) :
    Verdict forestalled shut closes .gone := by
  rcases bad with ⟨none,agrees⟩ | ⟨one,_,spared⟩
  · exact ⟨fun _ => none,fun spared => absurd (agrees.mp found) spared⟩
  · exact ⟨fun early => absurd early spared,fun _ => one⟩

theorem foundOpen (bad : Verdict forestalled shut closes .bad) (found : shut = false) :
    closes = 0 ∧ ¬forestalled := by
  subst found
  rcases bad with ⟨none,agrees⟩ | ⟨_,shut,_⟩
  · exact ⟨none,fun early => Bool.false_ne_true (agrees.mpr early)⟩
  · cases shut

theorem stillShut {stage : Stage} (verdict : Verdict forestalled shut closes stage)
    (kept : stage ≠ .gone) (early : forestalled) : shut = true := by
  cases stage with
  | unborn | had => exact verdict.2.mpr early
  | bad =>
    rcases verdict with ⟨_,agrees⟩ | ⟨_,shut,_⟩
    · exact agrees.mpr early
    · exact shut
  | gone => contradiction

theorem forestalledNone {stage : Stage} (verdict : Verdict forestalled shut closes stage)
    (early : forestalled) : closes = 0 := by
  cases stage with
  | unborn | had => exact verdict.1
  | bad => exact verdict.elim And.left fun spared => absurd early spared.2.2
  | gone => exact verdict.1 early

end Verdict

section Settles
variable {start s t u : Shared Server} {conn other n : Nat} {caller : Caller} {request : Request}
  {stage first : Stage} {healthy : Bool}

namespace Settles

theorem steady (settles : Settles start conn stage s) (steady : Steady conn s t)
    (numbered : t.outside.connections.length = t.opened) (opened : s.opened ≤ t.opened) :
    Settles start conn stage t where
  numbered := numbered
  inside born := Nat.lt_of_lt_of_le (settles.inside born) opened
  more := steady.held ▸ settles.more
  verdict unstruck := by
    have before := settles.verdict (steady.spared unstruck)
    rwa [Forestalled,steady.held,steady.shut unstruck,steady.closes]

theorem welcome {p : Pool} {outside : Server} (settles : Settles start conn stage s)
    (connect : platform.connect s.opened p.source s.outside = (.ok (),outside)) :
    Settles start conn stage (p.welcome outside s) := by
  refine settles.steady (welcomeSteady p connect) ?_ (Nat.le_succ _)
  obtain ⟨c,grown,_⟩ := connectOpen connect
  simp [Pool.welcome,Shared.note,grown,settles.numbered]

theorem spoilt (settles : Settles start conn .had s) : Settles start conn .bad s :=
  ⟨settles.numbered,fun _ => settles.inside nofun,settles.more,fun unstruck =>
    .inl (settles.verdict unstruck)⟩

theorem within (settles : Settles start conn stage s) (born : stage ≠ .unborn) :
    conn < s.outside.connections.length :=
  settles.numbered ▸ settles.inside born

theorem speaks (settles : Settles start conn stage s) (born : stage ≠ .unborn)
    (speaks : s.Speaks (· ≠ .close) platform caller conn t) : Settles start conn stage t := by
  have opened := speaks.talks.books.opened
  refine settles.steady (speaksSteady (settles.within born) speaks) ?_ (Nat.le_of_eq opened.symm)
  rw [talksLength speaks.talks,opened,settles.numbered]

theorem held (settles : Settles start conn .had s) (key : Nat) (request : Request) :
    Settles start conn .had (s.ask platform (.holder key) conn request).2 := by
  have inside := settles.within nofun
  by_cases closing : request = .close
  · subst closing
    have counted : holderCloses conn (s.ask platform (.holder key) conn .close).2.journal =
        holderCloses conn s.journal + 1 := by
      simp [Shared.ask,Shared.note,holderCloses,Event.closesHeld]
    have spared : poolCloses conn (s.ask platform (.holder key) conn .close).2.journal =
        poolCloses conn s.journal := by
      simp [Shared.ask,Shared.note,poolCloses,Event.closes]
    have more := settles.more
    constructor
    · exact (askLength ..).trans settles.numbered
    · exact fun _ => settles.inside nofun
    · omega
    · intro unstruck
      obtain ⟨before,reached⟩ := askReached unstruck
      have shut := answerShut inside reached
      rw [beq_self_eq_true,Bool.or_true] at shut
      refine ⟨spared.trans (settles.verdict before).1,iff_of_true shut (.inr ?_)⟩
      omega
  · exact settles.speaks nofun (.ask .silent request closing)

theorem closed (settles : Settles start conn stage s) (born : stage ≠ .unborn)
    (isOpen : ¬Struck conn s.journal → poolCloses conn s.journal = 0 ∧ ¬Forestalled start s conn)
    (n : Nat) : Settles start conn .bad (s.ask platform (.pool n) conn .close).2 := by
  obtain ⟨closes,held,shuts⟩ := poolShuts (settles.within born) n
  constructor
  · exact (askLength ..).trans settles.numbered
  · exact fun _ => settles.inside born
  · exact held ▸ settles.more
  · intro unstruck
    obtain ⟨before,shut⟩ := shuts unstruck
    obtain ⟨none,spared⟩ := isOpen before
    refine .inr ⟨closes.trans (by rw [none]),shut,?_⟩
    rwa [Forestalled,held]

theorem checked {unusedFor : Nat} {settings : Settings} (settles : Settles start conn .had s)
    (checks : s.Checks platform (.pool n) conn unusedFor settings healthy t) :
    Settles start conn (.checked healthy) t := by
  cases checks with
  | shut asked => exact (settles.speaks nofun (Shared.checkedOpen asked)).spoilt
  | early asked => exact settles.speaks nofun (Shared.checkedOpen asked)
  | passed asked due ping =>
    exact settles.speaks nofun ((Shared.checkedOpen asked).trans ((Shared.pingSpeaks ..).ends ping))
  | @failed _ u _ asked due ping =>
    have isOpen := toldShut (settles.within nofun) asked
    have pinged := (Shared.checkedOpen asked).trans ((Shared.pingSpeaks ..).ends ping)
    have steady := speaksSteady (settles.within nofun) pinged
    have had := settles.speaks nofun pinged
    refine had.closed nofun (fun unstruck => ?_) n
    obtain ⟨none,agrees⟩ := had.verdict unstruck
    rw [steady.shut unstruck,isOpen] at agrees
    exact ⟨none,fun early => Bool.false_ne_true (agrees.mpr early)⟩

theorem letGo (settles : Settles start conn .bad s)
    (verdict : ¬Struck conn s.journal → Verdict (Forestalled start s conn) (s.outside.isShut conn)
      (poolCloses conn s.journal) .gone) :
    Settles start conn .gone (s.note (.discarded n conn)) := by
  have gone : Settles start conn .gone s :=
    ⟨settles.numbered,fun _ => settles.inside nofun,settles.more,verdict⟩
  exact gone.steady (discardedSteady s n conn) settles.numbered (Nat.le_refl _)

theorem disposed (settles : Settles start conn .bad s) (disposes : s.Disposes platform n conn t) :
    Settles start conn .gone t := by
  have inside := settles.within nofun
  cases disposes with
  | @shut t asked =>
    have told := Shared.checkedOpen asked
    have bad := settles.speaks nofun told
    refine bad.letGo fun unstruck => ?_
    have shut := (speaksSteady inside told).shut unstruck
    rw [toldShut inside asked] at shut
    exact (bad.verdict unstruck).foundShut shut
  | @closes reply t u asked unsure cleared =>
    have told := Shared.checkedOpen asked
    have mild := cleared.imp fun _ => Request.Mild.leavesOpen
    have bad := settles.speaks nofun (told.trans mild)
    have steady := speaksSteady inside (told.trans mild)
    have later := speaksSteady (talksLength told.talks ▸ inside) mild
    have closed := bad.closed nofun (fun unstruck => ?_) n
    · refine closed.letGo fun unstruck => (closed.verdict unstruck).foundShut ?_
      exact ((poolShuts (bad.within nofun) n).2.2 unstruck).2
    · -- Had it been shut, it would have said so.
      have isOpen := unsureOpen inside asked unsure (later.spared unstruck)
      exact (bad.verdict unstruck).foundOpen ((steady.shut unstruck).trans isOpen)

end Settles

theorem lifeSettles (life : Life platform (Unsevering start conn) conn first start stage t)
    (numbered : start.outside.connections.length = start.opened)
    (inside : first = .unborn ∨ first = .had ∧ conn < start.opened)
    (unclosed : poolCloses conn start.journal = 0) : Settles start conn stage t := by
  induction life with
  | start =>
    have forestalled : Forestalled start start conn ↔ start.outside.isShut conn := by
      simp [Forestalled]
    refine ⟨numbered,fun born => ?_,Nat.le_refl _,fun _ => ?_⟩
    · rcases inside with rfl | ⟨_,inside⟩
      · exact absurd rfl born
      · exact inside
    · rcases inside with rfl | ⟨rfl,_⟩ <;> exact ⟨unclosed,forestalled.symm⟩
  | quiet before outside opened silent ih =>
    refine ih.steady (ignoresSteady silent (by rw [outside])) ?_ (Nat.le_of_eq opened.symm)
    rw [outside,opened,ih.numbered]
  | @elsewhere stage t before caller other apart request ih =>
    have steady := ignoresSteady (askIgnores platform caller request apart t) (shutElsewhere apart)
    exact ih.steady steady ((askLength ..).trans ih.numbered) (Nat.le_refl _)
  | refused before connect ih => rwa [connectRefused connect]
  | otherOpened before connect apart ih => exact ih.welcome connect
  | opened before connect here ih =>
    have settles := ih.welcome connect
    exact ⟨settles.numbered,fun _ => here ▸ Nat.lt_succ_self _,settles.more,settles.verdict⟩
  | held before key request ih => exact ih.held key request
  | @asked t before n request mild ih =>
    have speaks : t.Speaks (· ≠ .close) platform (.pool n) conn
        (t.ask platform (.pool n) conn request).2 := .ask .silent request mild.leavesOpen
    exact ih.speaks nofun speaks
  | checked before checks ih => exact ih.checked checks
  | spoilt before ih => exact ih.spoilt
  | disposed before disposes ih => exact ih.disposed disposes
  | @altered stage t change before allowed ih =>
    obtain ⟨tampering,rfl,unsevered⟩ := allowed
    refine ⟨(tamperLength ..).trans ih.numbered,ih.inside,ih.more,fun unstruck => ?_⟩
    have verdict := ih.verdict unstruck
    cases stage with
    | gone => exact verdict
    | unborn | had | bad =>
      have same := shutTampered t.outside tampering fun severs =>
        verdict.stillShut nofun (.inl (unsevered severs))
      rwa [same]

end Settles

def StruckOnlyFaulty (conn : Nat) (s : Shared Server) : Prop :=
  s.outside.isSpared conn → ¬Struck conn s.journal

theorem struckNews (conn : Nat) (journal : List Event) :
    Struck conn (news journal) ↔ Struck conn journal := by
  simp [Struck,news,Event.isNews]

theorem faultyEndures (conn : Nat) : Shared.Endures platform (StruckOnlyFaulty conn) where
  quiet {s t} before same spared := by
    rw [← struckNews,same.news,struckNews]
    exact before (same.outside ▸ spared)
  asks {s} before caller other request spared := by
    have earlier : s.outside.isSpared conn := (answerSpared ..).symm.trans spared
    rintro ⟨_,_,member⟩
    rcases List.mem_cons.mp member with now | old
    · obtain ⟨rfl,rfl,rfl,same⟩ := Event.call.inj now
      exact sparedAnswered earlier (eq_of_heq same).symm
    · exact before earlier ⟨_,_,old⟩
  refused before connect := by rwa [connectRefused connect]
  opens before n connect spared := by
    have earlier := before (sparedBefore connect spared)
    simpa [Struck,Shared.note] using earlier

theorem runUnstruck {outside : Server} {w : World Server} {conn : Nat} {moves : List (Move Server)}
    (attained : World.Attained platform Tampers outside w)
    (allowed : ∀ change, .tamper change ∈ moves → Tampers change)
    (spared : ∀ front, front <+: moves → (w.run platform front).shared.outside.isSpared conn)
    (unstruck : ¬Struck conn w.shared.journal) :
    ¬Struck conn (w.run platform moves).shared.journal := by
  induction moves generalizing w with
  | nil => exact unstruck
  | cons a rest ih =>
    have first : ∀ change, a = .tamper change → Tampers change := fun change same =>
      allowed change (same ▸ List.mem_cons_self)
    have turns := World.moveTurns (P := platform) (World.numbered attained) a first
    refine ih (attained.trans turns) ?_ ?_ ?_
    · exact fun change later => allowed change (List.mem_cons_of_mem a later)
    · exact fun front early => spared (a :: front) (List.cons_prefix_cons.mpr ⟨rfl,early⟩)
    · by_cases tampers : ∃ change, a = .tamper change
      · obtain ⟨change,rfl⟩ := tampers
        exact unstruck
      · have quietly : World.Turns platform (fun _ => False) w (w.move platform a) :=
          World.moveTurns (World.numbered attained) a fun change same => tampers ⟨change,same⟩
        have faulty := World.turnsEndure (faultyEndures conn) (fun _ never => never.elim)
          (World.numbered attained) (fun _ => unstruck) quietly
        exact faulty (spared [a] (List.cons_prefix_cons.mpr ⟨rfl,List.nil_prefix⟩))

end Memory

namespace World
variable {server : Memory.Server} {w w' : World Memory.Server} {conn : Nat}

theorem everySettled (empty : server.connections = [])
    (attained : Attained Memory.platform Memory.Tampers server w)
    (kept : ¬Discarded conn w.shared.journal)
    (turns : Turns Memory.platform (Memory.Unsevering w.shared conn) w w') :
    Memory.Settles w.shared conn (w'.stage conn) w'.shared := by
  rcases stageCases attained conn with ⟨discarded,_⟩ | ⟨_,unclosed,inside⟩
  · exact absurd discarded kept
  · have life := everyLife attained (fun _ => Memory.Unsevering.tampers) turns conn
    exact Memory.lifeSettles life (Memory.everyHeard empty attained).numbered inside unclosed

theorem shutUnclosed (empty : server.connections = [])
    (attained : Attained Memory.platform Memory.Tampers server w)
    (turns : Turns Memory.platform Memory.Tampers w w')
    (unstruck : ¬Memory.Struck conn w'.shared.journal) (shut : w.shared.outside.isShut conn) :
    poolCloses conn w'.shared.journal = poolCloses conn w.shared.journal := by
  rcases stageCases attained conn with ⟨_,gone⟩ | ⟨kept,unclosed,_⟩
  · have life := everyLife attained (fun _ => id) turns conn
    rw [gone] at life
    rw [← poolClosesStory,(lifeGone life).2,poolClosesStory]
  · have unsevering : Turns Memory.platform (Memory.Unsevering w.shared conn) w w' :=
      turnsMono (fun _ ⟨t,same⟩ => ⟨t,same,fun _ => shut⟩) turns
    have settled := (everySettled empty attained kept unsevering).verdict unstruck
    exact (settled.forestalledNone (.inl shut)).trans unclosed.symm

theorem closedOnce (empty : server.connections = [])
    (attained : Attained Memory.platform Memory.Tampers server w)
    (turns : Turns Memory.platform (Memory.Unsevering w.shared conn) w w')
    (unstruck : ¬Memory.Struck conn w'.shared.journal) (kept : ¬Discarded conn w.shared.journal)
    (discarded : Discarded conn w'.shared.journal) :
    (Memory.Forestalled w.shared w'.shared conn → poolCloses conn w'.shared.journal = 0) ∧
      (¬Memory.Forestalled w.shared w'.shared conn → poolCloses conn w'.shared.journal = 1) := by
  have reached := attained.trans (turnsMono (fun _ => Memory.Unsevering.tampers) turns)
  have settled := (everySettled empty attained kept turns).verdict unstruck
  rcases stageCases reached conn with ⟨_,gone⟩ | ⟨still,_⟩
  · rwa [gone] at settled
  · exact absurd discarded still

/-- As long as a connection has not been discarded, its pool has not told it to close; once it is shut,
its pool never does; and if it is discarded without having been severed before, its pool has told it to
close once, or never if its holder has closed it. -/
structure ClosesOnce (conn : Nat) (later : List (Move Memory.Server)) (w w' : World Memory.Server) :
    Prop where
  kept (kept : ¬Discarded conn w'.shared.journal) : poolCloses conn w'.shared.journal = 0
  shut (shut : w.shared.outside.isShut conn) :
    poolCloses conn w'.shared.journal = poolCloses conn w.shared.journal
  forestalled (unsevered : ∀ change, .tamper change ∈ later → change ≠ (·.tamper (.sever conn)))
    (before : ¬Discarded conn w.shared.journal) (after : Discarded conn w'.shared.journal)
    (forestalled : Memory.Forestalled w.shared w'.shared conn) :
    poolCloses conn w'.shared.journal = 0
  told (unsevered : ∀ change, .tamper change ∈ later → change ≠ (·.tamper (.sever conn)))
    (before : ¬Discarded conn w.shared.journal) (after : Discarded conn w'.shared.journal)
    (still : ¬Memory.Forestalled w.shared w'.shared conn) :
    poolCloses conn w'.shared.journal = 1

/-- Nothing regards a connection any more once it has been discarded. In memory one that no fault waits
for is closed once. -/
theorem noUseAfterDiscard :
    (∀ {σ : Type} {P : Platform σ} {w : World σ}, w.Reachable P →
      ∀ newer older n conn, w.shared.journal = newer ++ .discarded n conn :: older →
        ∀ event ∈ newer, event.regards conn = false) ∧
    ∀ (server : Memory.Server) (moves later : List (Move Memory.Server)) (conn : Nat),
      server.connections = [] →
      (∀ change, .tamper change ∈ moves ++ later → Memory.Tampers change) →
      (∀ front, front <+: moves ++ later →
        ((initial server).run Memory.platform front).shared.outside.isSpared conn) →
      ClosesOnce conn later ((initial server).run Memory.platform moves)
        (((initial server).run Memory.platform moves).run Memory.platform later) := by
  refine ⟨fun reachable newer older n conn written => ?_,?_⟩
  · obtain ⟨_,attained⟩ := reachableAttained reachable
    exact silentOnceDiscarded attained written
  · intro server moves later conn empty allowed spared
    let w := (initial server).run Memory.platform moves
    let w' := w.run Memory.platform later
    have first : ∀ change, .tamper change ∈ moves → Memory.Tampers change := fun change member =>
      allowed change (List.mem_append_left later member)
    have second : ∀ change, .tamper change ∈ later → Memory.Tampers change := fun change member =>
      allowed change (List.mem_append_right moves member)
    have attained : Attained Memory.platform Memory.Tampers server w := runAttained first .refl
    have reached : Attained Memory.platform Memory.Tampers server w' := runAttained second attained
    have unstruck : ¬Memory.Struck conn w'.shared.journal := by
      have whole := Memory.runUnstruck .refl allowed spared (by simp [Memory.Struck,initial,Shared.initial])
      rwa [runAppend] at whole
    have once (unsevered : ∀ change, .tamper change ∈ later → change ≠ (·.tamper (.sever conn)))
        (before : ¬Discarded conn w.shared.journal) (after : Discarded conn w'.shared.journal) :
        (Memory.Forestalled w.shared w'.shared conn → poolCloses conn w'.shared.journal = 0) ∧
          (¬Memory.Forestalled w.shared w'.shared conn →
            poolCloses conn w'.shared.journal = 1) := by
      refine closedOnce empty attained (turnsRun (numbered attained) later ?_) unstruck before after
      intro change member
      obtain ⟨t,same⟩ := second change member
      refine ⟨t,same,fun severs => ?_⟩
      exact absurd (severs ▸ same) (unsevered change member)
    constructor
    case kept =>
      intro kept
      rcases stageCases reached conn with ⟨discarded,_⟩ | ⟨_,unclosed,_⟩
      · exact absurd discarded kept
      · exact unclosed
    case shut =>
      exact shutUnclosed empty attained (turnsRun (numbered attained) later second) unstruck
    case forestalled => exact fun unsevered before after => (once unsevered before after).1
    case told => exact fun unsevered before after => (once unsevered before after).2

def brokenMoves : List (Move Memory.Server) :=
  [.create {} { pingEnabled := true },.get 0,.get 0,.tamper (·.tamper (.kill 0))]

def returnMoves : List (Move Memory.Server) :=
  [.raw 1 .close,.release 0,.drop 1,.forward 0 .commit]

theorem noUseAfterDiscardBroken :
    let w' := ((initial {}).run Memory.platform brokenMoves).run Memory.platform returnMoves
    (Discarded 0 w'.shared.journal ∧ poolCloses 0 w'.shared.journal = 1) ∧
      (Discarded 1 w'.shared.journal ∧ poolCloses 1 w'.shared.journal = 0) ∧
      ∃ n newer older, w'.shared.journal = newer ++ .discarded n 0 :: older ∧
        ∀ event ∈ newer, event.regards 0 = false := by
  intro w'
  have allowed : ∀ change, .tamper change ∈ brokenMoves ++ returnMoves → Memory.Tampers change := by
    intro change member
    simp only [brokenMoves,returnMoves,List.cons_append,List.nil_append,List.mem_cons,reduceCtorEq,
      List.not_mem_nil,or_false,false_or,Move.tamper.injEq] at member
    exact ⟨_,member⟩
  have unsevered : ∀ conn change, .tamper change ∈ returnMoves →
      change ≠ (·.tamper (.sever conn)) := by simp [returnMoves]
  have spared : ∀ conn < 2, ∀ front, front <+: brokenMoves ++ returnMoves →
      ((initial {}).run Memory.platform front).shared.outside.isSpared conn := by
    simp only [← List.mem_inits]
    decide +kernel
  have closes (conn : Nat) (inside : conn < 2) :=
    noUseAfterDiscard.2 {} brokenMoves returnMoves conn rfl allowed (spared conn inside)
  have discarded : ∀ conn < 2, ¬Discarded conn ((initial {}).run Memory.platform
      brokenMoves).shared.journal ∧ Discarded conn w'.shared.journal := by decide +kernel
  have pinged := (closes 0 (by decide)).told (unsevered 0) (discarded 0 (by decide)).1
    (discarded 0 (by decide)).2 (by decide +kernel)
  have forestalled := (closes 1 (by decide)).forestalled (unsevered 1) (discarded 1 (by decide)).1
    (discarded 1 (by decide)).2 (by decide +kernel)
  obtain ⟨n,member⟩ := (discarded 0 (by decide)).2
  obtain ⟨newer,older,written⟩ := List.append_of_mem member
  refine ⟨⟨⟨n,member⟩,pinged⟩,⟨(discarded 1 (by decide)).2,forestalled⟩,n,newer,older,written,?_⟩
  exact noUseAfterDiscard.1 (reachableRun (reachableRun (.initial _) _) _) newer older n 0 written

end World
end ConnectionPool
