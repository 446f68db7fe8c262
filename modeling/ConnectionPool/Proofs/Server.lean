import ConnectionPool.Proofs.News
import ConnectionPool.Memory
/-! What the journal tells of the connections in memory. A connection that is still open has not been
found closed by the newest call on it, nor been closed by it, unless a fault kept the call away. -/
namespace ConnectionPool
namespace Memory

def Closes : Event → Prop
  | .call _ _ .isClosed reply => reply = .ok true
  | .call _ _ .close reply => reply ≠ .error (Connection.struckError .close)
  | _ => False

/-- The newest that happened to a connection is that a pool told it to close in vain, because a fault
struck the call. -/
def CloseStruck (conn : Nat) (journal : List Event) : Prop :=
  ∃ n, newest? conn journal =
    some (.call (.pool n) conn .close (.error (Connection.struckError .close)))

theorem partedStruck {n conn : Nat} {journal : List Event} (parted : Parted n conn journal)
    (stays : ∀ event, newest? conn journal = some event → ¬Closes event) :
    CloseStruck conn journal := by
  rcases parted with closed | ⟨reply,closed⟩
  · exact absurd rfl (stays _ closed)
  · have struck := Classical.not_not.mp (stays _ closed)
    exact ⟨n,struck ▸ closed⟩

namespace Connection

theorem whenOpenKeeps {c : Connection} {act : Except Cause α × Connection}
    (keeps : act.2.isOpen = c.isOpen) : (c.whenOpen act).2.isOpen = c.isOpen := by
  unfold whenOpen
  split
  · exact keeps
  · rfl

theorem answerKeeps (c : Connection) {request : Request} (other : request ≠ .close) :
    (c.answer request).2.isOpen = c.isOpen := by
  cases request with
  | isClosed => rfl
  | close => contradiction
  | rollback | execute =>
    simp only [answer]
    apply whenOpenKeeps
    split <;> rfl
  | autoCommit | setAutoCommit | commit | isolation | setIsolation => exact whenOpenKeeps rfl

theorem answerOpen {c : Connection} {caller : Caller} {conn : Nat} {request : Request}
    (isOpen : (c.answer request).2.isOpen = true) :
    c.isOpen = true ∧ ¬Closes (.call caller conn request (c.answer request).1) := by
  by_cases closing : request = .close
  · subst closing
    simp only [answer] at isOpen
    split at isOpen <;> cases isOpen
  · have before := (c.answerKeeps closing).symm.trans isOpen
    refine ⟨before,?_⟩
    cases request with
    | isClosed => simp [answer,Closes,before]
    | close => contradiction
    | _ => exact id

theorem openAfter {c : Connection} {caller : Caller} {conn : Nat} {request : Request}
    (isOpen : (c.answerOrFault request).2.isOpen = true) :
    c.isOpen = true ∧ ¬Closes (.call caller conn request (c.answerOrFault request).1) := by
  rcases outcome : strike request.method c.faults with ⟨struck,faults⟩
  simp only [answerOrFault,outcome] at isOpen ⊢
  cases struck with
  | true =>
    refine ⟨isOpen,?_⟩
    cases request <;> simp [Closes]
  | false => exact answerOpen (c := { c with faults }) isOpen

end Connection

structure Heard (s : Shared Server) : Prop where
  numbered : s.outside.connections.length = s.opened
  stays {conn : Nat} {c : Connection} (here : s.outside.connections[conn]? = some c)
    (isOpen : c.isOpen = true) {event : Event} (newest : newest? conn s.journal = some event) :
    ¬Closes event

theorem answerElsewhere (server : Server) (conn : Nat) (request : Request) :
    (server.answer conn request).2.connections.length = server.connections.length ∧
    ∀ other, other ≠ conn →
      (server.answer conn request).2.connections[other]? = server.connections[other]? := by
  unfold Server.answer
  split
  · refine ⟨List.length_set,fun other apart => ?_⟩
    exact List.getElem?_set_ne (Ne.symm apart)
  · exact ⟨rfl,fun _ _ => rfl⟩

theorem answerHere {server : Server} {conn : Nat} {request : Request} {c : Connection}
    {caller : Caller} (here : (server.answer conn request).2.connections[conn]? = some c)
    (isOpen : c.isOpen = true) : ¬Closes (.call caller conn request (server.answer conn request).1) := by
  unfold Server.answer at here ⊢
  split at here
  · rename_i before found
    have inside := (List.getElem?_eq_some_iff.mp found).1
    obtain rfl := Option.some.inj ((List.getElem?_set_self inside).symm.trans here)
    exact (Connection.openAfter isOpen).2
  · rename_i missing
    cases missing.symm.trans here

theorem askHeard {s : Shared Server} (heard : Heard s) (caller : Caller) (conn : Nat)
    (request : Request) : Heard (s.ask platform caller conn request).2 := by
  obtain ⟨length,others⟩ := answerElsewhere s.outside conn request
  constructor
  · exact length.trans heard.numbered
  · intro other c here isOpen event newest
    by_cases same : other = conn
    · subst same
      rw [Shared.newestAsked] at newest
      obtain rfl := Option.some.inj newest
      exact answerHere here isOpen
    · rw [(Shared.Talks.one platform caller conn request s).elsewhere same] at newest
      exact heard.stays ((others other same).symm.trans here) isOpen newest

theorem connectRefused {conn : Nat} {source : DataSource} {server outside : Server} {cause : Cause}
    (connect : platform.connect conn source server = (.error cause,outside)) : outside = server := by
  simp only [platform,Server.connect] at connect
  split at connect
  · exact (Prod.mk.inj connect).2.symm
  · cases connect

theorem connectOpened {conn : Nat} {source : DataSource} {server outside : Server}
    (connect : platform.connect conn source server = (.ok (),outside)) :
    ∃ c, outside.connections = server.connections ++ [c] := by
  simp only [platform,Server.connect] at connect
  split at connect
  · cases connect
  · cases connect
    exact ⟨_,rfl⟩

theorem heardEndures : Shared.Endures platform Heard where
  quiet {s t} heard same := by
    constructor
    · rw [same.outside,same.opened]
      exact heard.numbered
    · intro conn c here isOpen event newest
      rw [same.outside] at here
      rw [← newestInNews,same.news,newestInNews] at newest
      exact heard.stays here isOpen newest
  asks heard caller conn request := askHeard heard caller conn request
  refused heard connect := by
    rw [connectRefused connect]
    exact heard
  opens {s source outside} heard n connect := by
    obtain ⟨added,grown⟩ := connectOpened connect
    have length : outside.connections.length = s.opened + 1 := by
      rw [grown,List.length_append,heard.numbered]
      rfl
    constructor
    · exact length
    · intro conn c here isOpen event newest
      by_cases same : conn = s.opened
      · subst same
        simp only [Shared.note,newest?,Event.concerns,List.find?_cons,beq_self_eq_true] at newest
        cases newest
        exact id
      · have known : outside.connections[conn]? = some c := here
        have inside := (List.getElem?_eq_some_iff.mp known).1
        have earlier : conn < s.outside.connections.length := by
          have counted := heard.numbered
          omega
        rw [grown,List.getElem?_append_left earlier] at known
        have old : newest? conn s.journal = some event := by
          simpa [Shared.note,newest?,Event.concerns,Ne.symm same] using newest
        exact heard.stays known isOpen old

def Tampers (change : Server → Server) : Prop := ∃ t : Server.Tampering, change = (·.tamper t)

theorem alterOpen {server : Server} {conn other : Nat} {change : Connection → Connection}
    {c : Connection} (here : (server.alter conn change).connections[other]? = some c)
    (isOpen : c.isOpen = true) (opensNone : ∀ d, (change d).isOpen = true → d.isOpen = true) :
    ∃ d, server.connections[other]? = some d ∧ d.isOpen = true := by
  simp only [Server.alter,List.getElem?_modify] at here
  split at here
  · obtain ⟨d,found,rfl⟩ := Option.map_eq_some_iff.mp here
    exact ⟨d,found,opensNone d isOpen⟩
  · exact ⟨c,by simpa using here,isOpen⟩

theorem tamperOpen {server : Server} (t : Server.Tampering) {conn : Nat} {c : Connection}
    (here : (server.tamper t).connections[conn]? = some c) (isOpen : c.isOpen = true) :
    ∃ d, server.connections[conn]? = some d ∧ d.isOpen = true := by
  cases t with
  | sever other =>
    simp only [Server.tamper] at here
    exact alterOpen here isOpen fun _ closed => absurd closed (by simp)
  | kill | failRollback | failClose | faults =>
    simp only [Server.tamper] at here
    exact alterOpen here isOpen fun _ same => same
  | switch => exact ⟨c,here,isOpen⟩

theorem tamperLength (server : Server) (t : Server.Tampering) :
    (server.tamper t).connections.length = server.connections.length := by
  cases t <;> simp [Server.tamper,Server.alter]

theorem tamperHeard {s : Shared Server} {change : Server → Server} (heard : Heard s)
    (tampers : Tampers change) : Heard { s with outside := change s.outside } := by
  obtain ⟨t,rfl⟩ := tampers
  constructor
  · exact (tamperLength s.outside t).trans heard.numbered
  · intro conn c here isOpen event newest
    obtain ⟨d,before,wasOpen⟩ := tamperOpen t here isOpen
    exact heard.stays before wasOpen newest

theorem everyHeard {server : Server} {w : World Server} (empty : server.connections = [])
    (attained : World.Attained platform Tampers server w) : Heard w.shared := by
  refine World.everyShared heardEndures tamperHeard ?_ attained
  constructor
  · simp [Shared.initial,empty]
  · intro conn c here
    simp [Shared.initial,empty] at here

end Memory
end ConnectionPool
