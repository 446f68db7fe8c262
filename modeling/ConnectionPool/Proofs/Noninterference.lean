import ConnectionPool.Memory
import ConnectionPool.Proofs.Secrecy
/-! The outside in memory keeps the data sources that its connections were opened with, but does not
look at their passwords. -/
namespace ConnectionPool
namespace Memory

def Connection.veil (c : Connection) : Connection := { c with source := c.source.veil }

def Server.veil (server : Server) : Server :=
  { server with connections := server.connections.map Connection.veil }

def Server.alike : Setoid Server := Setoid.ker Server.veil

namespace Connection

theorem veilWhenOpen (c : Connection) (act act' : Except Cause α × Connection)
    (same : act' = act.map id veil) :
    c.veil.whenOpen act' = (c.whenOpen act).map id veil := by
  have opened : c.veil.isOpen = c.isOpen := rfl
  unfold whenOpen
  rw [opened,same]
  split <;> rfl

theorem veilAnswer (c : Connection) (request : Request) :
    c.veil.answer request = (c.answer request).map id veil := by
  cases request with
  | isClosed => rfl
  | close =>
    have fails : c.veil.failClose = c.failClose := rfl
    simp only [answer,fails]
    split <;> rfl
  | rollback =>
    refine veilWhenOpen c _ _ ?_
    have fails : c.veil.failRollback = c.failRollback := rfl
    rw [fails]
    split <;> rfl
  | execute sql =>
    refine veilWhenOpen c _ _ ?_
    have broken : c.veil.broken = c.broken := rfl
    simp only [broken]
    split <;> rfl
  | autoCommit | setAutoCommit | commit | isolation | setIsolation => exact veilWhenOpen c _ _ rfl

theorem veilAnswerOrFault (c : Connection) (request : Request) :
    c.veil.answerOrFault request = (c.answerOrFault request).map id veil := by
  have faults : c.veil.faults = c.faults := rfl
  unfold answerOrFault
  rw [faults]
  rcases strike request.method c.faults with ⟨_ | _,left⟩
  · exact veilAnswer { c with faults := left } request
  · rfl

end Connection

namespace Server

theorem veilConnect (conn : Nat) (source : DataSource) (server : Server) :
    connect conn source.veil server.veil = (connect conn source server).map id veil := by
  have refusing : server.veil.refusing = server.refusing := rfl
  unfold connect
  rw [refusing]
  split
  · rfl
  · refine Prod.ext rfl ?_
    simp only [Prod.map_apply,veil,List.map_append]
    rfl

theorem veilAnswer (conn : Nat) (request : Request) (server : Server) :
    answer conn request server.veil = (answer conn request server).map id veil := by
  have there : server.veil.connections[conn]? =
      (server.connections[conn]?).map Connection.veil := List.getElem?_map ..
  unfold answer
  rw [there]
  cases server.connections[conn]? with
  | none => rfl
  | some c =>
    simp only [Option.map_some,Connection.veilAnswerOrFault]
    refine Prod.ext rfl ?_
    simp only [Prod.map_apply,veil,List.map_set]
    rfl

theorem veilAlter (conn : Nat) {change : Connection → Connection}
    (keeps : ∀ c, (change c).veil = change c.veil) (server : Server) :
    (server.alter conn change).veil = server.veil.alter conn change := by
  have altered : (server.connections.modify conn change).map Connection.veil =
      (server.connections.map Connection.veil).modify conn change := by
    refine List.ext_getElem? fun i => ?_
    rw [List.getElem?_map,List.getElem?_modify,List.getElem?_modify,List.getElem?_map]
    cases server.connections[i]? with
    | none => rfl
    | some c =>
      refine congrArg some ?_
      dsimp only
      split
      · exact keeps c
      · rfl
  exact congrArg (fun connections => { server with connections }) altered

theorem alikeTampered (tampering : Tampering) {server server' : Server}
    (same : alike server server') : alike (server.tamper tampering) (server'.tamper tampering) := by
  have through (server : Server) :
      (server.tamper tampering).veil = server.veil.tamper tampering := by
    cases tampering with
    | kill conn | sever conn | failRollback conn on | failClose conn on | faults conn faults =>
      refine veilAlter conn ?_ server
      exact fun _ => rfl
    | switch => rfl
  exact (through server).trans ((congrArg (tamper · tampering) same).trans (through server').symm)

end Server

theorem platformBlind : platform.Blind Server.alike where
  connects conn source source' o o' sources same := by
    have through := (Server.veilConnect conn source o).symm.trans
      ((congrArg₂ (Server.connect conn) sources same).trans (Server.veilConnect conn source' o'))
    exact Prod.mk.inj through
  answers conn request o o' same := by
    have through := (Server.veilAnswer conn request o).symm.trans
      ((congrArg (Server.answer conn request) same).trans (Server.veilAnswer conn request o'))
    exact Prod.mk.inj through

end Memory

namespace World
variable {σ : Type} {P : Platform σ} {Same : Setoid σ}

structure ReadAlike (text text' : String) : Prop where
  both : (Properties.read text).map (Prod.map DataSource.veil id) =
    (Properties.read text').map (Prod.map DataSource.veil id)
  source : (DataSource.ofProperties text).map DataSource.veil =
    (DataSource.ofProperties text').map DataSource.veil
  settings : Settings.ofProperties text = Settings.ofProperties text'

/-- Two programs get the same answers, are the same to look at after every move, and leave outsides
behind that differ in passwords alone. Building from lists of changes that do is an alike creation. -/
structure RunAlike (P : Platform σ) (Same : Setoid σ) (outside outside' : σ)
    (moves moves' : List (Move σ)) : Prop where
  observed : (initial outside).observe P moves = (initial outside').observe P moves'
  outsides : Same ((initial outside).run P moves).shared.outside
    ((initial outside').run P moves').shared.outside
  texts {text text' : String} (same : Properties.SameText text text') : ReadAlike text text'
  built {changes changes' : List Change}
    (same : changes.map Change.veil = changes'.map Change.veil) :
    Move.Alike Same
      (.create (Change.applyAll changes ({},{})).1 (Change.applyAll changes ({},{})).2)
      (.create (Change.applyAll changes' ({},{})).1 (Change.applyAll changes' ({},{})).2)

/-- Passwords do not show, over an outside to which they make no difference. -/
theorem passwordsDoNotShow (blind : P.Blind Same) {outside outside' : σ}
    (start : Same outside outside') {moves moves' : List (Move σ)}
    (alike : List.Forall₂ (Move.Alike Same) moves moves') :
    RunAlike P Same outside outside' moves moves' := by
  have initials : (initial outside).veil Same = (initial outside').veil Same :=
    congrArg (fun o : Quotient Same => initial o) (Quotient.sound start)
  obtain ⟨seen,left⟩ := observeAlike blind alike (.initial outside) (.initial outside') initials
  constructor
  case observed => exact seen
  case outsides => exact outsidesAlike left
  case texts =>
    intro text text' same
    exact ⟨Properties.readSameText same,DataSource.ofSameText same,Settings.ofSameText same⟩
  case built =>
    intro changes changes' same
    have built := Change.veilAll changes ({},{})
    rw [same,← Change.veilAll changes' ({},{})] at built
    have parts := Prod.mk.inj built
    have settings : (Change.applyAll changes ({},{})).2 = (Change.applyAll changes' ({},{})).2 :=
      parts.2
    rw [settings]
    exact .create _ parts.1

/-- A pool made from a data source and one from a settings text, each with a password; one of them
gets another password while a connection of it is lent. -/
def enrolled (password text next : String) : List (Move Memory.Server) :=
  [.create { url := some "db", password := some password } {},.createFrom text,.get 0,.get 1,
   .configure 0 (.source (.password next)),.release 0,.get 0,.tamper (·.tamper (.kill 0)),
   .release 1]

theorem passwordsDoNotShowEnrolled :
    (initial {}).observe Memory.platform (enrolled "alpha" "url=db;Password=alpha" "beta") =
      (initial {}).observe Memory.platform (enrolled "gamma" "url=db;Password=gamma" "delta") ∧
    ((initial {}).run Memory.platform
        (enrolled "alpha" "url=db;Password=alpha" "beta")).shared.outside ≠
      ((initial {}).run Memory.platform
        (enrolled "gamma" "url=db;Password=gamma" "delta")).shared.outside := by
  have parts : "url=db;Password=alpha".toList.splitOn ';' =
      ["url=db".toList,"Password".toList ++ '=' :: "alpha".toList] := by decide
  have parts' : "url=db;Password=gamma".toList.splitOn ';' =
      ["url=db".toList,"Password".toList ++ '=' :: "gamma".toList] := by decide
  have texts : Properties.SameText "url=db;Password=alpha" "url=db;Password=gamma" := by
    rw [Properties.SameText,parts,parts']
    exact .cons (.same _) (.cons (.password (by decide) (by decide) _ _) .nil)
  have alike : List.Forall₂ (Move.Alike Memory.Server.alike)
      (enrolled "alpha" "url=db;Password=alpha" "beta")
      (enrolled "gamma" "url=db;Password=gamma" "delta") :=
    .cons (.create {} rfl) <| .cons (.createFrom texts) <| .cons (.same _ (by simp)) <|
    .cons (.same _ (by simp)) <| .cons (.configure 0 rfl) <| .cons (.same _ (by simp)) <|
    .cons (.same _ (by simp)) <| .cons (.tamper (Memory.Server.alikeTampered (.kill 0))) <|
    .cons (.same _ (by simp)) .nil
  refine ⟨(passwordsDoNotShow Memory.platformBlind (Memory.Server.alike.refl {}) alike).observed,?_⟩
  decide

end World
end ConnectionPool
