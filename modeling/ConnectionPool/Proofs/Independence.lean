import ConnectionPool.Proofs.Server
import ConnectionPool.Proofs.Sifting
/-! Pools that share an outside in memory do not show each other. Its connections can be told apart:
each answers by itself, and what is done to one leaves no trace on the others. -/
namespace ConnectionPool

theorem thinModifyIn {α : Type} {inside : Nat → Bool} {i : Nat} (own : inside i = true)
    (f : α → α) (xs : List α) :
    thin inside (xs.modify i f) = (thin inside xs).modify (rank inside i) f := by
  rw [List.modify_eq_set_getElem?,List.modify_eq_set_getElem?,thinAt own]
  cases xs[i]? with
  | none => rfl
  | some x => exact thinSetIn own ..

theorem thinModifyOut {α : Type} {inside : Nat → Bool} {i : Nat} (away : inside i = false)
    (f : α → α) (xs : List α) : thin inside (xs.modify i f) = thin inside xs := by
  rw [List.modify_eq_set_getElem?]
  cases xs[i]? with
  | none => rfl
  | some x => exact thinSetOut away ..

namespace Memory
variable {inside : Nat → Bool} {conn : Nat}

def Server.within (inside : Nat → Bool) (server : Server) : Server :=
  { server with connections := thin inside server.connections }

def rank? (inside : Nat → Bool) (conn : Nat) : Option Nat :=
  if inside conn then some (rank inside conn) else none

def Server.Tampering.within (inside : Nat → Bool) : Tampering → Option Tampering
  | .kill conn => (rank? inside conn).map .kill
  | .sever conn => (rank? inside conn).map .sever
  | .failRollback conn on => (rank? inside conn).map (.failRollback · on)
  | .failClose conn on => (rank? inside conn).map (.failClose · on)
  | .faults conn fs => (rank? inside conn).map (.faults · fs)
  | .switch refuse broken fs => some (.switch refuse broken fs)

namespace Server

theorem alterWithin (inside : Nat → Bool) (conn : Nat) (change : Connection → Connection)
    (server : Server) :
    (server.alter conn change).within inside =
      (rank? inside conn).elim (server.within inside) ((server.within inside).alter · change) := by
  unfold rank?
  cases own : inside conn with
  | true =>
    exact congrArg (fun connections => { server with connections })
      (thinModifyIn own change server.connections)
  | false =>
    exact congrArg (fun connections => { server with connections })
      (thinModifyOut own change server.connections)

theorem tamperWithin (inside : Nat → Bool) (t : Tampering) (server : Server) :
    (server.tamper t).within inside =
      (t.within inside).elim (server.within inside) (server.within inside).tamper := by
  cases t with
  | kill conn | sever conn | failRollback conn | failClose conn | faults conn =>
    refine (alterWithin inside conn _ server).trans ?_
    simp only [Tampering.within]
    cases rank? inside conn <;> rfl
  | switch => rfl

theorem answerWithin (own : inside conn = true) (request : Request) (server : Server) :
    answer (rank inside conn) request (server.within inside) =
      (answer conn request server).map id (Server.within inside) := by
  have there : (server.within inside).connections[rank inside conn]? = server.connections[conn]? :=
    thinAt own _
  unfold answer
  rw [there]
  cases server.connections[conn]? with
  | none => rfl
  | some c =>
    exact congrArg (fun connections => ((c.answerOrFault request).1,{ server with connections }))
      (thinSetIn own ..).symm

theorem answerAside (away : inside conn = false) (request : Request) (server : Server) :
    (answer conn request server).2.within inside = server.within inside := by
  unfold answer
  cases server.connections[conn]? with
  | none => rfl
  | some c =>
    exact congrArg (fun connections => { server with connections }) (thinSetOut away ..)

end Server

theorem countedEndures : Shared.Endures platform fun s =>
    s.outside.connections.length = s.opened where
  quiet counted same := by rw [same.outside,same.opened,counted]
  asks counted caller conn request := (answerElsewhere ..).1.trans counted
  refused counted connect := by rw [connectRefused connect,counted]
  opens {s source outside} counted n connect := by
    obtain ⟨added,grown⟩ := connectOpened connect
    have length : outside.connections.length = s.opened + 1 := by
      rw [grown,List.length_append,counted]
      rfl
    exact length

theorem refusedWithin {source : DataSource} {server after : Server} {cause : Cause}
    (connect : platform.connect conn source server = (.error cause,after)) :
    platform.connect (rank inside conn) source (server.within inside) =
      (.error cause,server.within inside) := by
  have refusing : (server.within inside).refusing = server.refusing := rfl
  simp only [platform,Server.connect,refusing] at connect ⊢
  split at connect
  · rename_i refuses
    rw [if_pos refuses]
    exact congrArg (·,server.within inside) (Prod.mk.inj connect).1
  · cases connect

theorem connectWithin {s : Shared Server} (counted : s.outside.connections.length = s.opened)
    {source : DataSource} {server : Server}
    (connect : platform.connect s.opened source s.outside = (.ok (),server)) :
    if inside s.opened then
      platform.connect (rank inside s.opened) source (s.outside.within inside) =
        (.ok (),server.within inside)
    else server.within inside = s.outside.within inside := by
  simp only [platform,Server.connect] at connect ⊢
  split at connect
  · cases connect
  · rename_i accepting
    obtain rfl := (Prod.mk.inj connect).2
    have open' : (s.outside.within inside).refusing = s.outside.refusing := rfl
    rw [open',if_neg accepting]
    simp only [Server.within,thinAppend,counted]
    cases own : inside s.opened <;> simp

def division (inside : Nat → Bool) : platform.Division inside where
  part := Server.within inside
  Sized s := s.outside.connections.length = s.opened
  Narrows change left :=
    ∃ t : Server.Tampering, change = (·.tamper t) ∧ left = (t.within inside).map fun t server =>
      server.tamper t
  endures := countedEndures
  answers own request o := Server.answerWithin own request o
  ignores away request o := Server.answerAside away request o
  refuses {conn source cause o o'} connect := by
    obtain rfl := connectRefused connect
    exact ⟨refusedWithin connect,rfl⟩
  opens counted connect := connectWithin counted connect
  keeps {change change'} narrows o := by
    obtain ⟨t,rfl,left⟩ := narrows
    obtain ⟨t',same,rfl⟩ := Option.map_eq_some_iff.mp left.symm
    rw [Server.tamperWithin,same]
    rfl
  passes {change} narrows o := by
    obtain ⟨t,rfl,left⟩ := narrows
    rw [Server.tamperWithin,Option.map_eq_none_iff.mp left.symm]
    rfl
  alters {change left} narrows s counted := by
    obtain ⟨t,rfl,_⟩ := narrows
    exact (tamperLength s.outside t).trans counted

end Memory

namespace World
variable {scope : Scope} {w : World Memory.Server}

theorem initialDivided (scope : Scope) (outside : Memory.Server) :
    (initial outside).Divided scope where
  doors there := by cases there
  slots held := by cases held
  handles held := by cases held
  callers member := by cases member
  pools here := by cases here

theorem initialWithin (scope : Scope) {outside : Memory.Server} (fresh : outside.connections = []) :
    (initial outside).within scope (Memory.Server.within scope.conn) = initial outside := by
  have ids : rank scope.id 1 = 1 := rankIn scope.zero
  have connections : outside.within scope.conn = outside := by
    have none : thin scope.conn outside.connections = outside.connections := by rw [fresh,thin]
    exact congrArg (fun connections => { outside with connections }) none
  have shared : (Shared.initial outside).within scope (Memory.Server.within scope.conn) =
      .initial outside :=
    congrArg₂ (fun outside nextId => { Shared.initial outside with nextId }) connections ids
  exact congrArg (fun shared => { initial outside with shared }) shared

/-- What is left of a whole world when only some pools are in view: they are the same to look at, the
same has been called on their connections, and their callers sleep and wake in the same order. -/
structure Remains (scope : Scope) (whole part : World Memory.Server) : Prop where
  divided : whole.Divided scope
  same : part = whole.within scope (Memory.Server.within scope.conn)
  journal : part.shared.journal = scope.events whole.shared.journal
  sights {door : Nat} (mine : scope.door door = true) :
    (part.doorPool? (rank scope.door door)).map (Pool.sight part.shared.now) =
      (whole.doorPool? door).map (Pool.sight whole.shared.now)

/-- The moves left of a program are told what they were told in the whole one, and at whatever instant
of that one looks, there is an instant of what is left of it at which the rest is not missed. The numbers
in view close ranks in their old order. -/
structure Unshown (outside : Memory.Server) (scope : Scope) (moves left : List (Move Memory.Server))
    (told : List (Answer × Sight)) : Prop where
  answers : (initial outside).observe Memory.platform left = told
  moments {before after : List (Move Memory.Server)} (parted : moves = before ++ after) :
    ∃ first rest, left = first ++ rest ∧ Remains scope
      ((initial outside).run Memory.platform before) ((initial outside).run Memory.platform first)
  conns {m n : Nat} (mine : scope.conn m = true) (below : m < n) :
    rank scope.conn m < rank scope.conn n
  ids {m n : Nat} (mine : scope.id m = true) (below : m < n) : rank scope.id m < rank scope.id n

/-- Pools do not show each other. Whichever pools are to be in view, every program on them and on
others can be sifted: all moves on the others are left out, those of their callers, on their handles
and on their connections too. -/
theorem poolsIndependent {outside : Memory.Server} (fresh : outside.connections = [])
    {moves : List (Move Memory.Server)}
    (tampers : ∀ change, .tamper change ∈ moves → Memory.Tampers change) :
    (∀ mine : Nat → Bool, ∃ scope : Scope, scope.pool = mine ∧
      ∃ left told, Sifts (Memory.division scope.conn) (initial outside) moves left told) ∧
    ∀ {scope : Scope} {left : List (Move Memory.Server)} {told : List (Answer × Sight)},
      Sifts (Memory.division scope.conn) (initial outside) moves left told →
        Unshown outside scope moves left told := by
  have numbered := numberedInitial outside
  have counted : (initial outside).shared.outside.connections.length =
      (initial outside).shared.opened := congrArg List.length fresh
  constructor
  · intro mine
    have narrows (change : Memory.Server → Memory.Server) (member : .tamper change ∈ moves)
        (inside : Nat → Bool) : ∃ left, (Memory.division inside).Narrows change left :=
      have ⟨t,same⟩ := tampers change member
      ⟨_,t,same,rfl⟩
    obtain ⟨scope,found,left,told,sifts⟩ := siftsExist Memory.division narrows numbered Nat.one_pos
      { pool := mine, door := fun _ => true, slot := fun _ => true, conn := fun _ => true,
        id := fun _ => true, key := fun _ => true, zero := rfl }
    exact ⟨scope,found.pool,left,told,sifts⟩
  · intro scope left told sifts
    have start := initialDivided scope outside
    have fits : (initial outside).within scope (Memory.division scope.conn).part = initial outside :=
      initialWithin scope fresh
    constructor
    case answers =>
      have seen := (siftedRun sifts start numbered counted).2.1
      rwa [fits] at seen
    case moments =>
      rintro before after rfl
      obtain ⟨first,rest,said,joined,earlier⟩ := sifts.upTo
      obtain ⟨divided,_,ran⟩ := siftedRun earlier start numbered counted
      rw [fits] at ran
      refine ⟨first,rest,joined,divided,ran,?_,fun mine => ?_⟩
      · rw [ran]
        rfl
      · rw [ran]
        exact withinDoorSight divided mine _
    case conns => exact rankBelow
    case ids => exact rankBelow

/-- Two pools for one connection each, on both of which a caller has to wait. The connection of the
second pool breaks before it is given back, so that its caller gets the third one of all. -/
def interleaved : List (Move Memory.Server) :=
  [.create { url := some "db" } { maxActive := 1 },.create { url := some "db" } { maxActive := 1 },
   .get 0,.get 1,.get 0,.get 1,.tamper (·.tamper (.sever 1)),.tamper (·.tamper (.kill 0)),
   .release 0,.release 1,.resume 1,.advance 5]

def secondOfTwo : Scope where
  pool n := n == 1
  door i := i == 1
  slot i := i % 2 == 1
  conn k := k != 0
  id k := k != 1
  key k := k % 2 == 1
  zero := rfl

theorem poolsIndependentInterleaved : ∃ left told,
    Sifts (Memory.division secondOfTwo.conn) (initial {}) interleaved left told ∧
      (initial {}).observe Memory.platform left = told ∧
      told.getLast?.map (·.2.calls) = some ["0 connect","0 is_closed","0 auto_commit",
        "0 is_closed","0 is_closed","1 connect","1 is_closed","1 auto_commit"] := by
  have sifts : Sifts (Memory.division secondOfTwo.conn) (initial {}) interleaved _ _ :=
    .erase (by simp) (by decide) (by decide) <| .keep (by simp) (by decide) (by decide) <|
    .erase (by simp) (by decide) (by decide) <| .keep (by simp) (by decide) (by decide) <|
    .erase (by simp) (by decide) (by decide) <| .keep (by simp) (by decide) (by decide) <|
    .alter ⟨_,rfl,rfl⟩ <| .pass ⟨_,rfl,rfl⟩ <|
    .erase (by simp) (by decide) (by decide) <| .keep (by simp) (by decide) (by decide) <|
    .keep (by simp) (by decide) (by decide) <| .keep (by simp) (by decide) (by decide) .nil
  have tampers : ∀ change, Move.tamper change ∈ interleaved → Memory.Tampers change := by
    intro change member
    simp only [interleaved,List.mem_cons,reduceCtorEq,false_or,Move.tamper.injEq,List.not_mem_nil,
      or_false] at member
    rcases member with rfl | rfl <;> exact ⟨_,rfl⟩
  exact ⟨_,_,sifts,((poolsIndependent rfl tampers).2 sifts).answers,by decide⟩

end World
end ConnectionPool
