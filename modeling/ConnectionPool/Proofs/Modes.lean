import ConnectionPool.Proofs.Cleared
import ConnectionPool.Proofs.Discard
import ConnectionPool.Proofs.Failure
import ConnectionPool.Memory
/-! In which modes a connection is when it is lent for the first time. Its pool has set it up as the
data source says and has since only asked, rolled back and pinged, so it is in the modes that it was
given, provided that setting a mode sets it and that nothing else does. -/
namespace ConnectionPool

def Request.KeepsModes : Request → Prop
  | setAutoCommit _ | setIsolation _ => False
  | _ => True

structure Modes (σ : Type) where
  autoCommit : Nat → σ → Bool
  isolation : Nat → σ → Isolation

namespace Modes
variable {σ : Type} {P : Platform σ} {modes : Modes σ} {conn : Nat} {source : DataSource}
  {caller : Caller} {s t u : Shared σ}

/-- A connection is in the mode that it says and, once that has worked, in the one it was set to. -/
structure Obeyed (modes : Modes σ) (P : Platform σ) : Prop where
  told {conn s t on} (answer : P.answer conn .autoCommit s = (.ok on,t)) :
    modes.autoCommit conn s = on
  setAutoCommit {conn on s t} (answer : P.answer conn (.setAutoCommit on) s = (.ok (),t)) :
    modes.autoCommit conn t = on
  setIsolation {conn level s t} (answer : P.answer conn (.setIsolation level) s = (.ok (),t)) :
    modes.isolation conn t = level
  keepsAutoCommit {request : Request} (other : ∀ on, request ≠ .setAutoCommit on) (conn : Nat)
    (s : σ) : modes.autoCommit conn (P.answer conn request s).2 = modes.autoCommit conn s
  keepsIsolation {request : Request} (other : ∀ level, request ≠ .setIsolation level) (conn : Nat)
    (s : σ) : modes.isolation conn (P.answer conn request s).2 = modes.isolation conn s

/-- A connection is in the modes that a data source asks for, as far as it asks for any. -/
structure Suit (modes : Modes σ) (source : DataSource) (conn : Nat) (outside : σ) : Prop where
  autoCommit : ∀ on, source.autoCommit = some on → modes.autoCommit conn outside = on
  isolation : ∀ level, source.isolation = some level → modes.isolation conn outside = level

namespace Obeyed
variable (obeyed : modes.Obeyed P)
include obeyed

theorem answered {on : Bool} (asked : s.ask P caller conn .autoCommit = (.ok on,t)) :
    modes.autoCommit conn t.outside = on := by
  obtain ⟨worked,rfl⟩ := Prod.mk.inj asked
  exact (obeyed.keepsAutoCommit (by simp) conn s.outside).trans (obeyed.told (Prod.ext worked rfl))

theorem autoCommitSet {on : Bool} (asked : s.ask P caller conn (.setAutoCommit on) = (.ok (),t)) :
    modes.autoCommit conn t.outside = on := by
  obtain ⟨worked,rfl⟩ := Prod.mk.inj asked
  exact obeyed.setAutoCommit (Prod.ext worked rfl)

theorem autoCommitSetUp {on : Option Bool} {wanted : Bool} (wants : on = some wanted)
    (done : s.setUpAutoCommit P caller conn on = (.ok (),t)) :
    modes.autoCommit conn t.outside = wanted := by
  subst wants
  unfold Shared.setUpAutoCommit at done
  rcases asked : s.ask P caller conn .autoCommit with ⟨reply,u⟩
  rw [asked] at done
  cases reply with
  | error cause => cases done
  | ok current =>
    simp only at done
    split at done
    · rename_i same
      cases done
      exact (obeyed.answered asked).trans same
    · exact obeyed.autoCommitSet done

theorem isolationSetUp {level : Option Isolation}
    (done : s.setUpIsolation P caller conn level = (.ok (),t)) :
    (∀ wanted, level = some wanted → modes.isolation conn t.outside = wanted) ∧
      modes.autoCommit conn t.outside = modes.autoCommit conn s.outside := by
  cases level with
  | none =>
    cases done
    exact ⟨nofun,rfl⟩
  | some level =>
    obtain ⟨worked,rfl⟩ := Prod.mk.inj done
    refine ⟨?_,obeyed.keepsAutoCommit (by simp) conn s.outside⟩
    rintro _ ⟨⟩
    exact obeyed.setIsolation (Prod.ext worked rfl)

theorem setUp (done : s.setUp P caller conn source = (.ok (),t)) :
    modes.Suit source conn t.outside := by
  unfold Shared.setUp at done
  rcases first : s.setUpAutoCommit P caller conn source.autoCommit with ⟨reply,u⟩
  rw [first] at done
  cases reply with
  | error cause => cases done
  | ok =>
    have ⟨level,kept⟩ := obeyed.isolationSetUp done
    exact ⟨fun on wants => kept.trans (obeyed.autoCommitSetUp wants first),level⟩

theorem speaks (suit : modes.Suit source conn s.outside)
    (speaks : s.Speaks Request.KeepsModes P caller conn t) : modes.Suit source conn t.outside := by
  induction speaks with
  | silent => exact suit
  | @ask t _ request keeps ih =>
    have autoCommit : ∀ on, request ≠ .setAutoCommit on := by rintro on rfl; exact keeps
    have isolation : ∀ level, request ≠ .setIsolation level := by rintro level rfl; exact keeps
    exact ⟨fun on wants =>
        (obeyed.keepsAutoCommit autoCommit conn t.outside).trans (ih.autoCommit on wants),
      fun level wants =>
        (obeyed.keepsIsolation isolation conn t.outside).trans (ih.isolation level wants)⟩

end Obeyed
end Modes

namespace Shared
variable {σ : Type} {P : Platform σ} {caller : Caller} {conn : Nat} {s t : Shared σ}

theorem rollbackKeepsModes (done : s.rollbackUnlessAutoCommit P caller conn = (.ok (),t)) :
    s.Speaks Request.KeepsModes P caller conn t :=
  ((rollbackAsks ..).ends done).imp (by simp [Request.KeepsModes])

theorem Checks.keepsModes {unusedFor : Nat} {settings : Settings}
    (checks : s.Checks P caller conn unusedFor settings true t) :
    s.Speaks Request.KeepsModes P caller conn t := by
  cases checks with
  | early asked => exact .asked asked trivial
  | passed asked _ ping =>
    have first : s.Speaks Request.KeepsModes P caller conn _ := .asked asked trivial
    exact first.trans (((pingAsks ..).ends ping).imp (by simp [Request.KeepsModes]))

end Shared

namespace Pool
variable {σ : Type} {P : Platform σ} {modes : Modes σ} {p q : Pool} {w : Wrapper} {s t : Shared σ}
  {seeker : Seeker} {wait : Wait} {x : Wrapper}

theorem admitsKeepsModes (good : p.admits P w s = (true,t)) :
    s.Speaks Request.KeepsModes P (.pool p.number) w.conn t := by
  cases admitsCases good with
  | @fit u _ found cleared =>
    rcases inspectCases found with ⟨_,checks⟩ | ⟨_,unfit,_⟩
    · exact checks.keepsModes.trans (Shared.rollbackKeepsModes cleared)
    · cases unfit

def Ready (modes : Modes σ) (p : Pool) (conn : Nat) (s : Shared σ) : Prop :=
  conn ∈ p.tracked.map Wrapper.conn ∨ modes.Suit p.source conn s.outside

theorem picksReady (obeyed : modes.Obeyed P) (alike : p.Alike q) (had : q.tracked ⊆ p.tracked)
    {q' : Pool} (picks : Picks P q s (.candidate w) q' t) :
    q'.tracked ⊆ p.tracked ∧ p.Ready modes w.conn t := by
  cases picks with
  | @kept w rest idle =>
    rw [tracked,idle,List.cons_append,List.cons_subset] at had
    exact ⟨had.2,.inl (List.mem_map_of_mem had.1)⟩
  | fresh none room connect setUp =>
    have suit := obeyed.setUp setUp
    rw [alike.source] at suit
    exact ⟨had,.inr ⟨suit.autoCommit,suit.isolation⟩⟩
  | @overdue oldest rest none _ active late =>
    rw [tracked,none,active,List.nil_append,List.cons_subset] at had
    refine ⟨?_,.inl (List.mem_map.mpr ⟨oldest,List.mem_append.mpr ?_,rfl⟩)⟩
    · simpa only [tracked,count,none,List.nil_append] using had.2
    · exact List.mem_append.mp had.1

theorem stayReady (obeyed : modes.Obeyed P) (p : Pool) (seeker : Seeker) :
    StayRule P seeker (fun q _ => p.Alike q ∧ q.tracked ⊆ p.tracked)
      (fun w q t => (p.Alike q ∧ q.tracked ⊆ p.tracked) ∧ p.Ready modes w.conn t)
      (fun outcome _ t => ∀ x, outcome = .granted x → p.Ready modes x.conn t) where
  finds before picks :=
    have ready := picksReady obeyed before.1 before.2 picks
    ⟨⟨before.1.trans (picksAlike picks),ready.1⟩,ready.2⟩
  misses before picks := by cases picks <;> exact before
  blocks _ _ _ := nofun
  grants holding good := by
    rintro _ ⟨⟩
    refine holding.2.imp_right fun suit => ?_
    have kept := obeyed.speaks suit (admitsKeepsModes good)
    exact ⟨kept.autoCommit,kept.isolation⟩
  rejects holding _ := ⟨holding.1.1.trans rfl,holding.1.2⟩
  fails _ _ := nofun
  overruns _ := nofun

end Pool

def Event.lends? : Event → Option Nat
  | granted _ _ x _ => some x.conn
  | _ => none

def lendings (journal : List Event) : List Nat := journal.filterMap Event.lends?

section Lendings
variable {σ : Type} {P : Platform σ} {s t : Shared σ} {ok : Event → Prop} {conn : Nat}

theorem memLendings {journal : List Event} :
    conn ∈ lendings journal ↔
      ∃ n ticket x took, .granted n ticket x took ∈ journal ∧ x.conn = conn := by
  rw [lendings,List.mem_filterMap]
  constructor
  · rintro ⟨event,member,lends⟩
    cases event with
    | granted => exact ⟨_,_,_,_,member,Option.some.inj lends⟩
    | _ => cases lends
  · rintro ⟨n,ticket,x,took,member,rfl⟩
    exact ⟨_,member,rfl⟩

theorem Shared.Writes.lendings (writes : s.Writes ok t) :
    lendings s.journal ⊆ lendings t.journal := by
  intro conn member
  obtain ⟨n,ticket,x,took,granted,same⟩ := memLendings.mp member
  exact memLendings.mpr ⟨n,ticket,x,took,writes.keeps granted,same⟩

end Lendings

namespace Pool
variable {σ : Type} {P : Platform σ} {p q : Pool} {s t : Shared σ} {seeker : Seeker}
  {outcome : Outcome} {x : Wrapper}

theorem Tells.lendings (tells : Tells p s seeker outcome q t) :
    lendings s.journal ⊆ lendings t.journal ∧
      ∀ x ∈ q.tracked, x ∈ p.tracked ∨ x.conn ∈ ConnectionPool.lendings t.journal := by
  obtain ⟨noted,written,_⟩ := tells.written
  have writes : s.Writes (fun _ => True) t :=
    ⟨outcome.told p.number seeker s.now ++ noted,written,fun _ _ => trivial⟩
  refine ⟨writes.lendings,fun x member => ?_⟩
  rcases List.mem_append.mp member with kept | lent
  · exact .inl (List.mem_append_left _ (tells.idle kept))
  · refine (tells.active x lent).imp (List.mem_append_right _) fun granted => ?_
    simp [written,granted,Outcome.told,ConnectionPool.lendings,Event.lends?]

end Pool

namespace World
variable {σ : Type} {P : Platform σ} {Alters : (σ → σ) → Prop} {outside : σ} {w w' : World σ}
  {modes : Modes σ} {n slot : Nat} {p q : Pool} {t : Shared σ} {h : Handle} {a : Move σ}

def LentOnce (w : World σ) : Prop := ∀ x ∈ w.tracked, x.conn ∈ lendings w.shared.journal

theorem lentOncePut (slots : List Slot) (lent : w.LentOnce) (here : w.pools[n]? = some p)
    (grows : lendings w.shared.journal ⊆ lendings t.journal)
    (stems : ∀ x ∈ q.tracked, x.conn ∈ p.tracked.map Wrapper.conn ∨ x.conn ∈ lendings t.journal) :
    LentOnce { w.put n q t with slots } := by
  intro x member
  obtain ⟨m,r,there,own⟩ := memTracked.mp member
  rcases poolAtPut (s := t) there with ⟨_,rfl⟩ | ⟨_,before⟩
  · refine (stems x own).elim (fun known => ?_) id
    obtain ⟨y,had,same⟩ := List.mem_map.mp known
    exact same ▸ grows (lent y (memTracked.mpr ⟨n,p,here,had⟩))
  · exact grows (lent x (memTracked.mpr ⟨m,r,before,own⟩))

theorem lentOnceEmptied (slots : List Slot) (lent : w.LentOnce) (here : w.pools[n]? = some p)
    {ok : Event → Prop} (writes : w.shared.Writes ok t) (none : q.tracked = []) :
    LentOnce { w.put n q t with slots } := by
  refine lentOncePut slots lent here writes.lendings fun x member => ?_
  exact absurd (none ▸ member) List.not_mem_nil

theorem lentOnceLetGo (lent : w.LentOnce) (numbered : w.Numbered) (n : Nat) :
    (w.letGo P n).LentOnce := by
  rcases letGoCases (P := P) numbered n with ⟨same,_⟩ | ⟨p,_,here,_,swept⟩
  · rwa [same]
  · rw [swept]
    exact lentOnceEmptied _ lent here (p.sweepUpkeep P w.shared) (p.sweepTracked P w.shared)

theorem lentOnceTurn (numbered : w.Numbered) (owned : w.Owned) (lent : w.LentOnce)
    (turn : Turn P Alters w w') : w'.LentOnce := by
  cases turn with
  | found source valid =>
    intro x member
    refine lent x ?_
    simpa [tracked,Pool.create,Pool.tracked] using member
  | noDoor | share | stray | advance | tamper => exact lent
  | @ask slot h held live request =>
    have talks := Shared.Talks.one P (.holder h.wrapper.key) h.wrapper.conn request w.shared
    have writes : w.shared.Writes (fun _ => True) _ := talks.writes fun _ _ => trivial
    exact fun x member => writes.lendings (lent x member)
  | leave =>
    apply lentOnceLetGo
    · exact lent
    · exact numbered
  | @get door n p known here =>
    have own : (w.newSeeker door n).pool = p.number := (numbered here).symm
    obtain ⟨grows,stems⟩ := (p.enterTells P own w.shared).lendings
    refine lentOncePut _ lent here grows fun x member => ?_
    exact (stems x member).imp_left List.mem_map_of_mem
  | @resume index wait p awake here =>
    obtain ⟨grows,stems⟩ := (p.resumeTells P (numbered here).symm (w.rouse index).shared).lendings
    have risen : (w.rouse index).shared.Writes (fun _ => True)
      (p.rises wait (w.rouse index).shared) := .one trivial
    apply lentOnceLetGo
    · exact lentOncePut (w := w.rouse index) _ lent here (List.Subset.trans risen.lendings grows)
        fun x member => (stems x member).imp_left List.mem_map_of_mem
    · exact numberedResumed numbered here index
  | @renew n p source settings closed known here =>
    exact lentOnceEmptied _ lent here (Pool.closeAllUpkeep P _ w.shared)
      (Pool.sweepTracked P _ w.shared)
  | @tolerance n p count known here =>
    refine lentOncePut _ lent here (List.Subset.refl _) fun x member => .inl ?_
    exact List.mem_map_of_mem member
  | @giveBack slot h p held first here =>
    obtain ⟨event,hands⟩ := Pool.returnsHand (p.releaseReturns P h.wrapper w.shared)
    obtain ⟨after,before,written,_⟩ := hands.written
    have writes : w.shared.Writes (fun _ => True) (p.release P h.wrapper w.shared).2 :=
      ⟨after ++ event :: before,by simp [written],fun _ _ => trivial⟩
    refine lentOncePut _ lent here writes.lendings fun x member => .inl ?_
    rcases List.mem_append.mp member with kept | out
    · rcases hands.idle x kept with old | ⟨active,kin,_⟩
      · exact List.mem_map_of_mem (List.mem_append_left _ old)
      · obtain ⟨x,member,same⟩ := List.mem_map.mp active
        obtain rfl := holderOwns owned held here x member same
        exact kin.1 ▸ List.mem_map_of_mem (List.mem_append_right _ member)
    · exact List.mem_map_of_mem (List.mem_append_right _ (hands.active out))
  | vacate =>
    apply lentOnceLetGo
    · exact lent
    · exact numbered

theorem everyLentOnce (attained : Attained P Alters outside w) : w.LentOnce := by
  refine everyAttained ?_ (fun before => lentOnceTurn (numbered before) (everyOwned before))
    attained
  exact fun x member => absurd member List.not_mem_nil

theorem firstModes (obeyed : modes.Obeyed P) (attained : Attained P Alters outside w)
    (vacant : w.handle? slot = none) (held : (w.move P a).handle? slot = some h)
    (first : h.wrapper.conn ∉ lendings w.shared.journal)
    (here : (w.move P a).pools[h.pool]? = some q) :
    modes.Suit q.source h.wrapper.conn (w.move P a).shared.outside := by
  obtain ⟨seeker,p,s,grant⟩ := newGrant attained vacant held
  obtain ⟨r,starts⟩ := starts grant.searches
  obtain rfl := Option.some.inj (here.symm.trans grant.pool)
  have stay := Pool.stayReady obeyed p seeker
  rw [grant.shared,((Pool.stayAlike P seeker p).stay (.same p)).source]
  refine (stay.stay ⟨.same p,List.Subset.refl _⟩ h.wrapper grant.granted).resolve_left fun known => ?_
  obtain ⟨x,member,same⟩ := List.mem_map.mp known
  refine first (same ▸ everyLentOnce attained x (memTracked.mpr ⟨_,r,starts.here,?_⟩))
  rwa [Pool.tracked,← starts.idle,← starts.active]

end World

namespace Memory
namespace Connection
variable {c d : Connection} {request : Request} {on : Bool} {level : Isolation}

theorem struckOrAnswered (c : Connection) (request : Request) : ∃ faults,
    c.answerOrFault request = (.error (struckError request),{ c with faults }) ∨
      c.answerOrFault request = { c with faults }.answer request := by
  rcases outcome : strike request.method c.faults with ⟨struck,faults⟩
  refine ⟨faults,?_⟩
  cases struck with
  | true => exact .inl (by simp [answerOrFault,outcome])
  | false => exact .inr (by simp [answerOrFault,outcome])

theorem answerKeepsAutoCommit (other : ∀ on, request ≠ .setAutoCommit on) (c : Connection) :
    (c.answer request).2.autoCommit = c.autoCommit := by
  cases request with
  | setAutoCommit on => exact absurd rfl (other on)
  | isClosed => rfl
  | _ =>
    simp only [answer,whenOpen]
    split <;> (try split) <;> rfl

theorem answerKeepsIsolation (other : ∀ level, request ≠ .setIsolation level) (c : Connection) :
    (c.answer request).2.isolation = c.isolation := by
  cases request with
  | setIsolation level => exact absurd rfl (other level)
  | isClosed => rfl
  | _ =>
    simp only [answer,whenOpen]
    split <;> (try split) <;> rfl

theorem answerAutoCommit (worked : c.answer .autoCommit = (.ok on,d)) : c.autoCommit = on := by
  simp only [answer,whenOpen] at worked
  split at worked
  · exact Except.ok.inj (Prod.mk.inj worked).1
  · cases worked

theorem answerSetAutoCommit (worked : c.answer (.setAutoCommit on) = (.ok (),d)) :
    d.autoCommit = on := by
  simp only [answer,whenOpen] at worked
  split at worked
  · rw [← (Prod.mk.inj worked).2]
  · cases worked

theorem answerSetIsolation (worked : c.answer (.setIsolation level) = (.ok (),d)) :
    d.isolation = level := by
  simp only [answer,whenOpen] at worked
  split at worked
  · rw [← (Prod.mk.inj worked).2]
  · cases worked

theorem answered {reply : request.Reply} (worked : c.answerOrFault request = (.ok reply,d)) :
    ∃ faults, { c with faults }.answer request = (.ok reply,d) := by
  obtain ⟨faults,struck | same⟩ := c.struckOrAnswered request
  · cases struck.symm.trans worked
  · exact ⟨faults,same.symm.trans worked⟩

theorem faultKeeps {α : Type} {view : Connection → α}
    (faultless : ∀ c faults, view { c with faults } = view c)
    (keeps : ∀ c, view (c.answer request).2 = view c) (c : Connection) :
    view (c.answerOrFault request).2 = view c := by
  obtain ⟨faults,same | same⟩ := c.struckOrAnswered request
  · rw [same]
    exact faultless c faults
  · rw [same,keeps]
    exact faultless c faults

end Connection

def modes : Modes Server where
  autoCommit conn server := server.connections[conn]?.elim true (·.autoCommit)
  isolation conn server := server.connections[conn]?.elim default (·.isolation)

section Answer
variable {server after : Server} {conn : Nat} {request : Request}

theorem answerWorks {reply : request.Reply}
    (worked : platform.answer conn request server = (.ok reply,after)) :
    ∃ c d, server.connections[conn]? = some c ∧ after.connections[conn]? = some d ∧
      ∃ faults, { c with faults }.answer request = (.ok reply,d) := by
  simp only [platform,Server.answer] at worked
  split at worked
  · rename_i c here
    obtain ⟨done,rfl⟩ := Prod.mk.inj worked
    refine ⟨c,(c.answerOrFault request).2,here,?_,Connection.answered (Prod.ext done rfl)⟩
    exact List.getElem?_set_self (List.getElem?_eq_some_iff.mp here).1
  · cases worked

theorem answerKeeps {α : Type} {view : Connection → α} (start : α)
    (keeps : ∀ c : Connection, view (c.answerOrFault request).2 = view c) (conn : Nat)
    (server : Server) :
    (platform.answer conn request server).2.connections[conn]?.elim start view =
      server.connections[conn]?.elim start view := by
  simp only [platform,Server.answer]
  split
  · rename_i c here
    simp only [List.getElem?_set_self (List.getElem?_eq_some_iff.mp here).1,here,Option.elim,keeps]
  · rfl

end Answer

theorem modesObeyed : modes.Obeyed platform where
  told answer := by
    obtain ⟨c,d,here,_,faults,worked⟩ := answerWorks answer
    simpa [modes,here] using Connection.answerAutoCommit worked
  setAutoCommit answer := by
    obtain ⟨c,d,_,there,faults,worked⟩ := answerWorks answer
    simpa [modes,there] using Connection.answerSetAutoCommit worked
  setIsolation answer := by
    obtain ⟨c,d,_,there,faults,worked⟩ := answerWorks answer
    simpa [modes,there] using Connection.answerSetIsolation worked
  keepsAutoCommit other := answerKeeps true
    (Connection.faultKeeps (fun _ _ => rfl) (Connection.answerKeepsAutoCommit other))
  keepsIsolation other := answerKeeps default
    (Connection.faultKeeps (fun _ _ => rfl) (Connection.answerKeepsIsolation other))

end Memory
end ConnectionPool
