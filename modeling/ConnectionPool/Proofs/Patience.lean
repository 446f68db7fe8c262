import ConnectionPool.Proofs.Books
import ConnectionPool.Proofs.Precedence
import ConnectionPool.Proofs.Server
/-! How many candidates a caller may turn down in one go. It has patience for one more than the limit,
and its count of them stays exact as long as that number fits into 32 bits. With the largest limit
there is it does not, and the count runs over before the caller gives up. -/
namespace ConnectionPool

def turnedDown (n : Nat) (journal : List Event) : Nat := journal.countP (Event.rejects n)

namespace Shared
variable {σ : Type} {P : Platform σ} {s t : Shared σ} {n : Nat}

abbrev Lenient (n : Nat) (s t : Shared σ) : Prop :=
  s.Writes (fun event => event.rejects n = false) t

theorem Writes.turnedDown (lenient : Lenient n s t) :
    turnedDown n t.journal = turnedDown n s.journal := by
  simp only [ConnectionPool.turnedDown,List.countP_eq_length_filter,lenient.filter]

theorem Talks.lenient {caller : Caller} {conn : Nat} (talks : s.Talks P caller conn t) :
    Lenient n s t :=
  talks.writes fun _ _ => rfl

theorem disposeLenient (P : Platform σ) (pool conn : Nat) (s : Shared σ) :
    Lenient n s (s.dispose P pool conn) :=
  disposeWrites P pool conn s (fun _ _ => rfl) rfl

end Shared

namespace Pool
variable {σ : Type} {P : Platform σ} {seeker : Seeker} {p q : Pool} {s t u : Shared σ} {n : Nat}

theorem picksLenient (n : Nat) {pick : Pick} (picks : Picks P p s pick q t) :
    Shared.Lenient n s t := by
  have opening {outside : σ} : Shared.Lenient n s (p.welcome outside s) := ⟨[_],rfl,by simp⟩
  cases picks with
  | kept | nothing => exact .nothing rfl
  | refused => exact .one rfl
  | unfit _ _ _ setUp =>
    exact (opening.trans ((Shared.setUpTalks ..).ends setUp).lenient).trans
      (Shared.disposeLenient ..)
  | fresh _ _ _ setUp =>
    exact (opening.trans ((Shared.setUpTalks ..).ends setUp).lenient).trans (.one rfl)
  | @overdue oldest rest =>
    have taken : Shared.Lenient n s
        ((s.invalidate oldest).note (.reclaimed p.number oldest (oldest.heldFor s.now))) :=
      ⟨[_],rfl,by simp⟩
    exact (taken.trans (p.seizeTalks P oldest s).lenient).trans ⟨[_],rfl,by simp⟩

theorem rejectTurns (P : Platform σ) (p : Pool) (w : Wrapper) (s : Shared σ) :
    turnedDown p.number (p.reject P w s).2.journal = turnedDown p.number s.journal + 1 := by
  have disposed : Shared.Lenient p.number (s.note (.rejected p.number w)) (p.reject P w s).2 :=
    (Shared.Writes.nothing rfl).trans (Shared.disposeLenient ..)
  rw [disposed.turnedDown]
  exact List.countP_cons_of_pos (by simp)

theorem triedTurns {w : Wrapper} {pick : Pick} {good : Bool} {q' : Pool}
    (n : Nat) (picks : Picks P q s pick q' t) (tried : q'.admits P w t = (good,u)) :
    turnedDown n u.journal = turnedDown n s.journal := by
  have looked := (picksLenient n picks).trans ((q'.admitsTalks P w t).ends tried).lenient
  exact looked.turnedDown

theorem passedTurns (passed : Passed P p s n q t) :
    turnedDown p.number t.journal = turnedDown p.number s.journal + n := by
  induction passed with
  | start => rfl
  | @again n q t w q' t' u passed picks bad ih =>
    have same := ((passedAlike passed).trans (picksAlike picks)).number
    have cost := q'.rejectTurns P w u
    rw [same,triedTurns p.number picks bad,ih] at cost
    exact cost

/-- A stay turns down as many as it has patience for and one more, and only then can its count run
over. -/
theorem endsTurns {patience bad : Nat} {result : Outcome × Pool × Shared σ}
    (ends : Ends P seeker patience bad p s result) : ∃ n ≤ patience + 1,
      turnedDown p.number result.2.2.journal = turnedDown p.number s.journal + n ∧
      (result.1 = .overrun → 0x100000000 ≤ bad + n) := by
  cases ends with
  | @misses n q t error q' t' inTime passed picks =>
    refine ⟨n,Nat.le_succ_of_le inTime,?_,nofun⟩
    rw [← passedTurns passed,← (picksLenient p.number picks).turnedDown]
    exact List.countP_cons_of_neg (by simp)
  | @sleeps n q t inTime passed picks =>
    refine ⟨n,Nat.le_succ_of_le inTime,?_,nofun⟩
    rw [← passedTurns passed]
    exact List.countP_cons_of_neg (by simp)
  | @finds n q t w q' t' u inTime passed picks good =>
    refine ⟨n,Nat.le_succ_of_le inTime,?_,nofun⟩
    rw [← passedTurns passed,← triedTurns p.number picks good]
    exact List.countP_cons_of_neg (by simp)
  | @givesUp q t w q' t' u passed picks spoilt =>
    refine ⟨patience + 1,Nat.le_refl _,?_,?_⟩
    · rw [← passedTurns (passed.again picks spoilt)]
      unfold giveUp
      split
      · exact List.countP_cons_of_neg (by simp)
      · rfl
    · intro excess
      unfold giveUp at excess
      split at excess
      · cases excess
      · rename_i large
        exact Nat.le_of_not_lt large

end Pool

namespace World
variable {σ : Type} {P : Platform σ} {Alters : (σ → σ) → Prop} {outside : σ} {w w' : World σ}
  {a : Move σ} {seeker : Seeker} {p q : Pool} {s t : Shared σ}

inductive Leaves (w : World σ) (ticket : Nat) : Prop
  | granted {h : Handle} (held : w.handle? ticket = some h)
  | denied (empty : w.slots[ticket]? = some .empty)
  | sleeps {x : Wait} (asleep : x ∈ w.shared.waiting) (own : x.seeker.ticket = ticket)

theorem searchTurns (attained : Attained P Alters outside w) (searches : w.Searches a seeker p s) :
    turnedDown p.number (w.move P a).shared.journal =
      turnedDown p.number (p.stay P seeker s).2.2.journal := by
  obtain ⟨seated,searched⟩ := searched attained searches
  rw [searched.move,← searched.shared]
  refine letGoKeeps (fun t => turnedDown p.number t.journal =
    turnedDown p.number seated.shared.journal) searched.numbered rfl (fun q => ?_) _
  have swept : Shared.Lenient p.number seated.shared (q.sweep P seated.shared).2 := by
    refine Pool.discardAllKeeps (fun _ _ t => Shared.Lenient p.number seated.shared t) ?_ (.one rfl)
    intro x ws r t lenient
    exact (lenient.trans (.nothing rfl)).trans (Shared.disposeLenient ..)
  exact swept.turnedDown

theorem searchLeaves (attained : Attained P Alters outside w) (searches : w.Searches a seeker p s)
    (ends : (p.stay P seeker s).1 ≠ .overrun) : (w.move P a).Leaves seeker.ticket := by
  have begins := begins attained searches
  have seats := searchSeats (P := P) attained searches
  cases outcome : (p.stay P seeker s).1 with
  | granted x => exact .granted (searchGrants attained searches outcome)
  | failed error =>
    rw [outcome] at seats
    exact .denied seats
  | overrun => exact absurd outcome ends
  | blocked =>
    obtain ⟨seated,searched⟩ := searched attained searches
    have asleep : ∃ x ∈ seated.shared.waiting, x.seeker.ticket = seeker.ticket := by
      rw [searched.shared,Pool.stayBlocks begins.room outcome]
      exact ⟨_,List.mem_append_right _ List.mem_cons_self,rfl⟩
    obtain ⟨x,member,own⟩ := asleep
    refine .sleeps (x := x) ?_ own
    rw [searched.move,(letGoBooks P searched.numbered _).1]
    exact member

/-- Whoever answers and how, a caller that searches a pool rejects one candidate more than the limit at
most, counts them right, and gets its answer or sleeps; unless the limit is the largest there is. -/
theorem boundedRetries (reachable : w.Reachable P) (searches : w.Searches a seeker p s)
    (limit : p.settings.badConnectionLimit ≠ 0xffffffff) :
    (∃ n ≤ p.settings.badConnectionLimit.toNat + 1, n < UInt32.size ∧
      turnedDown p.number (w.move P a).shared.journal = turnedDown p.number s.journal + n) ∧
    (w.move P a).Leaves seeker.ticket := by
  obtain ⟨_,attained⟩ := reachableAttained reachable
  have ends := Pool.stayEnds P seeker p s
  rw [searchUnspoilt attained searches] at ends
  obtain ⟨n,few,turned,excess⟩ := Pool.endsTurns ends
  have short : p.settings.badConnectionLimit.toNat < 0xffffffff := by
    have largest := p.settings.badConnectionLimit.toNat_lt
    have other : p.settings.badConnectionLimit.toNat ≠ 0xffffffff := fun same =>
      limit (UInt32.toNat_inj.mp same)
    omega
  have small : n ≤ p.settings.badConnectionLimit.toNat + 1 := few
  refine ⟨⟨n,small,?_,?_⟩,searchLeaves attained searches fun overrun => ?_⟩
  · simp only [UInt32.size]
    omega
  · rw [searchTurns attained searches,turned]
  · have many := excess overrun
    rw [show (0 : UInt32).toNat = 0 from rfl] at many
    omega

def spoiltTwice : World Memory.Server :=
  World.run Memory.platform
    [.create {} { maxIdle := 0, tolerance := 1, pingEnabled := true },
      .tamper fun server => server.tamper (.switch none (some true) none)] (.initial {})

theorem boundedRetriesTwo : ∃ p, spoiltTwice.pools[0]? = some p ∧
    p.settings.badConnectionLimit = 1 ∧
    (∃ n ≤ 2, turnedDown p.number (spoiltTwice.move Memory.platform (.get 0)).shared.journal =
      turnedDown p.number spoiltTwice.shared.journal + n) ∧
    (spoiltTwice.move Memory.platform (.get 0)).Leaves 0 := by
  have made : ∃ p : Pool, spoiltTwice.pools[0]? = some p ∧ p.closed = false ∧
      p.settings.badConnectionLimit = 1 := ⟨_,rfl,by decide,by decide⟩
  obtain ⟨p,here,unshut,limit⟩ := made
  have reachable : spoiltTwice.Reachable Memory.platform := reachableRun (.initial _) _
  have searches : spoiltTwice.Searches (.get 0) (spoiltTwice.newSeeker 0 0) p spoiltTwice.shared :=
    .get rfl here unshut
  obtain ⟨⟨n,few,_,turned⟩,leaves⟩ := boundedRetries reachable searches (by rw [limit]; decide)
  rw [limit] at few
  exact ⟨p,here,limit,⟨n,few,turned⟩,leaves⟩

end World

namespace Memory

structure Server.Broken (server : Server) : Prop where
  serving : server.refusing = false
  opens : server.openBroken = true
  all : ∀ c ∈ server.connections, c.broken = true

theorem Connection.answerBroken (c : Connection) (request : Request) :
    (c.answerOrFault request).2.broken = c.broken := by
  rcases outcome : strike request.method c.faults with ⟨struck,faults⟩
  simp only [answerOrFault,outcome]
  cases struck with
  | true => rfl
  | false =>
    cases request <;> simp only [answer,whenOpen,Bool.false_eq_true,if_false] <;> repeat (first | rfl | split)

theorem Server.answerBroken {server : Server} (broken : server.Broken) (conn : Nat)
    (request : Request) : (server.answer conn request).2.Broken := by
  unfold Server.answer
  split
  · rename_i c found
    refine ⟨broken.serving,broken.opens,fun d member => ?_⟩
    rcases List.mem_or_eq_of_mem_set member with old | rfl
    · exact broken.all d old
    · exact (c.answerBroken request).trans (broken.all c (List.mem_of_getElem? found))
  · exact broken

theorem brokenEndures : Shared.Endures platform fun s => s.outside.Broken where
  quiet before same := same.outside ▸ before
  asks before _ conn request := Server.answerBroken before conn request
  refused before connect := by
    rw [connectRefused connect]
    exact before
  opens {s source outside} before n connect := by
    simp only [platform,Server.connect,before.serving,before.opens] at connect
    obtain ⟨_,rfl⟩ := Prod.mk.inj connect
    refine ⟨rfl,rfl,fun c member => ?_⟩
    rcases List.mem_append.mp member with old | new
    · exact before.all c old
    · rw [List.mem_singleton.mp new]

theorem executeFails {server : Server} (broken : server.Broken) (conn : Nat) (sql : String)
    (count : Nat) : (server.answer conn (.execute sql)).1 ≠ .ok count := by
  unfold Server.answer
  split
  · rename_i c found
    have spoilt := broken.all c (List.mem_of_getElem? found)
    rcases outcome : strike (Request.execute sql).method c.faults with ⟨struck,faults⟩
    simp only [Connection.answerOrFault,outcome]
    cases struck with
    | true => simp
    | false =>
      simp only [Connection.answer,Connection.whenOpen,spoilt,Bool.false_eq_true,if_false,if_true]
      split <;> simp
  · simp

theorem brokenSpoilt {q : Pool} {w : Wrapper} {s t : Shared Server} {good : Bool}
    (broken : s.outside.Broken) (pings : q.settings.pingEnabled = true)
    (always : q.settings.pingAfter = 0) (tried : q.admits platform w s = (good,t)) :
    good = false := by
  cases Pool.admitsCases tried with
  | unfit | stuck => rfl
  | fit found =>
    exfalso
    rcases Pool.inspectCases found with ⟨_,checks⟩ | ⟨_,sick,_⟩
    · cases checks with
      | early asked early => exact early ⟨pings,always ▸ Nat.zero_le _⟩
      | @passed t u asked due ping =>
        have still : t.outside.Broken :=
          brokenEndures.talks broken ((Shared.Talks.one ..).ends asked)
        unfold Shared.ping at ping
        rcases ran : t.ask platform (.pool q.number) w.conn (.execute q.settings.pingQuery) with
          ⟨reply,v⟩
        rw [ran] at ping
        cases reply with
        | error => cases ping
        | ok count => exact executeFails still _ _ count (congrArg Prod.fst ran)
    · cases sick

theorem barrenPicks {q : Pool} {s : Shared Server} (broken : s.outside.Broken)
    (source : q.source = {}) (idle : q.idle = []) (room : q.HasActiveRoom) :
    ∃ w t, Pool.Picks platform q s (.candidate w)
      (q.count fun c => { c with created := c.created + 1 }) t := by
  rcases connect : platform.connect s.opened q.source s.outside with ⟨reply,outside⟩
  have opened : reply = .ok () := by
    simp only [platform,Server.connect,broken.serving] at connect
    exact (Prod.mk.inj connect).1.symm
  subst opened
  have setUp : (q.welcome outside s).setUp platform (.pool q.number) s.opened q.source =
      (.ok (),q.welcome outside s) := by
    rw [source]
    rfl
  exact ⟨_,_,.fresh idle room connect setUp⟩

section Barren
variable {p : Pool} {s : Shared Server} (broken : s.outside.Broken)
  (pings : p.settings.pingEnabled = true) (always : p.settings.pingAfter = 0)
  (source : p.source = {}) (room : p.HasActiveRoom)
include broken pings always source room

theorem barrenRejects {n : Nat} {q : Pool} {t : Shared Server} (passed : Pool.Passed platform p s n q t)
    (bare : q.idle = []) (same : q.active = p.active) :
    ∃ w q' t' u, Pool.Picks platform q t (.candidate w) q' t' ∧
      q'.admits platform w t' = (false,u) ∧ q'.idle = [] ∧ q'.active = p.active := by
  have alike := Pool.passedAlike passed
  have still : t.outside.Broken :=
    (Pool.stayEndures brokenEndures ⟨0,0,0,0,false,0⟩).passed broken passed
  have place : q.HasActiveRoom := by
    unfold Pool.HasActiveRoom
    rw [same,alike.settings]
    exact room
  obtain ⟨w,t',picks⟩ := barrenPicks still (alike.source.trans source) bare place
  let q' := q.count fun c => { c with created := c.created + 1 }
  have settings : q'.settings = p.settings := alike.settings
  have spoilt := brokenSpoilt (q := q') (Pool.picksEndure brokenEndures still picks)
    (settings ▸ pings) (settings ▸ always) (Prod.eta (q'.admits platform w t')).symm
  exact ⟨w,q',t',_,picks,Prod.ext spoilt rfl,bare,same⟩

theorem barrenPasses (idle : p.idle = []) (n : Nat) : ∃ q t, Pool.Passed platform p s n q t ∧ q.idle = [] ∧
    q.active = p.active := by
  induction n with
  | zero => exact ⟨p,s,.start,idle,rfl⟩
  | succ n ih =>
    obtain ⟨q,t,passed,bare,same⟩ := ih
    obtain ⟨w,q',t',u,picks,spoilt,bare',same'⟩ :=
      barrenRejects broken pings always source room passed bare same
    exact ⟨_,_,passed.again picks spoilt,bare',same'⟩

/-- With the largest limit the caller never gives up: its count has run over by then. -/
theorem barrenOverruns (idle : p.idle = []) (seeker : Seeker) (none : seeker.bad = 0)
    (limit : p.settings.badConnectionLimit = 0xffffffff) :
    (p.stay platform seeker s).1 = .overrun ∧
      turnedDown p.number (p.stay platform seeker s).2.2.journal =
        turnedDown p.number s.journal + 0x100000000 := by
  obtain ⟨q,t,passed,bare,same⟩ :=
    barrenPasses broken pings always source room idle 0xffffffff
  obtain ⟨w,q',t',u,picks,spoilt,_,_⟩ :=
    barrenRejects broken pings always source room passed bare same
  have patience : p.settings.badConnectionLimit.toNat = 0xffffffff := by rw [limit]; rfl
  have ends : Pool.Ends platform seeker 0xffffffff 0 p s _ := .givesUp passed picks spoilt
  rw [Pool.staySeeks platform none,patience,Pool.endsSeek ends,Pool.giveUp,if_neg (by omega)]
  exact ⟨rfl,Pool.passedTurns (passed.again picks spoilt)⟩

end Barren

end Memory

namespace World
variable {σ : Type} {P : Platform σ} {Alters : (σ → σ) → Prop} {outside : σ} {w : World σ}
  {a : Move σ} {seeker : Seeker} {p : Pool} {s : Shared σ}

def spoiltServer : World Memory.Server :=
  World.run Memory.platform
    [.create {} { tolerance := 0xffffffff, pingEnabled := true },
      .tamper fun server => server.tamper (.switch none (some true) none)] (.initial {})

theorem overrunStays (attained : Attained P Alters outside w) (searches : w.Searches a seeker p s)
    (excess : (p.stay P seeker s).1 = .overrun) : ¬(w.move P a).Leaves seeker.ticket := by
  have seats := searchSeats (P := P) attained searches
  rw [excess] at seats
  have begins := begins attained searches
  obtain ⟨seated,searched⟩ := searched attained searches
  rintro (held | empty | ⟨asleep,own⟩)
  · cases seats.symm.trans (handleAt.mp held)
  · cases seats.symm.trans empty
  · rw [searched.move,(letGoBooks P searched.numbered _).1,searched.shared] at asleep
    have queues := (Pool.stayQueues P seeker s.unfinished).stay (p := p) (s := s) (.refl _)
    have others := Pool.queuesOthers queues (by rw [excess]; nofun)
    exact begins.alone _ (others.mem_iff.mp (List.mem_append_left _ asleep)) own

theorem boundedRetriesOverrun : ∃ p, spoiltServer.pools[0]? = some p ∧ p.settings.Valid ∧
    spoiltServer.Searches (.get 0) (spoiltServer.newSeeker 0 0) p spoiltServer.shared ∧
    turnedDown 0 spoiltServer.shared.journal = 0 ∧
    turnedDown 0 (spoiltServer.move Memory.platform (.get 0)).shared.journal = UInt32.size ∧
    ¬(spoiltServer.move Memory.platform (.get 0)).Leaves 0 := by
  have made : ∃ p : Pool, spoiltServer.pools[0]? = some p ∧ p.number = 0 ∧ p.closed = false ∧
      p.idle = [] ∧ p.HasActiveRoom ∧ p.source = {} ∧ p.settings.Valid ∧
      p.settings.pingEnabled = true ∧ p.settings.pingAfter = 0 ∧
      p.settings.badConnectionLimit = 0xffffffff :=
    ⟨_,rfl,by decide,by decide,by decide,by decide,by decide,by decide,by decide,by decide,by decide⟩
  obtain ⟨p,here,number,unshut,idle,room,source,valid,pings,always,limit⟩ := made
  have reachable : spoiltServer.Reachable Memory.platform := reachableRun (.initial _) _
  obtain ⟨_,attained⟩ := reachableAttained reachable
  have searches : spoiltServer.Searches (.get 0) (spoiltServer.newSeeker 0 0) p
      spoiltServer.shared := .get rfl here unshut
  have broken : spoiltServer.shared.outside.Broken := ⟨by decide,by decide,by decide⟩
  obtain ⟨excess,turned⟩ := Memory.barrenOverruns broken pings always source room idle
    (spoiltServer.newSeeker 0 0) rfl limit
  refine ⟨p,here,valid,searches,by decide,?_,overrunStays attained searches excess⟩
  rw [← searchTurns attained searches,number] at turned
  rw [turned]
  decide

end World
end ConnectionPool
