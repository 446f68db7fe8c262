import ConnectionPool.Proofs.Calls
import ConnectionPool.Pool.Checkout
/-! What one stay of a caller in a pool can do, told once: the ways of coming by a candidate, the
looks around that lead from one rejected candidate to the next, and the four ways in which it ends. A
rule carries an invariant through all of them. -/
namespace ConnectionPool.Pool
variable {σ : Type} {P : Platform σ}

def Alike (p q : Pool) : Prop :=
  q = { p with idle := q.idle, active := q.active, counters := q.counters }

namespace Alike
variable {p q r : Pool}

theorem same (p : Pool) : p.Alike p := rfl

theorem trans (first : p.Alike q) (second : q.Alike r) : p.Alike r := by
  unfold Alike at *
  rw [second,first]

theorem number (alike : p.Alike q) : q.number = p.number := by rw [alike]

theorem source (alike : p.Alike q) : q.source = p.source := by rw [alike]

theorem settings (alike : p.Alike q) : q.settings = p.settings := by rw [alike]

theorem closed (alike : p.Alike q) : q.closed = p.closed := by rw [alike]

end Alike

theorem inspectTalks (P : Platform σ) (p : Pool) (w : Wrapper) (s : Shared σ) :
    s.Talks P (.pool p.number) w.conn (p.inspect P w s).2 := by
  unfold inspect
  split
  · exact Shared.checkHealthTalks ..
  · exact .silent

theorem admitsTalks (P : Platform σ) (p : Pool) (w : Wrapper) (s : Shared σ) :
    s.Talks P (.pool p.number) w.conn (p.admits P w s).2 := by
  have first := p.inspectTalks P w s
  unfold admits
  rcases hi : p.inspect P w s with ⟨healthy,t⟩
  rw [hi] at first
  cases healthy with
  | false => exact first
  | true =>
    have second := first.trans (Shared.rollbackTalks P (.pool p.number) w.conn t)
    rcases hr : t.rollbackUnlessAutoCommit P (.pool p.number) w.conn with ⟨reply,u⟩
    rw [hr] at second
    cases reply <;> simpa only [hr] using second

def welcome (p : Pool) (outside : σ) (s : Shared σ) : Shared σ :=
  { s with outside, nextId := s.nextId + 1, opened := s.opened + 1 }.note
    (.opened p.number s.opened s.nextId p.source)

def seize (P : Platform σ) (p : Pool) (w : Wrapper) (s : Shared σ) : Shared σ :=
  (((s.invalidate w).note (.reclaimed p.number w (w.heldFor s.now))).rollbackUnlessAutoCommit P
    (.pool p.number) w.conn).2

theorem seizeTalks (P : Platform σ) (p : Pool) (w : Wrapper) (s : Shared σ) :
    ((s.invalidate w).note (.reclaimed p.number w (w.heldFor s.now))).Talks P (.pool p.number)
      w.conn (p.seize P w s) :=
  Shared.rollbackTalks ..

inductive Picks (P : Platform σ) (p : Pool) (s : Shared σ) : Pick → Pool → Shared σ → Prop
  | kept {w rest} (idle : p.idle = w :: rest) :
      Picks P p s (.candidate w) { p with idle := rest } s
  | refused {cause outside} (idle : p.idle = []) (room : p.HasActiveRoom)
      (connect : P.connect s.opened p.source s.outside = (.error cause,outside)) :
      Picks P p s (.failed (.connect cause)) p
        ({ s with outside, nextId := s.nextId + 1 }.note (.refused p.number cause))
  | unfit {cause outside t} (idle : p.idle = []) (room : p.HasActiveRoom)
      (connect : P.connect s.opened p.source s.outside = (.ok (),outside))
      (setUp : (p.welcome outside s).setUp P (.pool p.number) s.opened p.source = (.error cause,t)) :
      Picks P p s (.failed (.connect cause)) p (t.dispose P p.number s.opened)
  | fresh {outside t} (idle : p.idle = []) (room : p.HasActiveRoom)
      (connect : P.connect s.opened p.source s.outside = (.ok (),outside))
      (setUp : (p.welcome outside s).setUp P (.pool p.number) s.opened p.source = (.ok (),t)) :
      Picks P p s (.candidate (.fresh t.nextKey s.opened s.nextId t.now))
        (p.count fun c => { c with created := c.created + 1 })
        (t.newKey.2.note (.created p.number s.opened))
  | overdue {oldest rest} (idle : p.idle = []) (full : ¬p.HasActiveRoom)
      (active : p.active = oldest :: rest)
      (late : p.settings.maxCheckoutTime < oldest.heldFor s.now) :
      Picks P p s (.candidate ((p.seize P oldest s).rewrap oldest oldest.lastUsedAt).1)
        ({ p with active := rest }.count fun c =>
          { c with claimedOverdue := c.claimedOverdue + 1
                   overdueTime := c.overdueTime + oldest.heldFor s.now
                   checkoutTime := c.checkoutTime + oldest.heldFor s.now })
        (((p.seize P oldest s).rewrap oldest oldest.lastUsedAt).2.notify p.number)
  | nothing (idle : p.idle = []) (full : ¬p.HasActiveRoom)
      (inTime : ∀ oldest ∈ p.active.head?, oldest.heldFor s.now ≤ p.settings.maxCheckoutTime) :
      Picks P p s .nothing p s

theorem openOnePicks {p : Pool} {s : Shared σ} (idle : p.idle = []) (room : p.HasActiveRoom) :
    Picks P p s (p.openOne P s).1 (p.openOne P s).2.1 (p.openOne P s).2.2 := by
  rcases connect : P.connect s.opened p.source s.outside with ⟨reply,outside⟩
  cases reply with
  | error cause =>
    simp only [openOne,connect]
    exact .refused idle room connect
  | ok =>
    rcases setUp : (p.welcome outside s).setUp P (.pool p.number) s.opened p.source with ⟨reply,t⟩
    have same := setUp
    simp only [welcome] at same
    cases reply with
    | error cause =>
      simp only [openOne,connect,same]
      exact .unfit idle room connect setUp
    | ok =>
      simp only [openOne,connect,same]
      exact .fresh idle room connect setUp

theorem reclaimPicks {p : Pool} {s : Shared σ} (idle : p.idle = []) (full : ¬p.HasActiveRoom) :
    Picks P p s (p.reclaim P s).1 (p.reclaim P s).2.1 (p.reclaim P s).2.2 := by
  unfold reclaim
  split
  · rename_i none
    exact .nothing idle full (by simp [none])
  · rename_i oldest rest active
    simp only
    split
    · rename_i late
      exact .overdue idle full active late
    · rename_i inTime
      exact .nothing idle full (by simpa [active] using inTime)

theorem pickPicks (P : Platform σ) (p : Pool) (s : Shared σ) :
    Picks P p s (p.pick P s).1 (p.pick P s).2.1 (p.pick P s).2.2 := by
  unfold pick
  split
  · rename_i idle
    exact .kept idle
  · rename_i idle
    split
    · rename_i room
      exact openOnePicks idle room
    · rename_i full
      exact reclaimPicks idle full

theorem picksPick {p p' : Pool} {s s' : Shared σ} {found : Pick} (picks : Picks P p s found p' s') :
    p.pick P s = (found,p',s') := by
  cases picks with
  | kept idle => simp only [pick,idle]
  | refused idle room connect => simp only [pick,idle,if_pos room,openOne,connect]
  | unfit idle room connect setUp =>
    simp only [welcome] at setUp
    simp only [pick,idle,if_pos room,openOne,connect,setUp]
  | fresh idle room connect setUp =>
    simp only [welcome] at setUp
    simp only [pick,idle,if_pos room,openOne,connect,setUp]
    rfl
  | overdue idle full active late =>
    simp only [pick,idle,if_neg full,reclaim,active,if_pos late]
    rfl
  | nothing idle full inTime =>
    simp only [pick,idle,if_neg full,reclaim]
    split
    · rfl
    · rename_i oldest rest active
      exact if_neg (Nat.not_lt.mpr (inTime oldest (by simp [active])))

theorem picksAlike {p p' : Pool} {s s' : Shared σ} {pick : Pick} (picks : Picks P p s pick p' s') :
    p.Alike p' := by
  cases picks <;> rfl

def round (P : Platform σ) (seeker : Seeker) (bad : Nat)
    (next : Pool → Shared σ → Outcome × Pool × Shared σ) (p : Pool) (s : Shared σ) :
    Outcome × Pool × Shared σ :=
  match p.pick P s with
  | (.failed error,p,s) => p.fail seeker error s
  | (.nothing,p,s) => p.block seeker bad s
  | (.candidate w,p,s) =>
      match p.admits P w s with
      | (true,s) => p.grant seeker w s
      | (false,s) =>
          let (p,s) := p.reject P w s
          next p s

theorem seekLast (seeker : Seeker) (bad : Nat) (p : Pool) (s : Shared σ) :
    p.seek P seeker 0 bad s = p.round P seeker bad (Pool.giveUp seeker (bad + 1)) s := by
  unfold seek
  rfl

theorem seekOn (seeker : Seeker) (patience bad : Nat) (p : Pool) (s : Shared σ) :
    p.seek P seeker (patience + 1) bad s =
      p.round P seeker bad (Pool.seek P seeker patience (bad + 1)) s := by
  rw [seek]
  rfl

inductive Passed (P : Platform σ) (p : Pool) (s : Shared σ) : Nat → Pool → Shared σ → Prop
  | start : Passed P p s 0 p s
  | again {n q t w q' t' u} (passed : Passed P p s n q t)
      (picks : Picks P q t (.candidate w) q' t') (bad : q'.admits P w t' = (false,u)) :
      Passed P p s (n + 1) (q'.reject P w u).1 (q'.reject P w u).2

inductive Ends (P : Platform σ) (seeker : Seeker) (patience bad : Nat) (p : Pool) (s : Shared σ) :
    Outcome × Pool × Shared σ → Prop
  | misses {n q t error q' t'} (inTime : n ≤ patience) (passed : Passed P p s n q t)
      (picks : Picks P q t (.failed error) q' t') :
      Ends P seeker patience bad p s (q'.fail seeker error t')
  | sleeps {n q t} (inTime : n ≤ patience) (passed : Passed P p s n q t)
      (picks : Picks P q t .nothing q t) :
      Ends P seeker patience bad p s (q.block seeker (bad + n) t)
  | finds {n q t w q' t' u} (inTime : n ≤ patience) (passed : Passed P p s n q t)
      (picks : Picks P q t (.candidate w) q' t') (good : q'.admits P w t' = (true,u)) :
      Ends P seeker patience bad p s (q'.grant seeker w u)
  | givesUp {q t w q' t' u} (passed : Passed P p s patience q t)
      (picks : Picks P q t (.candidate w) q' t') (spoilt : q'.admits P w t' = (false,u)) :
      Ends P seeker patience bad p s
        ((q'.reject P w u).1.giveUp seeker (bad + patience + 1) (q'.reject P w u).2)

theorem passedAlike {p q : Pool} {s t : Shared σ} {n : Nat} (passed : Passed P p s n q t) :
    p.Alike q := by
  induction passed with
  | start => exact .same p
  | again _ picks _ ih => exact (ih.trans (picksAlike picks)).trans rfl

theorem roundCases {Result : Outcome × Pool × Shared σ → Prop} {seeker : Seeker} {bad : Nat}
    {next : Pool → Shared σ → Outcome × Pool × Shared σ} {p : Pool} {s : Shared σ}
    (misses : ∀ {error q t}, Picks P p s (.failed error) q t → Result (q.fail seeker error t))
    (sleeps : Picks P p s .nothing p s → Result (p.block seeker bad s))
    (finds : ∀ {w q t u}, Picks P p s (.candidate w) q t → q.admits P w t = (true,u) →
      Result (q.grant seeker w u))
    (rejects : ∀ {w q t u}, Picks P p s (.candidate w) q t → q.admits P w t = (false,u) →
      Result (next (q.reject P w u).1 (q.reject P w u).2)) :
    Result (p.round P seeker bad next s) := by
  have picks := pickPicks P p s
  unfold Pool.round
  generalize p.pick P s = found at picks ⊢
  obtain ⟨pick,q,t⟩ := found
  cases pick with
  | failed error => exact misses picks
  | nothing =>
    cases picks with
    | nothing idle full inTime => exact sleeps (.nothing idle full inTime)
  | candidate w =>
    simp only
    rcases admitted : q.admits P w t with ⟨good,u⟩
    cases good with
    | true => exact finds picks admitted
    | false => exact rejects picks admitted

section Round
variable {seeker : Seeker} {bad : Nat} {next : Pool → Shared σ → Outcome × Pool × Shared σ}
  {p q : Pool} {s t u : Shared σ} {w : Wrapper}

theorem roundMisses {error : PoolError} (picks : Picks P p s (.failed error) q t) :
    p.round P seeker bad next s = q.fail seeker error t := by
  simp only [Pool.round,picksPick picks]

theorem roundSleeps (picks : Picks P p s .nothing p s) :
    p.round P seeker bad next s = p.block seeker bad s := by
  simp only [Pool.round,picksPick picks]

theorem roundFinds (picks : Picks P p s (.candidate w) q t) (good : q.admits P w t = (true,u)) :
    p.round P seeker bad next s = q.grant seeker w u := by
  simp only [Pool.round,picksPick picks,good]

theorem roundRejects (picks : Picks P p s (.candidate w) q t)
    (spoilt : q.admits P w t = (false,u)) :
    p.round P seeker bad next s = next (q.reject P w u).1 (q.reject P w u).2 := by
  simp only [Pool.round,picksPick picks,spoilt]

theorem seekRound (seeker : Seeker) (patience bad : Nat) (p : Pool) (s : Shared σ) :
    ∃ next, p.seek P seeker patience bad s = p.round P seeker bad next s := by
  cases patience with
  | zero => exact ⟨_,seekLast seeker bad p s⟩
  | succ patience => exact ⟨_,seekOn seeker patience bad p s⟩

end Round

theorem seekEnds (seeker : Seeker) {p q : Pool} {s t : Shared σ} {n : Nat}
    (passed : Passed P p s n q t) (patience bad : Nat) :
    Ends P seeker (n + patience) bad p s (q.seek P seeker patience (bad + n) t) := by
  -- Each rejected candidate costs patience and leads to one more look.
  induction patience generalizing n q t with
  | zero =>
    rw [seekLast]
    apply roundCases
    · exact fun picks => .misses (Nat.le_refl n) passed picks
    · exact fun picks => .sleeps (Nat.le_refl n) passed picks
    · exact fun picks good => .finds (Nat.le_refl n) passed picks good
    · exact fun picks spoilt => .givesUp passed picks spoilt
  | succ patience ih =>
    rw [seekOn]
    apply roundCases
    · exact fun picks => .misses (Nat.le_add_right _ _) passed picks
    · exact fun picks => .sleeps (Nat.le_add_right _ _) passed picks
    · exact fun picks good => .finds (Nat.le_add_right _ _) passed picks good
    · intro w q' t' u picks spoilt
      have later := ih (passed.again picks spoilt)
      rwa [Nat.add_right_comm] at later

theorem passedSeek (seeker : Seeker) {p q : Pool} {s t : Shared σ} {n : Nat}
    (passed : Passed P p s n q t) (patience bad : Nat) :
    p.seek P seeker (n + patience) bad s = q.seek P seeker patience (bad + n) t := by
  induction passed generalizing patience with
  | start => rw [Nat.zero_add,Nat.add_zero]
  | @again n q t w q' t' u passed picks spoilt ih =>
    rw [Nat.add_right_comm,Nat.add_assoc n patience 1,ih (patience + 1),seekOn,
      roundRejects picks spoilt]
    rfl

theorem endsSeek {seeker : Seeker} {patience bad : Nat} {p : Pool} {s : Shared σ}
    {result : Outcome × Pool × Shared σ} (ends : Ends P seeker patience bad p s result) :
    p.seek P seeker patience bad s = result := by
  cases ends with
  | @misses n q t error q' t' inTime passed picks =>
    obtain ⟨left,rfl⟩ := Nat.exists_eq_add_of_le inTime
    obtain ⟨next,same⟩ := seekRound (P := P) seeker left (bad + n) q t
    rw [passedSeek _ passed,same,roundMisses picks]
  | @sleeps n q t inTime passed picks =>
    obtain ⟨left,rfl⟩ := Nat.exists_eq_add_of_le inTime
    obtain ⟨next,same⟩ := seekRound (P := P) seeker left (bad + n) q t
    rw [passedSeek _ passed,same,roundSleeps picks]
  | @finds n q t w q' t' u inTime passed picks good =>
    obtain ⟨left,rfl⟩ := Nat.exists_eq_add_of_le inTime
    obtain ⟨next,same⟩ := seekRound (P := P) seeker left (bad + n) q t
    rw [passedSeek _ passed,same,roundFinds picks good]
  | givesUp passed picks spoilt =>
    have here := passedSeek seeker passed 0 bad
    rw [Nat.add_zero] at here
    rw [here,seekLast,roundRejects picks spoilt]

theorem staySeek (P : Platform σ) (seeker : Seeker) (p : Pool) (s : Shared σ) :
    p.stay P seeker s = p.seek P seeker
      (p.settings.badConnectionLimit.toNat - seeker.bad.toNat) seeker.bad.toNat s := rfl

theorem stayEnds (P : Platform σ) (seeker : Seeker) (p : Pool) (s : Shared σ) :
    Ends P seeker (p.settings.badConnectionLimit.toNat - seeker.bad.toNat) seeker.bad.toNat p s
      (p.stay P seeker s) := by
  have ends := seekEnds seeker (.start (P := P) (p := p) (s := s))
    (p.settings.badConnectionLimit.toNat - seeker.bad.toNat) seeker.bad.toNat
  rwa [Nat.zero_add] at ends

def lingered (waited : Nat) (p : Pool) : Pool :=
  p.count fun c => { c with waitTime := c.waitTime + waited }

def rises (p : Pool) (wait : Wait) (s : Shared σ) : Shared σ :=
  s.note (.resumed p.number wait.seeker.ticket (s.now - wait.since))

section Door
variable {seeker : Seeker} {wait : Wait} {p : Pool} {s : Shared σ}

theorem enterShut (closed : p.closed = true) :
    p.enter P seeker s = p.fail seeker .poolClosed s :=
  if_pos closed

theorem enterOpen (unshut : p.closed = false) : p.enter P seeker s = p.stay P seeker s :=
  if_neg (by simp [unshut])

theorem resumeShut (closed : p.closed = true) :
    p.resume P wait s =
      (p.lingered (s.now - wait.since)).fail wait.seeker .waitInterrupted (p.rises wait s) :=
  if_pos closed

theorem resumeOpen (unshut : p.closed = false) :
    p.resume P wait s =
      (p.lingered (s.now - wait.since)).stay P wait.seeker (p.rises wait s) :=
  if_neg (by simp [count,unshut])

end Door

/-- How an invariant outlasts a stay: `Before` holds when the caller looks around, `Holding` while
it has a candidate in hand, `After` when it leaves. -/
structure StayRule (P : Platform σ) (seeker : Seeker) (Before : Pool → Shared σ → Prop)
    (Holding : Wrapper → Pool → Shared σ → Prop) (After : Outcome → Pool → Shared σ → Prop) :
    Prop where
  finds {p s w p' s'} (before : Before p s) (picks : Picks P p s (.candidate w) p' s') :
    Holding w p' s'
  misses {p s error p' s'} (before : Before p s) (picks : Picks P p s (.failed error) p' s') :
    Before p' s'
  blocks {p s} (before : Before p s) (picks : Picks P p s .nothing p s) (bad : Nat) :
    After .blocked (p.block seeker bad s).2.1 (p.block seeker bad s).2.2
  grants {w p s t} (holding : Holding w p s) (good : p.admits P w s = (true,t)) :
    After (.granted (w.stamped p.expected t.now)) (p.grant seeker w t).2.1 (p.grant seeker w t).2.2
  rejects {w p s t} (holding : Holding w p s) (bad : p.admits P w s = (false,t)) :
    Before (p.reject P w t).1 (p.reject P w t).2
  fails {p s} (before : Before p s) (error : PoolError) :
    After (.failed error) p (s.note (.denied p.number seeker.ticket error))
  overruns {p s} (before : Before p s) : After .overrun p s

namespace StayRule
variable {seeker : Seeker} {Before : Pool → Shared σ → Prop}
  {Holding : Wrapper → Pool → Shared σ → Prop} {After : Outcome → Pool → Shared σ → Prop}
  {p : Pool} {s : Shared σ}

theorem giveUp (rule : StayRule P seeker Before Holding After) (before : Before p s) (bad : Nat) :
    After (p.giveUp seeker bad s).1 (p.giveUp seeker bad s).2.1 (p.giveUp seeker bad s).2.2 := by
  unfold Pool.giveUp
  split
  · exact rule.fails before _
  · exact rule.overruns before

theorem passed (rule : StayRule P seeker Before Holding After) (before : Before p s) {n : Nat}
    {q : Pool} {t : Shared σ} (passed : Passed P p s n q t) : Before q t := by
  induction passed with
  | start => exact before
  | again _ picks bad ih => exact rule.rejects (rule.finds ih picks) bad

theorem ends (rule : StayRule P seeker Before Holding After) (before : Before p s)
    {patience bad : Nat} {result : Outcome × Pool × Shared σ}
    (ends : Ends P seeker patience bad p s result) : After result.1 result.2.1 result.2.2 := by
  cases ends with
  | misses _ passed picks => exact rule.fails (rule.misses (rule.passed before passed) picks) _
  | sleeps _ passed picks => exact rule.blocks (rule.passed before passed) picks _
  | finds _ passed picks good => exact rule.grants (rule.finds (rule.passed before passed) picks) good
  | givesUp passed picks spoilt =>
    exact rule.giveUp (rule.rejects (rule.finds (rule.passed before passed) picks) spoilt) _

theorem stay (rule : StayRule P seeker Before Holding After) (before : Before p s) :
    After (p.stay P seeker s).1 (p.stay P seeker s).2.1 (p.stay P seeker s).2.2 :=
  rule.ends before (stayEnds P seeker p s)

theorem later (rule : StayRule P seeker Before Holding After) {n : Nat} {q : Pool} {t : Shared σ}
    (inTime : n ≤ p.settings.badConnectionLimit.toNat - seeker.bad.toNat)
    (passed : Passed P p s n q t)
    (finds : ∀ {w q' t'}, Picks P q t (.candidate w) q' t' → Holding w q' t')
    (misses : ∀ {error q' t'}, Picks P q t (.failed error) q' t' → Before q' t')
    (sleeps : Picks P q t .nothing q t →
      ∀ bad, After .blocked (q.block seeker bad t).2.1 (q.block seeker bad t).2.2) :
    After (p.stay P seeker s).1 (p.stay P seeker s).2.1 (p.stay P seeker s).2.2 := by
  let Result (r : Outcome × Pool × Shared σ) : Prop := After r.1 r.2.1 r.2.2
  have cases {bad next} (on : ∀ {q' t'}, Before q' t' → Result (next q' t')) :
      Result (q.round P seeker bad next t) :=
    roundCases (fun picks => rule.fails (misses picks) _) (fun picks => sleeps picks bad)
      (fun picks good => rule.grants (finds picks) good)
      (fun picks spoilt => on (rule.rejects (finds picks) spoilt))
  obtain ⟨left,same⟩ := Nat.exists_eq_add_of_le inTime
  rw [staySeek,same,passedSeek _ passed]
  cases left with
  | zero =>
    rw [seekLast]
    exact cases fun before => rule.giveUp before _
  | succ left =>
    rw [seekOn]
    exact cases fun before => rule.ends before (seekEnds _ .start _ _)

theorem first (rule : StayRule P seeker Before Holding After)
    (finds : ∀ {w q t}, Picks P p s (.candidate w) q t → Holding w q t)
    (misses : ∀ {error q t}, Picks P p s (.failed error) q t → Before q t)
    (sleeps : Picks P p s .nothing p s →
      ∀ bad, After .blocked (p.block seeker bad s).2.1 (p.block seeker bad s).2.2) :
    After (p.stay P seeker s).1 (p.stay P seeker s).2.1 (p.stay P seeker s).2.2 :=
  rule.later (Nat.zero_le _) .start finds misses sleeps

theorem onward (rule : StayRule P seeker Before Holding After) {n : Nat} {q q' : Pool}
    {t t' u : Shared σ} {w : Wrapper}
    (inTime : n ≤ p.settings.badConnectionLimit.toNat - seeker.bad.toNat)
    (passed : Passed P p s n q t) (picks : Picks P q t (.candidate w) q' t')
    (spoilt : q'.admits P w t' = (false,u))
    (before : Before (q'.reject P w u).1 (q'.reject P w u).2) :
    After (p.stay P seeker s).1 (p.stay P seeker s).2.1 (p.stay P seeker s).2.2 := by
  obtain ⟨left,same⟩ := Nat.exists_eq_add_of_le inTime
  rw [staySeek,same,passedSeek _ passed]
  cases left with
  | zero =>
    rw [seekLast,roundRejects picks spoilt]
    exact rule.giveUp before _
  | succ left =>
    rw [seekOn,roundRejects picks spoilt]
    exact rule.ends before (seekEnds _ .start _ _)

theorem enter (rule : StayRule P seeker Before Holding After)
    (closed : p.closed = true →
      After (.failed .poolClosed) p (s.note (.denied p.number seeker.ticket .poolClosed)))
    (opened : p.closed = false → Before p s) :
    After (p.enter P seeker s).1 (p.enter P seeker s).2.1 (p.enter P seeker s).2.2 := by
  unfold Pool.enter
  split
  · rename_i shut
    exact closed shut
  · rename_i unshut
    exact rule.stay (opened (by simpa using unshut))

theorem resume {wait : Wait} (rule : StayRule P wait.seeker Before Holding After)
    (closed : p.closed = true →
      After (.failed .waitInterrupted) (p.lingered (s.now - wait.since))
        ((p.rises wait s).note (.denied p.number wait.seeker.ticket .waitInterrupted)))
    (opened : p.closed = false → Before (p.lingered (s.now - wait.since)) (p.rises wait s)) :
    After (p.resume P wait s).1 (p.resume P wait s).2.1 (p.resume P wait s).2.2 := by
  simp only [Pool.resume]
  split
  · rename_i shut
    exact closed shut
  · rename_i unshut
    exact rule.stay (opened (by simpa [count] using unshut))

end StayRule

theorem stayAlike (P : Platform σ) (seeker : Seeker) (p : Pool) :
    StayRule P seeker (fun q _ => p.Alike q) (fun _ q _ => p.Alike q) (fun _ q _ => p.Alike q) where
  finds before picks := before.trans (picksAlike picks)
  misses before picks := before.trans (picksAlike picks)
  blocks before _ _ := before.trans (by unfold block; split <;> rfl)
  grants holding _ := holding.trans rfl
  rejects holding _ := holding.trans rfl
  fails before _ := before
  overruns before := before

theorem enterAlike (P : Platform σ) (seeker : Seeker) (p : Pool) (s : Shared σ) :
    p.Alike (p.enter P seeker s).2.1 :=
  (stayAlike P seeker p).enter (fun _ => .same p) (fun _ => .same p)

theorem resumeAlike (P : Platform σ) (wait : Wait) (p : Pool) (s : Shared σ) :
    p.Alike (p.resume P wait s).2.1 :=
  (stayAlike P wait.seeker p).resume (fun _ => rfl) (fun _ => rfl)

end ConnectionPool.Pool
