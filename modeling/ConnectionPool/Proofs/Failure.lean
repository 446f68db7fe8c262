import ConnectionPool.Proofs.Candidates
import ConnectionPool.Proofs.Shutdown
/-! Searches that end without a connection. None is kept by then, so that all the pool still has is
lent, and whoever holds that keeps the pool from being let go: the move ends where the search does. -/
namespace ConnectionPool

def PoolError.IsMiss : PoolError → Prop
  | .connect _ | .exhaustedRetries _ => True
  | _ => False

namespace Pool
variable {σ : Type} {P : Platform σ} {seeker : Seeker} {p q : Pool} {s t : Shared σ}

theorem stayExhausts {attempts : UInt32} (none : seeker.bad = 0)
    (failed : (p.stay P seeker s).1 = .failed (.exhaustedRetries attempts)) :
    ∃ q t, attempts.toNat = p.settings.badConnectionLimit.toNat + 1 ∧
      Passed P p s attempts.toNat q t ∧
      p.stay P seeker s = q.fail seeker (.exhaustedRetries attempts) t := by
  have ends := stayEnds P seeker p s
  rw [none,show (0 : UInt32).toNat = 0 from rfl,Nat.sub_zero] at ends
  generalize p.stay P seeker s = result at ends failed
  cases ends with
  | misses _ _ picks =>
    cases Outcome.failed.inj failed
    cases picks
  | sleeps | finds => cases failed
  | @givesUp q t w q' t' u passed picks spoilt =>
    have turned := passed.again picks spoilt
    unfold giveUp at failed ⊢
    split at failed
    · rename_i small
      obtain rfl := PoolError.exhaustedRetries.inj (Outcome.failed.inj failed)
      have exact : (UInt32.ofNat (0 + p.settings.badConnectionLimit.toNat + 1)).toNat =
          p.settings.badConnectionLimit.toNat + 1 := by
        rw [UInt32.toNat_ofNat_of_lt' small,Nat.zero_add]
      exact ⟨_,_,exact,exact ▸ turned,if_pos small⟩
    · cases failed

theorem stayMisses {cause : Cause} (failed : (p.stay P seeker s).1 = .failed (.connect cause)) :
    ∃ n q t t', Passed P p s n q t ∧ Picks P q t (.failed (.connect cause)) q t' ∧
      p.stay P seeker s = q.fail seeker (.connect cause) t' := by
  have ends := stayEnds P seeker p s
  generalize p.stay P seeker s = result at ends failed
  cases ends with
  | @misses n q t error q' t' inTime passed picks =>
    obtain rfl : error = .connect cause := Outcome.failed.inj failed
    have same : q' = q := by cases picks <;> rfl
    subst same
    exact ⟨n,q',t,t',passed,picks,rfl⟩
  | sleeps | finds => cases failed
  | givesUp =>
    unfold giveUp at failed
    split at failed <;> cases failed

end Pool

namespace World
variable {σ : Type} {P : Platform σ} {Alters : (σ → σ) → Prop} {outside : σ} {w : World σ}
  {a : Move σ} {seeker : Seeker} {p q r : Pool} {s t : Shared σ} {error : PoolError}

theorem errorSearches (numbered : w.Numbered) (failed : w.error? P a = some error)
    (miss : error.IsMiss) :
    ∃ seeker p s, w.Searches a seeker p s ∧ (p.stay P seeker s).1 = .failed error := by
  rcases otherErrors failed with ⟨door,rfl⟩ | ⟨index,rfl⟩ | ⟨_,rfl⟩ | rfl | ⟨_,rfl⟩
  · obtain ⟨p,behind,ends⟩ := getError.mp failed
    obtain ⟨n,known,here⟩ := doorPoolAt behind
    rw [numbered here] at ends
    cases closed : p.closed with
    | true =>
      rw [Pool.enterShut closed] at ends
      obtain rfl := Outcome.failed.inj ends
      exact miss.elim
    | false =>
      rw [Pool.enterOpen closed] at ends
      exact ⟨_,p,_,.get known here closed,ends⟩
  · obtain ⟨wait,p,awake,here,ends⟩ := resumeError.mp failed
    cases closed : p.closed with
    | true =>
      rw [Pool.resumeShut closed] at ends
      obtain rfl := Outcome.failed.inj ends
      exact miss.elim
    | false =>
      rw [Pool.resumeOpen closed] at ends
      exact ⟨_,_,_,.resume awake here closed,ends⟩
  all_goals exact miss.elim

structure Starts (w : World σ) (seeker : Seeker) (r p : Pool) (s : Shared σ) : Prop where
  here : w.pools[seeker.pool]? = some r
  pool : p = { r with counters := { r.counters with waitTime := p.counters.waitTime } }
  keys : s.nextKey = w.shared.nextKey
  opened : s.opened = w.shared.opened
  live : s.live = w.shared.live
  told : toll s.journal = toll w.shared.journal

namespace Starts
variable (starts : w.Starts seeker r p s)
include starts

theorem idle : p.idle = r.idle := by rw [starts.pool]

theorem active : p.active = r.active := by rw [starts.pool]

theorem bad : p.counters.bad = r.counters.bad := by rw [starts.pool]

theorem created : p.counters.created = r.counters.created := by rw [starts.pool]

theorem alike : r.Alike p := by
  unfold Pool.Alike
  rw [starts.pool]

end Starts

theorem starts (searches : w.Searches a seeker p s) : ∃ r, w.Starts seeker r p s := by
  cases searches with
  | get behind here => exact ⟨_,here,rfl,rfl,rfl,rfl,rfl⟩
  | resume awake here => exact ⟨_,here,rfl,rfl,rfl,rfl,rfl⟩

structure Unserved (w w' : World σ) (n : Nat) (q : Pool) (t : Shared σ) : Prop where
  pool : w'.pools[n]? = some q
  elsewhere : ∀ m, m ≠ n → w'.pools[m]? = w.pools[m]?
  shared : w'.shared = t
  handles : ∀ slot, w'.handle? slot = w.handle? slot

theorem searchFails (attained : Attained P Alters outside w) (searches : w.Searches a seeker p s)
    (stays : p.stay P seeker s = q.fail seeker error t) (bare : q.idle = [])
    (lent : q.active ⊆ p.active) :
    w.Unserved (w.move P a) seeker.pool q (t.note (.denied q.number seeker.ticket error)) := by
  obtain ⟨r,starts⟩ := starts searches
  obtain ⟨seated,searched⟩ := searched attained searches
  have pool : seated.pools[seeker.pool]? = some q := by
    rw [searched.pool (begins attained searches),stays]
    rfl
  have kept : w.move P a = seated := by
    rw [searched.move]
    rcases letGoCases (P := P) searched.numbered seeker.pool with
      ⟨same,_⟩ | ⟨q',alone,there,some,_⟩
    · exact same
    · obtain rfl := Option.some.inj (there.symm.trans pool)
      rw [Pool.tracked,bare,List.nil_append] at some
      obtain ⟨x,member⟩ := List.exists_mem_of_ne_nil _ some
      have had : x ∈ r.active := by
        have before := lent member
        rw [starts.pool] at before
        exact before
      obtain ⟨slot,held⟩ := (everyOwned attained).lent starts.here had
      exact absurd (handleRefers (searched.held held)) alone
  have seats := searchSeated (P := P) attained searches
  rw [stays] at seats
  refine ⟨kept ▸ pool,fun m other => ?_,?_,
    fun slot => Option.ext fun h => ⟨fun held => ?_,seats.stays⟩⟩
  · rw [kept,searched.pools,List.getElem?_set_ne (Ne.symm other)]
  · rw [kept,searched.shared,stays]
    rfl
  · refine (seats.stems held).resolve_right ?_
    rintro ⟨_,_,granted,_⟩
    cases granted

end World
end ConnectionPool
