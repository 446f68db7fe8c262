import Mathlib.Data.Setoid.Basic
import ConnectionPool.Proofs.Relay
import ConnectionPool.Proofs.Return
import ConnectionPool.Proofs.Veil
/-! Pools over an outside that does not look at passwords. Leaving the passwords and the type codes
out of a state and acting on what is left comes to the same as acting first. -/
namespace ConnectionPool
variable {σ : Type} {P : Platform σ} {Same : Setoid σ}

/-- Passwords make no difference to any reply; outsides that differ in nothing else cannot be told
apart by asking. -/
structure Platform.Blind (P : Platform σ) (Same : Setoid σ) : Prop where
  connects : ∀ (conn : Nat) {source source' : DataSource} {o o' : σ},
    source.veil = source'.veil → Same o o' →
      (P.connect conn source o).1 = (P.connect conn source' o').1 ∧
      Same (P.connect conn source o).2 (P.connect conn source' o').2
  answers : ∀ (conn : Nat) (request : Request) {o o' : σ}, Same o o' →
    (P.answer conn request o).1 = (P.answer conn request o').1 ∧
    Same (P.answer conn request o).2 (P.answer conn request o').2

def TypeCode.hidden : TypeCode := ⟨none,none,none⟩

def Platform.veiled (P : Platform σ) (blind : P.Blind Same) : Platform (Quotient Same) where
  connect conn source := Quotient.lift
    (fun o => (P.connect conn source o).map id (Quotient.mk Same)) fun _ _ same =>
      Prod.ext (blind.connects conn rfl same).1 (Quotient.sound (blind.connects conn rfl same).2)
  answer conn request := Quotient.lift
    (fun o => (P.answer conn request o).map id (Quotient.mk Same)) fun _ _ same =>
      Prod.ext (blind.answers conn request same).1
        (Quotient.sound (blind.answers conn request same).2)
  typeCode _ := .hidden

def Wrapper.veil (w : Wrapper) : Wrapper := { w with typeCode := w.typeCode.map fun _ => .hidden }

theorem Wrapper.veilTwice (w : Wrapper) : w.veil.veil = w.veil := by
  simp only [veil,Option.map_map]
  rfl

theorem Wrapper.veilAppend (ws : List Wrapper) (w : Wrapper) :
    ws.map veil ++ [w.veil] = (ws ++ [w]).map veil := by
  rw [List.map_append]
  rfl

def Event.veil : Event → Event
  | opened pool conn id source => .opened pool conn id source.veil
  | rejected pool w => .rejected pool w.veil
  | reclaimed pool w held => .reclaimed pool w.veil held
  | granted pool ticket w took => .granted pool ticket w.veil took
  | staleReturn pool w => .staleReturn pool w.veil
  | returned pool w healthy held => .returned pool w.veil healthy held
  | event => event

def Pool.veil (p : Pool) : Pool :=
  { p with
    source := p.source.veil
    expected := .hidden
    idle := p.idle.map Wrapper.veil
    active := p.active.map Wrapper.veil }

def Pick.veil : Pick → Pick
  | candidate w => .candidate w.veil
  | failed error => .failed error
  | nothing => .nothing

def Outcome.veil : Outcome → Outcome
  | granted w => .granted w.veil
  | failed error => .failed error
  | blocked => .blocked
  | overrun => .overrun

namespace Shared

def veil (Same : Setoid σ) (s : Shared σ) : Shared (Quotient Same) :=
  { s with outside := Quotient.mk Same s.outside, journal := s.journal.map Event.veil }

theorem veilRelays (blind : P.Blind Same) (caller : Caller) (conn : Nat) :
    Relays P (P.veiled blind) (veil Same) caller caller conn conn :=
  fun _ _ => rfl

theorem veilDispose (blind : P.Blind Same) (pool conn : Nat) (s : Shared σ) :
    (s.veil Same).dispose (P.veiled blind) pool conn = (s.dispose P pool conn).veil Same :=
  (veilRelays blind (.pool pool) conn).dispose (fun _ => rfl) s

end Shared

namespace Pool
variable (blind : P.Blind Same) (p : Pool) (s : Shared σ) (w : Wrapper) (seeker : Seeker)

abbrev veilWith (Same : Setoid σ) : Pool × Shared σ → Pool × Shared (Quotient Same) :=
  Prod.map veil (Shared.veil Same)

theorem veilConnect : (P.veiled blind).connect s.opened p.veil.source (s.veil Same).outside =
    (P.connect s.opened p.source s.outside).map id (Quotient.mk Same) := by
  have alike := blind.connects s.opened p.source.veilTwice (Same.refl s.outside)
  exact Prod.ext alike.1 (Quotient.sound alike.2)

theorem veilHasActiveRoom : p.veil.HasActiveRoom ↔ p.HasActiveRoom := by
  unfold HasActiveRoom
  rw [veil,List.length_map]

theorem veilHasIdleRoom : p.veil.HasIdleRoom ↔ p.HasIdleRoom := by
  unfold HasIdleRoom
  rw [veil,List.length_map]

theorem veilIsActive : p.veil.IsActive w.veil ↔ p.IsActive w := by
  unfold IsActive veil
  rw [List.map_map]
  rfl

theorem veilSeize : p.veil.seize (P.veiled blind) w.veil (s.veil Same) =
    (p.seize P w s).veil Same :=
  congrArg Prod.snd ((Shared.veilRelays blind (.pool p.number) w.conn).rollback
    ((s.invalidate w).note (.reclaimed p.number w (w.heldFor s.now))))

section Stay
variable {p q : Pool} {s t : Shared σ} {w : Wrapper} {seeker : Seeker} {pick : Pick}

theorem veilSetUp {outside : σ} {conn : Nat} {reply : Except Cause Unit}
    (setUp : (p.welcome outside s).setUp P (.pool p.number) conn p.source = (reply,t)) :
    (p.veil.welcome (Quotient.mk Same outside) (s.veil Same)).setUp (P.veiled blind)
      (.pool p.number) conn p.veil.source = (reply,t.veil Same) :=
  ((Shared.veilRelays blind (.pool p.number) conn).setUp (p.welcome outside s) p.source).trans
    (congrArg (Prod.map id (Shared.veil Same)) setUp)

theorem veilPicks (picks : Picks P p s pick q t) :
    Picks (P.veiled blind) p.veil (s.veil Same) pick.veil q.veil (t.veil Same) := by
  have none (idle : p.idle = []) : p.veil.idle = [] := congrArg (List.map Wrapper.veil) idle
  have met {reply outside} (connect : P.connect s.opened p.source s.outside = (reply,outside)) :=
    (veilConnect blind p s).trans (congrArg (Prod.map id (Quotient.mk Same)) connect)
  cases picks with
  | kept idle => exact .kept (congrArg (List.map Wrapper.veil) idle)
  | refused idle room connect =>
    exact .refused (none idle) ((veilHasActiveRoom p).mpr room) (met connect)
  | unfit idle room connect setUp =>
    rw [← Shared.veilDispose blind]
    exact .unfit (none idle) ((veilHasActiveRoom p).mpr room) (met connect) (veilSetUp blind setUp)
  | fresh idle room connect setUp =>
    exact .fresh (none idle) ((veilHasActiveRoom p).mpr room) (met connect) (veilSetUp blind setUp)
  | @overdue oldest rest idle full active late =>
    have picked := Picks.overdue (P := P.veiled blind) (p := p.veil) (s := s.veil Same) (none idle)
      (mt (veilHasActiveRoom p).mp full) (congrArg (List.map Wrapper.veil) active) late
    rw [veilSeize] at picked
    exact picked
  | nothing idle full inTime =>
    refine .nothing (none idle) (mt (veilHasActiveRoom p).mp full) fun x first => ?_
    have heads : p.veil.active.head? = p.active.head?.map Wrapper.veil := List.head?_map ..
    rw [heads] at first
    obtain ⟨oldest,front,rfl⟩ := Option.mem_map.mp first
    exact inTime oldest front

theorem veilInspect (p : Pool) (w : Wrapper) (s : Shared σ) :
    p.veil.inspect (P.veiled blind) w.veil (s.veil Same) =
      (p.inspect P w s).map id (Shared.veil Same) := by
  have checked := (Shared.veilRelays blind (.pool p.number) w.conn).checkHealth s
    (w.unusedFor s.now) p.settings
  unfold inspect
  by_cases live : s.IsLive w
  · rw [if_pos live]
    refine (if_pos live).trans ?_
    exact congrArg (Prod.map Health.isHealthy id) checked
  · rw [if_neg live]
    exact if_neg live

theorem veilAdmits (p : Pool) (w : Wrapper) (s : Shared σ) :
    p.veil.admits (P.veiled blind) w.veil (s.veil Same) =
      (p.admits P w s).map id (Shared.veil Same) := by
  unfold admits
  rw [veilInspect]
  rcases p.inspect P w s with ⟨_ | _,t⟩
  · rfl
  · have cleared := (Shared.veilRelays blind (.pool p.number) w.conn).rollback t
    have same : (p.veil.number = p.number) ∧ w.veil.conn = w.conn := ⟨rfl,rfl⟩
    simp only [Prod.map_apply,id_eq,same,cleared]
    rcases t.rollbackUnlessAutoCommit P (.pool p.number) w.conn with ⟨_ | _,u⟩ <;> rfl

theorem veilAdmitted {good : Bool} (admitted : p.admits P w s = (good,t)) :
    p.veil.admits (P.veiled blind) w.veil (s.veil Same) = (good,t.veil Same) :=
  (veilAdmits blind p w s).trans (congrArg (Prod.map id (Shared.veil Same)) admitted)

theorem veilDiscard (p : Pool) (w : Wrapper) (s : Shared σ) :
    p.veil.discard (P.veiled blind) w.veil (s.veil Same) = veilWith Same (p.discard P w s) :=
  Prod.ext rfl (Shared.veilDispose blind p.number w.conn (s.invalidate w))

theorem veilReject (p : Pool) (w : Wrapper) (s : Shared σ) :
    p.veil.reject (P.veiled blind) w.veil (s.veil Same) = veilWith Same (p.reject P w s) :=
  veilDiscard blind (p.count fun c => { c with bad := c.bad + 1 }) w
    (s.note (.rejected p.number w))

theorem veilPassed {n : Nat} (passed : Passed P p s n q t) :
    Passed (P.veiled blind) p.veil (s.veil Same) n q.veil (t.veil Same) := by
  induction passed with
  | start => exact .start
  | @again n q t w q' t' u passed picks bad ih =>
    have next := ih.again (veilPicks blind picks) (veilAdmitted blind bad)
    rwa [veilReject] at next

theorem veilBlock (seeker : Seeker) (bad : Nat) (p : Pool) (s : Shared σ) :
    p.veil.block seeker bad (s.veil Same) =
      (p.block seeker bad s).map Outcome.veil (veilWith Same) := by
  unfold block
  split <;> rfl

theorem veilGrant (seeker : Seeker) (w : Wrapper) (p : Pool) (s : Shared σ) :
    p.veil.grant seeker w.veil (s.veil Same) =
      (p.grant seeker w s).map Outcome.veil (veilWith Same) := by
  refine Prod.ext rfl (Prod.ext ?_ rfl)
  exact congrArg (fun active => ({ p.veil with active } : Pool).count fun c =>
    { c with
      requests := c.requests + 1
      requestTime := c.requestTime + (s.now - seeker.startedAt) })
    (Wrapper.veilAppend p.active (w.stamped p.expected s.now))

theorem veilGiveUp (seeker : Seeker) (bad : Nat) (p : Pool) (s : Shared σ) :
    p.veil.giveUp seeker bad (s.veil Same) =
      (p.giveUp seeker bad s).map Outcome.veil (veilWith Same) := by
  unfold giveUp
  split <;> rfl

theorem veilEnds {patience bad : Nat} {result : Outcome × Pool × Shared σ}
    (ends : Ends P seeker patience bad p s result) :
    Ends (P.veiled blind) seeker patience bad p.veil (s.veil Same)
      (result.map Outcome.veil (veilWith Same)) := by
  cases ends with
  | misses inTime passed picks =>
    exact .misses inTime (veilPassed blind passed) (veilPicks blind picks)
  | sleeps inTime passed picks =>
    rw [← veilBlock]
    exact .sleeps inTime (veilPassed blind passed) (veilPicks blind picks)
  | finds inTime passed picks good =>
    rw [← veilGrant]
    exact .finds inTime (veilPassed blind passed) (veilPicks blind picks) (veilAdmitted blind good)
  | givesUp passed picks spoilt =>
    have ends : Ends (P.veiled blind) seeker patience bad p.veil (s.veil Same) _ :=
      .givesUp (veilPassed blind passed) (veilPicks blind picks) (veilAdmitted blind spoilt)
    rw [veilReject] at ends
    rw [← veilGiveUp]
    exact ends

end Stay

theorem veilStay : p.veil.stay (P.veiled blind) seeker (s.veil Same) =
    (p.stay P seeker s).map Outcome.veil (veilWith Same) :=
  endsSeek (veilEnds blind (stayEnds P seeker p s))

theorem veilEnter : p.veil.enter (P.veiled blind) seeker (s.veil Same) =
    (p.enter P seeker s).map Outcome.veil (veilWith Same) := by
  cases shut : p.closed with
  | true => rw [enterShut shut,enterShut (p := p.veil) shut]; rfl
  | false => rw [enterOpen shut,enterOpen (p := p.veil) shut,veilStay]

theorem veilResume (wait : Wait) : p.veil.resume (P.veiled blind) wait (s.veil Same) =
    (p.resume P wait s).map Outcome.veil (veilWith Same) := by
  cases shut : p.closed with
  | true => rw [resumeShut shut,resumeShut (p := p.veil) shut]; rfl
  | false =>
    rw [resumeOpen shut,resumeOpen (p := p.veil) shut]
    exact veilStay blind (p.lingered (s.now - wait.since)) (p.rises wait s) wait.seeker

theorem veilDiscardAll (ws : List Wrapper) :
    discardAll (P.veiled blind) (ws.map Wrapper.veil) p.veil (s.veil Same) =
      veilWith Same (discardAll P ws p s) := by
  induction ws generalizing p s with
  | nil => rfl
  | cons w ws ih =>
    rw [List.map_cons,discardAll,veilDiscard]
    exact ih _ _

theorem veilSweep :
    p.veil.sweep (P.veiled blind) (s.veil Same) = veilWith Same (p.sweep P s) := by
  have order : p.veil.active.reverse ++ p.veil.idle.reverse =
      (p.active.reverse ++ p.idle.reverse).map Wrapper.veil := by
    simp only [veil,List.map_append,List.map_reverse]
  have counts : p.veil.active.length = p.active.length ∧ p.veil.idle.length = p.idle.length :=
    ⟨List.length_map ..,List.length_map ..⟩
  unfold sweep
  rw [order,counts.1,counts.2]
  exact veilDiscardAll blind (p.swept P) (s.note (.swept p.number p.active.length p.idle.length)) _

theorem veilCloseAll :
    p.veil.closeAll (P.veiled blind) (s.veil Same) = veilWith Same (p.closeAll P s) := by
  unfold closeAll
  rw [veilSweep]
  rfl

theorem veilClose :
    p.veil.close (P.veiled blind) (s.veil Same) = veilWith Same (p.close P s) := by
  have closed : p.veil.closed = p.closed := rfl
  unfold close
  rw [closed]
  split
  · rfl
  · exact veilCloseAll blind { p with closed := true } s

theorem veilConfigure (change : Change) :
    p.veil.configure (P.veiled blind) change.veil (s.veil Same) =
      (p.configure P change s).map id (veilWith Same) := by
  have applied : change.veil.apply (p.veil.source,p.veil.settings) = _ :=
    (change.veilApply (p.source,p.settings)).symm
  unfold configure
  rw [applied]
  rcases change.apply (p.source,p.settings) with ⟨source,settings⟩
  simp only [Prod.map_apply,id_eq]
  split
  · rfl
  · exact Prod.ext rfl (veilCloseAll blind { p with source, settings } s)

theorem veilAbandon :
    p.veil.abandon (P.veiled blind) (s.veil Same) = veilWith Same (p.abandon P s) := by
  have none : p.veil.tracked = [] ↔ p.tracked = [] := by
    simp only [tracked,veil,List.append_eq_nil_iff,List.map_eq_nil_iff]
  unfold abandon
  by_cases empty : p.tracked = []
  · rw [if_pos empty,if_pos (none.mpr empty)]
    rfl
  · rw [if_neg empty,if_neg (mt none.mp empty),veilSweep]

theorem veilRemoveActive : p.veil.removeActive w.veil = (p.removeActive w).veil := by
  have left : p.veil.active.eraseP (·.key = w.key) =
      (p.active.eraseP (·.key = w.key)).map Wrapper.veil := List.eraseP_map
  unfold removeActive
  exact congrArg (fun active => ({ p.veil with active } : Pool)) left

theorem veilStore (code : w.typeCode = some p.expected) :
    p.veil.store (P.veiled blind) w.veil (s.veil Same) = veilWith Same (p.store P w s) := by
  -- Codes differ from one program to the other, but whether they fit does not: here they always do.
  have codes : w.veil.typeCode = some p.veil.expected :=
    congrArg (Option.map fun _ => TypeCode.hidden) code
  have keeps (t : Shared σ) : p.veil.keep w.veil (t.veil Same) = veilWith Same (p.keep w t) := by
    refine Prod.ext ?_ rfl
    exact congrArg (fun idle => ({ p.veil with idle } : Pool))
      (Wrapper.veilAppend p.idle (w.rewrapped t.nextKey t.now))
  have cleared := (Shared.veilRelays blind (.pool p.number) w.conn).rollback s
  have names : p.veil.number = p.number ∧ w.veil.conn = w.conn := ⟨rfl,rfl⟩
  unfold store
  simp only [veilHasIdleRoom,code,codes,and_true,names,cleared]
  split
  · rcases s.rollbackUnlessAutoCommit P (.pool p.number) w.conn with ⟨_ | _,t⟩
    · exact veilDiscard blind p w t
    · exact keeps t
  · exact veilDiscard blind p w s

theorem veilRelease (code : p.IsActive w → w.typeCode = some p.expected) :
    p.veil.release (P.veiled blind) w.veil (s.veil Same) = veilWith Same (p.release P w s) := by
  have found := veilInspect blind (p.removeActive w) w s
  unfold release
  by_cases lent : p.IsActive w
  · rw [if_pos lent,if_pos ((veilIsActive p w).mpr lent)]
    simp only [veilRemoveActive,found]
    rcases (p.removeActive w).inspect P w s with ⟨_ | _,t⟩
    · have discarded := veilDiscard blind
        ((p.removeActive w).count fun c => { c with bad := c.bad + 1 }) w
        (t.note (.returned p.number w false (w.heldFor s.now)))
      exact congrArg (Prod.map id (Shared.notify · p.number)) discarded
    · have stored := veilStore blind (p.checkIn w s.now)
        (t.note (.returned p.number w true (w.heldFor s.now))) w (code lent)
      exact congrArg (fun x => (x.1,x.2.notify x.1.number)) stored
  · rw [if_neg lent,if_neg (mt (veilIsActive p w).mp lent)]
    rfl

end Pool
end ConnectionPool
