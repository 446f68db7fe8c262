import ConnectionPool.Proofs.Ages
import ConnectionPool.Proofs.LastUse
import ConnectionPool.Proofs.Tracing
/-! The journal of a run with its instants tells since when each caller has been there or asleep, and
since when each connection has existed, been lent or been kept. -/
namespace ConnectionPool

structure Log.Begun (log : Log) (x : Wrapper) : Prop where
  lent : x.createdAt ≤ x.checkoutAt
  used : x.createdAt ≤ x.lastUsedAt
  opened : ∃ pool source, (x.createdAt,.opened pool x.conn x.id source) ∈ log

theorem Log.Begun.later {log : Log} {x : Wrapper} (begun : log.Begun x) (now : Nat)
    (new : List Event) : (log.dated now new).Begun x := by
  obtain ⟨pool,source,opened⟩ := begun.opened
  exact ⟨begun.lent,begun.used,pool,source,Log.memDated.mpr (.inr opened)⟩

namespace World
variable {σ : Type} {P : Platform σ} {Alters : (σ → σ) → Prop} {outside : σ} {w w' : World σ}
  {n slot now : Nat} {p q : Pool} {t : Shared σ} {h : Handle} {x : Wrapper} {log : Log}
  {seeker : Seeker} {outcome : Outcome} {event : Event} {new : List Event} {slots : List Slot}

structure Reads (w : World σ) (log : Log) : Prop where
  attends : log.Attends w.shared.unfinished w.slots.length
  lent : ∀ x ∈ w.lentOut, log.newest (Event.lends x.key) = some x.checkoutAt
  kept : ∀ x ∈ w.keptBack, log.newest (Event.takesBack x.conn) = some x.lastUsedAt
  begun : ∀ x ∈ w.tracked, log.Begun x
  held : ∀ slot h, w.handle? slot = some h → log.Begun h.wrapper ∧
    h.wrapper.lastUsedAt = h.wrapper.checkoutAt ∧
    ∃ took, (h.wrapper.checkoutAt,.granted h.pool slot h.wrapper took) ∈ log
  honest : log.Honest

namespace Reads

theorem past (reads : w.Reads log)
    (attends : Log.Attends ((now,event) :: log) w.shared.unfinished w.slots.length)
    (lends : ∀ x ∈ w.lentOut, event.lends x.key = false)
    (keeps : ∀ x ∈ w.keptBack, event.takesBack x.conn = false)
    (span : event.span = log.lasted now event) : w.Reads ((now,event) :: log) where
  attends := attends
  lent x member := (Log.newestOther (lends x member)).trans (reads.lent x member)
  kept x member := (Log.newestOther (keeps x member)).trans (reads.kept x member)
  begun x member := (reads.begun x member).later now [event]
  held slot h there := by
    obtain ⟨begun,used,took,granted⟩ := reads.held slot h there
    exact ⟨begun.later now [event],used,took,List.mem_cons_of_mem _ granted⟩
  honest := ⟨span,reads.honest⟩

theorem upkeep (reads : w.Reads log) (now : Nat) (plain : ∀ e ∈ new, e.isUpkeep) :
    w.Reads (log.dated now new) := by
  refine Log.datedKeeps w.Reads reads fun older reads e member => ?_
  obtain ⟨silent,lends,keeps⟩ := Event.upkeepSilent (plain e member)
  exact reads.past (reads.attends.silent silent) (fun x _ => lends x.key) (fun x _ => keeps x.conn)
    (reads.honest.upkeep (plain e member)).1

theorem notes (reads : w.Reads log) (here : w.pools[n]? = some p)
    (fits : ∀ e ∈ new, p.Notes w.shared e) : w.Reads (log.dated w.shared.now new) := by
  refine Log.datedKeeps w.Reads reads fun older reads e member => ?_
  have noted := fits e member
  obtain ⟨silent,lends,keeps⟩ := Pool.notesSilent noted
  refine reads.past (reads.attends.silent silent) (fun x _ => lends x.key) (fun x _ => keeps x.conn) ?_
  cases e with
  | reclaimed m x held =>
    obtain ⟨_,active,rfl,_⟩ := noted
    have lent := reads.lent x (memPools.mpr ⟨n,p,here,active⟩)
    exact congrArg (w.shared.now - Option.getD · w.shared.now) lent.symm
  | blocked | resumed | granted | denied | staleReturn | returned => cases noted
  | _ => rfl

theorem frame (reads : w.Reads log) (callers : w'.shared.unfinished ⊆ w.shared.unfinished)
    (seats : w.slots.length ≤ w'.slots.length) (lent : w'.lentOut ⊆ w.lentOut)
    (kept : w'.keptBack ⊆ w.keptBack)
    (held : ∀ slot h, w'.handle? slot = some h →
      ∃ k, w.handle? slot = some k ∧ k.pool = h.pool ∧ k.wrapper = h.wrapper) : w'.Reads log where
  attends := reads.attends.fewer seats callers
  lent x member := reads.lent x (lent member)
  kept x member := reads.kept x (kept member)
  begun x member := reads.begun x (trackedWhere.mpr ((trackedWhere.mp member).imp (kept ·) (lent ·)))
  held slot h there := by
    obtain ⟨k,before,pool,same⟩ := held slot h there
    exact pool ▸ same ▸ reads.held slot k before
  honest := reads.honest

end Reads

section Put
variable (here : w.pools[n]? = some p)
include here

theorem memPoolsSet {lists : Pool → List Wrapper} :
    x ∈ (w.pools.set n q).flatMap lists ↔
      x ∈ lists q ∨ ∃ (m : Nat) (r : Pool), m ≠ n ∧ w.pools[m]? = some r ∧ x ∈ lists r := by
  change x ∈ (w.put n q w.shared).pools.flatMap lists ↔ _
  rw [memPools]
  constructor
  · rintro ⟨m,r,there,member⟩
    rcases poolAtPut there with ⟨rfl,rfl⟩ | ⟨apart,old⟩
    · exact .inl member
    · exact .inr ⟨m,r,apart,old,member⟩
  · rintro (member | ⟨m,r,apart,old,member⟩)
    · exact ⟨n,q,List.getElem?_set_self (List.getElem?_eq_some_iff.mp here).1,member⟩
    · exact ⟨m,r,(List.getElem?_set_ne (Ne.symm apart)).trans old,member⟩

theorem setStems {lists : Pool → List Wrapper} {New : Wrapper → Prop}
    (stems : ∀ x ∈ lists q, x ∈ lists p ∨ New x)
    (member : x ∈ (w.pools.set n q).flatMap lists) : x ∈ w.pools.flatMap lists ∨ New x := by
  rcases (memPoolsSet here).mp member with own | ⟨m,r,_,there,other⟩
  · exact (stems x own).imp_left fun old => memPools.mpr ⟨n,p,here,old⟩
  · exact .inl (memPools.mpr ⟨m,r,there,other⟩)

theorem setSubset {lists : Pool → List Wrapper} (subset : lists q ⊆ lists p) :
    (w.pools.set n q).flatMap lists ⊆ w.pools.flatMap lists := fun _ member =>
  have stems : ∀ y ∈ lists q, y ∈ lists p ∨ False := fun _ own => .inl (subset own)
  (setStems here stems member).elim id False.elim

end Put

structure Arrives (w : World σ) (log : Log) (seeker : Seeker) (seats : Nat) : Prop where
  inside : seeker.ticket < seats
  longer : w.slots.length ≤ seats
  came : (log.oldest (Event.isAbout seeker.ticket)).getD w.shared.now = seeker.startedAt
  unanswered : ∀ entry ∈ log, entry.2.answered? ≠ some seeker.ticket
  alone : ∀ y ∈ w.shared.unfinished, y.seeker.ticket ≠ seeker.ticket

theorem Arrives.silent {seats : Nat} (arrives : w.Arrives log seeker seats) (now : Nat)
    (silent : ∀ e ∈ new, e.ticket? = none) :
    w.Arrives (log.dated now new) seeker seats := by
  refine { arrives with came := ?_, unanswered := ?_ }
  · refine Eq.trans (congrArg (Option.getD · w.shared.now) ?_) arrives.came
    refine Log.datedKeeps (fun older => older.oldest _ = log.oldest _) rfl
      fun older same e member => (Log.oldestOther ?_).trans same
    simp [Event.isAbout,silent e member]
  · intro entry member
    rcases Log.memDated.mp member with ⟨_,fresh⟩ | old
    · intro answered
      cases (silent _ fresh).symm.trans (Event.answeredTicket answered)
    · exact arrives.unanswered entry old

theorem toldAbout {now : Nat} (told : event ∈ outcome.told n seeker now) :
    event.ticket? = some seeker.ticket := by
  cases outcome with
  | granted | failed | blocked => rw [List.mem_singleton.mp told]; rfl
  | overrun => cases told

theorem attendsTold {seats : Nat} (attends : log.Attends w.shared.unfinished w.slots.length)
    (arrives : w.Arrives log seeker seats) :
    (log.dated w.shared.now (outcome.told n seeker w.shared.now)).Attends w.shared.unfinished
      seats := by
  have wide := attends.fewer arrives.longer (List.Subset.refl _)
  have one {event : Event} (about : event.ticket? = some seeker.ticket) :
      Log.Attends ((w.shared.now,event) :: log) w.shared.unfinished seats := by
    refine wide.past (fun y member same => ?_) (fun ticket same => ?_) (fun ticket answered => ?_)
    · exact arrives.alone y member (Option.some.inj (same.symm.trans about))
    · exact Option.some.inj (about.symm.trans same) ▸ arrives.inside
    · exact Option.some.inj (about.symm.trans (Event.answeredTicket answered)) ▸ arrives.unanswered
  cases outcome with
  | granted | failed | blocked => exact one rfl
  | overrun => exact wide

section Stay
variable (reads : w.Reads log) (here : w.pools[n]? = some p)
  (tells : Pool.Tells p w.shared seeker outcome q t)
  (seated : Seated n outcome.wrapper? seeker.ticket w { w.put n q t with slots })
  (owned : Owned { w.put n q t with slots }) (arrives : w.Arrives log seeker slots.length)

include reads tells arrives in
theorem attendsStay (own : seeker.pool = n) :
    (log.dated w.shared.now (outcome.told n seeker w.shared.now)).Attends t.unfinished
      slots.length := by
  refine (attendsTold reads.attends arrives).join (Nat.le_refl _) fun y member => ?_
  refine (tells.callers y member).imp_right ?_
  rintro ⟨rfl,since,ticket,pool,started⟩
  constructor
  · rw [since,ticket,pool,own]
    exact Log.newestCons (by simp [Event.sends])
  · rw [started,ticket,← arrives.came]
    exact Log.oldestCons (by simp [Event.isAbout,Event.ticket?])
  · intro entry inside
    rw [ticket]
    rcases List.mem_cons.mp inside with rfl | old
    · simp [Event.answered?]
    · exact arrives.unanswered entry old

include reads here tells owned in
theorem lentStay (member : x ∈ lentOut { w.put n q t with slots }) :
    (log.dated w.shared.now (outcome.told n seeker w.shared.now)).newest (Event.lends x.key) =
      some x.checkoutAt := by
  have tracked {y : Wrapper} (lent : y ∈ lentOut { w.put n q t with slots }) :=
    trackedWhere.mpr (.inr lent)
  have granted {y : Wrapper} (granted : outcome = .granted y) : y ∈ lentOut { w.put n q t with slots } :=
    (memPoolsSet here).mpr (.inl (tells.lent y granted).1)
  by_cases mine : ∃ y, outcome = .granted y ∧ y.key = x.key
  · obtain ⟨y,rfl,same⟩ := mine
    obtain rfl := owned.ledger.sameKey (tracked (granted rfl)) (tracked member) same
    rw [(tells.lent y rfl).2.1]
    exact Log.newestCons (by simp [Event.lends])
  · have old : x ∈ w.lentOut := by
      refine (setStems here tells.active member).resolve_right fun new => ?_
      exact mine ⟨x,new,rfl⟩
    refine Eq.trans (Log.newestDated fun e told => ?_) (reads.lent x old)
    cases outcome with
    | granted y =>
      rw [List.mem_singleton.mp told]
      exact beq_false_of_ne fun same => mine ⟨y,rfl,same⟩
    | failed | blocked => rw [List.mem_singleton.mp told]; rfl
    | overrun => cases told

include reads tells seated in
theorem heldStay (begun : ∀ x, outcome = .granted x → log.Begun x)
    (held : handle? { w.put n q t with slots } slot = some h) :
    log.Begun h.wrapper ∧ h.wrapper.lastUsedAt = h.wrapper.checkoutAt ∧
      ∃ took, (h.wrapper.checkoutAt,.granted h.pool slot h.wrapper took) ∈
        log.dated w.shared.now (outcome.told n seeker w.shared.now) := by
  rcases seated.stems held with old | ⟨rfl,x,granted,rfl⟩
  · obtain ⟨begun,used,took,before⟩ := reads.held slot h old
    exact ⟨begun,used,took,Log.memDated.mpr (.inr before)⟩
  · cases outcome with
    | granted y =>
      obtain rfl := Option.some.inj granted
      obtain ⟨_,checkout,used,_⟩ := tells.lent y rfl
      rw [checkout,used]
      exact ⟨begun y rfl,rfl,_,List.mem_cons_self⟩
    | failed | blocked | overrun => cases granted

include reads here tells seated owned arrives in
theorem Reads.told (own : seeker.pool = n) (begun : ∀ x, outcome = .granted x → log.Begun x) :
    Reads { w.put n q t with slots }
      (log.dated w.shared.now (outcome.told n seeker w.shared.now)) where
  attends := attendsStay reads tells arrives own
  lent x member := lentStay reads here tells owned member
  kept x member := by
    have old := reads.kept x (setSubset here tells.idle member)
    refine Eq.trans (Log.newestDated fun e told => ?_) old
    have about := toldAbout told
    cases e <;> first | rfl | cases about
  begun x member := by
    have old : log.Begun x := by
      rcases trackedWhere.mp member with kept | lent
      · exact reads.begun x (trackedWhere.mpr (.inl (setSubset here tells.idle kept)))
      · exact (setStems here tells.active lent).elim
          (fun old => reads.begun x (trackedWhere.mpr (.inr old))) (begun x)
    exact old.later _ _
  held slot h there := by
    obtain ⟨begun,used,granted⟩ := heldStay reads tells seated begun there
    exact ⟨begun.later _ _,used,granted⟩
  honest := by
    cases outcome with
    | granted x => exact ⟨congrArg (w.shared.now - ·) arrives.came.symm,reads.honest⟩
    | failed | blocked => exact ⟨rfl,reads.honest⟩
    | overrun => exact reads.honest

end Stay
def timeline (P : Platform σ) : List (Move σ) → World σ → Log → Log
  | [],_,log => log
  | a :: rest,w,log => timeline P rest (w.move P a) ((w.move P a).shared.log log)

structure Dated (w : World σ) (log : Log) : Prop where
  journal : log.map Prod.snd = w.shared.journal
  past : ∀ entry ∈ log, entry.1 ≤ w.shared.now
  reads : w.Reads log

namespace Dated

theorem length (dated : w.Dated log) : log.length = w.shared.journal.length := by
  rw [← dated.journal,List.length_map]

theorem grown (dated : w.Dated log) (written : t.journal = new ++ w.shared.journal) :
    t.log log = log.dated t.now new := Shared.logDated dated.length written

theorem write (dated : w.Dated log) (written : w'.shared.journal = new ++ w.shared.journal)
    (now : w.shared.now ≤ w'.shared.now) (reads : w'.Reads (log.dated w'.shared.now new)) :
    w'.Dated (w'.shared.log log) := by
  rw [dated.grown written]
  refine ⟨?_,fun entry member => ?_,reads⟩
  · rw [written,← dated.journal]
    simp [Log.dated,Function.comp_def]
  · rcases Log.memDated.mp member with ⟨here,_⟩ | old
    · exact Nat.le_of_eq here
    · exact Nat.le_trans (dated.past entry old) now

theorem written (dated : w.Dated log) (after : w'.Dated (w'.shared.log log)) :
    ∃ new, w'.shared.journal = new ++ w.shared.journal := by
  have whole := after.journal
  unfold Shared.log Log.dated at whole
  rw [List.map_append,dated.journal] at whole
  exact ⟨_,whole.symm⟩

theorem again (dated : w.Dated log) {v : World σ} (first : v.Dated (v.shared.log log))
    (second : w'.Dated (w'.shared.log (v.shared.log log))) (now : w'.shared.now = v.shared.now) :
    w'.Dated (w'.shared.log log) :=
  Shared.logAgain dated.length (dated.written first) (first.written second) now ▸ second

theorem upkeep (dated : w.Dated log) (writes : w.shared.Writes (·.isUpkeep) w'.shared)
    (now : w.shared.now ≤ w'.shared.now)
    (callers : w'.shared.unfinished ⊆ w.shared.unfinished)
    (seats : w.slots.length ≤ w'.slots.length) (lent : w'.lentOut ⊆ w.lentOut)
    (kept : w'.keptBack ⊆ w.keptBack)
    (held : ∀ slot h, w'.handle? slot = some h →
      ∃ k, w.handle? slot = some k ∧ k.pool = h.pool ∧ k.wrapper = h.wrapper) :
    w'.Dated (w'.shared.log log) := by
  obtain ⟨new,written,plain⟩ := writes
  exact dated.write written now
    ((dated.reads.upkeep _ plain).frame callers seats lent kept held)

theorem frame (dated : w.Dated log) (writes : w.shared.Writes (·.isUpkeep) w'.shared)
    (now : w.shared.now ≤ w'.shared.now) (callers : w'.shared.unfinished.Perm w.shared.unfinished)
    (slots : w'.slots = w.slots) (lent : w'.lentOut ⊆ w.lentOut)
    (kept : w'.keptBack ⊆ w.keptBack) : w'.Dated (w'.shared.log log) := by
  refine dated.upkeep writes now callers.subset (Nat.le_of_eq (congrArg List.length slots.symm)) lent
    kept fun slot h held => ⟨h,?_,rfl,rfl⟩
  rw [handleAt] at held ⊢
  exact slots ▸ held

theorem same (dated : w.Dated log) : w.Dated (w.shared.log log) :=
  dated.frame (.nothing rfl) (Nat.le_refl _) (.refl _) rfl (List.Subset.refl _) (List.Subset.refl _)

theorem empty (dated : w.Dated log) (here : w.pools[n]? = some p) (none : q.tracked = [])
    (writes : w.shared.Writes (·.isUpkeep) t) (now : t.now = w.shared.now)
    (callers : t.unfinished.Perm w.shared.unfinished) :
    (w.put n q t).Dated (t.log log) := by
  obtain ⟨idle,active⟩ := List.append_eq_nil_iff.mp none
  change (w.put n q t).Dated ((w.put n q t).shared.log log)
  refine dated.frame writes (Nat.le_of_eq now.symm) callers rfl ?_ ?_
  · exact setSubset here (active ▸ List.nil_subset _)
  · exact setSubset here (idle ▸ List.nil_subset _)

theorem emptied (dated : w.Dated log) (slot : Nat) :
    (w.setSlot slot .empty).Dated ((w.setSlot slot .empty).shared.log log) := by
  refine dated.upkeep (.nothing rfl) (Nat.le_refl _) (List.Subset.refl _) (by simp [setSlot])
    (List.Subset.refl _) (List.Subset.refl _) fun i h held => ?_
  rcases handleAtSet held with ⟨_,same⟩ | ⟨_,old⟩
  · cases same
  · exact ⟨h,old,rfl,rfl⟩

theorem letGo (dated : w.Dated log) (numbered : w.Numbered) (n : Nat) :
    (w.letGo P n).Dated ((w.letGo P n).shared.log log) := by
  rcases letGoCases (P := P) numbered n with ⟨same,_⟩ | ⟨p,_,here,_,swept⟩
  · rw [same]
    exact dated.same
  · rw [swept]
    exact dated.empty here (p.sweepTracked P w.shared) (p.sweepUpkeep P w.shared)
      (p.sweepActs P w.shared).now (.of_eq (p.sweepUnfinished P w.shared))

end Dated

theorem letGoNow (P : Platform σ) (numbered : w.Numbered) (n : Nat) :
    (w.letGo P n).shared.now = w.shared.now :=
  letGoKeeps (fun t => t.now = w.shared.now) numbered rfl (fun p => (p.sweepActs P w.shared).now) n

theorem Dated.stay (dated : w.Dated log) (here : w.pools[n]? = some p) (number : p.number = n)
    (own : seeker.pool = n) (tells : Pool.Tells p w.shared seeker outcome q t)
    (seated : Seated n outcome.wrapper? seeker.ticket w { w.put n q t with slots })
    (owned : Owned { w.put n q t with slots }) (arrives : w.Arrives log seeker slots.length) :
    Dated { w.put n q t with slots } (t.log log) := by
  obtain ⟨noted,written,fits⟩ := tells.written
  have older := dated.reads.notes here fits
  have silent := arrives.silent w.shared.now fun e member =>
    (Pool.notesSilent (fits e member)).1
  -- The entry about the opening may be one of those that this very stay has written.
  have begun (x : Wrapper) (granted : outcome = .granted x) :
      (log.dated w.shared.now noted).Begun x := by
    obtain ⟨_,checkout,used,stems⟩ := tells.lent x granted
    have since : x.createdAt ≤ w.shared.now ∧
        ∃ pool source, (x.createdAt,.opened pool x.conn x.id source) ∈ log.dated w.shared.now noted := by
      rcases stems with ⟨y,had,conn,id,created⟩ | ⟨now,new,grown,opened⟩
      · obtain ⟨pool,source,before⟩ := (dated.reads.begun y (memTracked.mpr ⟨n,p,here,had⟩)).opened
        rw [conn,id,created] at before
        exact ⟨dated.past _ before,pool,source,Log.memDated.mpr (.inr before)⟩
      · obtain rfl := List.append_cancel_right (grown.symm.trans written)
        have inside := (List.mem_append.mp opened).resolve_left fun told => nomatch toldAbout told
        exact ⟨Nat.le_of_eq now,_,_,Log.memDated.mpr (.inl ⟨now,inside⟩)⟩
    exact ⟨checkout ▸ since.1,used ▸ since.1,since.2⟩
  have told := older.told here tells seated owned silent own begun
  have whole : Reads { w.put n q t with slots } (log.dated t.now
      (outcome.told p.number seeker w.shared.now ++ noted)) := by
    rw [Log.datedAppend,number]
    exact tells.now ▸ told
  exact dated.write written (Nat.le_of_eq tells.now.symm) whole

theorem getArrives (dated : w.Dated log) (queued : w.Queued) (door n : Nat) (last : Slot) :
    w.Arrives log (w.newSeeker door n) (w.slots ++ [last]).length := by
  have unknown : ∀ entry ∈ log, entry.2.ticket? ≠ some w.slots.length := fun entry member about =>
    Nat.lt_irrefl _ (dated.reads.attends.seated entry member _ about)
  refine ⟨by simp [newSeeker],by simp,?_,fun entry member answered => ?_,fun y member => ?_⟩
  · have none : log.oldest (Event.isAbout w.slots.length) = none :=
      Log.oldestNone fun entry member => beq_false_of_ne (unknown entry member)
    exact congrArg (Option.getD · w.shared.now) none
  · exact unknown entry member (Event.answeredTicket answered)
  · exact Nat.ne_of_lt (queued.fresh member)

section Resume
variable {index : Nat} {wait : Wait} (dated : w.Dated log) (queued : w.Queued)
  (awake : w.shared.woken[index]? = some wait)

def risen (w : World σ) (index : Nat) (p : Pool) (wait : Wait) : World σ :=
  { w.rouse index with shared := p.rises wait (w.rouse index).shared }

include dated queued awake in
theorem risenDated (number : p.number = wait.seeker.pool) :
    (w.risen index p wait).Dated ((w.risen index p wait).shared.log log) := by
  have mine : wait ∈ w.shared.unfinished := List.mem_append_right _ (List.mem_of_getElem? awake)
  have awaits := dated.reads.attends.awaits wait mine
  have roused : (w.rouse index).Reads log :=
    dated.reads.frame (fun _ => rouseLess) (Nat.le_refl _) (List.Subset.refl _)
      (List.Subset.refl _) fun slot h held => ⟨h,held,rfl,rfl⟩
  have written : (w.risen index p wait).shared.journal =
      [.resumed p.number wait.seeker.ticket (w.shared.now - wait.since)] ++ w.shared.journal := rfl
  refine dated.write written (Nat.le_refl _) ?_
  have told : (w.rouse index).Reads ((w.shared.now,
      .resumed p.number wait.seeker.ticket (w.shared.now - wait.since)) :: log) := by
    refine roused.past ?_ (fun _ _ => rfl) (fun _ _ => rfl) ?_
    · refine roused.attends.past (fun y member same => ?_) ?_ (by simp [Event.answered?])
      · exact queued.alone awake member (Option.some.inj same).symm
      · rintro _ ⟨⟩
        exact queued.fresh mine
    · simp only [Event.span,Log.lasted,number,awaits.asleep,Option.getD_some]
  exact told.frame (List.Subset.refl _) (Nat.le_refl _) (List.Subset.refl _)
    (List.Subset.refl _) fun slot h held => ⟨h,held,rfl,rfl⟩

include dated queued awake in
theorem resumeArrives (content : Slot) :
    (w.risen index p wait).Arrives ((w.risen index p wait).shared.log log) wait.seeker
      (w.slots.set wait.seeker.ticket content).length := by
  have mine : wait ∈ w.shared.unfinished := List.mem_append_right _ (List.mem_of_getElem? awake)
  have awaits := dated.reads.attends.awaits wait mine
  have written : (w.risen index p wait).shared.journal =
      [.resumed p.number wait.seeker.ticket (w.shared.now - wait.since)] ++ w.shared.journal := rfl
  rw [dated.grown written]
  refine ⟨?_,by simp [risen,rouse],?_,fun entry member => ?_,fun y member => queued.alone awake member⟩
  · rw [List.length_set]
    exact queued.fresh mine
  · exact congrArg (Option.getD · w.shared.now) (Log.oldestOlder awaits.came)
  · rcases Log.memDated.mp member with ⟨_,new⟩ | old
    · rw [List.mem_singleton.mp new]
      simp [Event.answered?]
    · exact awaits.unanswered entry old

end Resume

section Hand
variable {late early : List Event} (owned : w.Owned) (held : w.handle? slot = some h)
  (here : w.pools[h.pool]? = some p) (hands : Pool.Hands P p w.shared h.wrapper event q t)

include owned held here in
theorem activeLent (active : p.IsActive h.wrapper) : h.wrapper ∈ w.lentOut := by
  obtain ⟨x,member,same⟩ := List.mem_map.mp active
  exact holderOwns owned held here x member same ▸ memPools.mpr ⟨h.pool,p,here,member⟩

include owned held here hands in
theorem Reads.takes (reads : w.Reads log) : w.Reads ((w.shared.now,event) :: log) := by
  rcases hands.told with ⟨_,rfl⟩ | ⟨active,rfl⟩
  · exact reads.past (reads.attends.silent rfl) (fun _ _ => rfl) (fun _ _ => rfl) rfl
  · have lent := activeLent owned held here active
    refine reads.past (reads.attends.silent rfl) (fun _ _ => rfl) (fun x kept => ?_) ?_
    · -- What is taken back was lent, so it is not one of those that are kept.
      refine beq_false_of_ne fun same => ?_
      have alike := sameConn owned (trackedWhere.mpr (.inr lent)) (trackedWhere.mpr (.inl kept)) same
      exact lentUnkept owned lent (alike ▸ kept)
    · simp only [Event.span,Log.lasted,reads.lent _ lent,Option.getD_some,Wrapper.heldFor]

include owned held here hands in
theorem handsKept (reads : w.Reads log) (past : ∀ entry ∈ log, entry.1 ≤ w.shared.now)
    {y : Wrapper} (member : y ∈ q.idle) : y ∈ p.idle ∨
      (Log.newest (Event.takesBack y.conn) ((w.shared.now,event) :: log) = some y.lastUsedAt ∧
        Log.Begun log y) := by
  refine (hands.idle y member).imp_right ?_
  rintro ⟨active,⟨conn,id,created⟩,used,checkout⟩
  have lent := activeLent owned held here active
  constructor
  · rcases hands.told with ⟨away,_⟩ | ⟨_,rfl⟩
    · exact absurd active away
    · rw [used]
      exact Log.newestCons (by simp [Event.takesBack,conn])
  · obtain ⟨pool,source,opened⟩ := (reads.begun _ (trackedWhere.mpr (.inr lent))).opened
    rw [conn,id,created] at opened
    exact ⟨Nat.le_of_eq checkout.symm,used ▸ past _ opened,pool,source,opened⟩

include here hands in
theorem Reads.handed (reads : w.Reads log)
    (kept : ∀ y ∈ q.idle, y ∈ p.idle ∨
      (log.newest (Event.takesBack y.conn) = some y.lastUsedAt ∧ log.Begun y))
    (held : w.handle? slot = some h) :
    ((w.put h.pool q t).setSlot slot (.held { h with released := true })).Reads log where
  attends := reads.attends.fewer (by simp [setSlot,put]) hands.callers.subset
  lent x member := reads.lent x (setSubset here hands.active member)
  kept x member := (setStems here kept member).elim (reads.kept x) And.left
  begun x member := by
    rcases trackedWhere.mp member with idle | active
    · refine (setStems here kept idle).elim (fun old => ?_) And.right
      exact reads.begun x (trackedWhere.mpr (.inl old))
    · exact reads.begun x (trackedWhere.mpr (.inr (setSubset here hands.active active)))
  held i k there := by
    rcases handleAtSet there with ⟨rfl,same⟩ | ⟨_,old⟩
    · cases same
      exact reads.held i h held
    · exact reads.held i k old
  honest := reads.honest

end Hand

theorem Dated.giveBack (dated : w.Dated log) (owned : w.Owned) (held : w.handle? slot = some h)
    (here : w.pools[h.pool]? = some p) (returns : Pool.Returns P h.wrapper p w.shared q t) :
    ((w.put h.pool q t).setSlot slot (.held { h with released := true })).Dated (t.log log) := by
  obtain ⟨event,hands⟩ := Pool.returnsHand returns
  obtain ⟨late,early,written,plain⟩ := hands.written
  have ⟨quietLate,quietEarly⟩ := List.forall_mem_append.mp plain
  have older := dated.reads.upkeep w.shared.now quietEarly
  have past : ∀ entry ∈ log.dated w.shared.now early, entry.1 ≤ w.shared.now := by
    intro entry member
    exact (Log.memDated.mp member).elim (fun new => Nat.le_of_eq new.1) (dated.past entry)
  have told := older.takes owned held here hands
  have handed := told.handed here hands (fun y member => ?_) held
  · have whole : t.journal = (late ++ event :: early) ++ w.shared.journal := by simp [written]
    refine dated.write whole (Nat.le_of_eq hands.now.symm) ?_
    rw [Log.datedAppend,Log.datedCons]
    have done := handed.upkeep w.shared.now quietLate
    exact hands.now ▸ done
  · refine (handsKept owned held here hands older past member).imp_right ?_
    rintro ⟨newest,begun⟩
    exact ⟨newest,begun.later w.shared.now [event]⟩

theorem datedTurn (attained : Attained P Alters outside w) (dated : w.Dated log)
    (turn : Turn P Alters w w') : w'.Dated (w'.shared.log log) := by
  have known := numbered attained
  have queued := everyCallerQueued attained
  have owned := everyOwned attained
  have after := ownedTurn known queued owned turn
  have quiet {v : World σ} (pools : v.pools = w.pools) (slots : v.slots = w.slots)
      (writes : w.shared.Writes (·.isUpkeep) v.shared) (now : w.shared.now ≤ v.shared.now)
      (callers : v.shared.unfinished.Perm w.shared.unfinished) : v.Dated (v.shared.log log) :=
    dated.frame writes now callers slots (by simp [lentOut,pools]) (by simp [keptBack,pools])
  cases turn with
  | found source valid =>
    refine dated.frame (.nothing rfl) (Nat.le_refl _) (.refl _) rfl ?_ ?_ <;>
      simp [lentOut,keptBack,Pool.create]
  | noDoor | share | tamper => exact quiet rfl rfl (.nothing rfl) (Nat.le_refl _) (.refl _)
  | ask held live request =>
    exact quiet rfl rfl ⟨[_],rfl,by simp [Event.isUpkeep]⟩ (Nat.le_refl _) (.refl _)
  | advance time =>
    exact quiet rfl rfl (.nothing rfl) (Nat.le_add_right _ _) (w.shared.advanceUnfinished time)
  | @leave door n behind =>
    have left : Dated { w with doors := w.doors.set door none } (w.shared.log log) :=
      quiet rfl rfl (.nothing rfl) (Nat.le_refl _) (.refl _)
    have home : Numbered { w with doors := w.doors.set door none } := known
    exact dated.again left (left.letGo (P := P) home n) (letGoNow P home n)
  | @get door n p behind here =>
    have own : (w.newSeeker door n).pool = p.number := (known here).symm
    have tells := Pool.enterTells P own w.shared
    exact dated.stay here (known here) rfl tells (getSeated n _) after
      (getArrives dated queued door n _)
  | @resume index wait p awake here =>
    have risen := risenDated dated queued awake (known here)
    have tells := Pool.resumeTells P (known here).symm (w.rouse index).shared
    have stayed := risen.stay here (known here) rfl tells
      ⟨(resumeSeated queued awake p).stays,(resumeSeated queued awake p).stems,
        (resumeSeated queued awake p).seat⟩
      (ownedSeatResumed queued owned awake here) (resumeArrives dated queued awake _)
    have seated := dated.again risen stayed tells.now
    have home := numberedResumed (P := P) known here index
    exact dated.again seated (seated.letGo home _) (letGoNow P home _)
  | @stray index wait awake away =>
    exact dated.upkeep (.nothing rfl) (Nat.le_refl _) (fun _ => rouseLess) (Nat.le_refl _)
      (List.Subset.refl _) (List.Subset.refl _) fun slot h held => ⟨h,held,rfl,rfl⟩
  | @renew n p source settings closed behind here =>
    let renewed : Pool := { p with source, settings, closed }
    refine dated.empty here (renewed.sweepTracked P w.shared) (renewed.closeAllUpkeep P w.shared)
      (renewed.closeAllActs P w.shared).now ?_
    exact (Shared.notifyUnfinished _ _).trans (.of_eq (renewed.sweepUnfinished P w.shared))
  | @tolerance n p count behind here =>
    refine dated.frame (.nothing rfl) (Nat.le_refl _) (.refl _) rfl ?_ ?_ <;>
      exact setSubset here (List.Subset.refl _)
  | giveBack held first here => exact dated.giveBack owned held here (Pool.releaseReturns ..)
  | @vacate slot h held spent =>
    have emptied := dated.emptied slot
    have home : (w.setSlot slot .empty).Numbered := known
    exact dated.again emptied (emptied.letGo (P := P) home h.pool) (letGoNow P home h.pool)

theorem datedStep (attained : Attained P Alters outside w) (dated : w.Dated log)
    (step : Step P Alters w w') : w'.Dated (w'.shared.log log) := by
  cases step with
  | refl => exact dated.same
  | single turn => exact datedTurn attained dated turn

theorem datedDrop (attained : Attained P Alters outside w) (dated : w.Dated log)
    (held : w.handle? slot = some h) : (w.drop P slot h).Dated ((w.drop P slot h).shared.log log) := by
  have step : Step P Alters w (w.release P slot h) := releaseStep (numbered attained) held
  have known : (w.release P slot h).Numbered := numbered (attained.trans step.to_reflTransGen)
  have home : ((w.release P slot h).setSlot slot .empty).Numbered := known
  have given := datedStep attained dated step
  have emptied := dated.again given (given.emptied slot) rfl
  exact dated.again emptied (emptied.letGo (P := P) home h.pool) (letGoNow P home h.pool)

theorem datedMove (attained : Attained P Alters outside w) (dated : w.Dated log) (a : Move σ)
    (allowed : ∀ change, a = .tamper change → Alters change) :
    (w.move P a).Dated ((w.move P a).shared.log log) := by
  -- To drop a handle is to give it back and to forget it, two turns; no other move takes more than one.
  by_cases drops : ∃ slot, a = .drop slot
  · obtain ⟨slot,rfl⟩ := drops
    cases held : w.handle? slot with
    | none =>
      simp only [World.move,atSlot,held]
      exact dated.same
    | some h =>
      simp only [World.move,atSlot,held]
      exact datedDrop attained dated held
  · have other : ∀ slot, a ≠ .drop slot := fun slot same => drops ⟨slot,same⟩
    exact datedStep attained dated (moveStep (numbered attained) a other allowed)

theorem datedRun (attained : Attained P (fun _ => True) outside w) (dated : w.Dated log)
    (moves : List (Move σ)) : (w.run P moves).Dated (timeline P moves w log) := by
  induction moves generalizing w log with
  | nil => exact dated
  | cons a rest ih =>
    have turns := moveTurns (P := P) (numbered attained) a fun _ _ => trivial
    exact ih (attained.trans turns) (datedMove attained dated a fun _ _ => trivial)

theorem datedInitial (outside : σ) : (initial outside).Dated [] where
  journal := rfl
  past := by simp
  reads := {
    attends := ⟨by simp,by simp [initial,Shared.initial,Shared.unfinished],List.nodup_nil⟩
    lent := by simp [lentOut,initial]
    kept := by simp [keptBack,initial]
    begun := by simp [tracked,initial]
    held := by simp [initial,handle?]
    honest := trivial }

theorem everyRunDated (P : Platform σ) (outside : σ) (moves : List (Move σ)) :
    ((initial outside).run P moves).Dated (timeline P moves (.initial outside) []) :=
  datedRun .refl (datedInitial outside) moves

end World
end ConnectionPool
