import ConnectionPool.Proofs.Vetting
/-! When each connection was last used. It is used when it is opened, whenever it is lent and when it
is taken back; the wrappers carry that moment from hand to hand. -/
namespace ConnectionPool.World
variable {σ : Type} {P : Platform σ} {Alters : (σ → σ) → Prop} {outside : σ} {w w' : World σ}
  {n conn : Nat} {p p' : Pool} {x y : Wrapper} {a : Move σ}

def lentOut (w : World σ) : List Wrapper := w.pools.flatMap Pool.active

def keptBack (w : World σ) : List Wrapper := w.pools.flatMap Pool.idle

def Employs (w : World σ) (conn : Nat) (w' : World σ) : Prop :=
  (w.shared.opened ≤ conn ∧ conn < w'.shared.opened) ∨
    (∃ x ∈ w'.lentOut, x.conn = conn ∧ x ∉ w.lentOut) ∨
    ∃ x ∈ w'.keptBack, x.conn = conn ∧ x ∉ w.keptBack

instance (w : World σ) (conn : Nat) (w' : World σ) : Decidable (w.Employs conn w') := by
  unfold Employs; infer_instance

def lastUse (P : Platform σ) (conn : Nat) : List (Move σ) → World σ → Nat → Nat
  | [],_,used => used
  | a :: rest,w,used =>
      lastUse P conn rest (w.move P a)
        (if w.Employs conn (w.move P a) then (w.move P a).shared.now else used)

/-- For how long a connection has been unused after some moves; one yet to be opened, not at all. -/
def unusedFor (P : Platform σ) (outside : σ) (moves : List (Move σ)) (conn : Nat) : Nat :=
  let w := (initial outside).run P moves
  if conn < w.shared.opened then w.shared.now - lastUse P conn moves (.initial outside) 0 else 0

theorem trackedWhere : x ∈ w.tracked ↔ x ∈ w.keptBack ∨ x ∈ w.lentOut := by
  simp only [tracked,Pool.tracked,keptBack,lentOut,List.mem_flatMap,List.mem_append]
  constructor
  · rintro ⟨p,member,kept | lent⟩
    · exact .inl ⟨p,member,kept⟩
    · exact .inr ⟨p,member,lent⟩
  · rintro (⟨p,member,kept⟩ | ⟨p,member,lent⟩)
    · exact ⟨p,member,.inl kept⟩
    · exact ⟨p,member,.inr lent⟩

theorem lentUnkept (owned : w.Owned) (lent : x ∈ w.lentOut) : x ∉ w.keptBack := by
  intro kept
  obtain ⟨n,p,here,active⟩ := memPools.mp lent
  obtain ⟨m,q,there,idle⟩ := memPools.mp kept
  obtain ⟨slot,held⟩ := owned.lent here active
  exact idleUnheld owned there idle held rfl

theorem restingUnused (owned : w.Owned) (after : w'.Owned) (before : x ∈ w.tracked)
    (lent : x ∈ w'.lentOut → x ∈ w.lentOut) (kept : x ∈ w'.keptBack → x ∈ w.keptBack)
    (still : x ∈ w'.tracked) : ¬w.Employs x.conn w' := by
  rintro (⟨unopened,_⟩ | ⟨y,newly,same,new⟩ | ⟨y,newly,same,new⟩)
  · exact absurd (owned.ledger.opened x before) (Nat.not_lt.mpr unopened)
  · obtain rfl := sameConn after (trackedWhere.mpr (.inr newly)) still same
    exact new (lent newly)
  · obtain rfl := sameConn after (trackedWhere.mpr (.inl newly)) still same
    exact new (kept newly)

theorem usedNow (owned : w.Owned) (after : w'.Owned) (minds : w.Minds w') (member : x ∈ w'.tracked) :
    (w.Employs x.conn w' ∧ x.lastUsedAt = w'.shared.now) ∨
      (¬w.Employs x.conn w' ∧ x ∈ w.tracked) := by
  rcases trackedWhere.mp member with kept | lent
  · by_cases old : x ∈ w.keptBack
    · have before := trackedWhere.mpr (.inl old)
      refine .inr ⟨restingUnused owned after before (fun lent => ?_) (fun _ => old) member,before⟩
      exact absurd kept (lentUnkept after lent)
    · refine .inl ⟨.inr (.inr ⟨x,kept,rfl,old⟩),?_⟩
      obtain ⟨n,p',here,idle⟩ := memPools.mp kept
      obtain ⟨p,there,had | ⟨now,used,_⟩⟩ := minds.kept here idle
      · exact absurd (memPools.mpr ⟨n,p,there,had⟩) old
      · exact used.trans now.symm
  · by_cases old : x ∈ w.lentOut
    · have before := trackedWhere.mpr (.inr old)
      refine .inr ⟨restingUnused owned after before (fun _ => old) (fun kept => ?_) member,before⟩
      exact absurd kept (lentUnkept after lent)
    · refine .inl ⟨.inr (.inl ⟨x,lent,rfl,old⟩),?_⟩
      obtain ⟨n,p',here,active⟩ := memPools.mp lent
      obtain ⟨p,there,had | ⟨now,used,_⟩⟩ := minds.lent here active
      · exact absurd (memPools.mpr ⟨n,p,there,had⟩) old
      · exact used.trans now.symm

theorem lastUseRun (attained : Attained P Alters outside w) (moves : List (Move σ))
    (allowed : ∀ change, .tamper change ∈ moves → Alters change) (used : Nat → Nat)
    (before : ∀ x ∈ w.tracked, x.lastUsedAt = used x.conn) :
    ∀ x ∈ (w.run P moves).tracked, x.lastUsedAt = lastUse P x.conn moves w (used x.conn) := by
  -- For all connections at once: which of them are had changes from move to move.
  induction moves generalizing w used with
  | nil => exact before
  | cons a rest ih =>
    have first : ∀ change, a = .tamper change → Alters change := fun change same =>
      allowed change (same ▸ List.mem_cons_self)
    have after := attained.trans (moveTurns (numbered attained) a first)
    refine ih after (fun change later => allowed change (List.mem_cons_of_mem a later))
      (fun conn => if w.Employs conn (w.move P a) then (w.move P a).shared.now else used conn) ?_
    intro x member
    have minds := mindsMove attained a first
    rcases usedNow (everyOwned attained) (everyOwned after) minds member with
      ⟨employs,now⟩ | ⟨rests,old⟩
    · rw [if_pos employs,now]
    · rw [if_neg rests,before x old]

theorem unusedAfter (moves : List (Move σ)) {unused : Nat}
    (known : ((initial outside).run P moves).Unused conn unused) :
    unused = unusedFor P outside moves conn := by
  have start : Attained P (fun _ => True) outside (.initial outside) := .refl
  have attained := start.trans (turnsRun (numbered start) moves fun _ _ => trivial)
  unfold unusedFor
  rcases known with ⟨x,member,rfl,rfl⟩ | ⟨unopened,rfl⟩
  · have used := lastUseRun start moves (fun _ _ => trivial) (fun _ => 0)
      (by simp [tracked,initial]) x member
    simp only [if_pos ((everyOwned attained).ledger.opened x member),Wrapper.unusedFor,used]
  · simp only [if_neg (Nat.not_lt.mpr unopened)]

end ConnectionPool.World
