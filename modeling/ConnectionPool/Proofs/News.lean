import ConnectionPool.Proofs.Turn
/-! What outlasts each call and each attempt to open a connection holds of all that can come about,
whoever calls and why. Whatever else is done leaves the outside and the news as they are. -/
namespace ConnectionPool
namespace Shared
variable {σ : Type}

structure SameNews (s t : Shared σ) : Prop where
  outside : t.outside = s.outside
  opened : t.opened = s.opened
  news : news t.journal = news s.journal

theorem noteSameNews (s : Shared σ) {event : Event} (quiet : event.isNews = false) :
    s.SameNews (s.note event) :=
  ⟨rfl,rfl,by simp [note,ConnectionPool.news,quiet]⟩

theorem notifySameNews (s : Shared σ) (pool : Nat) : s.SameNews (s.notify pool) := ⟨rfl,rfl,rfl⟩

structure Endures (P : Platform σ) (Holds : Shared σ → Prop) : Prop where
  quiet {s t : Shared σ} (before : Holds s) (same : s.SameNews t) : Holds t
  asks {s : Shared σ} (before : Holds s) (caller : Caller) (conn : Nat) (request : Request) :
    Holds (s.ask P caller conn request).2
  refused {s : Shared σ} {source cause outside} (before : Holds s)
    (connect : P.connect s.opened source s.outside = (.error cause,outside)) :
    Holds { s with outside }
  opens {s : Shared σ} {source outside} (before : Holds s) (n : Nat)
    (connect : P.connect s.opened source s.outside = (.ok (),outside)) :
    Holds ({ s with outside, opened := s.opened + 1 }.note (.opened n s.opened s.nextId source))

namespace Endures
variable {P : Platform σ} {Holds : Shared σ → Prop} {s t : Shared σ}

theorem talks (endures : Endures P Holds) {caller : Caller} {conn : Nat} (before : Holds s)
    (talks : s.Talks P caller conn t) : Holds t := by
  induction talks with
  | silent => exact before
  | ask _ request ih => exact endures.asks ih caller conn request

theorem note (endures : Endures P Holds) (before : Holds s) {event : Event}
    (quiet : event.isNews = false) : Holds (s.note event) :=
  endures.quiet before (s.noteSameNews quiet)

theorem dispose (endures : Endures P Holds) (before : Holds s) (pool conn : Nat) :
    Holds (s.dispose P pool conn) := by
  obtain ⟨t,talks,_,same⟩ := s.disposeParts P pool conn
  rw [same]
  exact endures.note (endures.talks before talks) rfl

end Endures
end Shared

namespace Pool
variable {σ : Type} {P : Platform σ} {Holds : Shared σ → Prop} {p p' : Pool} {s s' : Shared σ}

theorem welcomeEndures (endures : Shared.Endures P Holds) (before : Holds s) {outside : σ}
    (connect : P.connect s.opened p.source s.outside = (.ok (),outside)) :
    Holds (p.welcome outside s) :=
  endures.quiet (endures.opens before p.number connect) ⟨rfl,rfl,rfl⟩

theorem picksEndure (endures : Shared.Endures P Holds) (before : Holds s) {pick : Pick}
    (picks : Picks P p s pick p' s') : Holds s' := by
  cases picks with
  | kept | nothing => exact before
  | refused idle room connect =>
    have refused := endures.refused before connect
    exact endures.quiet refused ⟨rfl,rfl,by simp [Shared.note,news,Event.isNews]⟩
  | unfit idle room connect setUp =>
    have called := endures.talks (welcomeEndures endures before connect)
      ((Shared.setUpTalks ..).ends setUp)
    exact endures.dispose called _ _
  | fresh idle room connect setUp =>
    have called := endures.talks (welcomeEndures endures before connect)
      ((Shared.setUpTalks ..).ends setUp)
    exact endures.quiet called ⟨rfl,rfl,by simp [Shared.newKey,Shared.note,news,Event.isNews]⟩
  | @overdue oldest rest idle full active late =>
    have taken : Holds ((s.invalidate oldest).note (.reclaimed p.number oldest
        (oldest.heldFor s.now))) :=
      endures.quiet before ⟨rfl,rfl,by simp [Shared.invalidate,Shared.note,news,Event.isNews]⟩
    have cleared := endures.talks taken (p.seizeTalks P oldest s)
    exact endures.quiet cleared ⟨rfl,rfl,rfl⟩

theorem discardEndures (endures : Shared.Endures P Holds) (before : Holds s) (w : Wrapper)
    (p : Pool) : Holds (p.discard P w s).2 := by
  have dead : Holds (s.invalidate w) := endures.quiet before ⟨rfl,rfl,rfl⟩
  exact endures.dispose dead p.number w.conn

theorem stayEndures (endures : Shared.Endures P Holds) (seeker : Seeker) :
    StayRule P seeker (fun _ s => Holds s) (fun _ _ s => Holds s) (fun _ _ s => Holds s) where
  finds before picks := picksEndure endures before picks
  misses before picks := picksEndure endures before picks
  blocks before _ _ := endures.quiet before ⟨rfl,rfl,rfl⟩
  grants holding good := endures.note (endures.talks holding ((admitsTalks ..).ends good)) rfl
  rejects {w p s t} holding bad := by
    have noted : Holds (t.note (.rejected p.number w)) :=
      endures.note (endures.talks holding ((admitsTalks ..).ends bad)) rfl
    exact discardEndures endures noted w _
  fails before _ := endures.note before rfl
  overruns before := before

theorem enterEndures (endures : Shared.Endures P Holds) (before : Holds s) (seeker : Seeker)
    (p : Pool) : Holds (p.enter P seeker s).2.2 :=
  (stayEndures endures seeker).enter (fun _ => endures.note before rfl) (fun _ => before)

theorem resumeEndures (endures : Shared.Endures P Holds) (before : Holds s) (wait : Wait)
    (p : Pool) : Holds (p.resume P wait s).2.2 := by
  have rises : Holds (p.rises wait s) := endures.note before rfl
  exact (stayEndures endures wait.seeker).resume (fun _ => endures.note rises rfl) (fun _ => rises)

theorem returnsEndure (endures : Shared.Endures P Holds) (before : Holds s) {w : Wrapper}
    (returns : Returns P w p s p' s') : Holds s' := by
  cases returns with
  | stale => exact endures.note before rfl
  | @unfit t lent found =>
    have noted : Holds (t.note (.returned p.number w false (w.heldFor s.now))) :=
      endures.note (endures.talks before ((inspectTalks ..).ends found)) rfl
    exact endures.quiet (discardEndures endures noted w _) (Shared.notifySameNews _ _)
  | @dropped t u lent found unwelcome =>
    have noted : Holds (t.note (.returned p.number w true (w.heldFor s.now))) :=
      endures.note (endures.talks before ((inspectTalks ..).ends found)) rfl
    have called := endures.talks noted (droppedTalks unwelcome)
    exact endures.quiet (discardEndures endures called w _) (Shared.notifySameNews _ _)
  | @kept t u lent found welcome cleared =>
    have noted : Holds (t.note (.returned p.number w true (w.heldFor s.now))) :=
      endures.note (endures.talks before ((inspectTalks ..).ends found)) rfl
    have called := endures.talks noted ((Shared.rollbackTalks ..).ends cleared)
    exact endures.quiet called ⟨rfl,rfl,rfl⟩

theorem sweepEndures (endures : Shared.Endures P Holds) (before : Holds s) (p : Pool) :
    Holds (p.sweep P s).2 :=
  discardAllKeeps (fun _ _ t => Holds t) (fun left => discardEndures endures left _ _)
    (endures.note before rfl)

end Pool

namespace World
variable {σ : Type} {P : Platform σ} {Alters : (σ → σ) → Prop} {outside : σ} {w w' : World σ}
  {Holds : Shared σ → Prop}

theorem letGoEndures (endures : Shared.Endures P Holds) (numbered : w.Numbered)
    (before : Holds w.shared) (n : Nat) : Holds (w.letGo P n).shared :=
  letGoKeeps Holds numbered before (Pool.sweepEndures endures before) n

theorem turnEndures (endures : Shared.Endures P Holds)
    (alters : ∀ {s : Shared σ} {change}, Holds s → Alters change →
      Holds { s with outside := change s.outside })
    (numbered : w.Numbered) (before : Holds w.shared) (turn : Turn P Alters w w') :
    Holds w'.shared := by
  cases turn with
  | found | noDoor | share | tolerance => exact before
  | leave =>
    apply letGoEndures endures
    · exact numbered
    · exact before
  | get door known here => exact Pool.enterEndures endures before _ _
  | @resume index wait p awake here =>
    have roused : Holds (w.rouse index).shared := endures.quiet before ⟨rfl,rfl,rfl⟩
    apply letGoEndures endures
    · exact numberedResumed numbered here index
    · exact Pool.resumeEndures endures roused wait p
  | stray | advance => exact endures.quiet before ⟨rfl,rfl,rfl⟩
  | renew source settings closed known here =>
    exact endures.quiet (Pool.sweepEndures endures before _) (Shared.notifySameNews _ _)
  | @giveBack slot h p held first here =>
    exact Pool.returnsEndure endures before (p.releaseReturns P h.wrapper w.shared)
  | vacate =>
    apply letGoEndures endures
    · exact numbered
    · exact before
  | ask held live request => exact endures.asks before _ _ _
  | tamper allowed => exact alters before allowed

theorem turnsEndure (endures : Shared.Endures P Holds)
    (alters : ∀ {s : Shared σ} {change}, Holds s → Alters change →
      Holds { s with outside := change s.outside })
    (numbered : w.Numbered) (before : Holds w.shared) (turns : Turns P Alters w w') :
    Holds w'.shared := by
  induction turns with
  | refl => exact before
  | tail turns turn ih => exact turnEndures endures alters (numberedTurns numbered turns) ih turn

theorem everyShared (endures : Shared.Endures P Holds)
    (alters : ∀ {s : Shared σ} {change}, Holds s → Alters change →
      Holds { s with outside := change s.outside })
    (start : Holds (.initial outside)) (attained : Attained P Alters outside w) : Holds w.shared :=
  turnsEndure endures alters (numberedInitial outside) start attained

end World
end ConnectionPool
