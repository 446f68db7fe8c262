import ConnectionPool.Health
/-! Whatever a pool does to one connection hangs on the answers it gets and on nothing else. So a
map of states that lets single calls through lets all of it through, also where caller and connection
go by another name on the other side. -/
namespace ConnectionPool.Shared
variable {σ τ : Type} {P : Platform σ} {Q : Platform τ} {f : Shared σ → Shared τ}
  {caller caller' : Caller} {conn conn' : Nat}

def Relays (P : Platform σ) (Q : Platform τ) (f : Shared σ → Shared τ) (caller caller' : Caller)
    (conn conn' : Nat) : Prop :=
  ∀ request s, (f s).ask Q caller' conn' request = (s.ask P caller conn request).map id f

namespace Relays

section Calls
variable (relays : Relays P Q f caller caller' conn conn') (s : Shared σ)
include relays

theorem rollback : (f s).rollbackUnlessAutoCommit Q caller' conn' =
    (s.rollbackUnlessAutoCommit P caller conn).map id f := by
  unfold rollbackUnlessAutoCommit
  rw [relays]
  rcases s.ask P caller conn .autoCommit with ⟨_ | _ | _,t⟩
  · rfl
  · exact relays .rollback t
  · rfl

theorem ping (sql : String) :
    (f s).ping Q caller' conn' sql = (s.ping P caller conn sql).map id f := by
  unfold Shared.ping
  rw [relays]
  rcases s.ask P caller conn (.execute sql) with ⟨_ | _,t⟩
  · rfl
  · exact relays.rollback t

theorem checkHealth (unusedFor : Nat) (settings : Settings) :
    (f s).checkHealth Q caller' conn' unusedFor settings =
      (s.checkHealth P caller conn unusedFor settings).map id f := by
  unfold Shared.checkHealth
  rw [relays]
  rcases s.ask P caller conn .isClosed with ⟨_ | _ | _,t⟩
  · rfl
  · simp only [Prod.map_apply,id_eq]
    split
    · rw [relays.ping]
      rcases t.ping P caller conn settings.pingQuery with ⟨cause | _,u⟩
      · exact congrArg (fun asked => (Health.pingFailed cause.message,asked.2)) (relays .close u)
      · rfl
    · rfl
  · rfl

theorem setUp (source : DataSource) :
    (f s).setUp Q caller' conn' source = (s.setUp P caller conn source).map id f := by
  have modes : (f s).setUpAutoCommit Q caller' conn' source.autoCommit =
      (s.setUpAutoCommit P caller conn source.autoCommit).map id f := by
    unfold setUpAutoCommit
    split
    · rfl
    · rename_i on _
      rw [relays]
      rcases s.ask P caller conn .autoCommit with ⟨_ | current,t⟩
      · rfl
      · simp only [Prod.map_apply,id_eq]
        split
        · rfl
        · exact relays (.setAutoCommit on) t
  unfold Shared.setUp
  rw [modes]
  rcases s.setUpAutoCommit P caller conn source.autoCommit with ⟨_ | _,t⟩
  · rfl
  · simp only [Prod.map_apply,id_eq,setUpIsolation]
    split
    · rfl
    · exact relays _ t

end Calls

theorem dispose {pool pool' : Nat} (relays : Relays P Q f (.pool pool) (.pool pool') conn conn')
    (notes : ∀ s, (f s).note (.discarded pool' conn') = f (s.note (.discarded pool conn)))
    (s : Shared σ) : (f s).dispose Q pool' conn' = f (s.dispose P pool conn) := by
  have closes (t : Shared σ) :
      (((f t).rollbackUnlessAutoCommit Q (.pool pool') conn').2.ask Q (.pool pool') conn'
        .close).2 =
      f ((t.rollbackUnlessAutoCommit P (.pool pool) conn).2.ask P (.pool pool) conn
        .close).2 := by
    rw [relays.rollback]
    exact congrArg Prod.snd (relays .close _)
  unfold Shared.dispose
  rw [relays]
  rcases s.ask P (.pool pool) conn .isClosed with ⟨_ | _ | _,t⟩
  · exact (congrArg (note · (.discarded pool' conn')) (closes t)).trans (notes _)
  · exact (congrArg (note · (.discarded pool' conn')) (closes t)).trans (notes _)
  · exact notes t

end Relays
end ConnectionPool.Shared
