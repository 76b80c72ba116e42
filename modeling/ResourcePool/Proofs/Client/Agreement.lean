import ResourcePool.Proofs.Client.Census
import ResourcePool.Proofs.Membership

/-! What a client is told does not depend on the strategy of its pool, nor on hints, draws or turns. -/
namespace ResourcePool

variable {α : Type}

namespace Client

/-- A client of a new pool, whose searches by turns begin with any number. -/
def start (s : Store α) (name : String) (settings : Settings α) (detector? : Option Detector)
    (turn : Option UInt64) : Client α where
  store := (s.create name settings detector?).2.modifyPool s.pools.size fun x => { x with turn }

theorem pool_start (s : Store α) (name : String) (settings : Settings α)
    (detector? : Option Detector) (turn : Option UInt64) :
    s.pools.size < (start s name settings detector? turn).store.pools.size ∧
      (start s name settings detector? turn).store.pool s.pools.size =
        { Pool.ofSettings name settings detector? with turn } := by
  have hlt : s.pools.size < (s.create name settings detector?).2.pools.size := by
    change _ < (s.pools.push _).size
    rw [Array.size_push]
    exact Nat.lt_succ_self _
  have hnew : (s.create name settings detector?).2.pool s.pools.size =
      .ofSettings name settings detector? := by
    have h := s.pool_push (.ofSettings name settings detector?) s.pools.size
    rw [if_pos rfl] at h
    exact h
  constructor
  · exact (Store.size_modifyPool _ _ _).symm ▸ hlt
  · change (Store.modifyPool _ _ _).pool _ = _
    rw [Store.pool_modifyPool_self hlt, hnew]

theorem sound_start {s : Store α} (hv : s.registry.Sound) (name : String) (settings : Settings α)
    (detector? : Option Detector) (turn : Option UInt64) :
    (start s name settings detector? turn).Sound s.pools.size := by
  obtain ⟨hlt, hpool⟩ := pool_start s name settings detector? turn
  have hr : (start s name settings detector? turn).store.registry =
      (s.create name settings detector?).2.registry :=
    Store.registry_modifyPool _ _ fun _ => rfl
  have hpath : Registry.Path (fun _ _ => True) s.registry
      (s.create name settings detector?).2.registry := s.create_path name settings detector?
  have hm : (start s name settings detector? turn).store.members s.pools.size = [] := by
    rw [Store.members, hpool]
    rfl
  refine ⟨⟨hlt, hr ▸ hpath.sound hv, ?_, ?_⟩, .nil _ _ _, .nil _ _ _⟩
  · intro e he
    rw [hm] at he
    exact absurd he List.not_mem_nil
  · intro c e he
    rw [hpool] at he
    exact absurd he List.not_mem_nil

theorem census_start (s : Store α) (name : String) (settings : Settings α)
    (detector? : Option Detector) (turn : Option UInt64) :
    (start s name settings detector? turn).census s.pools.size =
      { gauge := { closed := false, limit := settings.maxEntries, tally := {}, counters := {} }
        unused := 0
        held := 0 } := by
  have hpool := (pool_start s name settings detector? turn).2
  simp only [census, Store.gauge, Store.tally, Store.members, hpool]
  rfl

end Client

/-- Two pools of one capacity, whatever their strategies, hints, turns and draws, give the same replies
and the same readings to the same orders. -/
theorem trail_of_same_capacity {draws₁ draws₂ : List Nat} {s₁ s₂ : Store α}
    (h₁ : Run free (.blank draws₁) s₁) (h₂ : Run free (.blank draws₂) s₂) (name₁ name₂ : String)
    {settings₁ settings₂ : Settings α} (h : settings₁.maxEntries = settings₂.maxEntries)
    (detector₁? detector₂? : Option Detector) (turn₁ turn₂ : Option UInt64)
    (orders : List (CallerId × Order α)) :
    (Client.start s₁ name₁ settings₁ detector₁? turn₁).trail s₁.pools.size orders =
      (Client.start s₂ name₂ settings₂ detector₂? turn₂).trail s₂.pools.size orders := by
  rw [Client.trail_eq (Client.sound_start h₁.sound name₁ settings₁ detector₁? turn₁),
    Client.trail_eq (Client.sound_start h₂.sound name₂ settings₂ detector₂? turn₂),
    Client.census_start, Client.census_start, h]

/-- The pools hand out different entries, and the client cannot tell. -/
theorem trail_of_same_capacity_first_and_random :
    let s₁ : Store Nat := .blank []
    let s₂ : Store Nat := .blank [1, 0]
    let plain : Settings Nat := { maxEntries := 2 }
    let hinting : Settings Nat := { maxEntries := 2, strategy := .random, cached := true }
    let k₁ := Client.start s₁ "p" plain none none
    let k₂ := Client.start s₂ "q" hinting none none
    let orders : List (CallerId × Order Nat) := [(0, .warmup 3 id), (1, .acquire), (2, .acquire),
      (3, .acquire), (1, .release 0), (1, .acquireWith .nothing)]
    Run free (.blank []) s₁ ∧ Run free (.blank [1, 0]) s₂ ∧ plain.maxEntries = hinting.maxEntries ∧
      ((k₁.perform 0 0 (.warmup 2 id)).2.perform 0 1 .acquire).2.held = [0] ∧
      ((k₂.perform 0 0 (.warmup 2 id)).2.perform 0 1 .acquire).2.held = [1] ∧
      (k₁.trail s₁.pools.size orders).map (·.1) = [.warmed 2, .got true, .got true, .got false,
        .released (.ok true), .created (.ok true)] ∧
      k₁.trail s₁.pools.size orders = k₂.trail s₂.pools.size orders := by
  intro s₁ s₂ plain hinting k₁ k₂ orders
  have h₁ : Run free (.blank []) s₁ := .refl
  have h₂ : Run free (.blank [1, 0]) s₂ := .refl
  have h : plain.maxEntries = hinting.maxEntries := rfl
  refine ⟨h₁, h₂, h, by decide +kernel, by decide +kernel, by decide +kernel, ?_⟩
  exact trail_of_same_capacity h₁ h₂ "p" "q" h none none none none orders

end ResourcePool
