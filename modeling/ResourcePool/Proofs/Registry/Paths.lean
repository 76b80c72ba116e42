import ResourcePool.Proofs.Registry.Acquire
import ResourcePool.Proofs.Registry.Lifecycle

/-! The operations of a store as sequences of effects on its registry. -/
namespace ResourcePool
open Registry

/-- Whether a creation comes to nothing, so that its entry is removed again. -/
def Creation.fails {α : Type} : Creation α → Bool
  | .nothing => true
  | .refused _ => true
  | _ => false

namespace Store

variable {α : Type} {may : PoolId → EntryId → Prop}

theorem reserve_path (s : Store α) (p : PoolId) :
    Path may s.registry (s.reserve p).2.registry := by
  rw [registry_reserve]
  split_ifs with h
  · exact .refl
  · rw [Bool.not_eq_true, Bool.or_eq_false_iff] at h
    exact .of_effect (.reserve p h.1 h.2)

theorem enable_path (s : Store α) (e : EntryId) (v : α) (acquire : Bool) :
    Path may s.registry (s.enable e v acquire).2.registry := by
  by_cases h : (s.entry e).Grants (.enable v acquire)
  · rw [(enable_of_grants h).2]
    exact .of_effect (.grant e _ h (by simp))
  · rw [(enable_of_not_grants h).2]
    exact .refl

theorem acquire_path (s : Store α) (p : PoolId) (c : CallerId) :
    Path may s.registry (s.acquire p c).2.registry := by
  cases h : (s.acquire p c).1 with
  | none =>
    rw [acquire_of_none h]
    exact .refl
  | some e =>
    obtain ⟨hg, hr⟩ := acquire_of_some h
    rw [hr]
    exact .of_effect (.grant e _ hg (by simp))

theorem release_path (s : Store α) (p : PoolId) (c : CallerId) (e : EntryId) :
    Path may s.registry (s.release p c e).2.registry := by
  by_cases h : (s.roster p).closed = false ∧ (s.entry e).Grants .release
  · rw [(release_of_grants c h.1 h.2).2]
    exact .of_effect (.grant e _ h.2 (by simp))
  · rw [(release_of_not_grants c fun hp hg => h ⟨hp, hg⟩).2]
    exact .refl

theorem remove_path (s : Store α) (p : PoolId) (e : EntryId)
    (hmay : (s.roster p).closed = false → s.state e ≠ .closed → may p e) :
    Path may s.registry (s.remove p e).2.registry := by
  by_cases hp : (s.roster p).closed = true
  · rw [remove_of_closed e hp]
    exact .refl
  rw [Bool.not_eq_true] at hp
  by_cases hg : (s.entry e).Grants .remove
  · by_cases hm : e ∈ (s.roster p).members
    · rw [(remove_of_mem hp hg hm).2]
      exact .of_effect (.evict p e hg hm)
    · rw [(remove_of_not_mem hp hg hm).2]
      exact .of_effect (.disown p e hg hm (hmay hp (Entry.grants_remove_iff.mp hg)))
  · rw [(remove_of_not_grants hg).2]
    exact .refl

theorem settle_path (s : Store α) (p : PoolId) (c : CallerId) (e : EntryId) (creation : Creation α)
    (hmay : creation.fails = true → (s.roster p).closed = false → s.state e ≠ .closed → may p e) :
    Path may s.registry (s.settle p c e creation).2.registry := by
  cases creation with
  | value v =>
    by_cases h : (s.entry e).Grants (.enable v true)
    · rw [(settle_of_grants h).2]
      exact .of_effect (.grant e _ h (by simp))
    · rw [(settle_of_not_grants h).2]
      exact .refl
  | nothing => exact remove_path s p e (hmay rfl)
  | refused reason => exact remove_path s p e (hmay rfl)
  | panicked => exact .refl

theorem close_path (s : Store α) (p : PoolId) : Path may s.registry (s.close p).2.registry := by
  rw [registry_close]
  exact .of_effect (.close p)

theorem create_path (s : Store α) (name : String) (settings : Settings α)
    (detector? : Option Detector) :
    Path may s.registry (s.create name settings detector?).2.registry := by
  have h : (s.roster s.pools.size).members = [] := by
    simp [roster, s.pool_of_size_le (Nat.le_refl _), Pool.absent, Pool.roster]
  rw [registry_create]
  exact .of_effect (.create _ _ h)

end Store

end ResourcePool
