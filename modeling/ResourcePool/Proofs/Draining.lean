import Mathlib.Data.Finset.Card
import Mathlib.Data.Finset.Range
import ResourcePool.Proofs.Registry.Tracking

/-! Draining: a pool is asked for entries until there are none, and is never asked in vain more than once. -/
namespace ResourcePool

variable {α : Type}

/-- The entries that are idle. -/
def Registry.idlers (v : Registry α) : Finset EntryId :=
  (Finset.range v.size).filter fun e => (v.entry e).isIdle

/-- What is acquired is idle no longer. -/
theorem Registry.idlers_grant (v : Registry α) {e : EntryId} (h : (v.entry e).Grants .acquire) :
    (v.grant e .acquire).idlers = v.idlers.erase e := by
  ext i
  simp only [idlers, Finset.mem_filter, Finset.mem_erase, Finset.mem_range]
  by_cases hi : i = e
  · subst hi
    have hactive : ((v.grant i .acquire).entry i).isIdle = false := by
      rw [grant_entry_self, ← Bool.not_eq_true, Entry.isIdle_iff, Entry.state_answer h]
      exact EntryState.noConfusion
    simp [hactive]
  · rw [grant_entry_of_ne v .acquire hi]
    simp only [hi, ne_eq, not_false_eq_true, true_and]
    rfl

namespace Store

variable {s : Store α} {direct : Bool} {p : PoolId} {c : CallerId} {e : EntryId}

theorem card_idlers_trackedAcquire (h : (s.trackedAcquire direct p c).1 = some e) :
    (s.trackedAcquire direct p c).2.registry.idlers.card < s.registry.idlers.card := by
  rw [trackedAcquire_fst] at h
  obtain ⟨hg, hr⟩ := acquire_of_some h
  rw [registry_trackedAcquire, hr, s.registry.idlers_grant hg]
  refine Finset.card_erase_lt_of_mem (Finset.mem_filter.mpr ⟨Finset.mem_range.mpr ?_, ?_⟩)
  · exact lt_size_of_grants hg
  · exact Entry.isIdle_iff.mpr (Entry.grants_acquire_iff.mp hg)

theorem card_idlers_le (s : Store α) : s.registry.idlers.card ≤ s.entries.size :=
  (Finset.card_filter_le _ _).trans (Finset.card_range _).le

/-- Whoever may ask more often than there are idle entries gets all there is. -/
theorem drain_of_lt {fuel fuel' : Nat} (h : s.registry.idlers.card < fuel)
    (h' : s.registry.idlers.card < fuel') : drain direct p c fuel s = drain direct p c fuel' s := by
  induction fuel generalizing fuel' s with
  | zero => exact absurd h (Nat.not_lt_zero _)
  | succ fuel ih =>
    obtain ⟨fuel', rfl⟩ : ∃ n, fuel' = n + 1 := Nat.exists_eq_add_one.mpr (Nat.zero_lt_of_lt h')
    unfold drain
    cases ha : s.trackedAcquire direct p c with
    | mk found t =>
      cases found with
      | none => rfl
      | some e =>
        have hfewer := card_idlers_trackedAcquire (congrArg Prod.fst ha)
        rw [ha] at hfewer
        dsimp only at hfewer ⊢
        have hrest : drain direct p c fuel t = drain direct p c fuel' t :=
          ih (by omega) (by omega)
        rw [hrest]

end Store

end ResourcePool
