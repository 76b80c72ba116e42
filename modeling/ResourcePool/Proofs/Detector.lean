import Mathlib.Data.List.Nodup
import ResourcePool.Detector

/-! Detectors by age: the answer to each request, and what is held after it. -/
namespace ResourcePool.Detector

variable {maxAge now r : Nat} {held : List (Nat × Holding)}

theorem isSome_lookup_iff : (held.lookup r).isSome = true ↔ r ∈ held.map (·.1) := by
  rw [List.lookup_isSome_iff, List.mem_map]
  constructor
  · rintro ⟨x, hx, hxr⟩
    exact ⟨x, hx, (eq_of_beq hxr).symm⟩
  · rintro ⟨x, hx, rfl⟩
    exact ⟨x, hx, beq_self_eq_true _⟩

theorem acquired_of_mem (h : r ∈ held.map (·.1)) (description : String) :
    (expiry maxAge held).acquired now r description = (false, expiry maxAge held) := by
  have hlookup : (held.lookup r).isSome = true := by rwa [isSome_lookup_iff]
  exact if_pos hlookup

theorem acquired_of_not_mem (h : r ∉ held.map (·.1)) (description : String) :
    (expiry maxAge held).acquired now r description =
      (true, expiry maxAge (held ++ [(r, { since := now, description })])) := by
  have hlookup : ¬ (held.lookup r).isSome = true := by rwa [isSome_lookup_iff]
  exact if_neg hlookup

/-- A refused acquisition changes nothing. -/
theorem acquired_of_refused {d : Detector} {description : String}
    (h : (d.acquired now r description).1 = false) : (d.acquired now r description).2 = d := by
  cases d with
  | fixed => rfl
  | expiry maxAge held =>
    by_cases hr : r ∈ held.map (·.1)
    · rw [acquired_of_mem hr]
    · rw [acquired_of_not_mem hr] at h
      exact Bool.noConfusion h

theorem released_of_mem (h : r ∈ held.map (·.1)) :
    (expiry maxAge held).released r = (true, expiry maxAge (held.filter (·.1 != r))) := by
  have hlookup : (held.lookup r).isSome = true := by rwa [isSome_lookup_iff]
  exact Prod.ext hlookup rfl

theorem released_of_not_mem (h : r ∉ held.map (·.1)) :
    (expiry maxAge held).released r = (false, expiry maxAge held) := by
  have hall : held.filter (·.1 != r) = held := by
    refine List.filter_eq_self.mpr fun x hx => bne_iff_ne.mpr ?_
    rintro rfl
    exact h (List.mem_map_of_mem hx)
  have hlookup : ¬ (held.lookup r).isSome = true := by rwa [isSome_lookup_iff]
  exact Prod.ext (Bool.eq_false_iff.mpr hlookup) (congrArg (expiry maxAge) hall)

theorem nodup_concat (apart : (held.map (·.1)).Nodup) (hr : r ∉ held.map (·.1)) (k : Holding) :
    ((held ++ [(r, k)]).map (·.1)).Nodup := by
  rw [List.map_append, List.nodup_append]
  refine ⟨apart, List.nodup_singleton _, fun a ha b hb => ?_⟩
  rw [List.mem_singleton.mp hb]
  rintro rfl
  exact hr ha

theorem map_fst_filter (held : List (Nat × Holding)) (r : Nat) :
    (held.filter (·.1 != r)).map (·.1) = (held.map (·.1)).filter (· != r) := by
  rw [List.filter_map]
  rfl

/-- A pass reports what is due. -/
theorem exists_mem_sweep_iff (apart : (held.map (·.1)).Nodup) {k : Holding} (hk : (r, k) ∈ held) :
    (∃ leak ∈ ((expiry maxAge held).sweep now).1, leak.resource? = some r) ↔ isDue maxAge now k = true := by
  constructor
  · rintro ⟨leak, hleak, hr⟩
    obtain ⟨⟨i, l⟩, hi, rfl⟩ := List.mem_map.mp hleak
    obtain ⟨hi, hl⟩ := List.mem_filter.mp hi
    obtain rfl : i = r := Option.some.inj hr
    have hsame := List.inj_on_of_nodup_map apart hi hk rfl
    exact (Prod.mk.inj hsame).2 ▸ hl
  · intro hdue
    exact ⟨_, List.mem_map_of_mem (List.mem_filter.mpr ⟨hk, hdue⟩), rfl⟩

end ResourcePool.Detector
