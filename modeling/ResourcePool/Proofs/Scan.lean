import Mathlib.Data.List.Rotate
import Mathlib.Tactic.Common
import ResourcePool.Scan
import ResourcePool.Strategy

/-! What a search finds: an idle member, and from a start inside the list always one if there is one. -/
namespace ResourcePool

variable {ε : Type} {members : List ε} {idle : ε → Bool}

theorem scan_eq_some {probes index size : Nat} {e : ε}
    (h : scan members idle probes index size = some e) : e ∈ members ∧ idle e = true := by
  induction probes generalizing index size with
  | zero => simp [scan] at h
  | succ probes ih =>
    rw [scan] at h
    split at h
    · next x hx =>
      split_ifs at h with hi
      · obtain rfl := Option.some.inj h
        exact ⟨List.mem_of_getElem? hx, hi⟩
      · exact ih h
    · split_ifs at h
      exact ih h

/-- The places of a list that a search probes as long as it meets nothing idle. -/
def probed (length : Nat) : (probes index size : Nat) → List Nat
  | 0, _, _ => []
  | probes + 1, index, size =>
    if index < length then index :: probed length probes ((index + 1) % size) size
    else if length = 0 then []
    else probed length probes ((index + 1) % length) length

/-- A search takes the first idle member among those that it probes. -/
theorem scan_eq_findSome? (probes index size : Nat) :
    scan members idle probes index size =
      (probed members.length probes index size).findSome? fun j => members[j]?.filter idle := by
  induction probes generalizing index size with
  | zero => rfl
  | succ probes ih =>
    rw [scan, probed]
    by_cases hi : index < members.length
    · have hx : members[index]? = some members[index] := List.getElem?_eq_getElem hi
      rw [if_pos hi, List.findSome?_cons, hx, ih]
      cases hidle : idle members[index] <;> simp [Option.filter, hidle]
    · have hx : members[index]? = none := List.getElem?_eq_none (Nat.le_of_not_lt hi)
      rw [if_neg hi, hx]
      dsimp only
      split_ifs with hlen
      · rfl
      · exact ih _ _

/-- A search fails exactly when all it probes is busy. -/
theorem scan_eq_none_iff {probes index size : Nat} :
    scan members idle probes index size = none ↔
      ∀ j ∈ probed members.length probes index size, ∀ e, members[j]? = some e → idle e = false := by
  rw [scan_eq_findSome?, List.findSome?_eq_none_iff]
  simp only [Option.filter_eq_none_iff, Bool.not_eq_true]

/-- Within the list the probes follow one another around its first `size` members. -/
theorem probed_eq {length index size : Nat} (hi : index < size) (hs : size ≤ length) (probes : Nat) :
    probed length probes index size = (List.range probes).map fun k => (index + k) % size := by
  induction probes generalizing index with
  | zero => rfl
  | succ probes ih =>
    have hfirst : (index + 0) % size = index := Nat.mod_eq_of_lt hi
    have hnext : (index + 1) % size < size := Nat.mod_lt _ (by omega)
    rw [probed, if_pos (Nat.lt_of_lt_of_le hi hs), ih hnext, List.range_succ_eq_map, List.map_cons,
      List.map_map, hfirst]
    refine congrArg _ (List.map_congr_left fun k _ => ?_)
    rw [Nat.mod_add_mod, Function.comp_apply, Nat.succ_eq_add_one, Nat.add_right_comm, Nat.add_assoc]

/-- One turn of a search finds the first idle member of the list turned to its start. -/
theorem scan_eq_find? {index size : Nat} (hi : index < size) (hs : size ≤ members.length) :
    scan members idle size index size = ((members.take size).rotate index).find? idle := by
  have hturn : (List.range size).map (fun k => members[(index + k) % size]?) =
      ((members.take size).rotate index).map some := by
    refine List.ext_getElem (by simp [hs]) fun k _ _ => ?_
    have hlt : (k + index) % size < size := Nat.mod_lt _ (by omega)
    have hin : (k + index) % size < members.length := Nat.lt_of_lt_of_le hlt hs
    simp [List.getElem_rotate, hs, Nat.add_comm index k, hin]
  calc scan members idle size index size
      = ((List.range size).map fun k => members[(index + k) % size]?).findSome? (·.filter idle) := by
        rw [scan_eq_findSome?, probed_eq hi hs, List.findSome?_map, List.findSome?_map]
        rfl
    _ = ((members.take size).rotate index).find? idle := by
        rw [hturn, List.findSome?_map, ← List.findSome?_guard]
        rfl

/-- From a place inside the list, and with its true length, the probes follow one another around it. -/
theorem mem_probed_of_lt {length probes index j : Nat} (hi : index < length) :
    j ∈ probed length probes index length ↔ ∃ k < probes, j = (index + k) % length := by
  rw [probed_eq hi (Nat.le_refl _)]
  simp only [List.mem_map, List.mem_range, eq_comm]

/-- As many probes as there are members meet them all. -/
theorem mem_probed_of_le {length probes index j : Nat} (hi : index < length) (hp : length ≤ probes) :
    j ∈ probed length probes index length ↔ j < length := by
  rw [mem_probed_of_lt hi]
  constructor
  · rintro ⟨k, -, rfl⟩
    exact Nat.mod_lt _ (by omega)
  · intro hj
    by_cases hle : index ≤ j
    · have hsum : index + (j - index) = j := by omega
      exact ⟨j - index, by omega, by rw [hsum, Nat.mod_eq_of_lt hj]⟩
    · have hsum : index + (j + length - index) = j + length := by omega
      exact ⟨j + length - index, by omega, by rw [hsum, Nat.add_mod_right, Nat.mod_eq_of_lt hj]⟩

/-- A full turn meets every member. -/
theorem scan_eq_none {index : Nat} (hi : index < members.length)
    (h : scan members idle members.length index members.length = none) {e : ε} (he : e ∈ members) :
    idle e = false := by
  obtain ⟨j, hlt, rfl⟩ := List.getElem_of_mem he
  have hj : j ∈ probed members.length members.length index members.length :=
    (mem_probed_of_le hi (Nat.le_refl _)).mpr hlt
  exact scan_eq_none_iff.mp h j hj _ (List.getElem?_eq_getElem hlt)

/-- A search depends on the members only by which of them are idle. -/
theorem scan_map {δ : Type} (f : ε → δ) {idle' : δ → Bool} (h : ∀ e ∈ members, idle' (f e) = idle e)
    (probes index size : Nat) :
    scan (members.map f) idle' probes index size = (scan members idle probes index size).map f := by
  induction probes generalizing index size with
  | zero => rfl
  | succ probes ih =>
    rw [scan, scan, List.getElem?_map, List.length_map]
    cases hx : members[index]? with
    | none =>
      dsimp only [Option.map_none]
      split_ifs
      · rfl
      · exact ih _ _
    | some x =>
      dsimp only [Option.map_some]
      rw [h x (List.mem_of_getElem? hx)]
      split_ifs
      · rfl
      · exact ih _ _

theorem Strategy.start_lt (strategy : Strategy) {size : Nat} (h : 0 < size) (caller : CallerId)
    (draw : Nat) (turn : Option UInt64) : (strategy.start size caller draw turn).1 < size := by
  cases strategy with
  | first => exact h
  | random => exact Nat.mod_lt _ h
  | byCaller => exact Nat.mod_lt _ h
  | roundRobin =>
    cases turn with
    | none => exact h
    | some k => exact Nat.mod_lt _ h

end ResourcePool
