import ResourcePool.Program.Search
import ResourcePool.Proofs.Scan

/-!
Searches whose size is out of date. A search computed for a list that has shrunk since loses the probe past
its end and goes on with the second member, so that the first one may be passed over.
-/
namespace ResourcePool

/-- A search from `index`, taken for a list of `size` members that has only `length` left, never comes to
the first one: it begins after it, runs past the end, and has too few probes left to go around. -/
def SkipsHead (index length size : Nat) : Prop :=
  0 < index ∧ index < length ∧ length < size ∧ size + index ≤ 2 * length

instance (index length size : Nat) : Decidable (SkipsHead index length size) :=
  inferInstanceAs (Decidable (_ ∧ _))

/-- From the second member on, fewer probes than there are members leave the first one out. -/
theorem mem_probed_one {length probes j : Nat} (hl : 1 < length) (hp : probes < length) :
    j ∈ probed length probes 1 length ↔ 0 < j ∧ j ≤ probes := by
  rw [mem_probed_of_lt hl]
  constructor
  · rintro ⟨k, hk, rfl⟩
    have hmod : (1 + k) % length = 1 + k := Nat.mod_eq_of_lt (by omega)
    omega
  · rintro ⟨hpos, hle⟩
    have hmod : (1 + (j - 1)) % length = 1 + (j - 1) := Nat.mod_eq_of_lt (by omega)
    exact ⟨j - 1, by omega, by omega⟩

/-- The probe past the end is lost, and from there on the search knows the true length. -/
theorem probed_of_le {length index : Nat} (hl : 0 < length) (hi : length ≤ index) (probes size : Nat) :
    probed length (probes + 1) index size = probed length probes ((index + 1) % length) length := by
  rw [probed, if_neg (by omega), if_neg (by omega)]

/-- A search taken for a longer list first probes what is left of the list. -/
theorem probed_append {length size : Nat} (hs : length < size) (k probes index : Nat)
    (hk : index + k = length) :
    probed length (k + probes) index size = List.range' index k ++ probed length probes length size := by
  induction k generalizing index with
  | zero =>
    obtain rfl : index = length := by omega
    rw [Nat.zero_add, List.range'_zero, List.nil_append]
  | succ k ih =>
    have hi : index < length := by omega
    have hnext : (index + 1) % size = index + 1 := Nat.mod_eq_of_lt (by omega)
    rw [Nat.add_right_comm, probed, if_pos hi, hnext, ih (index + 1) (by omega), List.range'_succ,
      List.cons_append]

/-- A search that begins past the end has probes left for all members. -/
theorem mem_probed_past {length size index j : Nat} (hl : 0 < length) (hi : length ≤ index)
    (hs : index < size) : j ∈ probed length size index size ↔ j < length := by
  obtain ⟨probes, rfl⟩ : ∃ probes, size = probes + 1 := ⟨size - 1, by omega⟩
  rw [probed_of_le hl hi]
  exact mem_probed_of_le (Nat.mod_lt _ hl) (by omega)

/-- A search that begins inside a list that has shrunk probes up to the end, and then on from the second
member. -/
theorem mem_probed_inside {length size index j : Nat} (hi : index < length) (hs : length < size) :
    j ∈ probed length size index size ↔ j < length ∧ (j = 0 → ¬ SkipsHead index length size) := by
  obtain ⟨rest, hrest⟩ : ∃ rest, size = length - index + (rest + 1) :=
    ⟨size - (length - index) - 1, by omega⟩
  have hsplit := probed_append hs (length - index) (rest + 1) index (by omega)
  rw [← hrest, probed_of_le (by omega) (Nat.le_refl _), Nat.add_mod_left] at hsplit
  rw [hsplit, List.mem_append, List.mem_range'_1]
  unfold SkipsHead
  rcases Nat.lt_or_ge rest length with hshort | hround
  · rcases Nat.lt_or_ge 1 length with hl | hl
    · rw [Nat.mod_eq_of_lt hl, mem_probed_one hl hshort]
      omega
    · obtain rfl : length = 1 := by omega
      rw [Nat.mod_self, mem_probed_of_lt Nat.one_pos]
      simp only [Nat.mod_one]
      omega
  · rw [mem_probed_of_le (Nat.mod_lt _ (by omega)) hround]
    omega

/-- A search whose size is at least the length of the list probes all members, except that it may skip the
first one. -/
theorem mem_probed_iff {length size index j : Nat} (hi : index < size) (hs : length ≤ size) :
    j ∈ probed length size index size ↔ j < length ∧ (j = 0 → ¬ SkipsHead index length size) := by
  rcases Nat.eq_zero_or_pos length with rfl | hl
  · obtain ⟨probes, rfl⟩ : ∃ probes, size = probes + 1 := ⟨size - 1, by omega⟩
    simp [probed]
  rcases Nat.lt_or_ge index length with hin | hpast
  · rcases Nat.eq_or_lt_of_le hs with rfl | hlonger
    · rw [mem_probed_of_le hin (Nat.le_refl _)]
      unfold SkipsHead
      omega
    · exact mem_probed_inside hin hlonger
  · rw [mem_probed_past hl hpast hi]
    unfold SkipsHead
    omega

/-- A search whose start and size were computed before the list shrank fails exactly when no member is idle,
or the first one alone and the search skips it. -/
theorem stale_search_eq_none_iff {α : Type} (s : Store α) (p : PoolId) (c : CallerId) {index size : Nat}
    (hi : index < size) (hs : (s.members p).length ≤ size) :
    s.search p c index size = (none, s) ↔
      ∀ j e, (s.members p)[j]? = some e → s.isIdle e = true →
        j = 0 ∧ SkipsHead index (s.members p).length size := by
  have hsearch : s.search p c index size = (none, s) ↔
      scan (s.members p) s.isIdle size index size = none := by
    unfold Store.search
    cases scan (s.members p) s.isIdle size index size <;> simp
  rw [hsearch, scan_eq_none_iff]
  constructor
  · intro h j e he hidle
    have hj : j < (s.members p).length := (List.getElem?_eq_some_iff.mp he).1
    by_contra hskip
    have hmem : j ∈ probed (s.members p).length size index size := by
      rw [mem_probed_iff hi hs]
      exact ⟨hj, fun h0 hsk => hskip ⟨h0, hsk⟩⟩
    exact absurd (h j hmem e he) (by simp [hidle])
  · intro h j hj e he
    have hmem := (mem_probed_iff hi hs).mp hj
    by_contra hidle
    obtain ⟨h0, hsk⟩ := h j e he (by simpa using hidle)
    exact hmem.2 h0 hsk

namespace Program

/-- Three numbers by turns, after the second was acquired and the third removed. -/
def shrunk : Store Nat :=
  (searchAll 0 [.acquire, .remove 2] (numbered 3 .roundRobin 1).2).2

/-- A search from the second of what were three members fails although the first one is idle. -/
theorem stale_search_misses_first :
    (shrunk.pool 0).closed = false ∧ (shrunk.members 0).length ≤ 3 ∧ 0 ∈ shrunk.members 0 ∧
      shrunk.isIdle 0 = true ∧ (shrunk.search 0 .main 1 3).1 = none := by
  decide +kernel

theorem stale_search_fails :
    1 < 3 ∧ (shrunk.members 0).length ≤ 3 ∧ shrunk.search 0 .main 1 3 = (none, shrunk) := by
  have hs : (shrunk.members 0).length ≤ 3 := by decide +kernel
  have hmembers : shrunk.members 0 = [0, 1] := by decide +kernel
  have hbusy : shrunk.isIdle 1 = false := by decide +kernel
  refine ⟨by decide, hs, (stale_search_eq_none_iff shrunk 0 .main (by decide) hs).mpr ?_⟩
  rw [hmembers]
  intro j e he hidle
  match j with
  | 0 => exact ⟨rfl, by decide⟩
  | 1 =>
    obtain rfl := Option.some.inj he
    exact absurd hidle (by simp [hbusy])
  | j + 2 => simp at he

end Program

end ResourcePool
