import ResourcePool.Proofs.Selection

/-!
Searches with a start and a size of their own, whatever the list has become since these were computed: what is
found, what changes, and that no step of the search fails in machine words.
-/
namespace ResourcePool

variable {ε : Type} {members : List ε} {idle : ε → Bool}

/-- The place after `index` among `size`, in machine words: none if the sum overflows, or there are no places
to take it among. -/
def next? (index size : Nat) : Option Nat :=
  if index + 1 < UInt64.size ∧ 0 < size then some ((index + 1) % size) else none

/-- A search that checks each step it takes. It answers what it finds and the places that it probes, those
outside the list as well, and nothing at all if a step fails. -/
def checkedScan (members : List ε) (idle : ε → Bool) :
    (probes index size : Nat) → Option (Option ε × List Nat)
  | 0, _, _ => some (none, [])
  | probes + 1, index, size =>
    match members[index]? with
    | some e =>
      if idle e then some (some e, [index])
      else do
        let i ← next? index size
        let (found, places) ← checkedScan members idle probes i size
        return (found, index :: places)
    | none =>
      if members.length = 0 then some (none, [index])
      else do
        let i ← next? index members.length
        let (found, places) ← checkedScan members idle probes i members.length
        return (found, index :: places)

theorem next?_eq_some {index size : Nat} (hi : index + 1 < UInt64.size) (hs : 0 < size) :
    next? index size = some ((index + 1) % size) :=
  if_pos ⟨hi, hs⟩

/-- From a place below its size a search never comes to a place that is not, so that no step fails. -/
theorem checkedScan_eq {probes index size : Nat} (hi : index < size) (hs : size < UInt64.size) :
    ∃ places, checkedScan members idle probes index size =
        some (scan members idle probes index size, places) ∧
      places.length ≤ probes ∧ ∀ i ∈ places, i < size := by
  induction probes generalizing index size with
  | zero => exact ⟨[], rfl, Nat.le_refl 0, fun _ h => absurd h List.not_mem_nil⟩
  | succ probes ih =>
    have hone : ∀ i ∈ [index], i < size := fun i h => List.mem_singleton.mp h ▸ hi
    rw [checkedScan, scan]
    cases hx : members[index]? with
    | some e =>
      dsimp only
      split_ifs
      · exact ⟨[index], rfl, by simp, hone⟩
      · obtain ⟨places, hrest, hlen, hlt⟩ := ih (Nat.mod_lt (index + 1) (by omega)) hs
        refine ⟨index :: places, ?_, by simpa using hlen, List.forall_mem_cons.mpr ⟨hi, hlt⟩⟩
        rw [next?_eq_some (by omega) (by omega)]
        exact congrArg (· >>= _) hrest
    | none =>
      dsimp only
      split_ifs with hnil
      · exact ⟨[index], rfl, by simp, hone⟩
      · -- Past the end the size becomes the length, which is smaller.
        have hlen : members.length ≤ index := List.getElem?_eq_none_iff.mp hx
        have hnext : (index + 1) % members.length < members.length := Nat.mod_lt _ (by omega)
        obtain ⟨places, hrest, hle, hlt⟩ := ih hnext (by omega)
        refine ⟨index :: places, ?_, by simpa using hle, List.forall_mem_cons.mpr ⟨hi, fun i h => ?_⟩⟩
        · rw [next?_eq_some (by omega) (by omega)]
          exact congrArg (· >>= _) hrest
        · have := hlt i h
          omega

/-- More probes than there are members find nothing more. -/
theorem scan_eq_of_le {probes index : Nat} (hi : index < members.length) (hp : members.length ≤ probes) :
    scan members idle probes index members.length = (members.rotate index).find? idle := by
  have hturn : scan members idle members.length index members.length = (members.rotate index).find? idle := by
    rw [scan_eq_find? hi (Nat.le_refl _), List.take_length]
  rw [← hturn]
  cases hfull : scan members idle members.length index members.length with
  | some e =>
    obtain ⟨more, rfl⟩ : ∃ more, probes = members.length + more := ⟨_, (Nat.add_sub_cancel' hp).symm⟩
    rw [scan_eq_findSome?, probed_eq hi (Nat.le_refl _)] at hfull ⊢
    rw [List.range_add, List.map_append, List.findSome?_append, hfull, Option.some_or]
  | none =>
    refine scan_eq_none_iff.mpr fun j _ e he => ?_
    exact scan_eq_none hi hfull (List.mem_of_getElem? he)

/-- A search that begins past the end of the list goes around it from the place after its start. -/
theorem scan_past_end {size index : Nat} (hm : 0 < members.length) (hpast : members.length ≤ index)
    (hi : index < size) :
    scan members idle size index size = (members.rotate ((index + 1) % members.length)).find? idle := by
  obtain ⟨probes, rfl⟩ : ∃ probes, size = probes + 1 := ⟨size - 1, by omega⟩
  rw [scan, List.getElem?_eq_none hpast]
  dsimp only
  rw [if_neg (by omega)]
  exact scan_eq_of_le (Nat.mod_lt _ hm) (by omega)

variable {α : Type}

namespace Store

variable {s : Store α} {p : PoolId} {c : CallerId} {index size : Nat}

theorem search_fst (s : Store α) (p : PoolId) (c : CallerId) (index size : Nat) :
    (s.search p c index size).1 = scan (s.members p) s.isIdle size index size := by
  unfold search
  cases scan (s.members p) s.isIdle size index size <;> rfl

/-- A search that finds nothing changes nothing. -/
theorem search_of_none (h : (s.search p c index size).1 = none) : (s.search p c index size).2 = s := by
  rw [search_fst] at h
  rw [search, h]

/-- What a search finds it hands out. -/
theorem search_of_some {e : EntryId} (h : (s.search p c index size).1 = some e) :
    (s.search p c index size).2 = s.handOut p c e false := by
  rw [search_fst] at h
  rw [search, h]

end Store

/--
A search from `index`, taken for a list of `size` members. If the list has grown since, it finds the first idle
one among those that there were, going around from `index`; if it has shrunk to before `index`, it goes around
all that is left from the place after that, and misses none; and of an empty list it finds nothing. In any case
it makes no more probes than the size says, and no step of it overflows or divides by zero. What it finds was an
idle member, which becomes active and is counted as acquired, and nothing else changes.
-/
theorem search_exact (s : Store α) (p : PoolId) (c : CallerId) {index size : Nat} (hi : index < size)
    (hs : size < UInt64.size) :
    let members := s.members p
    let m := members.length
    let k := (index + 1) % m
    let found := (s.search p c index size).1
    (size ≤ m → found = ((members.take size).drop index ++ members.take index).find? s.isIdle) ∧
    (0 < m → m ≤ index → found = (members.drop k ++ members.take k).find? s.isIdle ∧
      (found = none ↔ ∀ e ∈ members, s.state e ≠ .idle)) ∧
    (m = 0 → found = none) ∧
    (∃ places, checkedScan members s.isIdle size index size = some (found, places) ∧
      places.length ≤ size ∧ ∀ i ∈ places, i < size) ∧
    (found = none → (s.search p c index size).2 = s) ∧
    ∀ e, found = some e → e ∈ members ∧ ∃ v, s.entry e = .idle v ∧
      (s.search p c index size).2 = { s.modifyPool p (fun x => { x with
          counters := { x.counters with acquired := x.counters.acquired + 1 } }) with
        entries := s.entries.setIfInBounds e (.active v)
        journal := s.journal.record (.acquired p c e false) } := by
  intro members m k found
  have hfound : found = scan members s.isIdle size index size := s.search_fst p c index size
  refine ⟨fun hgrown => ?_, fun hm hpast => ?_, fun hnil => ?_, ?_, Store.search_of_none, fun e he => ?_⟩
  · have htake : (members.take size).take index = members.take index := by
      rw [List.take_take, Nat.min_eq_left hi.le]
    rw [hfound, scan_eq_find? hi hgrown, List.rotate_eq_drop_append_take, htake]
    rw [List.length_take]
    exact le_min hi.le (hi.le.trans hgrown)
  · have hk : k < m := Nat.mod_lt _ hm
    have hscan : found = (members.drop k ++ members.take k).find? s.isIdle := by
      rw [hfound, scan_past_end hm hpast hi, List.rotate_eq_drop_append_take hk.le]
    refine ⟨hscan, ?_⟩
    have hmem : ∀ e, e ∈ members.drop k ++ members.take k ↔ e ∈ members := fun e => by
      rw [List.mem_append, or_comm, ← List.mem_append, List.take_append_drop]
    simp only [hscan, List.find?_eq_none, hmem, Store.isIdle, Entry.isIdle_iff, Store.state, ne_eq]
  · refine Option.eq_none_iff_forall_ne_some.mpr fun e he => ?_
    have hmem : e ∈ members := (scan_eq_some (hfound.symm.trans he)).1
    exact absurd (List.length_pos_of_mem hmem) (Nat.not_lt.mpr hnil.le)
  · rw [hfound]
    exact checkedScan_eq hi hs
  · obtain ⟨hmem, hidle⟩ := scan_eq_some (hfound.symm.trans he)
    obtain ⟨v, hv⟩ := Entry.exists_of_isIdle hidle
    exact ⟨hmem, v, hv, by rw [Store.search_of_some he, Store.handOut_of_idle hv]; rfl⟩

/-- Three of six members are left, of which the last is in use, when a search taken for all six begins with the
fifth. -/
theorem search_exact_of_shrunk :
    let s := (Program.searchAll 0 [.acquire, .remove 5, .remove 4, .remove 3]
      (Program.numbered 6 .roundRobin 2).2).2
    4 < 6 ∧ 6 < UInt64.size ∧ s.members 0 = [0, 1, 2] ∧ s.state 2 = .active ∧
      ∃ t, s.search 0 .main 4 6 = (some 0, t) ∧ t.state 0 = .active ∧
        (t.pool 0).counters.acquired = 2 ∧ (t.pool 0).counters.misses = 0 := by
  intro s
  have hmembers : s.members 0 = [0, 1, 2] := by decide +kernel
  obtain ⟨-, hpast, -, -, -, hchange⟩ :=
    search_exact s 0 .main (show 4 < 6 by decide) (show 6 < UInt64.size by decide)
  rw [hmembers] at hpast hchange
  obtain ⟨hfind, -⟩ := hpast (by decide) (by decide)
  have hfirst : ([2, 0, 1].find? s.isIdle) = some 0 := by decide +kernel
  have hfound : (s.search 0 .main 4 6).1 = some 0 := hfind.trans hfirst
  obtain ⟨-, v, hv, hafter⟩ := hchange 0 hfound
  obtain rfl : v = 0 := by
    have hvalue : s.entry 0 = .idle 0 := by decide +kernel
    injection hv.symm.trans hvalue
  exact ⟨by decide, by decide, hmembers, by decide +kernel, _, Prod.ext hfound hafter, by decide +kernel,
    by decide +kernel, by decide +kernel⟩

end ResourcePool
