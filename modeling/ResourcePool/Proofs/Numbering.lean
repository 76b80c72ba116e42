import Mathlib.Data.List.Perm.Basic
import Mathlib.Data.List.Range
import Mathlib.Data.List.Nodup
import Mathlib.Tactic.SplitIfs
import ResourcePool.Caller

/-! Numbering: the numbers in use and the numbers given back are all those below the least one never used,
and a new number is used only when nobody's is left over. -/
namespace ResourcePool.Callers

variable {callers : Callers} {name other : String} {c d : CallerId}

/-- The numbers in use, that of the main caller first. -/
def numbers (callers : Callers) : List CallerId :=
  .main :: callers.live.map (·.2)

/-- How many callers there are. -/
def count (callers : Callers) : Nat :=
  callers.numbers.length

/-- Every number below the least one never used is in use or given back, and only once. -/
structure Numbered (callers : Callers) : Prop where
  names : (callers.live.map (·.1)).Nodup
  numbers : (callers.numbers ++ callers.freed).Perm (List.range callers.fresh)

/-- What goes by other names, when the names are distinct. -/
theorem perm_of_lookup {β : Type} {x : β} {live : List (String × β)} (hn : (live.map (·.1)).Nodup)
    (h : live.lookup name = some x) : live.Perm ((name, x) :: live.filter (·.1 != name)) := by
  obtain ⟨before, after, rfl, hbefore⟩ := List.lookup_eq_some_iff.mp h
  have hname : name ∉ after.map (·.1) := by
    rw [List.map_append, List.map_cons] at hn
    exact (List.nodup_cons.mp (List.nodup_append.mp hn).2.1).1
  have hb : before.filter (·.1 != name) = before := by
    refine List.filter_eq_self.mpr fun x hx => ?_
    rw [bne_comm]
    exact hbefore x hx
  have ha : after.filter (·.1 != name) = after := by
    refine List.filter_eq_self.mpr fun x hx => bne_iff_ne.mpr ?_
    rintro rfl
    exact hname (List.mem_map_of_mem hx)
  rw [List.filter_append, hb, List.filter_cons_of_neg (by simp), ha]
  exact List.perm_middle

/-- Who is there already keeps its number; a new caller takes the number given back last, or else the least
one never used. -/
theorem enter_cases (callers : Callers) (name : String) :
    (∃ c, callers.find? name = some c ∧ callers.enter name = (c, callers)) ∨
    (callers.find? name = none ∧ ∃ c freed, callers.freed = c :: freed ∧
      callers.enter name = (c, { callers with live := callers.live ++ [(name, c)], freed })) ∨
    (callers.find? name = none ∧ callers.freed = [] ∧
      callers.enter name = (callers.fresh,
        { callers with live := callers.live ++ [(name, callers.fresh)], fresh := callers.fresh + 1 })) := by
  unfold enter
  split
  · next c hc => exact .inl ⟨c, hc, rfl⟩
  · next hn =>
    split
    · next c freed hf => exact .inr (.inl ⟨hn, c, freed, hf, rfl⟩)
    · next hf => exact .inr (.inr ⟨hn, hf, rfl⟩)

theorem numbers_append (callers : Callers) (name : String) (c : CallerId) :
    { callers with live := callers.live ++ [(name, c)] }.numbers = callers.numbers ++ [c] := by
  simp only [numbers, List.map_append, List.map_cons, List.map_nil, List.cons_append]

namespace Numbered

theorem start : Numbered {} where
  names := List.nodup_nil
  numbers := .refl _

theorem count_add (h : callers.Numbered) : callers.count + callers.freed.length = callers.fresh := by
  have hl := h.numbers.length_eq
  rw [List.length_append, List.length_range] at hl
  exact hl

theorem nodup (h : callers.Numbered) : (callers.numbers ++ callers.freed).Nodup :=
  h.numbers.nodup_iff.mpr List.nodup_range

theorem mem_iff (h : callers.Numbered) (c : CallerId) :
    c ∈ callers.numbers ∨ c ∈ callers.freed ↔ c < callers.fresh := by
  rw [← List.mem_append, h.numbers.mem_iff, List.mem_range]

theorem names_append (h : callers.Numbered) (hn : callers.find? name = none) (c : CallerId) :
    ((callers.live ++ [(name, c)]).map (·.1)).Nodup := by
  rw [List.map_append, List.nodup_append]
  refine ⟨h.names, List.nodup_singleton _, fun x hx y hy => ?_⟩
  obtain ⟨z, hz, rfl⟩ := List.mem_map.mp hx
  rw [List.mem_singleton.mp hy]
  have hne : name ≠ z.1 := bne_iff_ne.mp (List.lookup_eq_none_iff.mp hn z hz)
  exact hne.symm

theorem enter (h : callers.Numbered) (name : String) : (callers.enter name).2.Numbered := by
  obtain ⟨c, -, he⟩ | ⟨hn, c, freed, hf, he⟩ | ⟨hn, hf, he⟩ := callers.enter_cases name
  · rw [he]
    exact h
  · rw [he]
    refine ⟨h.names_append hn c, ?_⟩
    have hp := h.numbers
    rw [hf] at hp
    rw [numbers_append { callers with freed }, List.append_assoc]
    exact hp
  · rw [he]
    refine ⟨h.names_append hn callers.fresh, ?_⟩
    have hp := h.numbers
    rw [hf, List.append_nil] at hp
    rw [numbers_append { callers with fresh := callers.fresh + 1 }, hf, List.append_nil, List.range_succ]
    exact hp.append_right _

/-- A number never used before is used only when there are more callers than ever. -/
theorem fresh_enter (h : callers.Numbered) (name : String) :
    (callers.enter name).2.fresh = max callers.fresh (callers.enter name).2.count := by
  have hafter := (h.enter name).count_add
  have hbefore := h.count_add
  obtain ⟨c, -, he⟩ | ⟨-, c, freed, -, he⟩ | ⟨-, hf, he⟩ := callers.enter_cases name
  · rw [he]
    exact (Nat.max_eq_left (Nat.le.intro hbefore)).symm
  · rw [he] at hafter ⊢
    exact (Nat.max_eq_left (Nat.le.intro hafter)).symm
  · rw [he] at hafter ⊢
    have hcount : { callers with
        live := callers.live ++ [(name, callers.fresh)], fresh := callers.fresh + 1 }.count =
          callers.fresh + 1 := by
      simpa only [hf, List.length_nil, Nat.add_zero] using hafter
    dsimp only
    rw [hcount]
    exact (Nat.max_eq_right (Nat.le_succ _)).symm

/-- A caller who leaves gives its number back. -/
theorem leave (h : callers.Numbered) {callers' : Callers} (hl : callers.leave? name = some callers') :
    callers'.Numbered ∧ callers'.fresh = callers.fresh := by
  obtain ⟨c, hc, rfl⟩ := Option.map_eq_some_iff.mp hl
  have hp := perm_of_lookup h.names hc
  refine ⟨⟨?_, ?_⟩, rfl⟩
  · exact h.names.sublist (List.filter_sublist.map _)
  · have hnumbers : callers.numbers.Perm
        (c :: .main :: (callers.live.filter (·.1 != name)).map (·.2)) :=
      ((hp.map _).cons _).trans (.swap _ _ _)
    refine List.Perm.trans ?_ h.numbers
    exact (List.perm_middle).trans (hnumbers.symm.append_right callers.freed)

end Numbered

/-! ### Names -/

theorem find?_append (h : callers.find? other = some d) (name : String) (c : CallerId) :
    (callers.live ++ [(name, c)]).lookup other = some d := by
  rw [List.lookup_append, show callers.live.lookup other = some d from h]
  rfl

/-- A caller keeps its number as others enter. -/
theorem find?_enter (h : callers.find? other = some d) (name : String) :
    (callers.enter name).2.find? other = some d := by
  obtain ⟨c, -, he⟩ | ⟨-, c, freed, -, he⟩ | ⟨-, -, he⟩ := callers.enter_cases name
  · rw [he]
    exact h
  · rw [he]
    exact find?_append h name c
  · rw [he]
    exact find?_append h name _

/-- A caller who entered is known by its number. -/
theorem find?_enter_self (callers : Callers) (name : String) :
    (callers.enter name).2.find? name = some (callers.enter name).1 := by
  have hself : callers.find? name = none → ∀ c, (callers.live ++ [(name, c)]).lookup name = some c := by
    intro hn c
    rw [List.lookup_append, show callers.live.lookup name = none from hn]
    simp
  obtain ⟨c, hc, he⟩ | ⟨hn, c, freed, -, he⟩ | ⟨hn, -, he⟩ := callers.enter_cases name
  · rw [he]
    exact hc
  · rw [he]
    exact hself hn c
  · rw [he]
    exact hself hn _

/-- A caller keeps its number as others leave. -/
theorem find?_leave {callers' : Callers} (h : callers.find? other = some d) (hne : other ≠ name)
    (hl : callers.leave? name = some callers') : callers'.find? other = some d := by
  obtain ⟨c, -, rfl⟩ := Option.map_eq_some_iff.mp hl
  unfold find? at h
  obtain ⟨before, after, hlive, hbefore⟩ := List.lookup_eq_some_iff.mp h
  refine List.lookup_eq_some_iff.mpr
    ⟨before.filter (·.1 != name), after.filter (·.1 != name), ?_, fun x hx => ?_⟩
  · dsimp only
    rw [hlive, List.filter_append, List.filter_cons_of_pos (by simpa using hne)]
  · exact hbefore x (List.mem_of_mem_filter hx)

end ResourcePool.Callers
