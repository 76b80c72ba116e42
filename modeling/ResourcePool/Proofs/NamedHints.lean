import ResourcePool.Proofs.Caching

/-! Hints are weak: a caller is hinted at the very entry set last for it, as long as that entry lives, and an entry
lives just as long as its name stands for it. Entries are told apart by the places of the requests that made them. -/
namespace ResourcePool.NamedHints

/-- Requests with the callers who make them. -/
abbrev Requests := List (CallerId × Request)

namespace Request

def isMake : Request → Bool
  | make _ => true
  | _ => false

/-- Whether the request changes what a name stands for. -/
def isNaming : Request → Bool
  | make _ => true
  | drop _ => true
  | _ => false

/-- Whether the request changes what a caller is hinted at. -/
def isHinting : Request → Bool
  | set _ => true
  | clear => true
  | _ => false

end Request

/-- The hints after some requests, from none. -/
def after (rs : Requests) : NamedHints :=
  rs.foldl (fun s r => (s.answer r.1 r.2).2) {}

/-- The number that the entry made by the request at some place has. -/
def numberOf (rs : Requests) (i : Nat) : EntryId :=
  (rs.take i).countP (·.2.isMake)

/-- After the requests the name stands for the entry that the request at place `i` made. -/
def StandsFor (rs : Requests) (name : String) (i : Nat) : Prop :=
  (∃ c, rs[i]? = some (c, .make name)) ∧
    ∀ j > i, ∀ c, rs[j]? ≠ some (c, .make name) ∧ rs[j]? ≠ some (c, .drop name)

/-- The request at place `j` sets the slot of the caller to the entry made at place `i`. -/
def Sets (rs : Requests) (c : CallerId) (j i : Nat) : Prop :=
  ∃ name, rs[j]? = some (c, .set name) ∧ StandsFor (rs.take j) name i

/-- The slots are cleared behind place `j`. -/
def ClearedAfter (rs : Requests) (j : Nat) : Prop :=
  ∃ k > j, ∃ c, rs[k]? = some (c, .clear)

/-- The latest request since the last clearing that set the slot of the caller set it to the entry made at place `i`. -/
def LastSet (rs : Requests) (c : CallerId) (i : Nat) : Prop :=
  ∃ j, Sets rs c j i ∧ ¬ ClearedAfter rs j ∧ ∀ k > j, ∀ l, ¬ Sets rs c k l

section Concat

variable {rs : Requests} {a c : CallerId} {q : Request} {name : String} {i j : Nat}

section List

variable {α : Type} {xs : List α} {x y : α}

theorem getElem?_concat_of_eq_some (h : xs[j]? = some y) : (xs ++ [x])[j]? = some y := by
  rwa [List.getElem?_append_left (List.getElem?_eq_some_iff.mp h).1]

theorem getElem?_concat_cases (h : (xs ++ [x])[j]? = some y) : xs[j]? = some y ∨ (j = xs.length ∧ x = y) := by
  rcases lt_trichotomy j xs.length with hj | rfl | hj
  · rw [List.getElem?_append_left hj] at h
    exact .inl h
  · rw [List.getElem?_concat_length] at h
    exact .inr ⟨rfl, Option.some.inj h⟩
  · have hlong : (xs ++ [x]).length ≤ j := by simpa using Nat.succ_le_of_lt hj
    rw [List.getElem?_eq_none hlong] at h
    exact absurd h.symm (Option.some_ne_none y)

end List

theorem StandsFor.lt_length (h : StandsFor rs name i) : i < rs.length := by
  obtain ⟨⟨c, hc⟩, -⟩ := h
  exact (List.getElem?_eq_some_iff.mp hc).1

theorem Sets.lt_length (h : Sets rs c j i) : j < rs.length := by
  obtain ⟨name, hj, -⟩ := h
  exact (List.getElem?_eq_some_iff.mp hj).1

theorem Sets.lt (h : Sets rs c j i) : i < j := by
  obtain ⟨name, -, hstands⟩ := h
  exact hstands.lt_length.trans_le (List.length_take_le _ _)

theorem LastSet.lt_length (h : LastSet rs c i) : i < rs.length := by
  obtain ⟨j, hsets, -⟩ := h
  exact hsets.lt.trans hsets.lt_length

theorem after_concat (rs : Requests) (r : CallerId × Request) :
    after (rs ++ [r]) = ((after rs).answer r.1 r.2).2 := by
  simp [after, List.foldl_append]

theorem standsFor_concat : StandsFor (rs ++ [(a, q)]) name i ↔
    (i = rs.length ∧ q = .make name) ∨ (StandsFor rs name i ∧ q ≠ .make name ∧ q ≠ .drop name) := by
  constructor
  · rintro ⟨⟨c, hc⟩, hlater⟩
    rcases getElem?_concat_cases hc with hc | ⟨rfl, hlast⟩
    · have hi : i < rs.length := (List.getElem?_eq_some_iff.mp hc).1
      refine .inr ⟨⟨⟨c, hc⟩, fun j hj d => ?_⟩, ?_, ?_⟩
      · obtain ⟨hmake, hdrop⟩ := hlater j hj d
        exact ⟨fun h => hmake (getElem?_concat_of_eq_some h),
          fun h => hdrop (getElem?_concat_of_eq_some h)⟩
      · rintro rfl
        exact (hlater _ hi a).1 List.getElem?_concat_length
      · rintro rfl
        exact (hlater _ hi a).2 List.getElem?_concat_length
    · exact .inl ⟨rfl, (Prod.mk.inj hlast).2⟩
  · rintro (⟨rfl, rfl⟩ | ⟨⟨⟨c, hc⟩, hlater⟩, hmake, hdrop⟩)
    · refine ⟨⟨a, List.getElem?_concat_length⟩, fun j hj d => ?_⟩
      have hlong : (rs ++ [(a, Request.make name)]).length ≤ j := by simpa using Nat.succ_le_of_lt hj
      rw [List.getElem?_eq_none hlong]
      exact ⟨nofun, nofun⟩
    · refine ⟨⟨c, getElem?_concat_of_eq_some hc⟩, fun j hj d => ?_⟩
      have hnone : ∀ r, rs[j]? ≠ some (d, r) → q ≠ r → (rs ++ [(a, q)])[j]? ≠ some (d, r) := by
        intro r hearlier hlast h
        rcases getElem?_concat_cases h with h | ⟨-, h⟩
        · exact hearlier h
        · exact hlast (Prod.mk.inj h).2
      obtain ⟨hmake', hdrop'⟩ := hlater j hj d
      exact ⟨hnone _ hmake' hmake, hnone _ hdrop' hdrop⟩

/-- The last request sets the slot of a caller. -/
def SetsNow (rs : Requests) (a : CallerId) (q : Request) (c : CallerId) (i : Nat) : Prop :=
  a = c ∧ ∃ name, q = .set name ∧ StandsFor rs name i

theorem sets_concat : Sets (rs ++ [(a, q)]) c j i ↔ Sets rs c j i ∨ (j = rs.length ∧ SetsNow rs a q c i) := by
  constructor
  · rintro ⟨name, hj, hstands⟩
    rcases getElem?_concat_cases hj with hj | ⟨rfl, hlast⟩
    · have hlt : j < rs.length := (List.getElem?_eq_some_iff.mp hj).1
      rw [List.take_append_of_le_length hlt.le] at hstands
      exact .inl ⟨name, hj, hstands⟩
    · rw [List.take_left] at hstands
      exact .inr ⟨rfl, (Prod.mk.inj hlast).1, name, (Prod.mk.inj hlast).2, hstands⟩
  · rintro (hsets | ⟨rfl, rfl, name, rfl, hstands⟩)
    · have hlt := hsets.lt_length
      obtain ⟨name, hj, hstands⟩ := hsets
      refine ⟨name, getElem?_concat_of_eq_some hj, ?_⟩
      rwa [List.take_append_of_le_length hlt.le]
    · refine ⟨name, List.getElem?_concat_length, ?_⟩
      rwa [List.take_left]

theorem clearedAfter_concat : ClearedAfter (rs ++ [(a, q)]) j ↔
    ClearedAfter rs j ∨ (j < rs.length ∧ q = .clear) := by
  constructor
  · rintro ⟨k, hk, c, hc⟩
    rcases getElem?_concat_cases hc with hc | ⟨rfl, hlast⟩
    · exact .inl ⟨k, hk, c, hc⟩
    · exact .inr ⟨hk, (Prod.mk.inj hlast).2⟩
  · rintro (⟨k, hk, c, hc⟩ | ⟨hj, rfl⟩)
    · exact ⟨k, hk, c, getElem?_concat_of_eq_some hc⟩
    · exact ⟨rs.length, hj, a, List.getElem?_concat_length⟩

theorem ClearedAfter.lt_length (h : ClearedAfter rs j) : j + 1 < rs.length := by
  obtain ⟨k, hk, c, hc⟩ := h
  have hlt := (List.getElem?_eq_some_iff.mp hc).1
  omega

theorem lastSet_concat : LastSet (rs ++ [(a, q)]) c i ↔
    SetsNow rs a q c i ∨ (LastSet rs c i ∧ q ≠ .clear ∧ ∀ l, ¬ SetsNow rs a q c l) := by
  constructor
  · rintro ⟨j, hsets, hclear, hlater⟩
    rw [clearedAfter_concat, not_or] at hclear
    simp only [sets_concat] at hsets hlater
    rcases hsets with hsets | ⟨-, hnow⟩
    · refine .inr ⟨⟨j, hsets, hclear.1, fun k hk l h => hlater k hk l (.inl h)⟩, ?_, fun l h => ?_⟩
      · exact fun hq => hclear.2 ⟨hsets.lt_length, hq⟩
      · exact hlater _ hsets.lt_length l (.inr ⟨rfl, h⟩)
    · exact .inl hnow
  · rintro (hnow | ⟨⟨j, hsets, hclear, hlater⟩, hq, hnot⟩)
    · refine ⟨rs.length, ?_, fun h => ?_, fun k hk l h => ?_⟩
      · rw [sets_concat]
        exact .inr ⟨rfl, hnow⟩
      · have hlt := h.lt_length
        simp at hlt
      · have hlt := h.lt_length
        simp at hlt
        omega
    · refine ⟨j, ?_, fun h => ?_, fun k hk l h => ?_⟩
      · rw [sets_concat]
        exact .inl hsets
      · rw [clearedAfter_concat] at h
        rcases h with h | ⟨-, h⟩
        · exact hclear h
        · exact hq h
      · rw [sets_concat] at h
        rcases h with h | ⟨-, h⟩
        · exact hlater k hk l h
        · exact hnot l h

/-! ### Numbers -/

theorem StandsFor.unique (hi : StandsFor rs name i) (hj : StandsFor rs name j) : i = j := by
  rcases lt_trichotomy i j with hlt | heq | hlt
  · obtain ⟨c, hc⟩ := hj.1
    exact absurd hc (hi.2 j hlt c).1
  · exact heq
  · obtain ⟨c, hc⟩ := hi.1
    exact absurd hc (hj.2 i hlt c).1

theorem LastSet.exists_make (h : LastSet rs c i) : ∃ d name, rs[i]? = some (d, .make name) := by
  obtain ⟨j, hsets, -⟩ := h
  have hlt := hsets.lt
  obtain ⟨name, -, ⟨d, hd⟩, -⟩ := hsets
  rw [List.getElem?_take_of_lt hlt] at hd
  exact ⟨d, name, hd⟩

theorem numberOf_lt (hi : rs[i]? = some (c, .make name)) (hij : i < j) : numberOf rs i < numberOf rs j := by
  have hstep : numberOf rs (i + 1) = numberOf rs i + 1 := by
    unfold numberOf
    rw [List.take_add_one, hi, List.countP_append]
    rfl
  have hmono : numberOf rs (i + 1) ≤ numberOf rs j := (List.take_sublist_take_left hij).countP_le
  rw [hstep] at hmono
  exact hmono

/-- Entries made at different places have different numbers. -/
theorem eq_of_numberOf_eq {d : CallerId} {name' : String} (hi : rs[i]? = some (c, .make name))
    (hj : rs[j]? = some (d, .make name')) (h : numberOf rs i = numberOf rs j) : i = j := by
  rcases lt_trichotomy i j with hlt | heq | hlt
  · exact absurd h (numberOf_lt hi hlt).ne
  · exact heq
  · exact absurd h (numberOf_lt hj hlt).ne'

theorem numberOf_concat (r : CallerId × Request) (hi : i ≤ rs.length) : numberOf (rs ++ [r]) i = numberOf rs i := by
  unfold numberOf
  rw [List.take_append_of_le_length hi]

/-- The number of the entry that a name stands for. -/
def Named (rs : Requests) (name : String) (e : EntryId) : Prop :=
  ∃ i, StandsFor rs name i ∧ e = numberOf rs i

/-- The number of the entry that was set for a caller last. -/
def Hinted (rs : Requests) (c : CallerId) (e : EntryId) : Prop :=
  ∃ i, LastSet rs c i ∧ e = numberOf rs i

variable {e e' : EntryId} {name' : String}

theorem Named.unique (h : Named rs name e) (h' : Named rs name e') : e = e' := by
  obtain ⟨i, hi, rfl⟩ := h
  obtain ⟨j, hj, rfl⟩ := h'
  rw [hi.unique hj]

/-- Names stand for different entries. -/
theorem Named.name_unique (h : Named rs name e) (h' : Named rs name' e) : name = name' := by
  obtain ⟨i, hi, rfl⟩ := h
  obtain ⟨j, hj, hnumber⟩ := h'
  obtain ⟨c, hc⟩ := hi.1
  obtain ⟨d, hd⟩ := hj.1
  obtain rfl := eq_of_numberOf_eq hc hd hnumber
  rw [hc] at hd
  exact Request.make.inj (Prod.mk.inj (Option.some.inj hd)).2

theorem named_concat : Named (rs ++ [(a, q)]) name e ↔
    (q = .make name ∧ e = rs.countP (·.2.isMake)) ∨ (Named rs name e ∧ q ≠ .make name ∧ q ≠ .drop name) := by
  have hlast : numberOf (rs ++ [(a, q)]) rs.length = rs.countP (·.2.isMake) := by
    rw [numberOf_concat _ le_rfl, numberOf, List.take_length]
  constructor
  · rintro ⟨i, hi, rfl⟩
    rw [standsFor_concat] at hi
    rcases hi with ⟨rfl, rfl⟩ | ⟨hi, hq⟩
    · exact .inl ⟨rfl, hlast⟩
    · exact .inr ⟨⟨i, hi, numberOf_concat _ hi.lt_length.le⟩, hq⟩
  · rintro (⟨rfl, rfl⟩ | ⟨⟨i, hi, rfl⟩, hq⟩)
    · refine ⟨rs.length, ?_, hlast.symm⟩
      rw [standsFor_concat]
      exact .inl ⟨rfl, rfl⟩
    · refine ⟨i, ?_, (numberOf_concat _ hi.lt_length.le).symm⟩
      rw [standsFor_concat]
      exact .inr ⟨hi, hq⟩

theorem hinted_concat : Hinted (rs ++ [(a, q)]) c e ↔
    (a = c ∧ ∃ name, q = .set name ∧ Named rs name e) ∨
      (Hinted rs c e ∧ q ≠ .clear ∧ ∀ name e', q = .set name → Named rs name e' → a ≠ c) := by
  constructor
  · rintro ⟨i, hi, rfl⟩
    rw [lastSet_concat] at hi
    rcases hi with ⟨rfl, name, rfl, hstands⟩ | ⟨hi, hq, hnot⟩
    · exact .inl ⟨rfl, name, rfl, i, hstands, numberOf_concat _ hstands.lt_length.le⟩
    · refine .inr ⟨⟨i, hi, numberOf_concat _ hi.lt_length.le⟩, hq, fun name e' hset hnamed hac => ?_⟩
      obtain ⟨l, hl, -⟩ := hnamed
      exact hnot l ⟨hac, name, hset, hl⟩
  · rintro (⟨rfl, name, rfl, i, hi, rfl⟩ | ⟨⟨i, hi, rfl⟩, hq, hnot⟩)
    · refine ⟨i, ?_, (numberOf_concat _ hi.lt_length.le).symm⟩
      rw [lastSet_concat]
      exact .inl ⟨rfl, name, rfl, hi⟩
    · refine ⟨i, ?_, (numberOf_concat _ hi.lt_length.le).symm⟩
      rw [lastSet_concat]
      refine .inr ⟨hi, hq, ?_⟩
      rintro l ⟨hac, name, hset, hl⟩
      exact hnot name _ hset ⟨l, hl, rfl⟩ hac

theorem named_concat_of_not_naming (h : q.isNaming = false) : Named (rs ++ [(a, q)]) name e ↔ Named rs name e := by
  have hmake : q ≠ .make name := by
    rintro rfl
    exact Bool.noConfusion h
  have hdrop : q ≠ .drop name := by
    rintro rfl
    exact Bool.noConfusion h
  rw [named_concat]
  exact (or_iff_right fun hnew => hmake hnew.1).trans (and_iff_left ⟨hmake, hdrop⟩)

theorem hinted_concat_of_not_hinting (h : q.isHinting = false) : Hinted (rs ++ [(a, q)]) c e ↔ Hinted rs c e := by
  have hset : ∀ name, q ≠ .set name := by
    rintro name rfl
    exact Bool.noConfusion h
  have hclear : q ≠ .clear := by
    rintro rfl
    exact Bool.noConfusion h
  have hkept : ∀ name e', q = .set name → Named rs name e' → a ≠ c := fun name _ hq => absurd hq (hset name)
  rw [hinted_concat]
  refine (or_iff_right ?_).trans (and_iff_left ⟨hclear, hkept⟩)
  rintro ⟨-, name, hq, -⟩
  exact hset name hq

end Concat

/-! ### Hints after requests -/

/-- What some requests leave. -/
structure Recalls (rs : Requests) (s : NamedHints) : Prop where
  created : s.created = rs.countP (·.2.isMake)
  entries : ∀ name e, (name, e) ∈ s.entries ↔ Named rs name e
  slots : ∀ c e, s.hints.slots.lookup c = some e ↔ Hinted rs c e
  callers : s.hints.callers.Nodup

namespace Recalls

variable {rs : Requests} {s : NamedHints} {a c : CallerId} {q : Request} {name : String} {e : EntryId}

theorem lookup_eq_some_iff (h : Recalls rs s) : s.entries.lookup name = some e ↔ Named rs name e := by
  rw [← h.entries]
  constructor
  · intro hlookup
    obtain ⟨before, behind, hsplit, -⟩ := List.lookup_eq_some_iff.mp hlookup
    rw [hsplit]
    exact List.mem_append_right _ List.mem_cons_self
  · intro hmem
    cases hlookup : s.entries.lookup name with
    | none => exact absurd (List.lookup_eq_none_iff.mp hlookup _ hmem) (by simp)
    | some e' =>
      obtain ⟨before, behind, hsplit, -⟩ := List.lookup_eq_some_iff.mp hlookup
      have hmem' : (name, e') ∈ s.entries := hsplit ▸ List.mem_append_right _ List.mem_cons_self
      rw [((h.entries _ _).mp hmem).unique ((h.entries _ _).mp hmem')]

theorem make (h : Recalls rs s) (a : CallerId) (name : String) :
    Recalls (rs ++ [(a, .make name)]) (s.make name) := by
  refine ⟨?_, fun n e => ?_, fun c e => ?_, h.callers⟩
  · rw [List.countP_append, ← h.created]
    rfl
  · change (n, e) ∈ (name, s.created) :: s.entries.filter (·.1 != name) ↔ _
    simp only [named_concat, ← h.entries, ← h.created, List.mem_cons, List.mem_filter, Prod.mk.injEq, bne_iff_ne,
      ne_eq, Request.make.injEq, reduceCtorEq, not_false_eq_true, and_true, @eq_comm _ name n]
  · exact (h.slots c e).trans (hinted_concat_of_not_hinting rfl).symm

theorem drop (h : Recalls rs s) (a : CallerId) (name : String) :
    Recalls (rs ++ [(a, .drop name)]) (s.forget name) := by
  refine ⟨?_, fun n e => ?_, fun c e => ?_, h.callers⟩
  · rw [List.countP_append, ← h.created]
    rfl
  · change (n, e) ∈ s.entries.filter (·.1 != name) ↔ _
    simp only [named_concat, ← h.entries, List.mem_filter, bne_iff_ne, ne_eq, Request.drop.injEq, reduceCtorEq,
      not_false_eq_true, true_and, false_and, false_or, @eq_comm _ name n]
  · exact (h.slots c e).trans (hinted_concat_of_not_hinting rfl).symm

/-- Hints come and go without a change to the names. -/
theorem hint (h : Recalls rs s) (a : CallerId) (hq : q.isNaming = false) {hints : Hints}
    (hslots : ∀ c e, hints.slots.lookup c = some e ↔ Hinted (rs ++ [(a, q)]) c e) (hcallers : hints.callers.Nodup) :
    Recalls (rs ++ [(a, q)]) { s with hints } := by
  refine ⟨?_, fun n e => ?_, hslots, hcallers⟩
  · rw [List.countP_append, ← h.created]
    cases q <;> first | rfl | exact Bool.noConfusion hq
  · rw [named_concat_of_not_naming hq]
    exact h.entries n e

/-- A name that stands for nothing sets nothing. -/
theorem set_unnamed (h : Recalls rs s) (a : CallerId) (hnot : ∀ e, ¬ Named rs name e) :
    Recalls (rs ++ [(a, .set name)]) s := by
  refine h.hint (q := .set name) a rfl (fun c e => ?_) h.callers
  rw [h.slots, hinted_concat]
  constructor
  · refine fun hc => .inr ⟨hc, (fun hq => nomatch hq), fun n k hq hn => ?_⟩
    obtain rfl := Request.set.inj hq
    exact absurd hn (hnot k)
  · rintro (⟨-, n, hq, hn⟩ | ⟨hc, -⟩)
    · obtain rfl := Request.set.inj hq
      exact absurd hn (hnot e)
    · exact hc

theorem set_named (h : Recalls rs s) (a : CallerId) (hnamed : Named rs name e) :
    Recalls (rs ++ [(a, .set name)]) { s with hints := s.hints.set a e } := by
  refine h.hint (q := .set name) a rfl (fun c k => ?_) (Hints.nodup_set h.callers)
  rw [Hints.lookup_set, hinted_concat]
  by_cases hca : c = a
  · subst hca
    rw [if_pos rfl, Option.some.injEq]
    constructor
    · rintro rfl
      exact .inl ⟨rfl, name, rfl, hnamed⟩
    · rintro (⟨-, n, hq, hn⟩ | ⟨-, -, hnot⟩)
      · obtain rfl := Request.set.inj hq
        exact hnamed.unique hn
      · exact absurd rfl (hnot name e rfl hnamed)
  · rw [if_neg hca, h.slots]
    constructor
    · exact fun hc => .inr ⟨hc, (fun hq => nomatch hq), fun _ _ _ _ => Ne.symm hca⟩
    · rintro (⟨hac, -⟩ | ⟨hc, -⟩)
      · exact absurd hac.symm hca
      · exact hc

theorem clear (h : Recalls rs s) (a : CallerId) : Recalls (rs ++ [(a, .clear)]) { s with hints := {} } := by
  refine h.hint a rfl (fun c e => ?_) List.nodup_nil
  rw [hinted_concat]
  constructor
  · exact fun hnone => absurd hnone.symm (Option.some_ne_none e)
  · rintro (⟨-, n, hq, -⟩ | ⟨-, hq, -⟩)
    · exact nomatch hq
    · exact absurd rfl hq

theorem answer (h : Recalls rs s) (a : CallerId) (q : Request) : Recalls (rs ++ [(a, q)]) (s.answer a q).2 := by
  cases q with
  | make name => exact h.make a name
  | set name =>
    unfold NamedHints.answer
    cases hlookup : s.entries.lookup name with
    | none =>
      have hnot : ∀ e, ¬ Named rs name e := by
        intro e hnamed
        rw [h.lookup_eq_some_iff.mpr hnamed] at hlookup
        exact absurd hlookup (Option.some_ne_none e)
      simpa only [hlookup] using h.set_unnamed a hnot
    | some e => simpa only [hlookup] using h.set_named a (h.lookup_eq_some_iff.mp hlookup)
  | drop name => exact h.drop a name
  | get =>
    exact h.hint (q := .get) a rfl (fun c e => (h.slots c e).trans (hinted_concat_of_not_hinting rfl).symm) h.callers
  | clear => exact h.clear a

end Recalls

theorem recalls_after (rs : Requests) : Recalls rs (after rs) := by
  induction rs using List.reverseRecOn with
  | nil =>
    refine ⟨rfl, fun name e => ?_, fun c e => ?_, List.nodup_nil⟩
    · refine iff_of_false List.not_mem_nil ?_
      rintro ⟨i, hi, -⟩
      exact absurd hi.lt_length (Nat.not_lt_zero i)
    · refine iff_of_false (Option.some_ne_none e).symm ?_
      rintro ⟨i, hi, -⟩
      exact absurd hi.lt_length (Nat.not_lt_zero i)
  | append_singleton rs r ih =>
    rw [after_concat]
    exact ih.answer r.1 r.2

/-! ### What is read off the hints -/

namespace Recalls

variable {rs : Requests} {s : NamedHints} {c : CallerId} {name : String} {e : EntryId}

theorem alive_iff (h : Recalls rs s) : s.alive e = true ↔ ∃ name, Named rs name e := by
  unfold alive
  rw [List.any_eq_true]
  constructor
  · rintro ⟨⟨name, k⟩, hmem, hk⟩
    obtain rfl := eq_of_beq hk
    exact ⟨name, (h.entries _ _).mp hmem⟩
  · rintro ⟨name, hnamed⟩
    exact ⟨(name, e), (h.entries _ _).mpr hnamed, beq_self_eq_true e⟩

theorem nameOf?_eq_some_iff (h : Recalls rs s) : s.nameOf? e = some name ↔ Named rs name e := by
  unfold nameOf?
  rw [Option.map_eq_some_iff]
  constructor
  · rintro ⟨⟨n, k⟩, hfind, rfl⟩
    obtain rfl : k = e := by simpa using List.find?_some hfind
    exact (h.entries _ _).mp (List.mem_of_find?_eq_some hfind)
  · intro hnamed
    have hsome : (s.entries.find? (·.2 == e)).isSome = true :=
      List.find?_isSome.mpr ⟨_, (h.entries _ _).mpr hnamed, beq_self_eq_true e⟩
    obtain ⟨⟨n, k⟩, hfind⟩ := Option.isSome_iff_exists.mp hsome
    obtain rfl : k = e := by simpa using List.find?_some hfind
    exact ⟨_, hfind, ((h.entries _ _).mp (List.mem_of_find?_eq_some hfind)).name_unique hnamed⟩

theorem hint_eq_some_iff (h : Recalls rs s) :
    s.hints.get? s.alive c = some e ↔ Hinted rs c e ∧ ∃ name, Named rs name e := by
  unfold Hints.get?
  rw [Option.filter_eq_some_iff, h.slots, h.alive_iff]

theorem get?_eq_some_iff (h : Recalls rs s) : s.get? c = some name ↔ ∃ e, Hinted rs c e ∧ Named rs name e := by
  unfold get?
  rw [Option.bind_eq_some_iff]
  constructor
  · rintro ⟨e, hhint, hname⟩
    exact ⟨e, (h.hint_eq_some_iff.mp hhint).1, h.nameOf?_eq_some_iff.mp hname⟩
  · rintro ⟨e, hhint, hname⟩
    exact ⟨e, h.hint_eq_some_iff.mpr ⟨hhint, name, hname⟩, h.nameOf?_eq_some_iff.mpr hname⟩

end Recalls

variable {rs : Requests} {a c : CallerId} {q : Request} {i : Nat}

/-- The name of the entry set last stands for that entry, and for none made since. -/
theorem LastSet.standsFor {name : String} (h : LastSet rs c i) (hnamed : Named rs name (numberOf rs i)) :
    StandsFor rs name i := by
  obtain ⟨j, hstands, hnumber⟩ := hnamed
  obtain ⟨d, n, hi⟩ := h.exists_make
  obtain ⟨k, hj⟩ := hstands.1
  obtain rfl := eq_of_numberOf_eq hi hj hnumber
  exact hstands

/-- Who set a slot since the last clearing set it last to some entry. -/
theorem exists_lastSet_iff : (∃ i, LastSet rs c i) ↔ ∃ j i, Sets rs c j i ∧ ¬ ClearedAfter rs j := by
  constructor
  · rintro ⟨i, j, hsets, hclear, -⟩
    exact ⟨j, i, hsets, hclear⟩
  · induction rs using List.reverseRecOn with
    | nil =>
      rintro ⟨j, i, hsets, -⟩
      exact absurd hsets.lt_length (Nat.not_lt_zero j)
    | append_singleton rs r ih =>
      obtain ⟨a, q⟩ := r
      rintro ⟨j, i, hsets, hclear⟩
      rw [sets_concat] at hsets
      rw [clearedAfter_concat, not_or] at hclear
      simp only [lastSet_concat]
      by_cases hnow : ∃ l, SetsNow rs a q c l
      · obtain ⟨l, hl⟩ := hnow
        exact ⟨l, .inl hl⟩
      · rcases hsets with hsets | ⟨-, hl⟩
        · obtain ⟨l, hl⟩ := ih ⟨j, i, hsets, hclear.1⟩
          refine ⟨l, .inr ⟨hl, ?_, not_exists.mp hnow⟩⟩
          exact fun hq => hclear.2 ⟨hsets.lt_length, hq⟩
        · exact absurd ⟨i, hl⟩ hnow

/-- Names are made and dropped in the same way whatever the hints are. -/
theorem names_answer_congr {s t : NamedHints} (hq : q.isNaming = true) (hentries : s.entries = t.entries)
    (hcreated : s.created = t.created) : (s.answer a q).2.entries = (t.answer a q).2.entries ∧
      (s.answer a q).2.created = (t.answer a q).2.created := by
  cases q with
  | make name => simp [answer, make, forget, hentries, hcreated]
  | drop name => simp [answer, forget, hentries, hcreated]
  | _ => exact Bool.noConfusion hq

theorem names_answer_of_not_naming (s : NamedHints) (hq : q.isNaming = false) :
    (s.answer a q).2.entries = s.entries ∧ (s.answer a q).2.created = s.created := by
  cases q with
  | set name =>
    simp only [answer]
    split <;> exact ⟨rfl, rfl⟩
  | get => exact ⟨rfl, rfl⟩
  | clear => exact ⟨rfl, rfl⟩
  | _ => exact Bool.noConfusion hq

theorem names_after_filter (rs : Requests) :
    (after rs).entries = (after (rs.filter (·.2.isNaming))).entries ∧
      (after rs).created = (after (rs.filter (·.2.isNaming))).created := by
  induction rs using List.reverseRecOn with
  | nil => exact ⟨rfl, rfl⟩
  | append_singleton rs r ih =>
    rw [List.filter_append, after_concat]
    cases hq : r.2.isNaming with
    | true =>
      have hone : [r].filter (·.2.isNaming) = [r] := by simp [hq]
      rw [hone, after_concat]
      exact names_answer_congr hq ih.1 ih.2
    | false =>
      have hnone : [r].filter (·.2.isNaming) = [] := by simp [hq]
      rw [hnone, List.append_nil]
      obtain ⟨hentries, hcreated⟩ := names_answer_of_not_naming (a := r.1) (after rs) hq
      exact ⟨hentries.trans ih.1, hcreated.trans ih.2⟩

/-- A caller is hinted at the very entry that the slot was set to last since the slots were cleared, as long as a name
stands for that entry, and else at none. An entry lives while a name stands for it, which takes no hint to know. There
are as many slots as callers who set theirs since then. -/
theorem hints_are_weak (rs : Requests) (c : CallerId) :
    (∃ got, (after rs).answer c .get = (.got got, after rs) ∧
      ∀ name, got = some name ↔ ∃ i, LastSet rs c i ∧ StandsFor rs name i) ∧
    (∀ e, (after rs).hints.get? (after rs).alive c = some e ↔
      ∃ i, LastSet rs c i ∧ (∃ name, StandsFor rs name i) ∧ e = numberOf rs i) ∧
    (∀ e, (after rs).alive e = true ↔ ∃ name i, StandsFor rs name i ∧ e = numberOf rs i) ∧
    (after rs).entries = (after (rs.filter (·.2.isNaming))).entries ∧
    ∃ callers : List CallerId, callers.Nodup ∧ callers.length = (after rs).hints.size ∧
      ∀ d, d ∈ callers ↔ ∃ j i, Sets rs d j i ∧ ¬ ClearedAfter rs j := by
  have h := recalls_after rs
  refine ⟨⟨_, rfl, fun name => ?_⟩, fun e => ?_, fun e => h.alive_iff, (names_after_filter rs).1,
    (after rs).hints.callers, h.callers, Hints.length_callers _, fun d => ?_⟩
  · rw [h.get?_eq_some_iff]
    constructor
    · rintro ⟨-, ⟨i, hlast, rfl⟩, hnamed⟩
      exact ⟨i, hlast, hlast.standsFor hnamed⟩
    · rintro ⟨i, hlast, hstands⟩
      exact ⟨numberOf rs i, ⟨i, hlast, rfl⟩, i, hstands, rfl⟩
  · rw [h.hint_eq_some_iff]
    constructor
    · rintro ⟨⟨i, hlast, rfl⟩, name, hnamed⟩
      exact ⟨i, hlast, ⟨name, hlast.standsFor hnamed⟩, rfl⟩
    · rintro ⟨i, hlast, ⟨name, hstands⟩, rfl⟩
      exact ⟨⟨i, hlast, rfl⟩, name, i, hstands, rfl⟩
  · rw [← exists_lastSet_iff, Hints.mem_callers_iff, Option.ne_none_iff_exists']
    constructor
    · rintro ⟨e, hslot⟩
      obtain ⟨i, hlast, -⟩ := (h.slots d e).mp hslot
      exact ⟨i, hlast⟩
    · rintro ⟨i, hlast⟩
      exact ⟨_, (h.slots d _).mpr ⟨i, hlast, rfl⟩⟩

/-- A new entry of the same name is not the one that was set, and the slot is still taken. -/
example : (after [(0, .make "a"), (0, .set "a"), (1, .make "a")]).get? 0 = none ∧
    (after [(0, .make "a"), (0, .set "a"), (1, .make "a")]).hints.size = 1 := by
  decide

end ResourcePool.NamedHints
