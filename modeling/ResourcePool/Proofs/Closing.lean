import ResourcePool.Proofs.Values

/-! Closing: an entry is closed by one call, by a removal or with the pool that lists it, and no removal
after that says yes. -/
namespace ResourcePool
open Registry

variable {α : Type}

/-- An entry that was reserved and is closed. -/
def Store.Gone (s : Store α) (e : EntryId) : Prop :=
  e < s.entries.size ∧ s.state e = .closed

instance (s : Store α) (e : EntryId) : Decidable (s.Gone e) :=
  inferInstanceAs (Decidable (_ ∧ _))

theorem Store.Gone.of_registry {s t : Store α} {e : EntryId} (h : s.Gone e)
    (hr : t.registry = s.registry) : t.Gone e := by
  have hv : e < s.registry.size ∧ (s.registry.entry e).state = .closed := h
  rw [← hr] at hv
  exact hv

/-- Whether a call closes an entry. -/
def Call.Closes (s : Store α) (e : EntryId) (c : Call α) : Prop :=
  s.state e ≠ .closed ∧ (c.apply s).state e = .closed

instance (s : Store α) (e : EntryId) (c : Call α) : Decidable (c.Closes s e) :=
  inferInstanceAs (Decidable (_ ∧ _))

/-- Whether a call is a removal of an entry that says yes. -/
def Call.Retires (s : Store α) (e : EntryId) : Call α → Prop
  | remove p x => x = e ∧ (s.remove p x).1 = true
  | _ => False

instance (s : Store α) (e : EntryId) : (c : Call α) → Decidable (c.Retires s e)
  | .remove p x => inferInstanceAs (Decidable (x = e ∧ (s.remove p x).1 = true))
  | .create .. | .reserve _ | .enable .. | .acquire .. | .fulfil .. | .release .. | .close _ => isFalse id

/-- The calls that closed an entry. -/
def closings (e : EntryId) (calls : List (Called α)) : List (Called α) :=
  calls.filter fun x => x.2.Closes x.1 e

/-- The removals of an entry that said yes. -/
def retirings (e : EntryId) (calls : List (Called α)) : List (Called α) :=
  calls.filter fun x => x.2.Retires x.1 e

namespace Call

variable {s : Store α} {c : Call α} {e : EntryId}

/-- Entries are closed by removals and with the pool that lists them. -/
theorem Closes.cases (h : c.Closes s e) :
    (∃ q, c = .remove q e ∧ (c.Retires s e ↔ e ∈ s.members q)) ∨
    ∃ p, c = .close p ∧ e ∈ s.members p := by
  obtain ⟨hopen, hclosed⟩ := h
  have hc := c.change s
  change ((c.apply s).registry.entry e).state = .closed at hclosed
  change (s.registry.entry e).state ≠ .closed at hopen
  generalize (c.apply s).registry = w at hc hclosed
  cases hc with
  | create => exact absurd hclosed hopen
  | refuse => exact absurd hclosed hopen
  | reserve p =>
    by_cases he : e = s.registry.size
    · rw [he, reserve_entry_self] at hclosed
      simp [Entry.state] at hclosed
    · rw [reserve_entry_of_ne _ p he] at hclosed
      exact absurd hclosed hopen
  | @serve _ x r _ grants keeps =>
    by_cases hx : e = x
    · subst hx
      have hst : ((s.registry.entry e).answer r).2.state = r.target := Entry.state_answer grants
      rw [grant_entry_self, hst] at hclosed
      exact absurd hclosed (Entry.target_ne_closed keeps)
    · rw [grant_entry_of_ne _ r hx] at hclosed
      exact absurd hclosed hopen
  | evict p x answer _ _ listed =>
    by_cases hx : e = x
    · subst hx
      exact .inl ⟨p, rfl, iff_of_true ⟨rfl, answer⟩ listed⟩
    · change ((s.registry.grant x .remove).entry e).state = .closed at hclosed
      rw [grant_entry_of_ne _ _ hx] at hclosed
      exact absurd hclosed hopen
  | disown p x answer _ _ unlisted =>
    by_cases hx : e = x
    · subst hx
      refine .inl ⟨p, rfl, iff_of_false (fun h => ?_) unlisted⟩
      exact Bool.false_ne_true (answer.symm.trans h.2)
    · rw [grant_entry_of_ne _ _ hx] at hclosed
      exact absurd hclosed hopen
  | close p =>
    by_cases he : e ∈ (s.registry.roster p).members
    · exact .inr ⟨p, rfl, he⟩
    · simp only [Registry.close, Registry.closeAll, if_neg he] at hclosed
      exact absurd hclosed hopen

/-- A removal says yes only if it closes the entry. -/
theorem Retires.closes (h : c.Retires s e) : c.Closes s e := by
  cases c with
  | remove p x =>
    obtain ⟨rfl, answer⟩ := h
    have hg : (s.entry x).Grants .remove := by
      by_contra hg
      exact Bool.false_ne_true ((Store.remove_of_not_grants hg).1.symm.trans answer)
    have hp : (s.roster p).closed = false := by
      by_contra hp
      rw [Bool.not_eq_false] at hp
      simp [Store.remove_of_closed x hp] at answer
    refine ⟨Entry.grants_remove_iff.mp hg, ?_⟩
    have hr : ((s.remove p x).2.registry.entry x).state = ((s.registry.grant x .remove).entry x).state := by
      by_cases hm : x ∈ (s.roster p).members
      · rw [(Store.remove_of_mem hp hg hm).2]
        rfl
      · rw [(Store.remove_of_not_mem hp hg hm).2]
    change ((s.remove p x).2.registry.entry x).state = .closed
    rw [hr, grant_entry_self]
    exact Entry.state_answer hg
  | _ => exact h.elim

/-- Only a reservation makes an entry, and it is pending. -/
theorem pending_of_new (s : Store α) (c : Call α) (hold : s.entries.size ≤ e)
    (hnew : e < (c.apply s).entries.size) : (c.apply s).state e = .pending := by
  have hc := c.change s
  change e < (c.apply s).registry.size at hnew
  change ((c.apply s).registry.entry e).state = .pending
  generalize (c.apply s).registry = w at hc hnew
  cases hc with
  | reserve p =>
    obtain rfl : e = s.registry.size := Nat.le_antisymm (Nat.le_of_lt_succ hnew) hold
    rw [reserve_entry_self]
    rfl
  | _ => exact absurd hold (Nat.not_le_of_lt hnew)

/-- A closed entry was closed before the call or is closed by it. -/
theorem gone_apply_iff (s : Store α) (c : Call α) (e : EntryId) :
    (c.apply s).Gone e ↔ s.Gone e ∨ c.Closes s e := by
  have hext := c.extends s
  constructor
  · rintro ⟨hsize, hclosed⟩
    by_cases he : e < s.entries.size
    · by_cases hs : s.state e = .closed
      · exact .inl ⟨he, hs⟩
      · exact .inr ⟨hs, hclosed⟩
    · have hp := pending_of_new s c (Nat.le_of_not_lt he) hsize
      simp [hclosed] at hp
  · rintro (⟨hsize, hclosed⟩ | ⟨hopen, hclosed⟩)
    · exact ⟨Nat.lt_of_lt_of_le hsize hext.size, hext.closed e hsize hclosed⟩
    · have hsize : e < s.entries.size := Store.lt_size_of_ne_closed hopen
      exact ⟨Nat.lt_of_lt_of_le hsize hext.size, hclosed⟩

end Call

/-- An entry that is closed at the end, and was not at the start, was closed by one call. -/
theorem Trace.length_closings {s t : Store α} {calls : List (Called α)} (h : Trace s calls t)
    (e : EntryId) : (if s.Gone e then 1 else 0) + (closings e calls).length =
      if t.Gone e then 1 else 0 := by
  induction h with
  | start => rfl
  | @aside _ t u _ same ih =>
    have hgone : u.Gone e ↔ t.Gone e :=
      ⟨fun h => h.of_registry same.registry.symm, fun h => h.of_registry same.registry⟩
    rw [ih, if_congr hgone rfl rfl]
  | @call calls u _ c ih =>
    have happ : closings e (calls ++ [(u, c)]) = closings e calls ++ closings e [(u, c)] :=
      List.filter_append ..
    have hone : (closings e [(u, c)]).length = if c.Closes u e then 1 else 0 := by
      by_cases hc : c.Closes u e <;> simp [closings, hc]
    rw [happ, List.length_append, hone, ← Nat.add_assoc, ih, if_congr (c.gone_apply_iff u e) rfl rfl]
    by_cases hc : c.Closes u e
    · have hu : ¬ u.Gone e := fun hu => hc.1 hu.2
      simp [hc, hu]
    · simp [hc]

/-- Among the calls that close an entry are the removals of it that say yes. -/
theorem retirings_eq (e : EntryId) (calls : List (Called α)) :
    retirings e calls = (closings e calls).filter fun x => x.2.Retires x.1 e := by
  unfold retirings closings
  rw [List.filter_filter]
  refine List.filter_congr fun x _ => ?_
  rw [← Bool.decide_and]
  have same : x.2.Retires x.1 e ↔ x.2.Retires x.1 e ∧ x.2.Closes x.1 e :=
    ⟨fun h => ⟨h, h.closes⟩, And.left⟩
  exact decide_eq_decide.mpr same

end ResourcePool
