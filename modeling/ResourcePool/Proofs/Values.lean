import ResourcePool.Proofs.Exclusion
import ResourcePool.Proofs.Guards

/-! Values: an entry has none while it is pending, gets one when it is enabled, and keeps it for good. -/
namespace ResourcePool
open Registry

variable {α : Type}

/-- The value that comes with a request. -/
def Entry.Request.value? : Entry.Request α → Option α
  | .enable v _ => some v
  | _ => none

/-- The value that a call gives an entry, if it enables it. -/
def Call.given? (s : Store α) (e : EntryId) (c : Call α) : Option α :=
  (c.granted? s).bind fun (x, r) => if x = e then r.value? else none

/-- The values that calls gave an entry. -/
def given (e : EntryId) (calls : List (Called α)) : List α :=
  calls.filterMap fun x => x.2.given? x.1 e

namespace Entry

theorem value?_of_pending {x : Entry α} (h : x.state = .pending) : x.value? = none := by
  cases x <;> simp_all [state, value?]

theorem value?_of_in_circulation {x : Entry α} (h : x.state = .idle ∨ x.state = .active) :
    x.value?.isSome = true := by
  cases x <;> simp_all [state, value?]

/-- A value is there from the request that it comes with. -/
theorem value?_answer {x : Entry α} {r : Request α} (h : x.Grants r) :
    (x.answer r).2.value?.toList = x.value?.toList ++ r.value?.toList := by
  cases r with
  | enable v atOnce =>
    cases x <;> cases atOnce <;> simp_all [Grants, answer, enable, value?, Request.value?]
  | _ => cases x <;> simp_all [answer, tryAcquire, tryRelease, tryRemove, value?, Request.value?]

theorem value?_answer_of_ne_pending {x : Entry α} {r : Request α} (h : x.Grants r)
    (hx : x.state ≠ .pending) : (x.answer r).2.value? = x.value? := by
  cases r with
  | enable v atOnce => exact absurd (grants_enable_iff.mp h) hx
  | _ => cases x <;> rfl

end Entry

namespace Registry

/-- What later registries keep of the entries of this one. -/
structure Extends (v w : Registry α) : Prop where
  size : v.size ≤ w.size
  enabled : ∀ e < v.size, (v.entry e).state ≠ .pending → (w.entry e).state ≠ .pending
  value : ∀ e < v.size, (v.entry e).state ≠ .pending → (w.entry e).value? = (v.entry e).value?
  closed : ∀ e < v.size, (v.entry e).state = .closed → (w.entry e).state = .closed

namespace Extends

variable {u v w : Registry α}

theorem refl (v : Registry α) : v.Extends v :=
  ⟨Nat.le_refl _, fun _ _ h => h, fun _ _ _ => rfl, fun _ _ h => h⟩

theorem trans (h : u.Extends v) (h' : v.Extends w) : u.Extends w where
  size := Nat.le_trans h.size h'.size
  enabled e he hp := h'.enabled e (Nat.lt_of_lt_of_le he h.size) (h.enabled e he hp)
  value e he hp :=
    (h'.value e (Nat.lt_of_lt_of_le he h.size) (h.enabled e he hp)).trans (h.value e he hp)
  closed e he hc := h'.closed e (Nat.lt_of_lt_of_le he h.size) (h.closed e he hc)

theorem grant (v : Registry α) {e : EntryId} {r : Entry.Request α} (hg : (v.entry e).Grants r) :
    v.Extends (v.grant e r) where
  size := Nat.le_refl _
  enabled i _ hp := by
    by_cases h : i = e
    · subst h
      rw [grant_entry_self, Entry.state_answer hg]
      cases r with
      | enable x atOnce => cases atOnce <;> simp [Entry.Request.target]
      | _ => simp [Entry.Request.target]
    · rw [grant_entry_of_ne v r h]
      exact hp
  value i _ hp := by
    by_cases h : i = e
    · subst h
      rw [grant_entry_self]
      exact Entry.value?_answer_of_ne_pending hg hp
    · rw [grant_entry_of_ne v r h]
  closed i _ hc := by
    by_cases h : i = e
    · subst h
      exact absurd hg (Entry.not_grants_of_closed hc r)
    · rw [grant_entry_of_ne v r h]
      exact hc

theorem reserve (v : Registry α) (p : PoolId) : v.Extends (v.reserve p) where
  size := Nat.le_succ _
  enabled e he hp := by
    rw [reserve_entry_of_ne v p (Nat.ne_of_lt he)]
    exact hp
  value e he _ := by rw [reserve_entry_of_ne v p (Nat.ne_of_lt he)]
  closed e he hc := by
    rw [reserve_entry_of_ne v p (Nat.ne_of_lt he)]
    exact hc

theorem closeAll (v : Registry α) (es : List EntryId) : v.Extends (v.closeAll es) where
  size := Nat.le_refl _
  enabled e _ hp := by
    change (if e ∈ es then _ else _ : Entry α).state ≠ _
    split_ifs
    · simp
    · exact hp
  value e _ _ := by
    change (if e ∈ es then _ else _ : Entry α).value? = _
    split_ifs <;> rfl
  closed e _ hc := by
    change (if e ∈ es then _ else _ : Entry α).state = _
    split_ifs
    · rfl
    · exact hc

end Extends

theorem Effect.extends {may : PoolId → EntryId → Prop} {v w : Registry α} (h : Effect may v w) :
    v.Extends w := by
  cases h with
  | create p limit =>
    have hv := Extends.refl v
    exact ⟨hv.size, hv.enabled, hv.value, hv.closed⟩
  | reserve p => exact .reserve v p
  | grant e r hg => exact .grant v hg
  | evict p e hg =>
    have hv := Extends.grant v hg
    exact ⟨hv.size, hv.enabled, hv.value, hv.closed⟩
  | disown p e hg => exact .grant v hg
  | close p =>
    have hv := Extends.closeAll v (v.roster p).members
    exact ⟨hv.size, hv.enabled, hv.value, hv.closed⟩

theorem Path.extends {may : PoolId → EntryId → Prop} {v w : Registry α} (h : Path may v w) :
    v.Extends w :=
  h.keeps (fun _ _ he hv => hv.trans he.extends) (.refl v)

end Registry

theorem Call.extends (s : Store α) (c : Call α) : s.registry.Extends (c.apply s).registry := by
  have hp : Path (fun _ _ => True) s.registry (c.apply s).registry :=
    (c.change s).path fun _ _ _ _ _ => trivial
  exact hp.extends

theorem Registry.value?_grant (v : Registry α) {x : EntryId} {r : Entry.Request α}
    (hg : (v.entry x).Grants r) (e : EntryId) : ((v.grant x r).entry e).value?.toList =
      (v.entry e).value?.toList ++ (if x = e then r.value? else none).toList := by
  by_cases h : x = e
  · subst h
    rw [grant_entry_self, if_pos rfl]
    exact Entry.value?_answer hg
  · rw [grant_entry_of_ne v r (Ne.symm h), if_neg h, Option.toList_none, List.append_nil]

/-- An entry gets its value from the call that enables it, and no call takes it away or replaces it. -/
theorem Call.value?_apply (s : Store α) (c : Call α) (e : EntryId) :
    ((c.apply s).value? e).toList = (s.value? e).toList ++ (c.given? s e).toList := by
  have hc := c.change s
  change ((c.apply s).registry.entry e).value?.toList =
    (s.registry.entry e).value?.toList ++ (c.given? s e).toList
  have hnone : ∀ {w : Registry α}, c.granted? s = none →
      (w.entry e).value?.toList = (s.registry.entry e).value?.toList → (w.entry e).value?.toList =
        (s.registry.entry e).value?.toList ++ (c.given? s e).toList := by
    intro w hg hv
    simp [hv, given?, hg]
  have hremove : ∀ x, (s.entry x).Grants .remove →
      ((s.registry.grant x .remove).entry e).value?.toList =
        (s.registry.entry e).value?.toList := by
    intro x hg
    have hv := s.registry.value?_grant hg e
    simpa [Entry.Request.value?] using hv
  generalize (c.apply s).registry = w at hc
  cases hc with
  | create => exact hnone rfl rfl
  | reserve p =>
    refine hnone rfl ?_
    by_cases he : e = s.registry.size
    · have hx : s.registry.entry s.registry.size = .closed none := s.entry_of_size_le le_rfl
      rw [he, reserve_entry_self, hx]
      rfl
    · rw [reserve_entry_of_ne _ p he]
  | serve answer grants =>
    rw [s.registry.value?_grant grants e, given?, answer]
    rfl
  | evict p x _ _ grants => exact hnone rfl (hremove x grants)
  | disown p x _ _ grants => exact hnone rfl (hremove x grants)
  | close p =>
    refine hnone rfl ?_
    change (if e ∈ _ then Entry.closed _ else _ : Entry α).value?.toList = _
    split_ifs <;> rfl
  | refuse answer => exact hnone answer.granted? rfl

/-- The value of an entry is the one that it was given, and it was given at most one. -/
theorem Trace.given_eq {s t : Store α} {calls : List (Called α)} (h : Trace s calls t) (e : EntryId) :
    (t.value? e).toList = (s.value? e).toList ++ given e calls := by
  induction h with
  | start => exact (List.append_nil _).symm
  | aside _ same ih =>
    have hv : _ = _ := congrArg (fun v : Registry α => (v.entry e).value?.toList) same.registry
    exact Eq.trans hv ih
  | @call calls u _ c ih =>
    have hg : given e [(u, c)] = (c.given? u e).toList := by
      cases hc : c.given? u e <;> simp [given, hc]
    have happ : given e (calls ++ [(u, c)]) = given e calls ++ given e [(u, c)] :=
      List.filterMap_append
    rw [c.value?_apply u e, ih, happ, hg, List.append_assoc]

end ResourcePool
