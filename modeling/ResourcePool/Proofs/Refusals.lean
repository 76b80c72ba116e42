import ResourcePool.Proofs.Outcomes

/-! Refusals: all that a call changes when it refuses what it is asked for, and which refusals are errors. -/
namespace ResourcePool

variable {α ρ : Type}

namespace Entry

theorem enable_eq_error_iff {x : Entry α} {v : α} {atOnce : Bool} {f : Fault} :
    (x.enable v atOnce).1 = .error f ↔
      f = .alreadyEnabled ∧ (x.state = .idle ∨ x.state = .active) := by
  cases x <;> simp [enable, state, eq_comm]

theorem tryRelease_eq_error_iff {x : Entry α} {f : Fault} :
    x.tryRelease.1 = .error f ↔ f = .alreadyReleased ∧ x.state = .idle := by
  cases x <;> simp [tryRelease, state, eq_comm]

end Entry

namespace Store

variable {s : Store α} {p : PoolId} {c : CallerId} {e : EntryId} {f : Fault}

theorem enable_fst (s : Store α) (e : EntryId) (v : α) (atOnce : Bool) :
    (s.enable e v atOnce).1 = ((s.entry e).enable v atOnce).1 := by
  unfold enable
  split
  · next ha => rw [ha]
  · next ha => rw [ha]

theorem eq_of_enable_ne {v : α} {atOnce : Bool} (h : (s.enable e v atOnce).1 ≠ .ok true) :
    (s.enable e v atOnce).2 = s := by
  refine (enable_of_not_grants fun hg => ?_).2
  exact h (enable_of_grants hg).1

theorem eq_of_release_ne (h : (s.release p c e).1 ≠ .ok true) : (s.release p c e).2 = s := by
  refine (release_of_not_grants c fun hp hg => ?_).2
  exact h (release_of_grants c hp hg).1

theorem release_eq_error_iff : (s.release p c e).1 = .error f ↔
    f = .alreadyReleased ∧ (s.pool p).closed = false ∧ s.state e = .idle := by
  cases hp : (s.pool p).closed with
  | true =>
    rw [release_of_closed c e hp]
    simp
  | false =>
    have hanswer : (s.release p c e).1 = (s.entry e).tryRelease.1 := by
      unfold release
      rw [hp, if_neg Bool.false_ne_true]
      split
      · next ha => rw [ha]
      · next ha => rw [ha]
    rw [hanswer, Entry.tryRelease_eq_error_iff]
    simp [state]

theorem remove_eq_true_iff : (s.remove p e).1 = true ↔
    (s.pool p).closed = false ∧ s.state e ≠ .closed ∧ e ∈ s.members p := by
  constructor
  · intro h
    have hp : (s.pool p).closed = false := by
      by_contra hp
      rw [remove_of_closed e ((Bool.not_eq_false _).mp hp)] at h
      exact Bool.false_ne_true h
    have hg : (s.entry e).Grants .remove := by
      by_contra hg
      rw [(remove_of_not_grants hg).1] at h
      exact Bool.false_ne_true h
    have hm : e ∈ s.members p := by
      by_contra hm
      rw [(remove_of_not_mem hp hg hm).1] at h
      exact Bool.false_ne_true h
    exact ⟨hp, Entry.grants_remove_iff.mp hg, hm⟩
  · rintro ⟨hp, hx, hm⟩
    rw [remove_of_listed hp hx hm]

theorem settle_eq_fault_iff {creation : Creation α} :
    (s.settle p c e creation).1 = .error (.fault f) ↔ f = .alreadyEnabled ∧
      (∃ v, creation = .value v) ∧ (s.state e = .idle ∨ s.state e = .active) := by
  cases creation with
  | value v =>
    cases hx : s.state e with
    | pending => simp [settle_of_pending hx]
    | closed => simp [settle_of_closed hx]
    | idle => simp [settle_of_enabled (.inl hx), eq_comm]
    | active => simp [settle_of_enabled (.inr hx), eq_comm]
  | nothing => simp [settle]
  | refused reason => simp [settle]
  | panicked => simp [settle]

/-- A creation is at fault when its creator enabled the entry itself and made a value all the same. -/
theorem acquireWith_eq_fault_iff {creator : EntryId → Store α → Creation α × List ρ × Store α} :
    (s.acquireWith p c creator).1 = .error (.fault f) ↔ f = .alreadyEnabled ∧
      ∃ t e u v, s.acquire p c = (none, t) ∧ t.reserve p = (some e, u) ∧ (creator e u).1 = .value v ∧
        ((creator e u).2.2.state e = .idle ∨ (creator e u).2.2.state e = .active) := by
  rcases s.acquireWith_cases p c creator with
    ⟨e, t, ha, hwith⟩ | ⟨t, ha, ⟨u, hr, hwith⟩ | ⟨e, u, hr, hwith⟩⟩
  · simp [hwith, ha]
  · simp [hwith, ha, hr]
  · rw [hwith, settle_eq_fault_iff]
    constructor
    · rintro ⟨hf, ⟨v, hv⟩, hx⟩
      exact ⟨hf, t, e, u, v, ha, hr, hv, hx⟩
    · rintro ⟨hf, t', e', u', v, ha', hr', hv, hx⟩
      obtain rfl : t = t' := (Prod.mk.inj (ha.symm.trans ha')).2
      obtain ⟨he, rfl⟩ := Prod.mk.inj (hr.symm.trans hr')
      obtain rfl := Option.some.inj he
      exact ⟨hf, ⟨v, hv⟩, hx⟩

end Store

/--
A refused enabling or release changes nothing, a refused reservation counts one rejection, and an acquire of
an open pool that finds nothing one miss, with the turn moved on if there was something to search. A refused
removal closes an open entry that is not listed, and changes nothing else. Errors come from enabling an entry
that has its value, in a creation too, and from releasing one that is idle to an open pool.
-/
theorem refusals_change_little (s : Store α) (p : PoolId) (c : CallerId) (e : EntryId) :
    (∀ v atOnce, (s.enable e v atOnce).1 ≠ .ok true → (s.enable e v atOnce).2 = s) ∧
    ((s.release p c e).1 ≠ .ok true → (s.release p c e).2 = s) ∧
    ((s.reserve p).1 = none → (s.reserve p).2 =
      { s.count p (fun k => { k with rejections := k.rejections + 1 }) with
        journal := s.journal.record (.rejected p) }) ∧
    ((s.acquire p c).1 = none → (s.acquire p c).2 =
      if (s.pool p).closed then s
      else { s.modifyPool p Pool.missed with
        draws := s.drawn p, journal := s.journal.record (.missed p) }) ∧
    ((s.remove p e).1 = false → (s.remove p e).2 =
      if (s.pool p).closed then s
      else if s.state e = .closed then s.note (.removedAgain p e)
      else (s.setEntry e (.closed (s.value? e))).note (.removedElsewhere p e)) ∧
    ((s.remove p e).1 = true ↔
      (s.pool p).closed = false ∧ s.state e ≠ .closed ∧ e ∈ s.members p) ∧
    (∀ v atOnce f, (s.enable e v atOnce).1 = .error f ↔
      f = .alreadyEnabled ∧ (s.state e = .idle ∨ s.state e = .active)) ∧
    (∀ f, (s.release p c e).1 = .error f ↔
      f = .alreadyReleased ∧ (s.pool p).closed = false ∧ s.state e = .idle) ∧
    ∀ (creator : EntryId → Store α → Creation α × List ρ × Store α) f,
      (s.acquireWith p c creator).1 = .error (.fault f) ↔ f = .alreadyEnabled ∧
        ∃ t e u v, s.acquire p c = (none, t) ∧ t.reserve p = (some e, u) ∧ (creator e u).1 = .value v ∧
          ((creator e u).2.2.state e = .idle ∨ (creator e u).2.2.state e = .active) := by
  refine ⟨fun v atOnce => Store.eq_of_enable_ne, Store.eq_of_release_ne, Store.eq_of_reserve_eq_none,
    fun h => ?_, fun h => ?_, Store.remove_eq_true_iff, fun v atOnce f => ?_,
    fun f => Store.release_eq_error_iff, fun creator f => Store.acquireWith_eq_fault_iff⟩
  · split_ifs with hp
    · rw [Store.acquire_of_closed c hp]
    · exact Store.eq_of_acquire_eq_none (Bool.not_eq_true _ ▸ hp) (Prod.ext h rfl)
  · obtain ⟨hclosed, hagain, helse⟩ := Store.eq_of_remove_eq_false h
    split_ifs with hp hx
    · exact hclosed hp
    · exact hagain (Bool.not_eq_true _ ▸ hp) hx
    · exact (helse (Bool.not_eq_true _ ▸ hp) hx).2
  · rw [Store.enable_fst]
    exact Entry.enable_eq_error_iff

end ResourcePool
