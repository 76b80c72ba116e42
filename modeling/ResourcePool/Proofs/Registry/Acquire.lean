import ResourcePool.Proofs.Registry.Updates
import ResourcePool.Proofs.Scan

/-! Entries going out and coming back, as changes of the registry. What a call answers says which. -/
namespace ResourcePool

variable {α : Type}

namespace Store

theorem release_of_grants {s : Store α} {p : PoolId} {e : EntryId} (c : CallerId)
    (hp : (s.roster p).closed = false) (h : (s.entry e).Grants .release) :
    (s.release p c e).1 = .ok true ∧
      (s.release p c e).2.registry = s.registry.grant e .release := by
  have ha : (s.entry e).tryRelease = (.ok true, ((s.entry e).tryRelease).2) := Prod.ext h rfl
  change (s.pool p).closed = false at hp
  unfold release
  rw [hp, ha]
  refine ⟨rfl, registry_grant h ?_ rfl⟩
  rw [registry_modifyPool _ _ (by intro x; unfold Pool.remember; split <;> rfl), registry_count]
  rfl

theorem release_of_not_grants {s : Store α} {p : PoolId} {e : EntryId} (c : CallerId)
    (h : (s.roster p).closed = false → ¬ (s.entry e).Grants .release) :
    (s.release p c e).1 ≠ .ok true ∧ (s.release p c e).2 = s := by
  change (s.pool p).closed = false → _ at h
  unfold release
  split_ifs with hc
  · exact ⟨by simp, rfl⟩
  have hn := h (by simpa using hc)
  split
  · next ha => exact absurd (congrArg Prod.fst ha) hn
  · next ha =>
    refine ⟨?_, rfl⟩
    rintro rfl
    exact hn (congrArg Prod.fst ha)

theorem release_of_closed {s : Store α} {p : PoolId} (c : CallerId) (e : EntryId)
    (hp : (s.roster p).closed = true) : s.release p c e = (.ok false, s) := by
  unfold release
  exact if_pos hp

theorem registry_handOut {s : Store α} {e : EntryId} (p : PoolId) (c : CallerId) (hinted : Bool)
    (h : (s.entry e).Grants .acquire) :
    (s.handOut p c e hinted).registry = s.registry.grant e .acquire :=
  registry_grant h (registry_count _ p _) rfl

@[simp] theorem registry_miss (s : Store α) (p : PoolId) : (s.miss p).registry = s.registry := by
  unfold miss
  rw [registry_note _ rfl rfl, registry_count]

@[simp] theorem registry_start (s : Store α) (p : PoolId) (c : CallerId) :
    (s.start p c).2.registry = s.registry :=
  registry_modifyPool { s with draws := _ } p fun _ => rfl

theorem hinted?_eq_some {s : Store α} {p : PoolId} {c : CallerId} {e : EntryId}
    (h : s.hinted? p c = some e) : s.isIdle e = true := by
  unfold hinted? at h
  split_ifs at h
  exact (Option.filter_eq_some_iff.mp h).2

theorem acquire_of_closed {s : Store α} {p : PoolId} (c : CallerId)
    (hp : (s.roster p).closed = true) : s.acquire p c = (none, s) := by
  unfold acquire
  exact if_pos hp

/-- What an open pool answers, by where the entry comes from: the empty list misses, and without a
hint the search decides. -/
theorem acquire_cases {s : Store α} {p : PoolId} (c : CallerId) (hp : (s.roster p).closed = false) :
    (s.members p = [] ∧ s.acquire p c = (none, s.miss p)) ∨
    (∃ e, s.hinted? p c = some e ∧ s.acquire p c = (some e, s.handOut p c e true)) ∨
    (s.members p ≠ [] ∧ ∃ i t, s.start p c = (i, t) ∧
      ((∃ e, scan (t.members p) t.isIdle (t.members p).length i (t.members p).length = some e ∧
        s.acquire p c = (some e, t.handOut p c e false)) ∨
      scan (t.members p) t.isIdle (t.members p).length i (t.members p).length = none ∧
        s.acquire p c = (none, t.miss p))) := by
  change (s.pool p).closed = false at hp
  unfold acquire
  rw [if_neg (by simp [hp])]
  split_ifs with hm
  · exact .inl ⟨List.isEmpty_iff.mp hm, rfl⟩
  have hne : s.members p ≠ [] := fun h => hm (List.isEmpty_iff.mpr h)
  cases hh : s.hinted? p c with
  | some e => exact .inr (.inl ⟨e, rfl, rfl⟩)
  | none =>
    refine .inr (.inr ⟨hne, (s.start p c).1, (s.start p c).2, rfl, ?_⟩)
    dsimp only
    unfold search
    cases hs : scan ((s.start p c).2.members p) (s.start p c).2.isIdle
        ((s.start p c).2.members p).length (s.start p c).1 ((s.start p c).2.members p).length with
    | some e => exact .inl ⟨e, rfl, rfl⟩
    | none => exact .inr ⟨rfl, rfl⟩

/-- Nothing is acquired from a closed pool. -/
theorem open_of_acquire {s : Store α} {p : PoolId} {c : CallerId} {e : EntryId}
    (h : (s.acquire p c).1 = some e) : (s.roster p).closed = false := by
  rw [← Bool.not_eq_true]
  intro hp
  simp [acquire_of_closed c hp] at h

/-- What is acquired was idle, and nothing else happens to any entry. -/
theorem acquire_of_some {s : Store α} {p : PoolId} {c : CallerId} {e : EntryId}
    (h : (s.acquire p c).1 = some e) : (s.entry e).Grants .acquire ∧
      (s.acquire p c).2.registry = s.registry.grant e .acquire := by
  obtain ⟨-, ha⟩ | ⟨x, hx, ha⟩ | ⟨-, i, t, ht, ⟨x, hx, ha⟩ | ⟨-, ha⟩⟩ :=
    acquire_cases c (open_of_acquire h)
  · simp [ha] at h
  · rw [ha] at h ⊢
    obtain rfl := Option.some.inj h
    have hg := Entry.grants_acquire_iff.mpr (Entry.isIdle_iff.mp (hinted?_eq_some hx))
    exact ⟨hg, registry_handOut p c true hg⟩
  · rw [ha] at h ⊢
    obtain rfl := Option.some.inj h
    have hr : t.registry = s.registry := by
      rw [← s.registry_start p c, ht]
    have hentry : t.entry = s.entry := congrArg Registry.entry hr
    have hg := Entry.grants_acquire_iff.mpr (Entry.isIdle_iff.mp (scan_eq_some hx).2)
    refine ⟨hentry ▸ hg, ?_⟩
    rw [← hr]
    exact registry_handOut p c false hg
  · simp [ha] at h

theorem acquire_of_none {s : Store α} {p : PoolId} {c : CallerId}
    (h : (s.acquire p c).1 = none) : (s.acquire p c).2.registry = s.registry := by
  cases hp : (s.roster p).closed with
  | true => rw [acquire_of_closed c hp]
  | false =>
    obtain ⟨-, ha⟩ | ⟨x, -, ha⟩ | ⟨-, i, t, ht, ⟨x, -, ha⟩ | ⟨-, ha⟩⟩ := acquire_cases c hp
    · rw [ha, registry_miss]
    · simp [ha] at h
    · simp [ha] at h
    · rw [ha, registry_miss, ← s.registry_start p c, ht]

theorem settle_of_grants {s : Store α} {p : PoolId} {c : CallerId} {e : EntryId} {v : α}
    (h : (s.entry e).Grants (.enable v true)) :
    (s.settle p c e (.value v)).1 = .ok (some e) ∧
      (s.settle p c e (.value v)).2.registry = s.registry.grant e (.enable v true) := by
  have ha : (s.entry e).enable v true = (.ok true, ((s.entry e).enable v true).2) := Prod.ext h rfl
  unfold settle
  simp only
  rw [ha]
  exact ⟨rfl, registry_grant h (registry_count _ p _) rfl⟩

theorem settle_of_not_grants {s : Store α} {p : PoolId} {c : CallerId} {e : EntryId} {v : α}
    (h : ¬ (s.entry e).Grants (.enable v true)) :
    (∀ x, (s.settle p c e (.value v)).1 ≠ .ok (some x)) ∧ (s.settle p c e (.value v)).2 = s := by
  unfold settle
  simp only
  split
  · next ha => exact absurd (congrArg Prod.fst ha) h
  · exact ⟨by simp, rfl⟩
  · exact ⟨by simp, rfl⟩

/-- What a creation waits for: nothing if an entry is acquired or none can be reserved, and else the
creator. -/
theorem acquireWith_cases {ρ : Type} (s : Store α) (p : PoolId) (c : CallerId)
    (creator : EntryId → Store α → Creation α × List ρ × Store α) :
    (∃ e t, s.acquire p c = (some e, t) ∧ s.acquireWith p c creator = (.ok (some e), [], t)) ∨
    ∃ t, s.acquire p c = (none, t) ∧
      ((∃ u, t.reserve p = (none, u) ∧ s.acquireWith p c creator = (.ok none, [], u)) ∨
      ∃ e u, t.reserve p = (some e, u) ∧ s.acquireWith p c creator =
        (((creator e u).2.2.settle p c e (creator e u).1).1, (creator e u).2.1,
          ((creator e u).2.2.settle p c e (creator e u).1).2)) := by
  unfold acquireWith
  cases ha : s.acquire p c with
  | mk found t =>
    cases found with
    | some e => exact .inl ⟨e, t, rfl, rfl⟩
    | none =>
      refine .inr ⟨t, rfl, ?_⟩
      dsimp only
      cases hr : t.reserve p with
      | mk reserved u =>
        cases reserved with
        | none => exact .inl ⟨u, rfl, rfl⟩
        | some e => exact .inr ⟨e, u, rfl, rfl⟩

/-- A creation ends with what its creator answers. -/
theorem acquireWith_of_creator {ρ : Type} {s t u w : Store α} {p : PoolId} {c : CallerId} {e : EntryId}
    {creator : EntryId → Store α → Creation α × List ρ × Store α} {creation : Creation α}
    {reports : List ρ} (ha : s.acquire p c = (none, t)) (hr : t.reserve p = (some e, u))
    (hc : creator e u = (creation, reports, w)) : s.acquireWith p c creator =
      ((w.settle p c e creation).1, reports, (w.settle p c e creation).2) := by
  unfold acquireWith
  rw [ha]
  dsimp only
  rw [hr]
  dsimp only
  rw [hc]

end Store

end ResourcePool
