import ResourcePool.Proofs.Services

/-! Mutual exclusion: along a run, whatever pools, callers, creators and guards take part, an entry is
handed out and returned in turns. -/
namespace ResourcePool

variable {α : Type}

namespace Registry

/-- Each entry is what the requests that it was granted have made of it. -/
structure Lawful (v : Registry α) : Prop where
  granted : ∀ e < v.size, Entry.Granted (v.requests e) (v.entry e)
  absent : ∀ e, v.size ≤ e → v.requests e = [] ∧ v.entry e = .closed none

theorem Lawful.lt_size {v : Registry α} (hv : v.Lawful) {e : EntryId} {r : Entry.Request α}
    (h : (v.entry e).Grants r) : e < v.size := by
  by_contra he
  rw [(hv.absent e (Nat.le_of_not_lt he)).2] at h
  exact Entry.not_grants_of_closed rfl r h

theorem Lawful.reserve {v : Registry α} (hv : v.Lawful) (p : PoolId) : (v.reserve p).Lawful where
  granted e he := by
    by_cases h : e = v.size
    · subst h
      have hq : (v.reserve p).requests v.size = [] := (hv.absent v.size (Nat.le_refl _)).1
      rw [hq, reserve_entry_self]
      exact .reserved
    · have hlt : e < v.size := by
        change e < v.size + 1 at he
        omega
      rw [reserve_entry_of_ne v p h]
      exact hv.granted e hlt
  absent e he := by
    change v.size + 1 ≤ e at he
    have hne : e ≠ v.size := by omega
    rw [reserve_entry_of_ne v p hne]
    exact hv.absent e (by omega)

theorem Lawful.grant {v : Registry α} (hv : v.Lawful) {e : EntryId} {r : Entry.Request α}
    (hg : (v.entry e).Grants r) : (v.grant e r).Lawful where
  granted i hi := by
    by_cases h : i = e
    · subst h
      rw [grant_entry_self, grant_requests_self]
      exact .grant (hv.granted i hi) hg
    · rw [grant_entry_of_ne v r h, grant_requests_of_ne v r h]
      exact hv.granted i hi
  absent i hi := by
    change v.size ≤ i at hi
    have hlt : e < v.size := hv.lt_size hg
    have hne : i ≠ e := Nat.ne_of_gt (Nat.lt_of_lt_of_le hlt hi)
    rw [grant_entry_of_ne v r hne, grant_requests_of_ne v r hne]
    exact hv.absent i hi

theorem Lawful.closeAll {v : Registry α} (hv : v.Lawful) (es : List EntryId) :
    (v.closeAll es).Lawful where
  granted e he := by
    have hx : Entry.Granted (v.requests e) (v.entry e) := hv.granted e he
    by_cases hm : e ∈ es
    · by_cases hc : (v.entry e).state = .closed
      · have hy : Entry.closed (v.entry e).value? = v.entry e := Entry.closed_value? hc
        simpa [Registry.closeAll, hm, hc, hy] using hx
      · have hg : (v.entry e).Grants .remove := Entry.grants_remove_iff.mpr hc
        have hr := hx.grant hg
        rw [Entry.answer_remove hg] at hr
        simpa [Registry.closeAll, hm, hc] using hr
    · simpa [Registry.closeAll, hm] using hx
  absent e he := by
    obtain ⟨hq, hx⟩ := hv.absent e he
    simp [Registry.closeAll, hq, hx]

theorem Effect.lawful {may : PoolId → EntryId → Prop} {v w : Registry α} (h : Effect may v w)
    (hv : v.Lawful) : w.Lawful := by
  cases h with
  | create => exact ⟨hv.granted, hv.absent⟩
  | reserve p => exact hv.reserve p
  | grant e r hg => exact hv.grant hg
  | evict p e hg => exact ⟨(hv.grant hg).granted, (hv.grant hg).absent⟩
  | disown p e hg => exact hv.grant hg
  | close p => exact ⟨(hv.closeAll _).granted, (hv.closeAll _).absent⟩

/-- A closed entry stays closed and grants nothing any more. -/
theorem Effect.closed {may : PoolId → EntryId → Prop} {v w : Registry α} (h : Effect may v w)
    {e : EntryId} (he : e < v.size) (hc : (v.entry e).state = .closed) :
    v.size ≤ w.size ∧ (w.entry e).state = .closed ∧ w.requests e = v.requests e := by
  have hgrant : ∀ x r, (v.entry x).Grants r → (v.grant x r).entry e = v.entry e ∧
      (v.grant x r).requests e = v.requests e := by
    intro x r hg
    have hne : e ≠ x := by
      rintro rfl
      exact Entry.not_grants_of_closed hc r hg
    exact ⟨v.grant_entry_of_ne r hne, v.grant_requests_of_ne r hne⟩
  cases h with
  | create => exact ⟨Nat.le_refl _, hc, rfl⟩
  | reserve p =>
    have hne : e ≠ v.size := Nat.ne_of_lt he
    have hx := v.reserve_entry_of_ne p hne
    exact ⟨Nat.le_succ _, hx ▸ hc, rfl⟩
  | grant x r hg =>
    obtain ⟨hx, hq⟩ := hgrant x r hg
    exact ⟨Nat.le_refl _, hx ▸ hc, hq⟩
  | evict p x hg =>
    obtain ⟨hx, hq⟩ := hgrant x .remove hg
    exact ⟨Nat.le_refl _, hx ▸ hc, hq⟩
  | disown p x hg =>
    obtain ⟨hx, hq⟩ := hgrant x .remove hg
    exact ⟨Nat.le_refl _, hx ▸ hc, hq⟩
  | close p =>
    refine ⟨Nat.le_refl _, ?_, ?_⟩
    · simp only [Registry.close, Registry.closeAll]
      split_ifs
      · rfl
      · exact hc
    · simp [Registry.close, Registry.closeAll, hc]

theorem Path.closed {may : PoolId → EntryId → Prop} {v w : Registry α} (h : Path may v w)
    {e : EntryId} (he : e < v.size) (hc : (v.entry e).state = .closed) :
    w.requests e = v.requests e := by
  have hk : v.size ≤ w.size ∧ (w.entry e).state = .closed ∧ w.requests e = v.requests e := by
    refine h.keeps (P := fun w => v.size ≤ w.size ∧ (w.entry e).state = .closed ∧
      w.requests e = v.requests e) ?_ ⟨Nat.le_refl _, hc, rfl⟩
    intro u w hs hu
    obtain ⟨hsize, hclosed, hq⟩ := hs.closed (Nat.lt_of_lt_of_le he hu.1) hu.2.1
    exact ⟨Nat.le_trans hu.1 hsize, hclosed, hq.trans hu.2.2⟩
  exact hk.2.2

theorem lawful_blank (draws : List Nat) : (Store.blank draws : Store α).registry.Lawful where
  granted e he := absurd he (Nat.not_lt_zero e)
  absent _ _ := ⟨rfl, rfl⟩

end Registry

theorem dealings_filter (rs : List (Entry.Request α)) :
    dealings (rs.filter Entry.Request.isService) = dealings rs := by
  unfold dealings
  rw [List.filterMap_filter]
  congr 1
  funext r
  cases r <;> rfl

/-- The hand-outs and returns of an entry, in order. -/
def Store.dealings (s : Store α) (e : EntryId) : List Dealing :=
  ResourcePool.dealings (s.services e)

theorem Entry.Granted.head?_services {rs : List (Entry.Request α)} {x : Entry α}
    (h : Granted rs x) {r : Entry.Request α}
    (hr : (rs.filter Entry.Request.isService).head? = some r) : ∃ v acquire, r = .enable v acquire := by
  obtain ⟨rest, hrest⟩ := List.head?_eq_some_iff.mp hr
  obtain ⟨earlier, later, hrs, hnone, hs, -⟩ := List.filter_eq_cons_iff.mp hrest
  have hn : ¬ (r = .acquire ∨ r = .release) := by
    intro hd
    obtain ⟨v, acquire, hm⟩ := h.enabled_before hrs hd
    exact hnone _ hm rfl
  cases r with
  | enable v acquire => exact ⟨v, acquire, rfl⟩
  | acquire => exact absurd (.inl rfl) hn
  | release => exact absurd (.inr rfl) hn
  | remove => simp [Entry.Request.isService] at hs

theorem Run.lawful {allowed : Store α → Move α → Prop} {draws : List Nat} {s : Store α}
    (h : Run allowed (.blank draws) s) : s.registry.Lawful :=
  h.path.keeps (fun _ _ he => he.lawful) (Registry.lawful_blank draws)

/-- Each call adds to the services of an entry what it answers. The first service is that the entry
is enabled, hand-outs and returns take turns from then on, a closed entry sees none of them any more,
and an open one is active just when it was handed out last. -/
theorem handouts_and_returns_alternate {allowed : Store α → Move α → Prop} {draws : List Nat}
    {s : Store α} (h : Run allowed (.blank draws) s) (e : EntryId) :
    (∀ m : Move α, (m.apply s).services e = s.services e ++ m.services s e) ∧
    (∀ r, (s.services e).head? = some r → ∃ v acquire, r = .enable v acquire) ∧
    Alternating (s.dealings e) ∧
    (e < s.entries.size → s.state e = .closed → ∀ t, Run allowed s t → t.services e = s.services e) ∧
    (s.state e ≠ .closed → (s.state e = .active ↔ (s.dealings e).getLast? = some .out)) := by
  have hl : s.registry.Lawful := h.lawful
  refine ⟨fun m => m.services_apply s e, ?_⟩
  have hd : s.dealings e = ResourcePool.dealings (s.requests e) := dealings_filter _
  by_cases he : e < s.entries.size
  · have hg : Entry.Granted (s.requests e) (s.entry e) := hl.granted e he
    refine ⟨fun r hr => hg.head?_services hr, ?_, ?_, ?_⟩
    · rw [hd]
      exact hg.consistent.alternating
    · intro _ hc t ht
      have hq : t.requests e = s.requests e := ht.path.closed he hc
      exact congrArg (List.filter Entry.Request.isService) hq
    · intro hc
      rw [hd]
      exact hg.active_iff hc
  · obtain ⟨hq, hx⟩ : s.requests e = [] ∧ s.entry e = .closed none :=
      hl.absent e (Nat.le_of_not_lt he)
    have hs : s.services e = [] := by simp [Store.services, hq]
    refine ⟨by simp [hs], ?_, fun h' => absurd h' he, ?_⟩
    · rw [hd, hq]
      exact ⟨List.isChain_nil, by simp [dealings]⟩
    · intro hc
      exact absurd (by simp [Store.state, hx]) hc

/-- Two callers take turns with one entry, and the second of them has it. -/
theorem handouts_and_returns_alternate_two_callers :
    let s : Store Nat := [Move.create "p" {} none, .reserve 0, .enable 0 7 false, .acquire true 0 1,
      .release true 0 1 0, .acquire true 0 2].foldl Move.apply (.blank [])
    Run free (.blank []) s ∧ s.dealings 0 = [.out, .back, .out] ∧ Alternating (s.dealings 0) ∧
      s.state 0 = .active := by
  intro s
  have hr : Run free (.blank []) s := Run.foldl _ _ (by simp [Move.Proper])
  exact ⟨hr, by decide, (handouts_and_returns_alternate hr 0).2.2.1, by decide⟩

end ResourcePool
