import ResourcePool.Proofs.Steady

/-! Stocks: entries of one pool that a client keeps apart. As long as the pool is open they are all in
the same state, and calls about other entries leave them there. -/
namespace ResourcePool
open Registry

variable {α : Type}

structure Registry.Stocked (v : Registry α) (p : PoolId) (l : List EntryId) (st : EntryState) :
    Prop where
  nodup : l.Nodup
  own : ∀ e ∈ l, e ∈ v.reservations p
  state : (v.roster p).closed = false → ∀ e ∈ l, (v.entry e).state = st

namespace Registry.Stocked

variable {v : Registry α} {p : PoolId} {l : List EntryId} {st : EntryState} {e : EntryId}

theorem nil (v : Registry α) (p : PoolId) (st : EntryState) : v.Stocked p [] st :=
  ⟨List.nodup_nil, fun _ he => absurd he List.not_mem_nil, fun _ _ he => absurd he List.not_mem_nil⟩

theorem not_mem (h : v.Stocked p l st) (hp : (v.roster p).closed = false)
    (he : (v.entry e).state ≠ st) : e ∉ l :=
  fun hm => he (h.state hp e hm)

/-- Stocks in different states have no entry in common. -/
theorem not_mem_other {l' : List EntryId} {st' : EntryState} (h : v.Stocked p l st)
    (h' : v.Stocked p l' st') (hst : st ≠ st') (hp : (v.roster p).closed = false) (he : e ∈ l) :
    e ∉ l' :=
  h'.not_mem hp ((h.state hp e he).symm ▸ hst)

theorem grant (h : v.Stocked p l st) (he : e ∉ l) (r : Entry.Request α) :
    (v.grant e r).Stocked p l st where
  nodup := h.nodup
  own := h.own
  state hp i hi := by
    have hne : i ≠ e := fun hie => he (hie ▸ hi)
    rw [grant_entry_of_ne v r hne]
    exact h.state hp i hi

theorem strike (h : v.Stocked p l st) (e : EntryId) : (v.strike p e).Stocked p l st where
  nodup := h.nodup
  own := h.own
  state hp := by
    have hc : ((v.strike p e).roster p).closed = (v.roster p).closed := by
      simp [Registry.strike]
    exact h.state (hc ▸ hp)

theorem lt_size (h : v.Stocked p l st) (hv : v.Sound) (he : e ∈ l) : e < v.size :=
  hv.bounded p e (h.own e he)

theorem reserve (h : v.Stocked p l st) (hv : v.Sound) : (v.reserve p).Stocked p l st where
  nodup := h.nodup
  own e he := by
    rw [reserve_reservations_self]
    exact List.mem_append_left _ (h.own e he)
  state hp e he := by
    rw [reserve_roster_self] at hp
    rw [reserve_entry_of_ne v p (Nat.ne_of_lt (h.lt_size hv he))]
    exact h.state hp e he

theorem close (h : v.Stocked p l st) : (v.close p).Stocked p l st where
  nodup := h.nodup
  own := h.own
  state hp := by simp [Registry.close] at hp

theorem erase (h : v.Stocked p l st) (e : EntryId) : v.Stocked p (l.erase e) st where
  nodup := h.nodup.erase e
  own i hi := h.own i (List.mem_of_mem_erase hi)
  state hp i hi := h.state hp i (List.mem_of_mem_erase hi)

theorem concat (h : v.Stocked p l st) (he : e ∉ l) (own : e ∈ v.reservations p)
    (hst : (v.entry e).state = st) : v.Stocked p (l ++ [e]) st where
  nodup := by
    rw [List.nodup_append]
    refine ⟨h.nodup, List.pairwise_singleton _ e, ?_⟩
    intro i hi j hj hij
    exact he (List.mem_singleton.mp hj ▸ hij ▸ hi)
  own i hi := by
    rcases List.mem_append.mp hi with hi | hi
    · exact h.own i hi
    · exact List.mem_singleton.mp hi ▸ own
  state hp i hi := by
    rcases List.mem_append.mp hi with hi | hi
    · exact h.state hp i hi
    · exact List.mem_singleton.mp hi ▸ hst

end Registry.Stocked

namespace Store

variable {s : Store α} {p : PoolId} {l : List EntryId} {st : EntryState} {e : EntryId}

theorem Steady.state_of_closed (hs : s.Steady p) (hc : (s.pool p).closed = true)
    (he : e ∈ s.reservations p) : s.state e = .closed :=
  hs.sound.state_of_closed hc he

theorem Steady.mem_of_stocked (hs : s.Steady p) (h : s.registry.Stocked p l st)
    (hst : st ≠ .closed) (hc : (s.pool p).closed = false) (he : e ∈ l) : e ∈ s.members p := by
  have hx : (s.registry.entry e).state = st := h.state hc e he
  exact hs.sound.kept p e (h.own e he) (hx ▸ hst)

/-- Only an open pool has open entries. -/
theorem Steady.open_of_stocked (hs : s.Steady p) (h : s.registry.Stocked p l st) (he : e ∈ l)
    (hx : s.state e ≠ .closed) : (s.pool p).closed = false := by
  rw [← Bool.not_eq_true]
  intro hc
  exact hx (hs.state_of_closed hc (h.own e he))

theorem stocked_reserve (hs : s.Steady p) (h : s.registry.Stocked p l st) :
    (s.reserve p).2.registry.Stocked p l st := by
  have hr := s.registry_reserve p
  split_ifs at hr
  · exact hr ▸ h
  · exact hr ▸ h.reserve hs.sound

theorem not_mem_of_reserve (hs : s.Steady p) (h : s.registry.Stocked p l st)
    (he : (s.reserve p).1 = some e) : e ∉ l := by
  have hf := s.reserve_fst p
  rw [he] at hf
  split_ifs at hf
  intro hm
  have hlt : e < s.entries.size := h.lt_size hs.sound hm
  rw [← Option.some.inj hf] at hlt
  exact Nat.lt_irrefl _ hlt

theorem stocked_enable (h : s.registry.Stocked p l st) (he : s.state e = .pending → e ∉ l) (v : α)
    (acquire : Bool) : (s.enable e v acquire).2.registry.Stocked p l st := by
  by_cases hg : (s.entry e).Grants (.enable v acquire)
  · rw [(enable_of_grants hg).2]
    exact h.grant (he (Entry.grants_enable_iff.mp hg)) _
  · rw [(enable_of_not_grants hg).2]
    exact h

theorem stocked_acquire (h : s.registry.Stocked p l st) (hst : st ≠ .idle) (c : CallerId) :
    (s.acquire p c).2.registry.Stocked p l st := by
  cases ha : (s.acquire p c).1 with
  | none =>
    rw [acquire_of_none ha]
    exact h
  | some e =>
    obtain ⟨hg, hr⟩ := acquire_of_some ha
    have hp : (s.roster p).closed = false := open_of_acquire ha
    have hi : (s.registry.entry e).state = .idle := Entry.grants_acquire_iff.mp hg
    rw [hr]
    exact h.grant (h.not_mem hp (hi ▸ hst.symm)) _

theorem stocked_release (h : s.registry.Stocked p l st)
    (he : (s.roster p).closed = false → e ∉ l) (c : CallerId) :
    (s.release p c e).2.registry.Stocked p l st := by
  by_cases hg : (s.roster p).closed = false ∧ (s.entry e).Grants .release
  · rw [(release_of_grants c hg.1 hg.2).2]
    exact h.grant (he hg.1) _
  · rw [(release_of_not_grants c fun hp hx => hg ⟨hp, hx⟩).2]
    exact h

theorem stocked_remove (h : s.registry.Stocked p l st)
    (he : (s.roster p).closed = false → e ∉ l) : (s.remove p e).2.registry.Stocked p l st := by
  cases hp : (s.roster p).closed with
  | true =>
    rw [remove_of_closed e hp]
    exact h
  | false =>
    by_cases hg : (s.entry e).Grants .remove
    · by_cases hm : e ∈ (s.roster p).members
      · rw [(remove_of_mem hp hg hm).2]
        exact (h.grant (he hp) _).strike e
      · rw [(remove_of_not_mem hp hg hm).2]
        exact h.grant (he hp) _
    · rw [(remove_of_not_grants hg).2]
      exact h

theorem stocked_settle (h : s.registry.Stocked p l st) (he : e ∉ l) (c : CallerId)
    (creation : Creation α) : (s.settle p c e creation).2.registry.Stocked p l st := by
  cases creation with
  | value v =>
    by_cases hg : (s.entry e).Grants (.enable v true)
    · rw [(settle_of_grants hg).2]
      exact h.grant he _
    · rw [(settle_of_not_grants hg).2]
      exact h
  | nothing => exact stocked_remove h fun _ => he
  | refused reason => exact stocked_remove h fun _ => he
  | panicked => exact h

theorem stocked_close (h : s.registry.Stocked p l st) : (s.close p).2.registry.Stocked p l st := by
  rw [s.registry_close p]
  exact h.close

/-- What is acquired comes on top of the stock of active entries. -/
theorem stocked_acquired (hs : s.Steady p) (h : s.registry.Stocked p l .active) (c : CallerId) :
    (s.acquire p c).2.registry.Stocked p (l ++ (s.acquire p c).1.toList) .active := by
  have hl := stocked_acquire h (by simp) c
  cases ha : (s.acquire p c).1 with
  | none =>
    rw [Option.toList_none, List.append_nil]
    exact hl
  | some e =>
    obtain ⟨hm, hi⟩ := hs.mem_of_acquire ha
    obtain ⟨hg, hr⟩ := acquire_of_some ha
    have hp : (s.roster p).closed = false := open_of_acquire ha
    have hst : (s.registry.entry e).state = .idle := hi
    refine hl.concat (h.not_mem hp (by simp [hst])) ?_ ?_
    · rw [hr]
      exact (hs.sound.listed p).subset hm
    · rw [hr, grant_entry_self]
      exact Entry.state_answer (r := .acquire) hg

/-- The entry that a creation made comes on top of the stock of active entries. -/
theorem stocked_settled (hs : s.Steady p) (h : s.registry.Stocked p l .active) (he : e ∈ s.members p)
    (hx : s.state e = .pending) (hp : (s.roster p).closed = false) (c : CallerId)
    (creation : Creation α) : (s.settle p c e creation).2.registry.Stocked p
      (l ++ (s.settle p c e creation).1.toOption.join.toList) .active := by
  have hst : (s.registry.entry e).state = .pending := hx
  have hn : e ∉ l := h.not_mem hp (by simp [hst])
  have hl := stocked_settle h hn c creation
  cases creation with
  | value v =>
    have hg : (s.registry.entry e).Grants (.enable v true) := Entry.grants_enable_iff.mpr hx
    obtain ⟨ha, hr⟩ := settle_of_grants (p := p) (c := c) hg
    rw [ha]
    refine hl.concat hn ?_ ?_
    · rw [hr]
      exact (hs.sound.listed p).subset he
    · rw [hr, grant_entry_self, Entry.state_answer hg]
      rfl
  | nothing => exact (List.append_nil l).symm ▸ hl
  | refused reason => exact (List.append_nil l).symm ▸ hl
  | panicked => exact (List.append_nil l).symm ▸ hl

variable (c : CallerId) (creation : Creation α)

theorem stocked_acquireWith (hs : s.Steady p) (h : s.registry.Stocked p l st) (hst : st ≠ .idle) :
    (s.acquireWith (ρ := Unit) p c fun _ s => (creation, [], s)).2.2.registry.Stocked p l st := by
  have ha := stocked_acquire h hst c
  have hsa := hs.acquire c
  obtain ⟨e, t, ht, hw⟩ | ⟨t, ht, ⟨u, hu, hw⟩ | ⟨e, u, hu, hw⟩⟩ :=
    s.acquireWith_cases (ρ := Unit) p c fun _ s => (creation, [], s)
  · rw [ht] at ha
    rw [hw]
    exact ha
  · rw [ht] at ha hsa
    have hr := stocked_reserve hsa ha
    rw [hu] at hr
    rw [hw]
    exact hr
  · rw [ht] at ha hsa
    have hr := stocked_reserve hsa ha
    have hn := not_mem_of_reserve hsa ha (congrArg Prod.fst hu)
    rw [hu] at hr
    rw [hw]
    exact stocked_settle hr hn c creation

theorem stocked_acquiredWith (hs : s.Steady p) (h : s.registry.Stocked p l .active) :
    let r := s.acquireWith (ρ := Unit) p c fun _ s => (creation, [], s)
    r.2.2.registry.Stocked p (l ++ r.1.toOption.join.toList) .active := by
  have hsa := hs.acquire c
  have ha := stocked_acquire h (by simp) c
  obtain ⟨e, t, ht, hw⟩ | ⟨t, ht, ⟨u, hu, hw⟩ | ⟨e, u, hu, hw⟩⟩ :=
    s.acquireWith_cases (ρ := Unit) p c fun _ s => (creation, [], s)
  · have hl := stocked_acquired hs h c
    rw [ht] at hl
    rw [hw]
    exact hl
  · rw [ht] at ha hsa
    have hr := stocked_reserve hsa ha
    have hn : l ++ (Except.ok none : Except CreationError (Option EntryId)).toOption.join.toList = l :=
      List.append_nil l
    rw [hu] at hr
    rw [hw]
    dsimp only
    rw [hn]
    exact hr
  · rw [ht] at ha hsa
    have hr := stocked_reserve hsa ha
    have hsr := hsa.reserve
    obtain ⟨hm, hx⟩ := mem_of_reserve (congrArg Prod.fst hu)
    have hc := open_of_reserve (congrArg Prod.fst hu)
    rw [hu] at hr hsr hm hx hc
    rw [hw]
    exact stocked_settled hsr hr hm hx hc c creation

theorem stocked_warmup (value : Nat → α) (count call : Nat) {s : Store α} (hs : s.Steady p)
    (h : s.registry.Stocked p l st) :
    (warmup (ρ := Unit) p (fun n _ s => (some (value n), [], s)) count call s).2.2.registry.Stocked
      p l st := by
  induction count generalizing s call with
  | zero => exact h
  | succ count ih =>
    have hr := stocked_reserve hs h
    have hsr := hs.reserve
    unfold warmup
    cases hy : s.reserve p with
    | mk reserved u =>
      rw [hy] at hr hsr
      cases reserved with
      | none => exact hr
      | some e =>
        have hn := not_mem_of_reserve hs h (congrArg Prod.fst hy)
        have he := stocked_enable hr (fun _ => hn) (value call) false
        have hse := hsr.enable e (value call) false
        dsimp only
        cases hz : u.enable e (value call) false with
        | mk answer w =>
          rw [hz] at he hse
          cases answer with
          | error f => exact he
          | ok yes =>
            cases yes with
            | false => exact he
            | true => exact ih (call + 1) hse he

end Store

end ResourcePool
