import ResourcePool.Proofs.Registry

/-! Sound registries: each list holds, within its capacity, entries that the pool reserved itself, and
among them all that are not closed. -/
namespace ResourcePool

variable {α : Type}

namespace Registry

/-- What lists and reservations are like, whatever was done to entries and pools. -/
structure Sound (v : Registry α) : Prop where
  bounded : ∀ p, ∀ e ∈ v.reservations p, e < v.size
  disjoint : ∀ p q e, e ∈ v.reservations p → e ∈ v.reservations q → p = q
  ascending : ∀ p, (v.reservations p).Pairwise (· < ·)
  listed : ∀ p, (v.roster p).members.Sublist (v.reservations p)
  emptied : ∀ p, (v.roster p).closed = true → (v.roster p).members = []
  kept : ∀ p, ∀ e ∈ v.reservations p, (v.entry e).state ≠ .closed → e ∈ (v.roster p).members
  capacity : ∀ p, 0 < (v.roster p).limit → (v.roster p).members.length ≤ (v.roster p).limit

namespace Sound

variable {v : Registry α}

theorem nodup (hv : v.Sound) (p : PoolId) : (v.roster p).members.Nodup := by
  have hr : (v.reservations p).Nodup := (hv.ascending p).imp Nat.ne_of_lt
  exact hr.sublist (hv.listed p)

theorem eq_of_mem (hv : v.Sound) {p q : PoolId} {e : EntryId} (hp : e ∈ (v.roster p).members)
    (hq : e ∈ (v.roster q).members) : p = q :=
  hv.disjoint p q e ((hv.listed p).subset hp) ((hv.listed q).subset hq)

/-- An entry that its closed pool reserved is closed. -/
theorem state_of_closed (hv : v.Sound) {p : PoolId} {e : EntryId} (hp : (v.roster p).closed = true)
    (he : e ∈ v.reservations p) : (v.entry e).state = .closed := by
  by_contra hc
  have hm := hv.kept p e he hc
  rw [hv.emptied p hp] at hm
  exact absurd hm List.not_mem_nil

/-- Another roster for one pool, whose list is no larger. -/
theorem update_roster (hv : v.Sound) (p : PoolId) {r : Roster}
    (listed : r.members.Sublist (v.reservations p)) (emptied : r.closed = true → r.members = [])
    (kept : ∀ e ∈ v.reservations p, (v.entry e).state ≠ .closed → e ∈ r.members)
    (capacity : 0 < r.limit → r.members.length ≤ r.limit) :
    { v with roster := Function.update v.roster p r }.Sound where
  bounded := hv.bounded
  disjoint := hv.disjoint
  ascending := hv.ascending
  listed q := by
    by_cases h : q = p
    · subst h
      simpa using listed
    · simpa [h] using hv.listed q
  emptied q := by
    by_cases h : q = p
    · subst h
      simpa using emptied
    · simpa [h] using hv.emptied q
  kept q := by
    by_cases h : q = p
    · subst h
      simpa using kept
    · simpa [h] using hv.kept q
  capacity q := by
    by_cases h : q = p
    · subst h
      simpa using capacity
    · simpa [h] using hv.capacity q

/-- Other entries, none of which was opened again. -/
theorem update_entry (hv : v.Sound) {entry : EntryId → Entry α}
    {requests : EntryId → List (Entry.Request α)}
    (h : ∀ e, (v.entry e).state = .closed → (entry e).state = .closed) :
    { v with entry, requests }.Sound where
  bounded := hv.bounded
  disjoint := hv.disjoint
  ascending := hv.ascending
  listed := hv.listed
  emptied := hv.emptied
  kept p e he hc := hv.kept p e he (mt (h e) hc)
  capacity := hv.capacity

theorem grant (hv : v.Sound) {e : EntryId} {r : Entry.Request α} (hg : (v.entry e).Grants r) :
    (v.grant e r).Sound := by
  refine hv.update_entry fun i hi => ?_
  have hne : i ≠ e := by
    rintro rfl
    exact Entry.not_grants_of_closed hi r hg
  rw [Function.update_of_ne hne]
  exact hi

theorem mem_reserve {p q : PoolId} {e : EntryId} :
    e ∈ (v.reserve p).reservations q ↔ e ∈ v.reservations q ∨ q = p ∧ e = v.size := by
  by_cases h : q = p
  · subst h
    simp [reserve_reservations_self]
  · simp [reserve_reservations_of_ne v h, h]

theorem reserve (hv : v.Sound) {p : PoolId} (opened : (v.roster p).closed = false)
    (room : (v.roster p).isFull = false) : (v.reserve p).Sound where
  bounded q e he := by
    change e < v.size + 1
    rcases mem_reserve.mp he with h | ⟨-, rfl⟩
    · exact Nat.lt_succ_of_lt (hv.bounded q e h)
    · exact Nat.lt_succ_self _
  disjoint q q' e he he' := by
    rcases mem_reserve.mp he with h | ⟨hq, hs⟩
    · rcases mem_reserve.mp he' with h' | ⟨-, hs⟩
      · exact hv.disjoint q q' e h h'
      · exact absurd (hv.bounded q e h) (hs ▸ Nat.lt_irrefl _)
    · rcases mem_reserve.mp he' with h' | ⟨hq', -⟩
      · exact absurd (hv.bounded q' e h') (hs ▸ Nat.lt_irrefl _)
      · exact hq.trans hq'.symm
  ascending q := by
    by_cases h : q = p
    · subst h
      rw [reserve_reservations_self]
      refine List.pairwise_append.mpr ⟨hv.ascending q, List.pairwise_singleton _ _, ?_⟩
      intro a ha b hb
      rw [List.mem_singleton.mp hb]
      exact hv.bounded q a ha
    · rw [reserve_reservations_of_ne v h]
      exact hv.ascending q
  listed q := by
    by_cases h : q = p
    · subst h
      rw [reserve_roster_self, reserve_reservations_self]
      exact (hv.listed q).append_right [v.size]
    · rw [reserve_roster_of_ne v h, reserve_reservations_of_ne v h]
      exact hv.listed q
  emptied q hq := by
    by_cases h : q = p
    · subst h
      rw [reserve_roster_self, opened] at hq
      exact absurd hq Bool.false_ne_true
    · rw [reserve_roster_of_ne v h] at hq ⊢
      exact hv.emptied q hq
  kept q e he hc := by
    rcases mem_reserve.mp he with hm | ⟨rfl, rfl⟩
    · have hne : e ≠ v.size := Nat.ne_of_lt (hv.bounded q e hm)
      rw [reserve_entry_of_ne v p hne] at hc
      have hk := hv.kept q e hm hc
      by_cases h : q = p
      · subst h
        rw [reserve_roster_self]
        exact List.mem_append_left _ hk
      · rw [reserve_roster_of_ne v h]
        exact hk
    · rw [reserve_roster_self]
      exact List.mem_append_right _ (List.mem_singleton_self _)
  capacity q hq := by
    by_cases h : q = p
    · subst h
      rw [reserve_roster_self] at hq ⊢
      change 0 < (v.roster q).limit at hq
      simp only [Roster.isFull, Bool.and_eq_false_iff, decide_eq_false_iff_not] at room
      rw [List.length_append, List.length_singleton]
      change (v.roster q).members.length + 1 ≤ (v.roster q).limit
      omega
    · rw [reserve_roster_of_ne v h] at hq ⊢
      exact hv.capacity q hq

theorem strike (hv : v.Sound) (p : PoolId) {e : EntryId} (he : (v.entry e).state = .closed) :
    (v.strike p e).Sound := by
  refine hv.update_roster p (List.erase_sublist.trans (hv.listed p)) ?_ ?_ ?_
  · intro hp
    simp [hv.emptied p hp]
  · intro i hi hc
    have hne : i ≠ e := by
      rintro rfl
      exact hc he
    exact (List.mem_erase_of_ne hne).mpr (hv.kept p i hi hc)
  · intro hl
    exact Nat.le_trans (List.length_erase_le) (hv.capacity p hl)

theorem closeAll (hv : v.Sound) (es : List EntryId) : (v.closeAll es).Sound := by
  refine hv.update_entry fun e he => ?_
  split_ifs
  · rfl
  · exact he

end Sound

theorem Effect.sound {may : PoolId → EntryId → Prop} {v w : Registry α} (h : Effect may v w)
    (hv : v.Sound) : w.Sound := by
  cases h with
  | create p limit hm =>
    refine hv.update_roster p (List.nil_sublist _) (fun _ => rfl) ?_ (fun _ => Nat.zero_le _)
    intro e he hc
    exact hm ▸ hv.kept p e he hc
  | reserve p opened room => exact hv.reserve opened room
  | grant e r hg => exact hv.grant hg
  | evict p e hg =>
    refine (hv.grant hg).strike p ?_
    rw [grant_entry_self]
    exact Entry.state_answer hg
  | disown p e hg => exact hv.grant hg
  | close p =>
    refine (hv.closeAll (v.roster p).members).update_roster p (List.nil_sublist _) (fun _ => rfl) ?_
      (fun _ => Nat.zero_le _)
    intro e he hc
    have hm := (hv.closeAll (v.roster p).members).kept p e he hc
    simp [Registry.closeAll, show e ∈ (v.roster p).members from hm] at hc

/-- Unless its removal through another pool is allowed, a listed entry does not close. -/
theorem Effect.listed_open {may : PoolId → EntryId → Prop} {v w : Registry α} (h : Effect may v w)
    (hv : v.Sound) {p : PoolId} {e : EntryId} (hmay : ∀ q, may q e → q = p)
    (ho : e ∈ (v.roster p).members → (v.entry e).state ≠ .closed)
    (he : e ∈ (w.roster p).members) : (w.entry e).state ≠ .closed := by
  cases h with
  | create q limit =>
    by_cases hq : p = q
    · subst hq
      simp [Registry.create] at he
    · simp only [Registry.create, Function.update_of_ne hq] at he
      exact ho he
  | reserve q =>
    by_cases hn : e = v.size
    · subst hn
      rw [reserve_entry_self]
      simp [Entry.state]
    · have hm : e ∈ (v.roster p).members := by
        by_cases hq : p = q
        · subst hq
          rw [reserve_roster_self] at he
          simpa [hn] using he
        · rw [reserve_roster_of_ne v hq] at he
          exact he
      rw [reserve_entry_of_ne v q hn]
      exact ho hm
  | grant x r hg keeps =>
    by_cases hx : x = e
    · subst hx
      rw [grant_entry_self, Entry.state_answer hg]
      exact Entry.target_ne_closed keeps
    · rw [grant_entry_of_ne v r (Ne.symm hx)]
      exact ho he
  | evict q x hg listed =>
    have hm : e ∈ (v.roster p).members := by
      by_cases hq : p = q
      · subst hq
        simp only [Registry.strike, Registry.grant, Function.update_self] at he
        exact List.mem_of_mem_erase he
      · simpa [Registry.strike, Registry.grant, hq] using he
    have hx : x ≠ e := by
      rintro rfl
      obtain rfl := hv.eq_of_mem hm listed
      simp only [Registry.strike, Registry.grant, Function.update_self] at he
      exact (hv.nodup p).not_mem_erase he
    change ((v.grant x .remove).entry e).state ≠ .closed
    rw [grant_entry_of_ne v .remove (Ne.symm hx)]
    exact ho hm
  | disown q x hg unlisted allowed =>
    have hx : x ≠ e := by
      rintro rfl
      obtain rfl := hmay q allowed
      exact unlisted he
    rw [grant_entry_of_ne v .remove (Ne.symm hx)]
    exact ho he
  | close q =>
    by_cases hq : p = q
    · subst hq
      simp [Registry.close] at he
    · have hm : e ∈ (v.roster p).members := by
        simpa [Registry.close, Registry.closeAll, hq] using he
      have hn : e ∉ (v.roster q).members := fun h => hq (hv.eq_of_mem hm h)
      simp only [Registry.close, Registry.closeAll, if_neg hn]
      exact ho hm

end Registry

end ResourcePool
