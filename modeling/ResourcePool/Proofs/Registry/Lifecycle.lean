import ResourcePool.Proofs.Registry.Updates

/-! Entries entering and leaving pools, as changes of the registry. What a call answers says which. -/
namespace ResourcePool

variable {α : Type}

namespace Store

theorem registry_create (s : Store α) (name : String) (settings : Settings α)
    (detector? : Option Detector) :
    (s.create name settings detector?).2.registry =
      s.registry.create s.pools.size settings.maxEntries := by
  have hr : (s.create name settings detector?).2.roster = Function.update s.roster s.pools.size
      { members := [], closed := false, limit := settings.maxEntries } := by
    funext q
    have hq := pool_push s (.ofSettings name settings detector?) q
    change (s.create name settings detector?).2.pool q = _ at hq
    by_cases h : q = s.pools.size
    · subst h
      simp [roster, hq, Pool.ofSettings, Pool.roster]
    · simp [roster, hq, h]
  ext1
  · rfl
  · rfl
  · exact hr
  · rfl
  · rfl

theorem reserve_fst (s : Store α) (p : PoolId) :
    (s.reserve p).1 =
      if (s.roster p).closed || (s.roster p).isFull then none else some s.entries.size := by
  change _ = if (s.pool p).closed || (s.pool p).isFull then none else some s.entries.size
  unfold reserve
  split_ifs <;> rfl

theorem registry_reserve (s : Store α) (p : PoolId) :
    (s.reserve p).2.registry =
      if (s.roster p).closed || (s.roster p).isFull then s.registry
      else s.registry.reserve p := by
  change _ = if (s.pool p).closed || (s.pool p).isFull then s.registry else s.registry.reserve p
  unfold reserve
  split_ifs with h
  · rw [registry_note _ rfl rfl, registry_count]
  have hp : p < s.pools.size := by
    refine lt_size_of_open ?_
    rw [Bool.or_eq_true, not_or, Bool.not_eq_true] at h
    exact h.1
  let u : Store α := { s with entries := s.entries.push .pending }
  have hu : u.registry = { s.registry with
      size := s.entries.size + 1
      entry := Function.update s.entry s.entries.size .pending } := by
    ext1
    · simp [u, registry]
    · exact s.entry_push .pending
    · rfl
    · rfl
    · rfl
  rw [registry_note_reserved, u.registry_modifyPool_of_lt hp, hu]
  rfl

/-- An entry is enabled just when it says yes, and else nothing happens. -/
theorem enable_of_grants {s : Store α} {e : EntryId} {v : α} {acquire : Bool}
    (h : (s.entry e).Grants (.enable v acquire)) :
    (s.enable e v acquire).1 = .ok true ∧
      (s.enable e v acquire).2.registry = s.registry.grant e (.enable v acquire) := by
  have ha : (s.entry e).enable v acquire = (.ok true, ((s.entry e).enable v acquire).2) :=
    Prod.ext h rfl
  unfold enable
  rw [ha]
  exact ⟨rfl, registry_grant h rfl rfl⟩

theorem enable_of_not_grants {s : Store α} {e : EntryId} {v : α} {acquire : Bool}
    (h : ¬ (s.entry e).Grants (.enable v acquire)) :
    (s.enable e v acquire).1 ≠ .ok true ∧ (s.enable e v acquire).2 = s := by
  unfold enable
  split
  · next ha => exact absurd (congrArg Prod.fst ha) h
  · next ha =>
    refine ⟨?_, rfl⟩
    rintro rfl
    exact h (congrArg Prod.fst ha)

theorem remove_of_closed {s : Store α} {p : PoolId} (e : EntryId)
    (hp : (s.roster p).closed = true) : s.remove p e = (false, s) := by
  change (s.pool p).closed = true at hp
  simp [remove, hp]

theorem remove_of_not_grants {s : Store α} {p : PoolId} {e : EntryId}
    (h : ¬ (s.entry e).Grants .remove) :
    (s.remove p e).1 = false ∧ (s.remove p e).2.registry = s.registry := by
  unfold remove
  split_ifs with hc
  · exact ⟨rfl, rfl⟩
  split
  · exact ⟨rfl, registry_note _ rfl rfl⟩
  · next ha => exact absurd (by simp [Entry.Grants, Entry.answer, ha]) h

private theorem tryRemove_of_grants {x : Entry α} (h : x.Grants .remove) :
    x.tryRemove = (true, (x.answer .remove).2) := by
  cases x with
  | closed v => simp [Entry.Grants, Entry.answer, Entry.tryRemove] at h
  | _ => rfl

/-- The entry closed, and gone from the list. -/
private def evicted (s : Store α) (p : PoolId) (e : EntryId) : Store α :=
  (s.setEntry e ((s.entry e).answer .remove).2).modifyPool p fun pool =>
    { pool with members := pool.members.erase e }

/-- An open pool closes an open entry first and then looks for it in its list. -/
private theorem remove_of_grants {s : Store α} {p : PoolId} {e : EntryId}
    (hp : (s.roster p).closed = false) (h : (s.entry e).Grants .remove) :
    s.remove p e =
      if (s.members p).contains e then
        (true, ((s.evicted p e).count p fun c => { c with removed := c.removed + 1 }).note
          (.removed p e))
      else (false, (s.setEntry e ((s.entry e).answer .remove).2).note (.removedElsewhere p e)) := by
  change (s.pool p).closed = false at hp
  unfold remove
  rw [hp, tryRemove_of_grants h]
  rfl

private theorem registry_evicted {s : Store α} {p : PoolId} {e : EntryId}
    (hp : (s.roster p).closed = false) (h : (s.entry e).Grants .remove) :
    (s.evicted p e).registry = { s.registry with
      entry := Function.update s.entry e ((s.entry e).answer .remove).2
      roster := Function.update s.roster p
        { s.roster p with members := (s.roster p).members.erase e } } := by
  have hsize : p < s.pools.size := lt_size_of_open hp
  unfold evicted
  rw [registry_modifyPool_of_lt (s.setEntry e _) hsize, s.registry_setEntry (lt_size_of_grants h)]
  rfl

theorem remove_of_mem {s : Store α} {p : PoolId} {e : EntryId}
    (hp : (s.roster p).closed = false) (h : (s.entry e).Grants .remove)
    (hm : e ∈ (s.roster p).members) : (s.remove p e).1 = true ∧
      (s.remove p e).2.registry = (s.registry.grant e .remove).strike p e := by
  have hc : (s.members p).contains e = true := List.contains_iff_mem.mpr hm
  rw [remove_of_grants hp h, if_pos hc]
  refine ⟨rfl, ?_⟩
  rw [registry_note_granted (e := e) (r := .remove) _ rfl, registry_count, registry_evicted hp h]
  rfl

theorem remove_of_not_mem {s : Store α} {p : PoolId} {e : EntryId}
    (hp : (s.roster p).closed = false) (h : (s.entry e).Grants .remove)
    (hm : e ∉ (s.roster p).members) : (s.remove p e).1 = false ∧
      (s.remove p e).2.registry = s.registry.grant e .remove := by
  have hc : ¬ (s.members p).contains e = true := mt List.contains_iff_mem.mp hm
  rw [remove_of_grants hp h, if_neg hc]
  exact ⟨rfl, registry_grant h rfl rfl⟩

@[simp] theorem registry_dispose (s : Store α) (p : PoolId) (e : EntryId) :
    (s.dispose p e).2.registry = s.registry := by
  unfold dispose
  split
  · dsimp only
    split
    · rw [registry_note _ rfl rfl, registry_note _ rfl rfl]
    · exact registry_note _ rfl rfl
  · rfl

theorem closeAll_cons_of_not_grants {v : Registry α} {e : EntryId} (es : List EntryId)
    (h : ¬ (v.entry e).Grants .remove) : v.closeAll (e :: es) = v.closeAll es := by
  have hc : (v.entry e).state = .closed := by simpa [Entry.grants_remove_iff] using h
  have hx : Entry.closed (v.entry e).value? = v.entry e := Entry.closed_value? hc
  ext1
  · rfl
  · funext i
    by_cases hi : i = e
    · subst hi
      simp [Registry.closeAll, hx]
    · simp [Registry.closeAll, hi]
  · rfl
  · funext i
    by_cases hi : i = e
    · subst hi
      simp [Registry.closeAll, hc]
    · simp [Registry.closeAll, hi]
  · rfl

theorem closeAll_cons_of_grants {v : Registry α} {e : EntryId} (es : List EntryId)
    (h : (v.entry e).Grants .remove) :
    v.closeAll (e :: es) = (v.grant e .remove).closeAll es := by
  have ho : (v.entry e).state ≠ .closed := Entry.grants_remove_iff.mp h
  have hy : ((v.entry e).answer .remove).2 = .closed (v.entry e).value? := Entry.answer_remove h
  ext1
  · rfl
  · funext i
    by_cases hi : i = e
    · subst hi
      simp [Registry.closeAll, Registry.grant, hy]
    · simp [Registry.closeAll, Registry.grant, hi]
  · rfl
  · funext i
    by_cases hi : i = e
    · subst hi
      simp [Registry.closeAll, Registry.grant, hy, ho]
    · simp [Registry.closeAll, Registry.grant, hi]
  · rfl

theorem registry_reclaim (p : PoolId) (es : List EntryId) (s : Store α) :
    (reclaim p es s).2.2.registry = s.registry.closeAll es := by
  induction es generalizing s with
  | nil => simp [reclaim, Registry.closeAll]
  | cons e es ih =>
    by_cases hg : (s.entry e).Grants .remove
    · rw [closeAll_cons_of_grants es hg]
      unfold reclaim
      rw [tryRemove_of_grants hg]
      change (reclaim p es (((s.setEntry e _).note (.reclaimed p e)).dispose p e).2).2.2.registry = _
      rw [ih, registry_dispose, registry_grant hg rfl rfl]
    · rw [closeAll_cons_of_not_grants es hg]
      unfold reclaim
      split
      · rw [ih, registry_note _ rfl rfl]
      · next ha => exact absurd (by simp [Entry.Grants, Entry.answer, ha]) hg

theorem registry_close (s : Store α) (p : PoolId) :
    (s.close p).2.registry = s.registry.close p := by
  let f := fun pool : Pool α => { pool with closed := true, members := [], hints := {} }
  let u := s.modifyPool p f
  have hu : u.registry = { s.registry with
      roster := Function.update s.roster p { s.roster p with members := [], closed := true } } := by
    by_cases hp : p < s.pools.size
    · exact s.registry_modifyPool_of_lt hp f
    · have ha : s.roster p = { s.roster p with members := [], closed := true } := by
        simp [roster, s.pool_of_size_le (Nat.le_of_not_lt hp), Pool.absent, Pool.roster]
      rw [← ha, Function.update_eq_self]
      exact s.modifyPool_of_size_le (Nat.le_of_not_lt hp) f
  by_cases he : (s.members p).isEmpty = true
  · have hm : (s.roster p).members = [] := List.isEmpty_iff.mp he
    have hc : s.close p = ([], u) := by
      unfold close
      exact if_pos he
    rw [hc, hu, Registry.close]
    simp [Registry.closeAll, hm, Store.registry]
  · have hr := registry_reclaim p (s.members p) u
    have hc : (s.close p).2 = (reclaim p (s.members p) u).2.2.note
        (.closed p (s.members p).length (reclaim p (s.members p) u).1) := by
      unfold close
      dsimp only
      rw [if_neg he]
    rw [hc, registry_note _ rfl rfl, hr, hu]
    rfl

end Store

end ResourcePool
