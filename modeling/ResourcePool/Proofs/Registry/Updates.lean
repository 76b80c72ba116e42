import ResourcePool.Proofs.Registry

/-! Small updates of a store as changes of its registry. -/
namespace ResourcePool

variable {α : Type}

/-- What is found in a list of pairs by a key, when the pairs of one key are taken out. -/
theorem lookup_filter {κ β : Type} [BEq κ] [LawfulBEq κ] [DecidableEq κ] (pairs : List (κ × β)) (a b : κ) :
    (pairs.filter (·.1 != a)).lookup b = if b = a then none else pairs.lookup b := by
  induction pairs with
  | nil => simp
  | cons x pairs ih =>
    obtain ⟨k, y⟩ := x
    by_cases hk : k = a
    · rw [List.filter_cons_of_neg (by simp [hk]), ih, List.lookup_cons]
      split_ifs with hb
      · rfl
      · rw [beq_false_of_ne (hk ▸ hb)]
    · rw [List.filter_cons_of_pos (by simp [hk]), List.lookup_cons, List.lookup_cons, ih]
      by_cases hb : b = a
      · rw [if_pos hb, if_pos hb, beq_false_of_ne (hb ▸ Ne.symm hk)]
      · rw [if_neg hb, if_neg hb]

namespace Store

theorem pool_modifyPool (s : Store α) (p q : PoolId) (f : Pool α → Pool α) :
    (s.modifyPool p f).pool q = if q = p ∧ p < s.pools.size then f (s.pool p) else s.pool q := by
  simp only [pool, modifyPool, Array.getD_eq_getD_getElem?, Array.getElem?_modify]
  by_cases hq : q = p
  · subst hq
    by_cases hp : q < s.pools.size <;> simp [hp]
  · simp [hq, Ne.symm hq]

/-- What the modification of pools keeps, it keeps of every pool in the store. -/
theorem modifyPool_keeps {β : Type} (g : Pool α → β) (s : Store α) (p q : PoolId)
    {f : Pool α → Pool α} (hf : ∀ x, g (f x) = g x) :
    g ((s.modifyPool p f).pool q) = g (s.pool q) := by
  rw [pool_modifyPool]
  split_ifs with h
  · rw [hf, h.1]
  · rfl

theorem pool_of_size_le (s : Store α) {p : PoolId} (hp : s.pools.size ≤ p) :
    s.pool p = .absent := by
  simp [pool, hp]

theorem lt_size_of_open {s : Store α} {p : PoolId} (h : (s.roster p).closed = false) :
    p < s.pools.size := by
  by_contra hp
  simp [roster, s.pool_of_size_le (Nat.le_of_not_lt hp), Pool.absent, Pool.roster] at h

theorem pool_push (s : Store α) (x : Pool α) (q : PoolId) :
    { s with pools := s.pools.push x }.pool q = if q = s.pools.size then x else s.pool q := by
  simp only [pool, Array.getD_eq_getD_getElem?, Array.getElem?_push]
  split <;> rfl

theorem entry_of_size_le (s : Store α) {e : EntryId} (he : s.entries.size ≤ e) :
    s.entry e = .closed none := by
  simp [entry, he]

theorem entry_setEntry (s : Store α) {e : EntryId} (he : e < s.entries.size) (x : Entry α) :
    (s.setEntry e x).entry = Function.update s.entry e x := by
  funext i
  by_cases hi : i = e
  · subst hi
    simp [entry, setEntry, he]
  · simp [entry, setEntry, hi, Ne.symm hi]

theorem entry_push (s : Store α) (x : Entry α) :
    { s with entries := s.entries.push x }.entry = Function.update s.entry s.entries.size x := by
  funext i
  by_cases hi : i = s.entries.size
  · subst hi
    simp [entry]
  · simp [entry, hi, Array.getElem?_push]

/-- An entry that does not exist is like one that is closed. -/
theorem lt_size_of_ne_closed {s : Store α} {e : EntryId} (h : s.state e ≠ .closed) :
    e < s.entries.size := by
  by_contra he
  exact h (congrArg Entry.state (s.entry_of_size_le (Nat.le_of_not_lt he)))

/-- An entry that does not exist grants nothing. -/
theorem lt_size_of_grants {s : Store α} {e : EntryId} {r : Entry.Request α}
    (h : (s.entry e).Grants r) : e < s.entries.size := by
  by_contra he
  rw [s.entry_of_size_le (Nat.le_of_not_lt he)] at h
  exact Entry.not_grants_of_closed rfl r h

theorem events_note (s : Store α) (x : Event α) : (s.note x).events = s.events ++ [x] := by
  simp [events, note, Journal.record]

theorem registry_note (s : Store α) {x : Event α} (hg : x.granted? = none)
    (hr : x.reservation? = none) : (s.note x).registry = s.registry := by
  have hq : (s.note x).requests = s.requests := by
    funext e
    simp [requests, events_note, hg]
  have hv : (s.note x).reservations = s.reservations := by
    funext p
    simp [reservations, events_note, hr]
  ext1
  · rfl
  · rfl
  · rfl
  · exact hq
  · exact hv

theorem registry_note_granted (s : Store α) {x : Event α} {e : EntryId} {r : Entry.Request α}
    (hg : x.granted? = some (e, r)) :
    (s.note x).registry = { s.registry with
      requests := Function.update s.requests e (s.requests e ++ [r]) } := by
  have hr : x.reservation? = none := by
    cases x <;> simp_all [Event.granted?, Event.reservation?]
  have hq : (s.note x).requests = Function.update s.requests e (s.requests e ++ [r]) := by
    funext i
    by_cases hi : i = e
    · subst hi
      simp [requests, events_note, hg]
    · simp [requests, events_note, hg, hi, Ne.symm hi]
  have hv : (s.note x).reservations = s.reservations := by
    funext p
    simp [reservations, events_note, hr]
  ext1
  · rfl
  · rfl
  · rfl
  · exact hq
  · exact hv

theorem registry_note_reserved (s : Store α) (p : PoolId) (e : EntryId) :
    (s.note (.reserved p e)).registry = { s.registry with
      reservations := Function.update s.reservations p (s.reservations p ++ [e]) } := by
  have hq : (s.note (.reserved p e)).requests = s.requests := by
    funext i
    simp [requests, events_note, Event.granted?]
  have hv : (s.note (.reserved p e)).reservations =
      Function.update s.reservations p (s.reservations p ++ [e]) := by
    funext q
    by_cases h : q = p
    · subst h
      simp [reservations, events_note, Event.reservation?]
    · simp [reservations, events_note, Event.reservation?, h, Ne.symm h]
  ext1
  · rfl
  · rfl
  · rfl
  · exact hq
  · exact hv

theorem registry_modifyPool_of_lt (s : Store α) {p : PoolId} (hp : p < s.pools.size)
    (f : Pool α → Pool α) : (s.modifyPool p f).registry = { s.registry with
      roster := Function.update s.roster p (f (s.pool p)).roster } := by
  have hr : (s.modifyPool p f).roster = Function.update s.roster p (f (s.pool p)).roster := by
    funext q
    by_cases hq : q = p
    · subst hq
      simp [roster, pool_modifyPool, hp]
    · simp [roster, pool_modifyPool, hq]
  ext1
  · rfl
  · rfl
  · exact hr
  · rfl
  · rfl

/-- A pool that does not exist cannot be modified. -/
theorem modifyPool_of_size_le (s : Store α) {p : PoolId} (hp : s.pools.size ≤ p)
    (f : Pool α → Pool α) : (s.modifyPool p f).registry = s.registry := by
  have hr : (s.modifyPool p f).roster = s.roster := by
    funext q
    simp [roster, pool_modifyPool, Nat.not_lt.mpr hp]
  ext1
  · rfl
  · rfl
  · exact hr
  · rfl
  · rfl

theorem registry_modifyPool (s : Store α) (p : PoolId) {f : Pool α → Pool α}
    (hf : ∀ x, (f x).roster = x.roster) : (s.modifyPool p f).registry = s.registry := by
  by_cases hp : p < s.pools.size
  · rw [s.registry_modifyPool_of_lt hp, hf]
    change { s.registry with roster := Function.update s.roster p (s.roster p) } = _
    rw [Function.update_eq_self]
    rfl
  · exact s.modifyPool_of_size_le (Nat.le_of_not_lt hp) f

@[simp] theorem registry_count (s : Store α) (p : PoolId) (f : Counters → Counters) :
    (s.count p f).registry = s.registry :=
  s.registry_modifyPool p fun _ => rfl

@[simp] theorem registry_setTracker (s : Store α) (p : PoolId) (t : Tracker) :
    (s.setTracker p t).registry = s.registry :=
  s.registry_modifyPool p fun _ => rfl

theorem registry_setEntry (s : Store α) {e : EntryId} (he : e < s.entries.size) (x : Entry α) :
    (s.setEntry e x).registry = { s.registry with entry := Function.update s.entry e x } := by
  ext1
  · simp [registry, setEntry]
  · exact s.entry_setEntry he x
  · rfl
  · rfl
  · rfl

/-- A store that differs from `s` in the answer of one entry, and then notes that answer. -/
theorem registry_grant {s u : Store α} {e : EntryId} {r : Entry.Request α} {x : Event α}
    (h : (s.entry e).Grants r)
    (hu : u.registry = (s.setEntry e ((s.entry e).answer r).2).registry)
    (hg : x.granted? = some (e, r)) : (u.note x).registry = s.registry.grant e r := by
  rw [registry_setEntry s (lt_size_of_grants h)] at hu
  have hq : u.requests = s.requests := congrArg Registry.requests hu
  rw [registry_note_granted u hg, hu, hq]
  rfl

end Store

end ResourcePool
