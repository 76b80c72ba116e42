import ResourcePool.Proofs.Registry.Acquire
import ResourcePool.Proofs.Registry.Lifecycle

/-! What a call does to the pool that it is made on, besides its list: counters, hints and turn. -/
namespace ResourcePool.Store

variable {α : Type} {s : Store α} {p : PoolId}

theorem pool_modifyPool_self (hp : p < s.pools.size) (f : Pool α → Pool α) :
    (s.modifyPool p f).pool p = f (s.pool p) := by
  rw [pool_modifyPool, if_pos ⟨rfl, hp⟩]

theorem size_modifyPool (s : Store α) (p : PoolId) (f : Pool α → Pool α) :
    (s.modifyPool p f).pools.size = s.pools.size :=
  Array.size_modify

theorem pool_reserve (hp : p < s.pools.size) : (s.reserve p).2.pool p =
    if (s.pool p).closed || (s.pool p).isFull then
      (s.pool p).count fun c => { c with rejections := c.rejections + 1 }
    else { s.pool p with members := (s.pool p).members ++ [s.entries.size] } := by
  unfold reserve
  split_ifs
  · exact pool_modifyPool_self hp _
  · exact pool_modifyPool_self (s := { s with entries := s.entries.push .pending }) hp _

theorem pool_enable (s : Store α) (p : PoolId) (e : EntryId) (v : α) (acquire : Bool) :
    (s.enable e v acquire).2.pool p = s.pool p := by
  unfold enable
  split <;> rfl

/-! ### Search -/

theorem pool_handOut (hp : p < s.pools.size) (c : CallerId) (e : EntryId) (hinted : Bool) :
    (s.handOut p c e hinted).pool p = (s.pool p).count fun k =>
      { k with acquired := k.acquired + 1, hits := if hinted then k.hits + 1 else k.hits } :=
  pool_modifyPool_self (s := s.setEntry e _) hp _

theorem pool_miss (hp : p < s.pools.size) :
    (s.miss p).pool p = (s.pool p).count fun c => { c with misses := c.misses + 1 } :=
  pool_modifyPool_self hp _

theorem pool_start (hp : p < s.pools.size) (c : CallerId) :
    ∃ turn, (s.start p c).2.pool p = { s.pool p with turn } :=
  ⟨_, pool_modifyPool_self (s := { s with draws := _ }) hp _⟩

theorem size_start (s : Store α) (p : PoolId) (c : CallerId) :
    (s.start p c).2.pools.size = s.pools.size :=
  size_modifyPool { s with draws := _ } p _

theorem start_lt (h : s.members p ≠ []) (c : CallerId) :
    (s.start p c).1 < (s.members p).length :=
  Strategy.start_lt _ (List.length_pos_iff.mpr h) c _ _

theorem pool_acquire_of_some {c : CallerId} {e : EntryId} (h : (s.acquire p c).1 = some e) :
    ∃ turn hits, (s.acquire p c).2.pool p = { s.pool p with
      turn, counters := { (s.pool p).counters with
        acquired := (s.pool p).counters.acquired + 1, hits } } := by
  have hc : (s.roster p).closed = false := open_of_acquire h
  have hp : p < s.pools.size := lt_size_of_open hc
  obtain ⟨-, ha⟩ | ⟨x, -, ha⟩ | ⟨-, i, t, ht, ⟨x, -, ha⟩ | ⟨-, ha⟩⟩ := acquire_cases c hc
  · simp [ha] at h
  · refine ⟨(s.pool p).turn, (s.pool p).counters.hits + 1, ?_⟩
    rw [ha, pool_handOut hp]
    rfl
  · obtain ⟨turn, hturn⟩ := pool_start hp c
    have hsize := s.size_start p c
    rw [ht] at hturn hsize
    refine ⟨turn, (s.pool p).counters.hits, ?_⟩
    rw [ha, pool_handOut (hsize ▸ hp), hturn]
    rfl
  · simp [ha] at h

theorem pool_acquire_of_none {c : CallerId} (hc : (s.roster p).closed = false)
    (h : (s.acquire p c).1 = none) : ∃ turn, (s.acquire p c).2.pool p = { s.pool p with
      turn, counters := { (s.pool p).counters with
        misses := (s.pool p).counters.misses + 1 } } := by
  have hp : p < s.pools.size := lt_size_of_open hc
  obtain ⟨-, ha⟩ | ⟨x, -, ha⟩ | ⟨-, i, t, ht, ⟨x, -, ha⟩ | ⟨-, ha⟩⟩ := acquire_cases c hc
  · refine ⟨(s.pool p).turn, ?_⟩
    rw [ha, pool_miss hp]
    rfl
  · simp [ha] at h
  · simp [ha] at h
  · obtain ⟨turn, hturn⟩ := pool_start hp c
    have hsize := s.size_start p c
    rw [ht] at hturn hsize
    refine ⟨turn, ?_⟩
    rw [ha, pool_miss (hsize ▸ hp), hturn]
    rfl

/-- A hint is a slot of the pool. -/
theorem mem_slots_of_hinted? {c : CallerId} {e : EntryId} (h : s.hinted? p c = some e) :
    (c, e) ∈ (s.pool p).hints.slots := by
  unfold hinted? Hints.get? at h
  split_ifs at h
  have hl := (Option.filter_eq_some_iff.mp (Option.filter_eq_some_iff.mp h).1).1
  obtain ⟨l, l', hs, -⟩ := List.lookup_eq_some_iff.mp hl
  rw [hs]
  simp

/-- A search that finds nothing has seen every member. -/
theorem not_idle_of_acquire_eq_none {c : CallerId} (hc : (s.roster p).closed = false)
    (h : (s.acquire p c).1 = none) {e : EntryId} (he : e ∈ s.members p) : s.isIdle e = false := by
  obtain ⟨hm, -⟩ | ⟨x, -, ha⟩ | ⟨hm, i, t, ht, ⟨x, -, ha⟩ | ⟨hs, -⟩⟩ := acquire_cases c hc
  · simp [hm] at he
  · simp [ha] at h
  · simp [ha] at h
  · have hr : t.registry = s.registry := by
      rw [← s.registry_start p c, ht]
    have hmembers : t.members p = s.members p :=
      congrArg (fun v : Registry α => (v.roster p).members) hr
    have hidle : t.isIdle = s.isIdle :=
      congrArg (fun v : Registry α => fun e => (v.entry e).isIdle) hr
    have hi := start_lt hm c
    rw [ht] at hi
    rw [hmembers, hidle] at hs
    exact scan_eq_none hi hs he

/-- What is acquired is a member or hinted at. -/
theorem mem_or_hinted_of_acquire {c : CallerId} {e : EntryId} (h : (s.acquire p c).1 = some e) :
    e ∈ s.members p ∨ (c, e) ∈ (s.pool p).hints.slots := by
  obtain ⟨-, ha⟩ | ⟨x, hx, ha⟩ | ⟨-, i, t, ht, ⟨x, hx, ha⟩ | ⟨-, ha⟩⟩ :=
    acquire_cases c (open_of_acquire h)
  · simp [ha] at h
  · rw [ha] at h
    obtain rfl := Option.some.inj h
    exact .inr (mem_slots_of_hinted? hx)
  · rw [ha] at h
    obtain rfl := Option.some.inj h
    have hmembers : t.members p = s.members p := by
      have hr := s.registry_start p c
      rw [ht] at hr
      exact congrArg (fun v : Registry α => (v.roster p).members) hr
    exact .inl (hmembers ▸ (scan_eq_some hx).1)
  · simp [ha] at h

/-! ### Return and removal -/

theorem pool_release_of_grants {e : EntryId} (c : CallerId) (hc : (s.roster p).closed = false)
    (h : (s.entry e).Grants .release) : (s.release p c e).2.pool p =
      ((s.pool p).count fun k => { k with released := k.released + 1 }).remember c e := by
  have hp : p < s.pools.size := lt_size_of_open hc
  have ha : (s.entry e).tryRelease = (.ok true, ((s.entry e).tryRelease).2) := Prod.ext h rfl
  change (s.pool p).closed = false at hc
  unfold release
  rw [hc, ha]
  let u := (s.setEntry e (s.entry e).tryRelease.2).count p fun k =>
    { k with released := k.released + 1 }
  have hu : u.pool p = (s.pool p).count fun k => { k with released := k.released + 1 } :=
    pool_modifyPool_self (s := s.setEntry e _) hp _
  have hsize : p < u.pools.size :=
    (size_modifyPool (s.setEntry e (s.entry e).tryRelease.2) p _).symm ▸ hp
  change (u.modifyPool p (·.remember c e)).pool p = _
  rw [pool_modifyPool_self hsize, hu]

theorem pool_remove_of_mem {e : EntryId} (hc : (s.roster p).closed = false)
    (h : (s.entry e).Grants .remove) (hm : e ∈ s.members p) : (s.remove p e).2.pool p =
      { s.pool p with
        members := (s.members p).erase e
        counters := { (s.pool p).counters with removed := (s.pool p).counters.removed + 1 } } := by
  have hp : p < s.pools.size := lt_size_of_open hc
  have ha : (s.entry e).tryRemove = (true, (s.entry e).tryRemove.2) :=
    Prod.ext (Except.ok.inj h) rfl
  have hl : (s.members p).contains e = true := List.contains_iff_mem.mpr hm
  change (s.pool p).closed = false at hc
  unfold remove
  rw [hc, ha]
  let u := (s.setEntry e (s.entry e).tryRemove.2).modifyPool p fun pool =>
    { pool with members := pool.members.erase e }
  have hu : u.pool p = { s.pool p with members := (s.members p).erase e } :=
    pool_modifyPool_self (s := s.setEntry e _) hp _
  have hsize : p < u.pools.size :=
    (size_modifyPool (s.setEntry e (s.entry e).tryRemove.2) p _).symm ▸ hp
  change (if (s.members p).contains e then (true, (u.count p _).note _) else _).2.pool p = _
  rw [if_pos hl]
  change (u.modifyPool p _).pool p = _
  rw [pool_modifyPool_self hsize, hu]
  rfl

/-- A removal that is refused is noted and nothing more. -/
theorem pool_remove_of_not_grants {q : PoolId} {e : EntryId} (h : ¬ (s.entry e).Grants .remove) :
    (s.remove p e).2.pool q = s.pool q := by
  unfold remove
  split_ifs
  · rfl
  split
  · rfl
  · next ha => exact absurd (by simp [Entry.Grants, Entry.answer, ha]) h

theorem pool_settle_of_grants {e : EntryId} {v : α} (hp : p < s.pools.size) (c : CallerId)
    (h : (s.entry e).Grants (.enable v true)) : (s.settle p c e (.value v)).2.pool p =
      (s.pool p).count fun k => { k with acquired := k.acquired + 1 } := by
  have ha : (s.entry e).enable v true = (.ok true, ((s.entry e).enable v true).2) := Prod.ext h rfl
  unfold settle
  simp only
  rw [ha]
  exact pool_modifyPool_self (s := s.setEntry e _) hp _

theorem pools_dispose (s : Store α) (p : PoolId) (e : EntryId) :
    (s.dispose p e).2.pools = s.pools := by
  unfold dispose
  split
  · dsimp only
    split <;> rfl
  · rfl

/-- Reclaiming entries leaves the pools alone. -/
theorem pools_reclaim (p : PoolId) (es : List EntryId) (s : Store α) :
    (reclaim p es s).2.2.pools = s.pools := by
  induction es generalizing s with
  | nil => rfl
  | cons e es ih =>
    unfold reclaim
    split
    · exact ih _
    · exact (ih _).trans (pools_dispose _ p e)

theorem pool_close (hp : p < s.pools.size) :
    (s.close p).2.pool p = { s.pool p with closed := true, members := [], hints := {} } := by
  let u := s.modifyPool p fun pool => { pool with closed := true, members := [], hints := {} }
  have hu : u.pool p = { s.pool p with closed := true, members := [], hints := {} } :=
    pool_modifyPool_self hp _
  unfold close
  dsimp only
  split_ifs
  · exact hu
  · rw [← hu]
    change (reclaim p (s.members p) u).2.2.pool p = u.pool p
    unfold pool
    rw [pools_reclaim]

/-! ### What a pool keeps -/

section Keeps

variable {β : Type} (g : Pool α → β)

/-- What lists and counters have no part in, a reservation keeps. -/
theorem reserve_keeps (hm : ∀ x members, g { x with members } = g x)
    (hc : ∀ x counters, g { x with counters } = g x) (s : Store α) (p : PoolId) :
    g ((s.reserve p).2.pool p) = g (s.pool p) := by
  unfold reserve
  split_ifs
  · exact s.modifyPool_keeps g p p fun x => hc x _
  · exact modifyPool_keeps g { s with entries := _ } p p fun x => hm x _

/-- What turns and counters have no part in, a search keeps. -/
theorem acquire_keeps (ht : ∀ x turn, g { x with turn } = g x)
    (hc : ∀ x counters, g { x with counters } = g x) (s : Store α) (p : PoolId) (c : CallerId) :
    g ((s.acquire p c).2.pool p) = g (s.pool p) := by
  cases ha : (s.acquire p c).1 with
  | some e =>
    obtain ⟨turn, hits, hpool⟩ := pool_acquire_of_some ha
    rw [hpool]
    exact (hc { s.pool p with turn } _).trans (ht _ turn)
  | none =>
    cases hp : (s.roster p).closed with
    | true => rw [acquire_of_closed c hp]
    | false =>
      obtain ⟨turn, hpool⟩ := pool_acquire_of_none hp ha
      rw [hpool]
      exact (hc { s.pool p with turn } _).trans (ht _ turn)

/-- What counters have no part in, the value of a creation keeps. -/
theorem fulfil_keeps (hc : ∀ x counters, g { x with counters } = g x) (s : Store α) (p : PoolId)
    (c : CallerId) (e : EntryId) (v : α) : g ((s.settle p c e (.value v)).2.pool p) = g (s.pool p) := by
  unfold settle
  dsimp only
  split
  · exact modifyPool_keeps g (s.setEntry e _) p p fun x => hc x _
  · rfl
  · rfl

/-- What lists and counters have no part in, a removal keeps. -/
theorem remove_keeps (hm : ∀ x members, g { x with members } = g x)
    (hc : ∀ x counters, g { x with counters } = g x) (s : Store α) (p : PoolId) (e : EntryId) :
    g ((s.remove p e).2.pool p) = g (s.pool p) := by
  unfold remove
  split_ifs
  · rfl
  split
  · rfl
  · next x _ =>
    let u := (s.setEntry e x).modifyPool p fun pool => { pool with members := pool.members.erase e }
    have hu : g (u.pool p) = g (s.pool p) := modifyPool_keeps g (s.setEntry e x) p p fun x => hm x _
    have hw : ∀ f, g ((u.count p f).pool p) = g (u.pool p) :=
      fun f => u.modifyPool_keeps g p p fun x => hc x _
    dsimp only
    split_ifs
    · exact (hw _).trans hu
    · rfl

/-- What counters and hints have no part in, a release keeps. -/
theorem release_keeps (hc : ∀ x counters, g { x with counters } = g x)
    (hh : ∀ x hints, g { x with hints } = g x) (s : Store α) (p : PoolId) (c : CallerId) (e : EntryId) :
    g ((s.release p c e).2.pool p) = g (s.pool p) := by
  by_cases hg : (s.roster p).closed = false ∧ (s.entry e).Grants .release
  · rw [pool_release_of_grants c hg.1 hg.2]
    unfold Pool.remember
    split_ifs
    · exact (hh _ _).trans (hc _ _)
    · exact hc _ _
  · rw [(release_of_not_grants c fun hp hx => hg ⟨hp, hx⟩).2]

/-- What lists, hints and being closed have no part in, closing keeps. -/
theorem close_keeps (hk : ∀ x closed members hints, g { x with closed, members, hints } = g x)
    (s : Store α) (p : PoolId) : g ((s.close p).2.pool p) = g (s.pool p) := by
  let u := s.modifyPool p fun pool => { pool with closed := true, members := [], hints := {} }
  have hu : g (u.pool p) = g (s.pool p) := s.modifyPool_keeps g p p fun x => hk x _ _ _
  unfold close
  dsimp only
  split_ifs
  · exact hu
  · rw [← hu]
    change g ((reclaim p (s.members p) u).2.2.pool p) = g (u.pool p)
    unfold pool
    rw [pools_reclaim]

end Keeps

end ResourcePool.Store
