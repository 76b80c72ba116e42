import ResourcePool.Proofs.Pool

/-! Outcomes: the whole store after a call, field by field, for searches and for the calls that a creation
begins and ends with. -/
namespace ResourcePool

variable {α : Type}

theorem Strategy.start_snd (strategy : Strategy) (size : Nat) (c : CallerId) (draw : Nat)
    (turn : Option UInt64) : (strategy.start size c draw turn).2 =
      if strategy = .roundRobin then turn.map (· + 1) else turn := by
  cases strategy with
  | roundRobin => cases turn <;> rfl
  | _ => rfl

namespace Entry

variable {x : Entry α}

theorem tryRemove_of_ne_closed (h : x.state ≠ .closed) : x.tryRemove = (true, .closed x.value?) := by
  cases x with
  | closed v => simp at h
  | _ => rfl

theorem tryRemove_of_closed (h : x.state = .closed) : x.tryRemove = (false, x) := by
  cases x with
  | closed v => rfl
  | _ => simp [state] at h

/-- How an entry answers a value that comes with its acquisition. -/
theorem enable_of_pending (h : x.state = .pending) (v : α) : x.enable v true = (.ok true, .active v) := by
  cases x with
  | pending => rfl
  | _ => simp [state] at h

theorem enable_of_closed (h : x.state = .closed) (v : α) (atOnce : Bool) :
    x.enable v atOnce = (.ok false, x) := by
  cases x with
  | closed _ => rfl
  | _ => simp [state] at h

theorem enable_of_enabled (h : x.state = .idle ∨ x.state = .active) (v : α) (atOnce : Bool) :
    x.enable v atOnce = (.error .alreadyEnabled, x) := by
  cases x with
  | idle _ => rfl
  | active _ => rfl
  | _ => simp [state] at h

end Entry

namespace Pool

/-- What the start of a search does to its pool. -/
def searched (x : Pool α) : Pool α :=
  { x with turn := if x.settings.strategy = .roundRobin then x.turn.map (· + 1) else x.turn }

/-- What a search that finds nothing does to its pool. -/
def missed (x : Pool α) : Pool α :=
  { x with
    turn := if x.settings.strategy = .roundRobin ∧ x.members ≠ [] then x.turn.map (· + 1) else x.turn
    counters := { x.counters with misses := x.counters.misses + 1 } }

theorem missed_of_nil {x : Pool α} (h : x.members = []) :
    x.missed = x.count fun k => { k with misses := k.misses + 1 } := by
  simp [missed, count, h]

theorem missed_of_ne_nil {x : Pool α} (h : x.members ≠ []) :
    x.missed = x.searched.count fun k => { k with misses := k.misses + 1 } := by
  simp [missed, searched, count, h]

end Pool

namespace Store

/-- The numbers left to draw after a search. -/
def drawn (s : Store α) (p : PoolId) : List Nat :=
  if (s.pool p).settings.strategy = .random ∧ s.members p ≠ [] then s.draws.tail else s.draws

/-! ### Pools modified twice -/

theorem modifyPool_modifyPool (s : Store α) (p : PoolId) (f g : Pool α → Pool α) :
    (s.modifyPool p f).modifyPool p g = s.modifyPool p fun x => g (f x) := by
  have hpools : (s.pools.modify p f).modify p g = s.pools.modify p fun x => g (f x) := by
    refine Array.ext_getElem? fun q => ?_
    rw [Array.getElem?_modify, Array.getElem?_modify, Array.getElem?_modify]
    split_ifs
    · rw [Option.map_map]
      rfl
    · rfl
  unfold modifyPool
  rw [hpools]

theorem modifyPool_congr {s : Store α} {p : PoolId} {f g : Pool α → Pool α}
    (h : f (s.pool p) = g (s.pool p)) : s.modifyPool p f = s.modifyPool p g := by
  have hpools : s.pools.modify p f = s.pools.modify p g := by
    refine Array.ext_getElem? fun q => ?_
    rw [Array.getElem?_modify, Array.getElem?_modify]
    split_ifs with hq
    · subst hq
      cases hx : s.pools[p]? with
      | none => rfl
      | some x =>
        have hpool : s.pool p = x := by simp [pool, Array.getD_eq_getD_getElem?, hx]
        rw [hpool] at h
        rw [Option.map_some, Option.map_some, h]
    · rfl
  unfold modifyPool
  rw [hpools]

variable {s t u : Store α} {p : PoolId} {c : CallerId} {e : EntryId}

/-! ### Searches -/

/-- A hint is the slot of the caller, if the entry in it is alive and idle still. -/
theorem hinted?_eq_some_iff {e : EntryId} : s.hinted? p c = some e ↔
    (s.pool p).settings.cached = true ∧ (s.pool p).hints.slots.lookup c = some e ∧
      s.isAlive e = true ∧ s.state e = .idle := by
  unfold hinted? Hints.get?
  split_ifs with hc
  · rw [Option.filter_eq_some_iff, Option.filter_eq_some_iff, and_assoc]
    simp [hc, isIdle, Entry.isIdle_iff, state]
  · simp [hc]

/-- A hint that can be followed is followed. -/
theorem acquire_of_hinted (ho : (s.pool p).closed = false) (hm : s.members p ≠ []) {e : EntryId}
    (h : s.hinted? p c = some e) : s.acquire p c = (some e, s.handOut p c e true) := by
  have hne : (s.members p).isEmpty = false := List.isEmpty_eq_false_iff.mpr hm
  simp only [acquire, ho, hne, h, Bool.false_eq_true, if_false]

/-- The start of a search moves the turn on or takes a number to draw. -/
theorem start_snd (hm : s.members p ≠ []) :
    (s.start p c).2 = { s.modifyPool p Pool.searched with draws := s.drawn p } := by
  have hdrawn : s.drawn p =
      if (s.pool p).settings.strategy = .random then s.draws.tail else s.draws := by
    simp [drawn, hm]
  rw [hdrawn]
  refine modifyPool_congr (s := { s with draws := _ }) ?_
  change { s.pool p with
    turn := ((s.pool p).settings.strategy.start (s.pool p).members.length c (s.draws.headD 0)
      (s.pool p).turn).2 } = (s.pool p).searched
  rw [Strategy.start_snd]
  rfl

/-- An acquire without a hint that can be followed takes the first idle member from its start on, around the
list. -/
theorem acquire_of_not_hinted? (ho : (s.pool p).closed = false) (hm : s.members p ≠ [])
    (hh : s.hinted? p c = none) :
    s.acquire p c =
      match ((s.members p).rotate (s.start p c).1).find? s.isIdle with
      | some e => (some e, (s.start p c).2.handOut p c e false)
      | none => (none, (s.start p c).2.miss p) := by
  have hr := s.registry_start p c
  have hmembers : (s.start p c).2.members p = s.members p :=
    congrArg (fun v : Registry α => (v.roster p).members) hr
  have hidle : (s.start p c).2.isIdle = s.isIdle :=
    congrArg (fun v : Registry α => fun e => (v.entry e).isIdle) hr
  have hscan : scan (s.members p) s.isIdle (s.members p).length (s.start p c).1 (s.members p).length =
      ((s.members p).rotate (s.start p c).1).find? s.isIdle := by
    rw [scan_eq_find? (start_lt hm c) (Nat.le_refl _), List.take_length]
  obtain ⟨hnil, -⟩ | ⟨x, hx, -⟩ | ⟨-, i, t, ht, ⟨x, hx, ha⟩ | ⟨hx, ha⟩⟩ := acquire_cases c ho
  · exact absurd hnil hm
  · simp [hh] at hx
  · rw [ht] at hmembers hidle hscan ⊢
    rw [hmembers, hidle, hscan] at hx
    rw [ha, hx]
  · rw [ht] at hmembers hidle hscan ⊢
    rw [hmembers, hidle, hscan] at hx
    rw [ha, hx]

/-- A search of an open pool that finds nothing. -/
theorem eq_of_acquire_eq_none (hp : (s.pool p).closed = false) (h : s.acquire p c = (none, t)) :
    t = { s.modifyPool p Pool.missed with
      draws := s.drawn p, journal := s.journal.record (.missed p) } := by
  obtain ⟨hm, ha⟩ | ⟨x, -, ha⟩ | ⟨hm, i, t', ht, ⟨x, -, ha⟩ | ⟨-, ha⟩⟩ := acquire_cases c hp
  · have hmiss : s.modifyPool p (·.count fun k => { k with misses := k.misses + 1 }) =
        s.modifyPool p Pool.missed :=
      modifyPool_congr (Pool.missed_of_nil hm).symm
    have hdrawn : s.drawn p = s.draws := by simp [drawn, hm]
    rw [ha] at h
    rw [← (Prod.mk.inj h).2, hdrawn, ← hmiss]
    rfl
  · simp [ha] at h
  · simp [ha] at h
  · have hmiss : (s.modifyPool p Pool.searched).modifyPool p
        (·.count fun k => { k with misses := k.misses + 1 }) = s.modifyPool p Pool.missed := by
      rw [modifyPool_modifyPool]
      exact modifyPool_congr (Pool.missed_of_ne_nil hm).symm
    have hstart : (s.start p c).2 = _ := start_snd hm
    rw [ht] at hstart
    change t' = _ at hstart
    rw [ha] at h
    rw [← (Prod.mk.inj h).2, hstart, ← hmiss]
    rfl

/-! ### Reservations and removals -/

/-- A reservation that is granted. -/
theorem eq_of_reserve_eq_some (h : t.reserve p = (some e, u)) :
    e = t.entries.size ∧ u = { t.modifyPool p (fun x => { x with members := x.members ++ [e] }) with
      entries := t.entries.push .pending, journal := t.journal.record (.reserved p e) } := by
  unfold reserve at h
  split_ifs at h
  · simp at h
  · obtain ⟨he, hu⟩ := Prod.mk.inj h
    obtain rfl := Option.some.inj he
    exact ⟨rfl, hu.symm⟩

/-- A reservation that is refused. -/
theorem eq_of_reserve_eq_none (h : (t.reserve p).1 = none) : (t.reserve p).2 =
    { t.count p (fun k => { k with rejections := k.rejections + 1 }) with
      journal := t.journal.record (.rejected p) } := by
  unfold reserve at h ⊢
  split_ifs at h ⊢
  rfl

/-- The removal of an open member. -/
theorem remove_of_listed (hp : (s.pool p).closed = false) (hx : s.state e ≠ .closed)
    (hm : e ∈ s.members p) :
    s.remove p e = (true, (((s.setEntry e (.closed (s.value? e))).modifyPool p fun x =>
      { x with members := x.members.erase e }).count p fun k =>
        { k with removed := k.removed + 1 }).note (.removed p e)) := by
  have ha : (s.entry e).tryRemove = (true, .closed (s.value? e)) := Entry.tryRemove_of_ne_closed hx
  have hc : (s.members p).contains e = true := List.contains_iff_mem.mpr hm
  unfold remove
  rw [hp, ha]
  dsimp only
  rw [if_neg Bool.false_ne_true]
  exact if_pos hc

/-- A removal that is refused: by a closed pool, of a closed entry, or of one that is not listed, which is
closed all the same. -/
theorem eq_of_remove_eq_false (h : (s.remove p e).1 = false) :
    ((s.pool p).closed = true → (s.remove p e).2 = s) ∧
    ((s.pool p).closed = false → s.state e = .closed → (s.remove p e).2 = s.note (.removedAgain p e)) ∧
    ((s.pool p).closed = false → s.state e ≠ .closed → e ∉ s.members p ∧
      (s.remove p e).2 = (s.setEntry e (.closed (s.value? e))).note (.removedElsewhere p e)) := by
  refine ⟨fun hp => ?_, fun hp hx => ?_, fun hp hx => ?_⟩
  · rw [remove_of_closed e hp]
  · have ha : (s.entry e).tryRemove = (false, s.entry e) := Entry.tryRemove_of_closed hx
    unfold remove
    rw [hp, ha]
    rfl
  · have hm : e ∉ s.members p := by
      intro hm
      rw [remove_of_listed hp hx hm] at h
      simp at h
    have ha : (s.entry e).tryRemove = (true, .closed (s.value? e)) := Entry.tryRemove_of_ne_closed hx
    have hc : ¬ (s.members p).contains e = true := mt List.contains_iff_mem.mp hm
    refine ⟨hm, ?_⟩
    unfold remove
    rw [hp, ha]
    dsimp only
    rw [if_neg Bool.false_ne_true]
    exact congrArg Prod.snd (if_neg hc)

/-! ### Values -/

theorem enable_of_closed (h : s.state e = .closed) (v : α) (atOnce : Bool) :
    s.enable e v atOnce = (.ok false, s) := by
  unfold enable
  rw [Entry.enable_of_closed h]

theorem settle_of_pending (h : s.state e = .pending) (v : α) :
    s.settle p c e (.value v) = (.ok (some e), ((s.setEntry e (.active v)).count p fun k =>
      { k with acquired := k.acquired + 1 }).note (.created p c e v)) := by
  unfold settle
  dsimp only
  rw [Entry.enable_of_pending h]

theorem settle_of_closed (h : s.state e = .closed) (v : α) :
    s.settle p c e (.value v) = (.ok none, s) := by
  unfold settle
  dsimp only
  rw [Entry.enable_of_closed h]

theorem settle_of_enabled (h : s.state e = .idle ∨ s.state e = .active) (v : α) :
    s.settle p c e (.value v) = (.error (.fault .alreadyEnabled), s) := by
  unfold settle
  dsimp only
  rw [Entry.enable_of_enabled h]

end Store

end ResourcePool
