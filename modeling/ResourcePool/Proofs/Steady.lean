import ResourcePool.Proofs.Frame
import ResourcePool.Proofs.Registry.Paths
import ResourcePool.Proofs.Registry.Sound

/-! Steady pools: no other pool meddles with their entries, so that all members are open and all hints
are to entries of their own. -/
namespace ResourcePool
open Registry

variable {α : Type}

/-- Removals through the pool itself only. -/
abbrev ownRemovals (p : PoolId) (q : PoolId) (_ : EntryId) : Prop :=
  q = p

structure Store.Steady (s : Store α) (p : PoolId) : Prop where
  known : p < s.pools.size
  sound : s.registry.Sound
  live : ∀ e ∈ s.members p, s.state e ≠ .closed
  hinted : ∀ c e, (c, e) ∈ (s.pool p).hints.slots → e ∈ s.reservations p

theorem Registry.Path.sound {may : PoolId → EntryId → Prop} {v w : Registry α} (h : Path may v w)
    (hv : v.Sound) : w.Sound :=
  h.keeps (fun _ _ he => he.sound) hv

theorem Registry.Path.listed_open {p : PoolId} {v w : Registry α} (h : Path (ownRemovals p) v w)
    (hv : v.Sound) (ho : ∀ e ∈ (v.roster p).members, (v.entry e).state ≠ .closed) :
    ∀ e ∈ (w.roster p).members, (w.entry e).state ≠ .closed := by
  have hk : w.Sound ∧ ∀ e ∈ (w.roster p).members, (w.entry e).state ≠ .closed := by
    refine h.keeps (P := fun w => w.Sound ∧ ∀ e ∈ (w.roster p).members,
      (w.entry e).state ≠ .closed) ?_ ⟨hv, ho⟩
    intro u w he hu
    exact ⟨he.sound hu.1, fun e hm => he.listed_open hu.1 (fun q hq => hq) (hu.2 e) hm⟩
  exact hk.2

namespace Store

/-! ### The number of pools -/

variable {s t : Store α} {p : PoolId} {e : EntryId}

theorem size_reserve (s : Store α) (p : PoolId) : (s.reserve p).2.pools.size = s.pools.size :=
  (s.frame_reserve p).size

theorem size_enable (s : Store α) (e : EntryId) (v : α) (acquire : Bool) :
    (s.enable e v acquire).2.pools.size = s.pools.size :=
  (s.frame_enable 0 e v acquire).size

theorem size_acquire (s : Store α) (p : PoolId) (c : CallerId) :
    (s.acquire p c).2.pools.size = s.pools.size :=
  (s.frame_acquire p c).size

theorem size_release (s : Store α) (p : PoolId) (c : CallerId) (e : EntryId) :
    (s.release p c e).2.pools.size = s.pools.size :=
  (s.frame_release p c e).size

theorem size_remove (s : Store α) (p : PoolId) (e : EntryId) :
    (s.remove p e).2.pools.size = s.pools.size :=
  (s.frame_remove p e).size

theorem size_settle (s : Store α) (p : PoolId) (c : CallerId) (e : EntryId) (creation : Creation α) :
    (s.settle p c e creation).2.pools.size = s.pools.size :=
  (s.frame_settle p c e creation).size

theorem size_close (s : Store α) (p : PoolId) : (s.close p).2.pools.size = s.pools.size :=
  (s.frame_close p).size

/-! ### Calls on a steady pool -/

/-- A call on the pool that gives hints to no entries but those that it hinted at or reserved. -/
theorem Steady.step (hs : s.Steady p) (hpath : Path (ownRemovals p) s.registry t.registry)
    (hsize : t.pools.size = s.pools.size)
    (hhints : ∀ c e, (c, e) ∈ (t.pool p).hints.slots →
      (c, e) ∈ (s.pool p).hints.slots ∨ e ∈ s.reservations p) : t.Steady p where
  known := hsize ▸ hs.known
  sound := hpath.sound hs.sound
  live := hpath.listed_open hs.sound hs.live
  hinted c e he := by
    refine (hpath.reservations_prefix p).subset ?_
    rcases hhints c e he with h | h
    · exact hs.hinted c e h
    · exact h

theorem Steady.reserve (hs : s.Steady p) : (s.reserve p).2.Steady p := by
  refine hs.step (s.reserve_path p) (s.size_reserve p) fun c e he => ?_
  rw [pool_reserve hs.known] at he
  split_ifs at he
  · exact .inl he
  · exact .inl he

theorem Steady.enable (hs : s.Steady p) (e : EntryId) (v : α) (acquire : Bool) :
    (s.enable e v acquire).2.Steady p := by
  refine hs.step (s.enable_path e v acquire) (s.size_enable e v acquire) fun c x hx => ?_
  rw [pool_enable] at hx
  exact .inl hx

theorem Steady.acquire (hs : s.Steady p) (c : CallerId) : (s.acquire p c).2.Steady p := by
  refine hs.step (s.acquire_path p c) (s.size_acquire p c) fun c' e he => ?_
  cases ha : (s.acquire p c).1 with
  | some x =>
    obtain ⟨turn, hits, hpool⟩ := pool_acquire_of_some ha
    rw [hpool] at he
    exact .inl he
  | none =>
    cases hc : (s.roster p).closed with
    | true =>
      rw [acquire_of_closed c hc] at he
      exact .inl he
    | false =>
      obtain ⟨turn, hpool⟩ := pool_acquire_of_none hc ha
      rw [hpool] at he
      exact .inl he

theorem mem_slots_remember {x : Pool α} {c c' : CallerId} {e e' : EntryId}
    (h : (c', e') ∈ (x.remember c e).hints.slots) : (c', e') ∈ x.hints.slots ∨ e' = e := by
  unfold Pool.remember at h
  split_ifs at h
  · rcases List.mem_cons.mp h with h | h
    · exact .inr (congrArg Prod.snd h)
    · exact .inl (List.mem_of_mem_filter h)
  · exact .inl h

theorem Steady.release (hs : s.Steady p) (c : CallerId) (he : e ∈ s.reservations p) :
    (s.release p c e).2.Steady p := by
  refine hs.step (s.release_path p c e) (s.size_release p c e) fun c' e' he' => ?_
  by_cases h : (s.roster p).closed = false ∧ (s.entry e).Grants .release
  · rw [pool_release_of_grants c h.1 h.2] at he'
    rcases mem_slots_remember he' with h' | rfl
    · exact .inl h'
    · exact .inr he
  · rw [(release_of_not_grants c fun hc hg => h ⟨hc, hg⟩).2] at he'
    exact .inl he'

theorem hints_remove (s : Store α) (p : PoolId) (e : EntryId) :
    ((s.remove p e).2.pool p).hints = (s.pool p).hints :=
  remove_keeps Pool.hints (fun _ _ => rfl) (fun _ _ => rfl) s p e

theorem Steady.remove (hs : s.Steady p) (e : EntryId) : (s.remove p e).2.Steady p := by
  refine hs.step (s.remove_path p e fun _ _ => rfl) (s.size_remove p e) fun c x hx => ?_
  rw [hints_remove] at hx
  exact .inl hx

theorem Steady.settle (hs : s.Steady p) (c : CallerId) (e : EntryId) (creation : Creation α) :
    (s.settle p c e creation).2.Steady p := by
  cases creation with
  | value v =>
    refine hs.step (s.settle_path p c e _ fun _ _ _ => rfl) (s.size_settle p c e _) fun c' x hx => ?_
    by_cases hg : (s.entry e).Grants (.enable v true)
    · rw [pool_settle_of_grants hs.known c hg] at hx
      exact .inl hx
    · rw [(settle_of_not_grants hg).2] at hx
      exact .inl hx
  | nothing => exact hs.remove e
  | refused reason => exact hs.remove e
  | panicked => exact hs

theorem Steady.close (hs : s.Steady p) : (s.close p).2.Steady p := by
  refine hs.step (s.close_path p) (s.size_close p) fun c e he => ?_
  rw [pool_close hs.known] at he
  exact absurd he List.not_mem_nil

/-- The entry that was reserved. -/
theorem mem_of_reserve (h : (s.reserve p).1 = some e) :
    e ∈ (s.reserve p).2.members p ∧ (s.reserve p).2.state e = .pending := by
  have hf := s.reserve_fst p
  have hr := s.registry_reserve p
  rw [h] at hf
  split_ifs at hf hr
  obtain rfl := Option.some.inj hf
  have hm : (s.reserve p).2.members p = ((s.registry.reserve p).roster p).members :=
    congrArg (fun v : Registry α => (v.roster p).members) hr
  have hx : (s.reserve p).2.state s.entries.size =
      ((s.registry.reserve p).entry s.registry.size).state :=
    congrArg (fun v : Registry α => (v.entry s.entries.size).state) hr
  rw [hm, hx, reserve_roster_self, reserve_entry_self]
  exact ⟨List.mem_append_right _ (List.mem_singleton_self _), rfl⟩

theorem open_of_reserve (h : (s.reserve p).1 = some e) : ((s.reserve p).2.pool p).closed = false := by
  have hf := s.reserve_fst p
  have hr := s.registry_reserve p
  rw [h] at hf
  split_ifs at hf hr with hc
  rw [Bool.or_eq_true, not_or, Bool.not_eq_true] at hc
  have hp : ((s.reserve p).2.pool p).closed = ((s.registry.reserve p).roster p).closed :=
    congrArg (fun v : Registry α => (v.roster p).closed) hr
  rw [hp, reserve_roster_self]
  exact hc.1

/-- What is acquired is an idle member, wherever a hint may point. -/
theorem Steady.mem_of_acquire (hs : s.Steady p) {c : CallerId} (h : (s.acquire p c).1 = some e) :
    e ∈ s.members p ∧ s.state e = .idle := by
  have hi : s.state e = .idle := Entry.grants_acquire_iff.mp (acquire_of_some h).1
  refine ⟨?_, hi⟩
  rcases mem_or_hinted_of_acquire h with hm | hh
  · exact hm
  · exact hs.sound.kept p e (hs.hinted c e hh) (by
      change s.state e ≠ .closed
      simp [hi])

end Store

end ResourcePool
