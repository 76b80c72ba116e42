import ResourcePool.Proofs.Pool
import ResourcePool.Proofs.Run

/-! Calls that wait for creators and factories make runs of the caller's own calls, whatever calls these make
in turn. -/
namespace ResourcePool

variable {α ρ : Type}

/-- The calls that one caller makes; nobody enters or leaves by them. -/
def made (c : CallerId) (_ : Store α) : Move α → Prop
  | .enter _ | .leave _ => False
  | .acquire _ _ d | .settle _ _ d _ _ | .release _ _ d _ | .lease _ _ d _ | .settleLease _ d _ _ _
  | .dropGuard d _ => d = c
  | _ => True

namespace Run

variable {c : CallerId} {s t : Store α}

theorem one {allowed : Store α → Move α → Prop} (m : Move α) (proper : m.Proper s) (ok : allowed s m) :
    Run allowed s (m.apply s) :=
  refl.step m proper ok

/-- A call that leads to `t`. -/
theorem of_apply_eq {allowed : Store α → Move α → Prop} (m : Move α) (proper : m.Proper s)
    (ok : allowed s m) (h : m.apply s = t) : Run allowed s t :=
  h ▸ one m proper ok

theorem toFree {allowed : Store α → Move α → Prop} (h : Run allowed s t) : Run free s t := by
  induction h with
  | refl => exact .refl
  | step _ m proper _ ih => exact ih.step m proper trivial

theorem mem_reservations_of_reserve {p : PoolId} {e : EntryId} (h : (s.reserve p).1 = some e) :
    e ∈ (s.reserve p).2.reservations p := by
  have hf := s.reserve_fst p
  have hr := s.registry_reserve p
  rw [h] at hf
  split_ifs at hf hr with hc
  have hv : (s.reserve p).2.reservations = (s.registry.reserve p).reservations :=
    congrArg Registry.reservations hr
  rw [hv, Option.some.inj hf, Registry.reserve_reservations_self]
  exact List.mem_append_right _ (List.mem_singleton_self _)

theorem tracker?_acquire (s : Store α) (p : PoolId) (c : CallerId) :
    ((s.acquire p c).2.pool p).tracker? = (s.pool p).tracker? :=
  Store.acquire_keeps Pool.tracker? (fun _ _ => rfl) (fun _ _ => rfl) s p c

/-- An `acquireWith` begins with a search, then reserves, and then waits for its creator. -/
theorem acquireWith_prefix (p : PoolId) (c : CallerId)
    {creator : EntryId → Store α → Creation α × List ρ × Store α}
    (hc : ∀ e u, Run (made c) u (creator e u).2.2) :
    (∃ e t, s.acquire p c = (some e, t) ∧ s.acquireWith p c creator = (.ok (some e), [], t)) ∨
    ∃ t, s.acquire p c = (none, t) ∧
      ((∃ u, Run (made c) t u ∧ s.acquireWith p c creator = (.ok none, [], u)) ∨
      ∃ e u creation reports, Run (made c) t u ∧ e ∈ u.reservations p ∧
        s.acquireWith p c creator =
          ((u.settle p c e creation).1, reports, (u.settle p c e creation).2)) := by
  obtain ⟨e, t, ht, hw⟩ | ⟨t, ht, ⟨u, hr, hw⟩ | ⟨e, u, hr, hw⟩⟩ :=
    s.acquireWith_cases p c creator
  · exact .inl ⟨e, t, ht, hw⟩
  · have hv : Run (made c) t (t.reserve p).2 := one (.reserve p) trivial trivial
    rw [hr] at hv
    exact .inr ⟨t, ht, .inl ⟨u, hv, hw⟩⟩
  · have hv : Run (made c) t (t.reserve p).2 := one (.reserve p) trivial trivial
    have he : e ∈ (t.reserve p).2.reservations p := mem_reservations_of_reserve (by rw [hr])
    rw [hr] at hv he
    have hn := hc e u
    exact .inr ⟨t, ht, .inr ⟨e, _, _, _, hv.trans hn, hn.mem_reservations he, hw⟩⟩

/-- Acquiring with a creator that makes calls is a run, however its creation ends. -/
theorem acquireWith (direct : Bool) (p : PoolId) (c : CallerId)
    {creator : EntryId → Store α → Creation α × List ρ × Store α}
    (hc : ∀ e u, Run (made c) u (creator e u).2.2) :
    Run (made c) s ((s.acquireWith p c creator).2.2.observeResult direct p
      (s.acquireWith p c creator).1) := by
  have ha : Run (made c) s (s.trackedAcquire direct p c).2 := one (.acquire direct p c) trivial rfl
  unfold Store.trackedAcquire at ha
  obtain ⟨e, t, ht, hw⟩ | ⟨t, ht, ⟨u, hu, hw⟩ | ⟨e, u, creation, reports, hu, he, hw⟩⟩ :=
    acquireWith_prefix (s := s) p c hc
  · rw [ht] at ha
    rw [hw]
    exact ha
  · rw [ht] at ha
    rw [hw]
    exact ha.trans hu
  · rw [ht] at ha
    rw [hw]
    exact (ha.trans hu).trans (one (.settle direct p c e creation) he rfl)

/-- Acquiring for a guard, on a pool without tracker. -/
theorem leaseWith (p : PoolId) (c : CallerId) (name : String)
    {creator : EntryId → Store α → Creation α × List ρ × Store α}
    (ht : (s.pool p).tracker? = none) (hc : ∀ e u, Run (made c) u (creator e u).2.2) :
    Run (made c) s ((s.acquireWith p c creator).2.2.guardResult p c name
      (s.acquireWith p c creator).1) := by
  have hl : Run (made c) s (s.lease false p c name).2 := one (.lease false p c name) trivial rfl
  have hp := tracker?_acquire s p c
  unfold Store.lease Store.trackedAcquire at hl
  obtain ⟨e, t, ha, hw⟩ | ⟨t, ha, ⟨u, hu, hw⟩ | ⟨e, u, creation, reports, hu, he, hw⟩⟩ :=
    acquireWith_prefix (s := s) p c hc
  · have ho : t.observeAcquire p e = t := by
      rw [ha] at hp
      unfold Store.observeAcquire
      rw [hp, ht]
    rw [ha] at hl
    dsimp only at hl
    rw [if_neg (by simp), ho] at hl
    rw [hw]
    exact hl
  · rw [ha] at hl
    rw [hw]
    exact hl.trans hu
  · rw [ha] at hl
    rw [hw]
    exact (hl.trans hu).trans (one (.settleLease p c name e creation) he rfl)

/-- So is a warmup whose factory makes calls. -/
theorem warmup (p : PoolId) {factory : Nat → EntryId → Store α → Option α × List ρ × Store α}
    (hf : ∀ n e u, Run (made c) u (factory n e u).2.2) (count call : Nat) (s : Store α) :
    Run (made c) s (Store.warmup p factory count call s).2.2 := by
  induction count generalizing call s with
  | zero => exact .refl
  | succ count ih =>
    have hv : Run (made c) s (s.reserve p).2 := one (.reserve p) trivial trivial
    unfold Store.warmup
    cases hs : s.reserve p with
    | mk x t =>
      rw [hs] at hv
      cases x with
      | none => exact hv
      | some e =>
        have hn := hf call e t
        dsimp only at hv ⊢
        cases ht : factory call e t with
        | mk y rest =>
          rw [ht] at hn
          cases y with
          | none => exact hv.trans hn
          | some v =>
            have he : Run (made c) rest.2 (rest.2.enable e v false).2 := one (.enable e v false) trivial trivial
            dsimp only at hn ⊢
            refine hv.trans (hn.trans ?_)
            split
            · next u hu =>
              rw [hu] at he
              exact he.trans (ih (call + 1) u)
            · next y u _ hu =>
              rw [hu] at he
              exact he

theorem holdAll (es : List EntryId) (s : Store α) : Run (made c) s (s.holdAll es) := by
  induction es generalizing s with
  | nil => exact .refl
  | cons e es ih =>
    have h : Run (made c) s (s.hold e) := one (.hold e) trivial trivial
    exact h.trans (ih (s.hold e))

theorem drain (direct : Bool) (p : PoolId) (c : CallerId) (fuel : Nat) (s : Store α) :
    Run (made c) s (Store.drain direct p c fuel s).2 := by
  induction fuel generalizing s with
  | zero => exact .refl
  | succ fuel ih =>
    have ha : Run (made c) s (s.trackedAcquire direct p c).2 := one (.acquire direct p c) trivial rfl
    unfold Store.drain
    split
    · next t ht =>
      rw [ht] at ha
      exact ha
    · next e t ht =>
      rw [ht] at ha
      exact ha.trans (ih t)

end Run

end ResourcePool
