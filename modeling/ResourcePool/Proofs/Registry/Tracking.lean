import ResourcePool.Proofs.Registry.Paths

/-! Tracked calls and guards as sequences of effects. Detectors are told of what happens but have no part
in it. -/
namespace ResourcePool
open Registry

variable {α : Type} {may : PoolId → EntryId → Prop}

namespace Store

@[simp] theorem registry_observeAcquire (s : Store α) (p : PoolId) (e : EntryId) :
    (s.observeAcquire p e).registry = s.registry := by
  unfold observeAcquire
  split
  · rfl
  · split
    · exact registry_setTracker _ _ _
    · rw [registry_note _ rfl rfl, registry_setTracker]

@[simp] theorem registry_observeRelease (s : Store α) (p : PoolId) (e : EntryId) :
    (s.observeRelease p e).registry = s.registry := by
  unfold observeRelease
  split
  · rfl
  · split
    · exact registry_setTracker _ _ _
    · rw [registry_note _ rfl rfl, registry_setTracker]

@[simp] theorem registry_observeRemoval (s : Store α) (p : PoolId) (e : EntryId) :
    (s.observeRemoval p e).registry = s.registry := by
  unfold observeRemoval
  split
  · rfl
  · split
    · exact registry_setTracker _ _ _
    · rw [registry_note _ rfl rfl, registry_setTracker]

theorem trackedAcquire_fst (s : Store α) (direct : Bool) (p : PoolId) (c : CallerId) :
    (s.trackedAcquire direct p c).1 = (s.acquire p c).1 := by
  unfold trackedAcquire
  split
  · next h => rw [h]
  · next h => rw [h]

theorem registry_trackedAcquire (s : Store α) (direct : Bool) (p : PoolId) (c : CallerId) :
    (s.trackedAcquire direct p c).2.registry = (s.acquire p c).2.registry := by
  unfold trackedAcquire
  split
  · next h =>
    rw [h]
    cases direct with
    | true => rfl
    | false => exact registry_observeAcquire _ p _
  · next h => rw [h]

theorem trackedAcquire_path (s : Store α) (direct : Bool) (p : PoolId) (c : CallerId) :
    Path may s.registry (s.trackedAcquire direct p c).2.registry := by
  have ha : Path may s.registry (s.acquire p c).2.registry := acquire_path s p c
  unfold trackedAcquire
  split
  · next e t ht =>
    rw [ht] at ha
    cases direct with
    | true => exact ha
    | false =>
      change Path may s.registry (t.observeAcquire p e).registry
      rw [registry_observeAcquire]
      exact ha
  · next t ht =>
    rw [ht] at ha
    exact ha

theorem trackedRelease_path (s : Store α) (direct : Bool) (p : PoolId) (c : CallerId)
    (e : EntryId) : Path may s.registry (s.trackedRelease direct p c e).2.registry := by
  cases direct with
  | true => exact release_path s p c e
  | false =>
    have hr : Path may (s.observeRelease p e).registry
        ((s.observeRelease p e).release p c e).2.registry := release_path _ p c e
    rw [registry_observeRelease] at hr
    exact hr

theorem trackedRemove_path (s : Store α) (direct : Bool) (p : PoolId) (e : EntryId)
    (hmay : (s.roster p).closed = false → s.state e ≠ .closed → may p e) :
    Path may s.registry (s.trackedRemove direct p e).2.registry := by
  cases direct with
  | true => exact remove_path s p e hmay
  | false =>
    have hs := registry_observeRemoval s p e
    have hr : Path may (s.observeRemoval p e).registry
        ((s.observeRemoval p e).remove p e).2.registry := by
      refine remove_path _ p e fun hp hx => ?_
      have hp' : ((s.observeRemoval p e).registry.roster p).closed = false := hp
      have hx' : ((s.observeRemoval p e).registry.entry e).state ≠ .closed := hx
      rw [hs] at hp' hx'
      exact hmay hp' hx'
    rw [hs] at hr
    exact hr

theorem giveBack_path (s : Store α) (c : CallerId) (g : Guard) :
    Path may s.registry (s.giveBack c g).registry := by
  have hr : Path may s.registry (s.trackedRelease g.direct g.pool c g.entry).2.registry :=
    trackedRelease_path s g.direct g.pool c g.entry
  unfold giveBack
  split
  · next t ht =>
    rw [ht] at hr
    exact hr
  · next t ht =>
    rw [ht] at hr
    rw [registry_note _ rfl rfl]
    exact hr

theorem putGuard_path (s : Store α) (c : CallerId) (name : String) (g : Guard) :
    Path may s.registry (s.putGuard c name g).registry := by
  unfold putGuard
  dsimp only
  split
  · next old _ =>
    let u : Store α := { s.endGuard name with guards := (name, g) :: (s.endGuard name).guards }
    have hu : Path may u.registry (u.giveBack c old).registry := giveBack_path u c old
    exact hu
  · exact .refl

theorem lease_path (s : Store α) (direct : Bool) (p : PoolId) (c : CallerId) (name : String) :
    Path may s.registry (s.lease direct p c name).2.registry := by
  have ha : Path may s.registry (s.trackedAcquire direct p c).2.registry :=
    trackedAcquire_path s direct p c
  unfold lease
  split
  · next e t ht =>
    rw [ht] at ha
    exact ha.trans (putGuard_path t c name _)
  · next t ht =>
    rw [ht] at ha
    exact ha

theorem registry_hold (s : Store α) (e : EntryId) : (s.hold e).registry = s.registry := by
  unfold hold
  split <;> rfl

theorem registry_checkLeaks (s : Store α) (p : PoolId) (t : Tracker) :
    (s.checkLeaks p t).2.registry = s.registry := by
  have hf : ∀ (leaks : List Leak) (u : Store α),
      (leaks.foldl (fun s leak => s.note (.leaked p leak)) u).registry = u.registry := by
    intro leaks
    induction leaks with
    | nil => intro u; rfl
    | cons leak leaks ih =>
      intro u
      rw [List.foldl_cons, ih, registry_note _ rfl rfl]
  unfold checkLeaks
  dsimp only
  rw [hf, registry_setTracker]

end Store

end ResourcePool
