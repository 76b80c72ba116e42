import ResourcePool.Program.Action

/-! Look-ups: an action asks for its pool, handle, guard or tracker first. Where two stores find the same, what
holds of the failures and of what comes after the look-ups holds of the actions. -/
namespace ResourcePool.Program.Action

variable (s t : Store String) {P : Answer × Store String → Answer × Store String → Prop}
  (hfailed : ∀ e, P (.failed e, s) (.failed e, t))

include hfailed

theorem related_onPool {name : String} (hfind : s.find? name = t.find? name)
    {f g : PoolId → Answer × Store String} (hfg : ∀ p, P (f p) (g p)) :
    P (onPool s name f) (onPool t name g) := by
  unfold onPool
  rw [hfind]
  cases t.find? name with
  | none => exact hfailed _
  | some p => exact hfg p

theorem related_onHeld {e : EntryId} (hheld : s.handles = t.handles)
    {f g : Entry String → Answer × Store String} (hfg : P (f (s.entry e)) (g (t.entry e))) :
    P (onHeld s e f) (onHeld t e g) := by
  unfold onHeld
  rw [hheld]
  split
  · exact hfg
  · exact hfailed _

theorem related_onGuard {name : String} (hguard : s.guard? name = t.guard? name)
    {f g : Guard → Answer × Store String} (hfg : ∀ x, s.guard? name = some x → P (f x) (g x)) :
    P (onGuard s name f) (onGuard t name g) := by
  unfold onGuard
  rw [← hguard]
  cases hx : s.guard? name with
  | none => exact hfailed _
  | some x => exact hfg x hx

/-- Trackers are found at the same pools. -/
theorem related_onTracked {name : String} (hfind : s.find? name = t.find? name)
    (hsome : ∀ p, (s.pool p).tracker?.isSome = (t.pool p).tracker?.isSome)
    {f g : PoolId → Tracker → Answer × Store String}
    (hfg : ∀ p x y, (s.pool p).tracker? = some x → (t.pool p).tracker? = some y → P (f p x) (g p y)) :
    P (onTracked s name f) (onTracked t name g) := by
  refine related_onPool s t hfailed hfind fun p => ?_
  have hp := hsome p
  cases hs : (s.pool p).tracker? with
  | none =>
    rw [hs] at hp
    rw [Option.isNone_iff_eq_none.mp (Option.isSome_eq_false_iff.mp hp.symm)]
    exact hfailed _
  | some x =>
    rw [hs] at hp
    obtain ⟨y, hy⟩ := Option.isSome_iff_exists.mp hp.symm
    rw [hy]
    exact hfg p x y hs hy

end ResourcePool.Program.Action
