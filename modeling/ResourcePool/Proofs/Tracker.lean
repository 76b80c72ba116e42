import ResourcePool.Proofs.Detector
import ResourcePool.Proofs.History.Change
import ResourcePool.Proofs.Run.Calls

/-! Trackers: a tracker by age knows what it was told was acquired and not returned since, and reports each
of these once. Only tracked calls tell it anything. -/
namespace ResourcePool

namespace Detector

/-- What a detector by age tracks, in the order of acquisition. -/
def holdings : Detector → List (Nat × Holding)
  | expiry _ held => held
  | fixed .. => []

/-- The resources tracked. -/
def resources (d : Detector) : List Nat :=
  d.holdings.map (·.1)

end Detector

namespace Tracker

/-- A tracker by age that tracks the resources in `out`, of which it reported those in `seen`, and that was
never told of an acquisition of what it tracked already. -/
structure Follows (t : Tracker) (maxAge : Nat) (out seen : Nat → Prop) : Prop where
  aged : t.detector = .expiry maxAge t.detector.holdings
  apart : t.detector.resources.Nodup
  tracked : ∀ r, r ∈ t.detector.resources ↔ out r
  reported : ∀ x ∈ t.detector.holdings, x.2.reported = true ↔ seen x.1
  taken : t.acquires = 0

namespace Follows

variable {t u : Tracker} {maxAge now r : Nat} {out seen : Nat → Prop}

theorem congr {out' seen' : Nat → Prop} (h : t.Follows maxAge out seen) (ho : ∀ r, out' r ↔ out r)
    (hs : ∀ r, out r → (seen' r ↔ seen r)) : t.Follows maxAge out' seen' where
  aged := h.aged
  apart := h.apart
  tracked r := (h.tracked r).trans (ho r).symm
  reported x hx := (h.reported x hx).trans (hs x.1 ((h.tracked x.1).mp (List.mem_map_of_mem hx))).symm
  taken := h.taken

/-- What a detector tracks settles what follows from it. -/
theorem of_holdings {held : List (Nat × Holding)} (hd : t.detector = .expiry maxAge held)
    (apart : (held.map (·.1)).Nodup) (tracked : ∀ r, r ∈ held.map (·.1) ↔ out r)
    (reported : ∀ x ∈ held, x.2.reported = true ↔ seen x.1) (taken : t.acquires = 0) :
    t.Follows maxAge out seen := by
  have hh : t.detector.holdings = held := congrArg Detector.holdings hd
  have hr : t.detector.resources = held.map (·.1) := congrArg (List.map Prod.fst) hh
  exact ⟨hh.symm ▸ hd, hr ▸ apart, hr ▸ tracked, hh ▸ reported, taken⟩

theorem exists_holdings (h : t.Follows maxAge out seen) : ∃ held, t.detector = .expiry maxAge held ∧
    (held.map (·.1)).Nodup ∧ (∀ r, r ∈ held.map (·.1) ↔ out r) ∧
    ∀ x ∈ held, x.2.reported = true ↔ seen x.1 :=
  ⟨_, h.aged, h.apart, h.tracked, h.reported⟩

/-- A new tracker tracks nothing. -/
theorem new (maxAge : Nat) (hout : ∀ r, ¬ out r) :
    ({ detector := .expiry maxAge [] } : Tracker).Follows maxAge out seen :=
  .of_holdings rfl List.nodup_nil (fun r => iff_of_false List.not_mem_nil (hout r))
    (fun _ hx => absurd hx List.not_mem_nil) rfl

/-- Only refused calls are ever cleared. -/
theorem clear (h : t.Follows maxAge out seen) : t.clear.Follows maxAge out seen :=
  ⟨h.aged, h.apart, h.tracked, h.reported, rfl⟩

/-- An acquisition of what is not tracked is taken. -/
theorem acquired (h : t.Follows maxAge out seen) (hr : ¬ out r) (now : Nat) (description : String) :
    ∃ d, t.detector.acquired now r description = (true, d) ∧
      ({ t with detector := d } : Tracker).Follows maxAge (fun i => out i ∨ i = r)
        (fun i => seen i ∧ i ≠ r) := by
  obtain ⟨held, aged, apart, tracked, reported⟩ := h.exists_holdings
  have hnew : r ∉ held.map (·.1) := mt (tracked r).mp hr
  refine ⟨.expiry maxAge (held ++ [(r, { since := now, description })]), ?_,
    .of_holdings rfl (Detector.nodup_concat apart hnew _) ?_ ?_ h.taken⟩
  · rw [aged, Detector.acquired_of_not_mem hnew]
  · intro i
    rw [List.map_append, List.mem_append, tracked i]
    exact or_congr_right List.mem_singleton
  · intro x hx
    rcases List.mem_append.mp hx with hx | hx
    · have hne : x.1 ≠ r := fun hxr => hnew (hxr ▸ List.mem_map_of_mem hx)
      exact (reported x hx).trans (and_iff_left hne).symm
    · rw [List.mem_singleton.mp hx]
      exact iff_of_false Bool.false_ne_true fun h => h.2 rfl

/-- What is returned is not tracked any more. -/
theorem released (h : t.Follows maxAge out seen) (r : Nat)
    (hd : u.detector = (t.detector.released r).2) (ha : u.acquires = t.acquires) :
    u.Follows maxAge (fun i => out i ∧ i ≠ r) seen := by
  obtain ⟨held, aged, apart, tracked, reported⟩ := h.exists_holdings
  rw [aged] at hd
  refine .of_holdings hd ?_ ?_ ?_ (ha.trans h.taken)
  · rw [Detector.map_fst_filter]
    exact apart.filter _
  · intro i
    rw [Detector.map_fst_filter, List.mem_filter, tracked i, bne_iff_ne]
  · exact fun x hx => reported x (List.mem_of_mem_filter hx)

/-- A pass reports what was due and not reported before. -/
theorem swept (h : t.Follows maxAge out seen) (now : Nat) (hd : u.detector = (t.detector.sweep now).2)
    (ha : u.acquires = t.acquires) : u.Follows maxAge out fun i =>
      (∃ leak ∈ (t.detector.sweep now).1, leak.resource? = some i) ∨ seen i := by
  obtain ⟨held, aged, apart, tracked, reported⟩ := h.exists_holdings
  rw [aged] at hd ⊢
  have hkeys : ((Detector.expiry maxAge held).sweep now).2.holdings.map (·.1) = held.map (·.1) := by
    simp only [Detector.sweep, Detector.holdings, List.map_map]
    rfl
  refine .of_holdings hd (hkeys ▸ apart) (hkeys ▸ tracked) ?_ (ha.trans h.taken)
  rintro ⟨i, k⟩ hk
  obtain ⟨⟨i', k'⟩, hmem, hpair⟩ := List.mem_map.mp hk
  obtain ⟨rfl, rfl⟩ := Prod.mk.inj hpair
  have hold : k'.reported = true ↔ seen i' := reported (i', k') hmem
  rw [Detector.exists_mem_sweep_iff apart hmem, Bool.or_eq_true, hold, or_comm]

/-- Without an age to wait for, a pass finds all that was not reported. -/
theorem length_sweep (h : t.Follows 0 out seen) (now : Nat) : ∃ rs : List Nat, rs.Nodup ∧
    (∀ r, r ∈ rs ↔ out r ∧ ¬ seen r) ∧ (t.detector.sweep now).1.length = rs.length := by
  obtain ⟨held, aged, apart, tracked, reported⟩ := h.exists_holdings
  have hdue : ∀ k : Holding, Detector.isDue 0 now k = !k.reported := by
    intro k
    simp [Detector.isDue]
  let due := held.filter fun x => !x.2.reported
  have hsub : (due.map (·.1)).Sublist (held.map (·.1)) := List.filter_sublist.map _
  refine ⟨due.map (·.1), apart.sublist hsub, fun r => ?_, ?_⟩
  · rw [← tracked r]
    constructor
    · intro hr
      obtain ⟨x, hx, rfl⟩ := List.mem_map.mp hr
      obtain ⟨hx, hnew⟩ := List.mem_filter.mp hx
      refine ⟨List.mem_map_of_mem hx, fun hseen => ?_⟩
      simp [(reported x hx).mpr hseen] at hnew
    · rintro ⟨hr, hnew⟩
      obtain ⟨x, hx, rfl⟩ := List.mem_map.mp hr
      have hx' : x.2.reported = false := Bool.eq_false_iff.mpr (mt (reported x hx).mp hnew)
      exact List.mem_map_of_mem (List.mem_filter.mpr ⟨hx, by simp [hx']⟩)
  · rw [aged]
    simp [Detector.sweep, hdue, due]

end Follows

end Tracker

variable {α : Type}

namespace Store

variable {s t : Store α} {p q : PoolId} {e : EntryId} {maxAge : Nat} {out seen : EntryId → Prop}

/-- A pool with a tracker by age, which tracks the entries in `out` and reported those in `seen`. -/
def Follows (s : Store α) (p : PoolId) (maxAge : Nat) (out seen : EntryId → Prop) : Prop :=
  ∃ t, (s.pool p).tracker? = some t ∧ t.Follows maxAge out seen

theorem tracker?_setTracker (hp : p < s.pools.size) (x : Tracker) :
    ((s.setTracker p x).pool p).tracker? = some x :=
  congrArg Pool.tracker? (pool_modifyPool_self hp _)

namespace Follows

theorem lt_size (h : s.Follows p maxAge out seen) : p < s.pools.size := by
  obtain ⟨x, hx, -⟩ := h
  by_contra hp
  rw [s.pool_of_size_le (Nat.le_of_not_lt hp)] at hx
  exact absurd hx.symm (Option.some_ne_none x)

theorem of_tracker (h : s.Follows p maxAge out seen)
    (ht : (t.pool p).tracker? = (s.pool p).tracker?) : t.Follows p maxAge out seen := by
  obtain ⟨x, hx, hf⟩ := h
  exact ⟨x, ht.trans hx, hf⟩

theorem congr {out' seen' : EntryId → Prop} (h : s.Follows p maxAge out seen)
    (ho : ∀ e, out' e ↔ out e) (hs : ∀ e, out e → (seen' e ↔ seen e)) : s.Follows p maxAge out' seen' := by
  obtain ⟨x, hx, hf⟩ := h
  exact ⟨x, hx, hf.congr ho hs⟩

theorem observeAcquire (h : s.Follows p maxAge out seen) (he : ¬ out e) :
    (s.observeAcquire p e).Follows p maxAge (fun i => out i ∨ i = e) (fun i => seen i ∧ i ≠ e) := by
  have hp := h.lt_size
  obtain ⟨x, hx, hf⟩ := h
  obtain ⟨d, hd, hf⟩ := hf.acquired he s.now (describe e)
  unfold Store.observeAcquire
  simp only [hx, hd]
  exact ⟨_, tracker?_setTracker hp _, hf⟩

theorem observeRelease (h : s.Follows p maxAge out seen) (e : EntryId) :
    (s.observeRelease p e).Follows p maxAge (fun i => out i ∧ i ≠ e) seen := by
  have hp := h.lt_size
  obtain ⟨x, hx, hf⟩ := h
  unfold Store.observeRelease
  simp only [hx]
  split
  · next d hd => exact ⟨_, tracker?_setTracker hp _, hf.released e (congrArg Prod.snd hd).symm rfl⟩
  · next d hd => exact ⟨_, tracker?_setTracker hp _, hf.released e (congrArg Prod.snd hd).symm rfl⟩

theorem observeRemoval (h : s.Follows p maxAge out seen) (e : EntryId) :
    (s.observeRemoval p e).Follows p maxAge (fun i => out i ∧ i ≠ e) seen := by
  have hp := h.lt_size
  obtain ⟨x, hx, hf⟩ := h
  unfold Store.observeRemoval
  simp only [hx]
  split
  · next d hd => exact ⟨_, tracker?_setTracker hp _, hf.released e (congrArg Prod.snd hd).symm rfl⟩
  · next d hd => exact ⟨_, tracker?_setTracker hp _, hf.released e (congrArg Prod.snd hd).symm rfl⟩

end Follows

/-- The notes of a pass concern no pool. -/
theorem pools_checkLeaks (s : Store α) (p : PoolId) (x : Tracker) : (s.checkLeaks p x).2.pools =
    (s.setTracker p { x with
      detector := (x.detector.sweep s.now).2
      resources := x.resources + (x.detector.sweep s.now).1.length }).pools := by
  have hf : ∀ (leaks : List Leak) (u : Store α),
      (leaks.foldl (fun u leak => u.note (.leaked p leak)) u).pools = u.pools := by
    intro leaks
    induction leaks with
    | nil => exact fun _ => rfl
    | cons leak leaks ih => exact fun u => ih _
  exact hf _ _

theorem tracker?_checkLeaks (hp : p < s.pools.size) (x : Tracker) :
    ((s.checkLeaks p x).2.pool p).tracker? = some { x with
      detector := (x.detector.sweep s.now).2
      resources := x.resources + (x.detector.sweep s.now).1.length } := by
  rw [pool, pools_checkLeaks]
  exact tracker?_setTracker hp _

end Store

/-- No call on entries and pools tells a tracker anything. -/
theorem Call.tracker?_apply {s : Store α} {p : PoolId} (d : Call α) (hp : p < s.pools.size) :
    ((d.apply s).pool p).tracker? = (s.pool p).tracker? :=
  d.pool_keeps (fun x : Pool α => x.tracker?) (fun _ _ => rfl) (fun _ _ => rfl) (fun _ _ => rfl)
    (fun _ _ => rfl) (fun _ _ _ _ => rfl) fun _ _ _ _ => hp.ne

end ResourcePool
