import ResourcePool.Proofs.Outstanding
import ResourcePool.Proofs.Tracker

/-! Audits: the tracker of a pool within its fence follows the entries of the pool that are outstanding, through
calls on this pool and on all others. -/
namespace ResourcePool
open Registry

variable {α : Type}

/-- The tracker of a pool, once there is one, follows what is outstanding. Entries in `lost` count as such
though they are closed, and those in `seen` were reported. -/
structure Store.Audited (s : Store α) (p : PoolId) (maxAge : Nat) (lost seen : EntryId → Prop) : Prop where
  fenced : s.Fenced p
  gone : ∀ e, lost e → s.Gone e
  follows : p < s.pools.size → s.Follows p maxAge (s.Outstanding p lost) seen

namespace Store

variable {s t u : Store α} {p q : PoolId} {e : EntryId} {maxAge : Nat} {lost seen : EntryId → Prop}
  {direct : Bool}

/-- The guard of a name is over an entry, for a pool. -/
def Guards (s : Store α) (name : String) (p : PoolId) (e : EntryId) : Prop :=
  ∃ g, s.guard? name = some g ∧ g.pool = p ∧ g.entry = e

/-- A pass through the tracker now finds that an entry leaked. -/
def Finds (s : Store α) (p : PoolId) (e : EntryId) : Prop :=
  ∃ t, (s.pool p).tracker? = some t ∧ ∃ leak ∈ (t.detector.sweep s.now).1, leak.resource? = some e

theorem Gone.apply (h : s.Gone e) (d : Call α) : (d.apply s).Gone e :=
  (d.gone_apply_iff s e).mpr (.inl h)

/-- What a call closes was reserved before. -/
theorem gone_of_closes {d : Call α} (ha : s.state e = .active) (hc : (d.apply s).state e = .closed) :
    (d.apply s).Gone e := by
  have hopen : s.state e ≠ .closed := by simp [ha]
  exact (d.gone_apply_iff s e).mpr (.inr ⟨hopen, hc⟩)

theorem Gone.not_grants (h : s.Gone e) (r : Entry.Request α) : ¬ (s.entry e).Grants r :=
  Entry.not_grants_of_closed h.2 r

namespace Audited

theorem congr {lost' seen' : EntryId → Prop} (h : s.Audited p maxAge lost seen)
    (hl : ∀ i, lost' i ↔ lost i) (hs : ∀ i, seen' i ↔ seen i) : s.Audited p maxAge lost' seen' where
  fenced := h.fenced
  gone i hi := h.gone i ((hl i).mp hi)
  follows hp := (h.follows hp).congr (fun _ => outstanding_congr rfl fun i _ => hl i) fun i _ => hs i

/-- The same entries and lists, and the same tracker. -/
theorem same (h : s.Audited p maxAge lost seen) (hr : t.registry = s.registry) (hf : t.Fenced p)
    (hsize : t.pools.size = s.pools.size)
    (ht : p < s.pools.size → (t.pool p).tracker? = (s.pool p).tracker?) : t.Audited p maxAge lost seen where
  fenced := hf
  gone i hi := (h.gone i hi).of_registry hr
  follows hp := by
    have hp' : p < s.pools.size := hsize ▸ hp
    exact ((h.follows hp').of_tracker (ht hp')).congr
      (fun _ => outstanding_congr hr fun _ _ => Iff.rfl) fun _ _ => Iff.rfl

theorem alike (h : s.Audited p maxAge lost seen) (same : s.Alike t)
    (ht : (t.pool p).tracker? = (s.pool p).tracker?) : t.Audited p maxAge lost seen :=
  h.same same.registry (h.fenced.alike same) same.known fun _ => ht

/-- A call that hands out and takes back no entry of the pool. What it closes is lost. -/
theorem call (h : s.Audited p maxAge lost seen) (d : Call α) (hw : d.Within s p)
    (hmade : p < (d.apply s).pools.size → p < s.pools.size)
    (hret : ∀ i ∈ s.reservations p, ¬ d.Returns i)
    (hout : ∀ i ∈ s.reservations p, ∀ r, d.granted? s = some (i, r) → r.target ≠ .active)
    {lost' : EntryId → Prop} (hg : ∀ i, lost' i → (d.apply s).Gone i)
    (hl : ∀ i ∈ (d.apply s).reservations p,
      lost' i ↔ lost i ∨ (s.state i = .active ∧ (d.apply s).state i = .closed)) :
    (d.apply s).Audited p maxAge lost' seen where
  fenced := h.fenced.apply d hw
  gone := hg
  follows hp := by
    have hsame := (h.follows (hmade hp)).of_tracker (d.tracker?_apply (hmade hp))
    refine hsame.congr (fun i => ?_) fun _ _ => Iff.rfl
    exact (outstanding_congr rfl hl).trans (outstanding_apply_iff hret hout h.gone)

/-- A call that hands out, takes back and closes no entry of the pool. -/
theorem idle (h : s.Audited p maxAge lost seen) (d : Call α) (hw : d.Within s p)
    (hmade : p < (d.apply s).pools.size → p < s.pools.size)
    (hret : ∀ i ∈ s.reservations p, ¬ d.Returns i)
    (hout : ∀ i ∈ s.reservations p, ∀ r, d.granted? s = some (i, r) → r.target ≠ .active)
    (hremove : ∀ q e, d ≠ .remove q e) (hclose : ∀ q, d ≠ .close q) :
    (d.apply s).Audited p maxAge lost seen := by
  refine h.call d hw hmade hret hout (fun i hi => (h.gone i hi).apply d) fun i _ => ?_
  have hnone : ¬ (s.state i = .active ∧ (d.apply s).state i = .closed) := by
    rintro ⟨ha, hc⟩
    have hcloses : d.Closes s i := ⟨by simp [ha], hc⟩
    obtain ⟨q, heq, -⟩ | ⟨q, heq, -⟩ := hcloses.cases
    · exact hremove q i heq
    · exact hclose q heq
  exact (or_iff_left hnone).symm

/-- A new pool, if it is the one in question, comes with a tracker that tracks nothing yet. -/
theorem create (h : s.Audited p maxAge lost seen) (name : String) (settings : Settings α)
    {detector? : Option Detector} (hd : s.pools.size = p → detector? = some (.expiry maxAge [])) :
    (s.create name settings detector?).2.Audited p maxAge lost seen := by
  have hw : (Call.create name settings detector?).Within s p := trivial
  by_cases hp : s.pools.size = p
  · refine ⟨h.fenced.apply _ hw, fun i hi => (h.gone i hi).apply (.create name settings detector?), fun _ => ?_⟩
    have hpool : ((s.create name settings detector?).2.pool p).tracker? =
        some { detector := .expiry maxAge [] } := by
      rw [s.pool_create, if_pos hp.symm, hd hp]
      rfl
    refine ⟨_, hpool, .new maxAge fun e he => ?_⟩
    have hlt : p < s.pools.size := h.fenced.known p e he.1
    exact hlt.ne' hp
  · refine h.idle _ hw (fun hlt => ?_) (fun _ _ => id) (by simp [Call.granted?]) (by simp) (by simp)
    have hsize : (s.create name settings detector?).2.pools.size = s.pools.size + 1 := Array.size_push _
    have hle : p ≤ s.pools.size := Nat.le_of_lt_succ (Nat.lt_of_lt_of_eq hlt hsize)
    exact Nat.lt_of_le_of_ne hle (Ne.symm hp)

theorem reserve (h : s.Audited p maxAge lost seen) (q : PoolId) :
    (s.reserve q).2.Audited p maxAge lost seen :=
  h.idle (.reserve q) trivial (fun hp => s.size_reserve q ▸ hp) (fun _ _ => id)
    (by simp [Call.granted?]) (by simp) (by simp)

theorem enable (h : s.Audited p maxAge lost seen) (e : EntryId) (v : α) {atOnce : Bool}
    (hd : e ∈ s.reservations p → atOnce = false) : (s.enable e v atOnce).2.Audited p maxAge lost seen := by
  refine h.idle (.enable e v atOnce) trivial (fun hp => s.size_enable e v atOnce ▸ hp) (fun _ _ => id)
    (fun i hi r hr => ?_) (by simp) (by simp)
  obtain ⟨-, hpair⟩ := Option.ite_none_right_eq_some.mp hr
  obtain ⟨rfl, rfl⟩ := Prod.mk.inj (Option.some.inj hpair)
  simp [Entry.Request.target, hd hi]

/-- What is in use when its pool closes is lost. -/
theorem close (h : s.Audited p maxAge lost seen) (q : PoolId) :
    (s.close q).2.Audited p maxAge
      (fun i => lost i ∨ (q = p ∧ s.state i = .active ∧ (s.close q).2.state i = .closed)) seen := by
  refine h.call (.close q) trivial (fun hp => s.size_close q ▸ hp) (fun _ _ => id)
    (by simp [Call.granted?]) ?_ fun i hi => ?_
  · rintro i (hi | ⟨-, ha, hc⟩)
    · exact (h.gone i hi).apply _
    · exact gone_of_closes ha hc
  · refine or_congr_right ⟨And.right, fun hx => ⟨?_, hx⟩⟩
    have hcloses : (Call.close q).Closes s i := ⟨by simp [hx.1], hx.2⟩
    obtain ⟨q', heq, -⟩ | ⟨q', heq, hm⟩ := hcloses.cases
    · cases heq
    · cases heq
      have hq : i ∈ s.reservations q := (h.fenced.sound.listed q).subset hm
      have hp : i ∈ s.reservations p :=
        ((Call.close q).mem_reservations_apply (h.fenced.sound.bounded q i hq)).mp hi
      exact h.fenced.sound.disjoint q p i hq hp

/-- A call that hands out an entry, of which the tracker is told if it is one of the pool. -/
theorem handOut (h : s.Audited p maxAge lost seen) {d : Call α} {r : Entry.Request α} (hw : d.Within s p)
    (hsize : (d.apply s).pools.size = s.pools.size) (hg : (s.entry e).Grants r) (ha : r.target = .active)
    (hr : (d.apply s).registry = s.registry.grant e r) (hown : e ∈ s.reservations p ↔ q = p)
    (hd : q = p → direct = false) :
    (if direct then d.apply s else (d.apply s).observeAcquire q e).Audited p maxAge lost
      (fun i => seen i ∧ ¬ (q = p ∧ i = e)) := by
  let t := if direct then d.apply s else (d.apply s).observeAcquire q e
  have halike : (d.apply s).Alike t := by
    dsimp only [t]
    split_ifs
    · exact .refl _
    · exact alike_observeAcquire _ q e
  have hreg : t.registry = s.registry.grant e r := halike.registry.trans hr
  refine ⟨(h.fenced.apply d hw).alike halike, fun i hi => ?_, fun hp => ?_⟩
  · exact ((h.gone i hi).apply d).of_registry halike.registry
  have hp' : p < s.pools.size := hsize ▸ halike.known ▸ hp
  have hbefore := (h.follows hp').of_tracker (d.tracker?_apply hp')
  have hafter : ∀ i, t.Outstanding p lost i ↔ s.Outstanding p lost i ∨ (e ∈ s.reservations p ∧ i = e) :=
    fun i => outstanding_handOut_iff hg ha hreg
  by_cases hq : q = p
  · have hne : ¬ s.Outstanding p lost e :=
      not_outstanding_of_grants hg ha fun hl => (h.gone e hl).not_grants r hg
    have ht : t = (d.apply s).observeAcquire p e := by
      dsimp only [t]
      rw [hd hq, hq]
      rfl
    change t.Follows p maxAge (t.Outstanding p lost) _
    rw [ht] at hafter ⊢
    refine (hbefore.observeAcquire hne).congr (fun i => ?_) fun i _ => ?_
    · rw [hafter i]
      exact or_congr_right (and_iff_right (hown.mpr hq))
    · exact and_congr_right fun _ => not_congr (and_iff_right hq)
  · have ht : t.pool p = (d.apply s).pool p := by
      dsimp only [t]
      split_ifs
      · rfl
      · exact (frame_observeAcquire _ q e).other p (Ne.symm hq)
    refine (hbefore.of_tracker (congrArg Pool.tracker? ht)).congr (fun i => ?_) fun i _ => ?_
    · exact (hafter i).trans (or_iff_left fun hi => hq (hown.mp hi.1))
    · exact and_iff_left fun hi => hq hi.1

theorem acquire (h : s.Audited p maxAge lost seen) (hd : q = p → direct = false) (c : CallerId) :
    (s.trackedAcquire direct q c).2.Audited p maxAge lost
      (fun i => seen i ∧ ¬ (q = p ∧ (s.trackedAcquire direct q c).1 = some i)) := by
  have hsize := s.size_acquire q c
  cases ha : s.acquire q c with
  | mk found t =>
    have ht : (Call.acquire q c).apply s = t := congrArg Prod.snd ha
    cases found with
    | none =>
      have hs : s.trackedAcquire direct q c = (none, t) := by
        unfold trackedAcquire
        rw [ha]
      have hnone : (s.acquire q c).1 = none := congrArg Prod.fst ha
      have hsame : ((Call.acquire q c).apply s).Audited p maxAge lost seen :=
        h.same (acquire_of_none hnone) (h.fenced.apply _ trivial) hsize
          fun hp => (Call.acquire q c).tracker?_apply hp
      rw [hs]
      rw [ht] at hsame
      exact hsame.congr (fun _ => Iff.rfl) fun i => and_iff_left (by simp)
    | some e =>
      have hs : s.trackedAcquire direct q c = (some e, if direct then t else t.observeAcquire q e) := by
        unfold trackedAcquire
        rw [ha]
      have hsome : (s.acquire q c).1 = some e := congrArg Prod.fst ha
      obtain ⟨hg, hr⟩ := acquire_of_some hsome
      have hown := (h.fenced.respects_of_acquire hsome).2
      have hout := h.handOut (d := .acquire q c) trivial hsize hg rfl hr hown hd
      rw [hs]
      rw [ht] at hout
      refine hout.congr (fun _ => Iff.rfl) fun i => ?_
      exact and_congr_right fun _ => not_congr (and_congr_right fun _ => by simp [eq_comm])

/-- The removal that a creation which comes to nothing ends with. The tracker is not told of it. -/
theorem rollback (h : s.Audited p maxAge lost seen) (he : e ∈ s.reservations q) :
    (s.remove q e).2.Audited p maxAge
      (fun i => lost i ∨
        (q = p ∧ i = e ∧ s.state i = .active ∧ (s.remove q e).2.state i = .closed)) seen := by
  refine h.call (.remove q e) trivial (fun hp => s.size_remove q e ▸ hp) (fun _ _ => id) ?_ ?_ ?_
  · intro i _ r hr
    simp [Call.granted?] at hr
  · rintro i (hi | ⟨-, -, ha, hc⟩)
    · exact (h.gone i hi).apply _
    · exact gone_of_closes ha hc
  · intro i hi
    refine or_congr_right ⟨fun hx => hx.2.2, fun hx => ?_⟩
    have hopen : s.state i ≠ .closed := by simp [hx.1]
    have hcloses : (Call.remove q e).Closes s i := ⟨hopen, hx.2⟩
    have hie : i = e := by
      obtain ⟨q', heq, -⟩ | ⟨p', heq, -⟩ := hcloses.cases
      · exact (Call.remove.inj heq).2.symm
      · cases heq
    have hv : ((Call.remove q e).apply s).reservations = s.reservations :=
      Call.reservations_of_givesUp ⟨rfl, rfl⟩
    have hown : e ∈ s.reservations p := hie ▸ hv ▸ hi
    exact ⟨h.fenced.sound.disjoint q p e he hown, hie, hx⟩

theorem fulfil (h : s.Audited p maxAge lost seen) (he : e ∈ s.reservations q)
    (hd : q = p → direct = false) (c : CallerId) (v : α) :
    ((s.settle q c e (.value v)).2.observeResult direct q (s.settle q c e (.value v)).1).Audited p maxAge
      lost (fun i => seen i ∧ ¬ (q = p ∧ (s.settle q c e (.value v)).1 = .ok (some i))) := by
  by_cases hg : (s.entry e).Grants (.enable v true)
  · obtain ⟨ha, hr⟩ := settle_of_grants (p := q) (c := c) hg
    have hout := h.handOut (d := .fulfil q c e v) trivial (s.size_settle q c e _) hg rfl hr
      (h.fenced.respects_of_own he).2 hd
    rw [ha]
    refine hout.congr (fun _ => Iff.rfl) fun i => ?_
    exact and_congr_right fun _ => not_congr (and_congr_right fun _ => by simp [eq_comm])
  · obtain ⟨ha, hs⟩ := settle_of_not_grants (p := q) (c := c) hg
    have hsame : (s.settle q c e (.value v)).2.observeResult direct q (s.settle q c e (.value v)).1 = s := by
      unfold observeResult
      split
      · next i hi => exact absurd hi (ha i)
      · exact hs
    rw [hsame]
    exact h.congr (fun _ => Iff.rfl) fun i => and_iff_left fun hx => ha i hx.2

/-- The end of a creation. The tracker is told of what it hands out, and not of what it removes again. -/
theorem settle (h : s.Audited p maxAge lost seen) (he : e ∈ s.reservations q)
    (hd : q = p → direct = false) (c : CallerId) (creation : Creation α) :
    ((s.settle q c e creation).2.observeResult direct q (s.settle q c e creation).1).Audited p maxAge
      (fun i => lost i ∨ (creation.fails = true ∧ q = p ∧ i = e ∧ s.state i = .active ∧
        (s.settle q c e creation).2.state i = .closed))
      (fun i => seen i ∧ ¬ (q = p ∧ (s.settle q c e creation).1 = .ok (some i))) := by
  have hrollback := h.rollback he
  have hkept : ∀ i (b : Prop), lost i ∨ (false = true ∧ b) ↔ lost i := by simp
  have hlost : ∀ i (b : Prop), lost i ∨ (true = true ∧ b) ↔ lost i ∨ b := by simp
  cases creation with
  | value v =>
    have hv := h.fulfil he hd c v
    exact hv.congr (fun i => hkept i _) fun _ => Iff.rfl
  | nothing =>
    refine hrollback.congr (fun i => hlost i _) fun i => ?_
    exact and_iff_left fun hx => by simp [Store.settle] at hx
  | refused reason =>
    refine hrollback.congr (fun i => hlost i _) fun i => ?_
    exact and_iff_left fun hx => by simp [Store.settle] at hx
  | panicked =>
    refine h.congr (fun i => hkept i _) fun i => ?_
    exact and_iff_left fun hx => by simp [Store.settle] at hx

/-- A release or removal, of which the tracker is told first if it is made on the pool. -/
theorem giveUp (h : s.Audited p maxAge lost seen) {d : Call α} (hd : d.GivesUp q e) (hsame : s.Alike u)
    (hq : e ∈ s.reservations p ↔ q = p)
    (hown : q = p → s.Follows p maxAge (s.Outstanding p lost) seen →
      u.Follows p maxAge (fun i => s.Outstanding p lost i ∧ i ≠ e) seen)
    (hother : q ≠ p → u.pool p = s.pool p) :
    (d.apply u).Audited p maxAge (fun i => lost i ∧ ¬ (q = p ∧ i = e)) seen := by
  have hv : u.reservations = s.reservations := congrArg Registry.reservations hsame.registry
  have hw : d.Within u p := by
    cases d with
    | release q' c x =>
      obtain ⟨rfl, rfl⟩ := hd
      have hx : x ∈ u.reservations p ↔ q' = p := hv ▸ hq
      exact hx
    | _ => trivial
  have hsize : (d.apply u).pools.size = u.pools.size := by
    cases d with
    | release q' c x => exact u.size_release q' c x
    | remove q' x => exact u.size_remove q' x
    | _ => exact hd.elim
  have hfenced := h.fenced.alike hsame
  have hafter : ∀ i, (d.apply u).Outstanding p (fun i => lost i ∧ ¬ (q = p ∧ i = e)) i ↔
      s.Outstanding p lost i ∧ ¬ (q = p ∧ i = e) := by
    intro i
    rw [outstanding_giveUp_iff hfenced.sound hd (hv ▸ hq)]
    exact and_congr_left fun _ => outstanding_congr hsame.registry fun _ _ => Iff.rfl
  refine ⟨hfenced.apply d hw, fun i hi => ?_, fun hp => ?_⟩
  · exact ((h.gone i hi.1).of_registry hsame.registry).apply d
  have hp' : p < u.pools.size := hsize ▸ hp
  have hbefore := h.follows (hsame.known ▸ hp')
  by_cases hqp : q = p
  · refine ((hown hqp hbefore).of_tracker (d.tracker?_apply hp')).congr (fun i => ?_) fun _ _ => Iff.rfl
    exact (hafter i).trans (and_congr_right fun _ => not_congr (and_iff_right hqp))
  · have ht : ((d.apply u).pool p).tracker? = (s.pool p).tracker? :=
      (d.tracker?_apply hp').trans (congrArg Pool.tracker? (hother hqp))
    refine (hbefore.of_tracker ht).congr (fun i => ?_) fun _ _ => Iff.rfl
    exact (hafter i).trans (and_iff_left fun hx => hqp hx.1)

theorem release (h : s.Audited p maxAge lost seen) (hq : e ∈ s.reservations p ↔ q = p)
    (hd : q = p → direct = false) (c : CallerId) :
    (s.trackedRelease direct q c e).2.Audited p maxAge (fun i => lost i ∧ ¬ (q = p ∧ i = e)) seen := by
  have hg : (Call.release q c e : Call α).GivesUp q e := ⟨rfl, rfl⟩
  cases direct with
  | true =>
    have hne : q ≠ p := fun hqp => Bool.false_ne_true (hd hqp).symm
    exact h.giveUp hg (.refl s) hq (fun hqp => absurd hqp hne) fun _ => rfl
  | false =>
    refine h.giveUp hg (s.alike_observeRelease q e) hq ?_ ?_
    · rintro rfl hf
      exact hf.observeRelease e
    · exact fun hqp => (s.frame_observeRelease q e).other p (Ne.symm hqp)

theorem remove (h : s.Audited p maxAge lost seen) (hq : e ∈ s.reservations p ↔ q = p)
    (hd : q = p → direct = false) :
    (s.trackedRemove direct q e).2.Audited p maxAge (fun i => lost i ∧ ¬ (q = p ∧ i = e)) seen := by
  have hg : (Call.remove q e : Call α).GivesUp q e := ⟨rfl, rfl⟩
  cases direct with
  | true =>
    have hne : q ≠ p := fun hqp => Bool.false_ne_true (hd hqp).symm
    exact h.giveUp hg (.refl s) hq (fun hqp => absurd hqp hne) fun _ => rfl
  | false =>
    refine h.giveUp hg (s.alike_observeRemoval q e) hq ?_ ?_
    · rintro rfl hf
      exact hf.observeRemoval e
    · exact fun hqp => (s.frame_observeRemoval q e).other p (Ne.symm hqp)

theorem giveBack {g : Guard} (h : s.Audited p maxAge lost seen) (hg : s.Respects p g.pool g.entry)
    (hd : g.pool = p → g.direct = false) (c : CallerId) :
    (s.giveBack c g).Audited p maxAge (fun i => lost i ∧ ¬ (g.pool = p ∧ i = g.entry)) seen := by
  have hr := h.release hg.2 hd c
  unfold Store.giveBack
  split
  · next t ht =>
    rw [ht] at hr
    exact hr
  · next f t ht =>
    rw [ht] at hr
    exact hr.alike (alike_note t rfl rfl rfl rfl) rfl

/-- A guard that is stored ends the one of its name. -/
theorem putGuard (h : s.Audited p maxAge lost seen) (hw : s.Warded p) (c : CallerId) (name : String)
    (g : Guard) : (s.putGuard c name g).Audited p maxAge (fun i => lost i ∧ ¬ s.Guards name p i) seen := by
  let v : Store α := { s.endGuard name with guards := (name, g) :: (s.endGuard name).guards }
  have hv : v.Audited p maxAge lost seen := h.alike (.of_eq rfl rfl rfl) rfl
  unfold Store.putGuard
  dsimp only
  cases hold : s.guard? name with
  | none =>
    have hl : ∀ i, ¬ s.Guards name p i := by simp [Guards, hold]
    exact hv.congr (fun i => and_iff_left (hl i)) fun _ => Iff.rfl
  | some old =>
    obtain ⟨hr, hd⟩ := hw _ (mem_guards_of_guard? hold)
    have hback := hv.giveBack (hr.of_registry (t := v) rfl) hd c
    have hl : ∀ i, s.Guards name p i ↔ old.pool = p ∧ i = old.entry := by
      simp [Guards, hold, eq_comm]
    exact hback.congr (fun i => and_congr_right fun _ => not_congr (hl i)) fun _ => Iff.rfl

/-- A pass through the tracker adds what it found to what was reported. -/
theorem pass (h : s.Audited p maxAge lost seen) {x : Tracker} (hx : (s.pool q).tracker? = some x)
    (hsame : s.Alike t) (hother : q ≠ p → t.pool p = s.pool p)
    (hown : ∃ y, (q < s.pools.size → (t.pool q).tracker? = some y) ∧
      y.detector = (x.detector.sweep s.now).2 ∧ y.acquires = x.acquires) :
    t.Audited p maxAge lost (fun i => (q = p ∧ s.Finds p i) ∨ seen i) := by
  refine ⟨h.fenced.alike hsame, fun i hi => (h.gone i hi).of_registry hsame.registry, fun hp => ?_⟩
  have hp' : p < s.pools.size := hsame.known ▸ hp
  by_cases hq : q = p
  · subst hq
    obtain ⟨x', hx', hf⟩ := h.follows hp'
    obtain rfl : x = x' := Option.some.inj (hx.symm.trans hx')
    obtain ⟨y, hy, hd, ha⟩ := hown
    refine ⟨y, hy hp', (hf.swept s.now hd ha).congr ?_ fun i _ => ?_⟩
    · exact fun i => outstanding_congr hsame.registry fun _ _ => Iff.rfl
    · simp [Finds, hx]
  · have hsame' : t.Audited p maxAge lost seen := h.alike hsame (congrArg Pool.tracker? (hother hq))
    exact (hsame'.follows hp).congr (fun _ => Iff.rfl) fun i _ => or_iff_right fun hi => hq hi.1

/-- Nothing is found in a pool without a tracker. -/
theorem untracked (h : s.Audited p maxAge lost seen) (hx : (s.pool q).tracker? = none) :
    s.Audited p maxAge lost (fun i => (q = p ∧ s.Finds p i) ∨ seen i) := by
  refine h.congr (fun _ => Iff.rfl) fun i => or_iff_right ?_
  rintro ⟨rfl, x, hx', -⟩
  exact Option.some_ne_none x (hx'.symm.trans hx)

theorem sweep (h : s.Audited p maxAge lost seen) (q : PoolId) :
    (Move.apply s (.sweep q)).Audited p maxAge lost (fun i => (q = p ∧ s.Finds p i) ∨ seen i) := by
  have halike := Move.alike_of_inert s (.sweep q) rfl
  unfold Move.apply at halike ⊢
  dsimp only at halike ⊢
  cases hx : (s.pool q).tracker? with
  | none => exact h.untracked hx
  | some x =>
    rw [hx] at halike
    refine h.pass hx halike (fun hq => (s.frame_setTracker q _).other p (Ne.symm hq)) ?_
    exact ⟨_, fun hq => tracker?_setTracker hq _, rfl, rfl⟩

theorem checkLeaks (h : s.Audited p maxAge lost seen) (q : PoolId) :
    (Move.apply s (.checkLeaks q)).Audited p maxAge lost (fun i => (q = p ∧ s.Finds p i) ∨ seen i) := by
  have halike := Move.alike_of_inert s (.checkLeaks q) rfl
  unfold Move.apply at halike ⊢
  dsimp only at halike ⊢
  cases hx : (s.pool q).tracker? with
  | none => exact h.untracked hx
  | some x =>
    rw [hx] at halike
    refine h.pass hx halike (fun hq => (s.frame_checkLeaks q x).other p (Ne.symm hq)) ?_
    exact ⟨_, fun hq => tracker?_checkLeaks hq x, rfl, rfl⟩

theorem clearTracking (h : s.Audited p maxAge lost seen) (q : PoolId) :
    (Move.apply s (.clearTracking q)).Audited p maxAge lost seen := by
  have halike := Move.alike_of_inert s (.clearTracking q) rfl
  unfold Move.apply at halike ⊢
  dsimp only at halike ⊢
  cases hx : (s.pool q).tracker? with
  | none => exact h
  | some x =>
    rw [hx] at halike
    by_cases hq : q = p
    · subst hq
      refine ⟨h.fenced.alike halike, fun i hi => (h.gone i hi).of_registry halike.registry, fun hp => ?_⟩
      have hp' : q < s.pools.size := halike.known ▸ hp
      obtain ⟨x', hx', hf⟩ := h.follows hp'
      obtain rfl : x = x' := Option.some.inj (hx.symm.trans hx')
      exact ⟨_, tracker?_setTracker hp' _, hf.clear.congr
        (fun i => outstanding_congr halike.registry fun _ _ => Iff.rfl) fun _ _ => Iff.rfl⟩
    · exact h.alike halike (congrArg Pool.tracker? ((s.frame_setTracker q _).other p (Ne.symm hq)))

end Audited

end Store

end ResourcePool
