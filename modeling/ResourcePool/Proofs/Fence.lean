import ResourcePool.Proofs.Hinting
import ResourcePool.Proofs.Values

/-! Fences: when the entries of a pool are used through it and its tracker only, and no others are, its hints
and guards stay within the fence too. -/
namespace ResourcePool
open Registry

variable {α : Type}

/-- Calls that use the entries of the pool `p` through `p` and its tracker only, and on `p` no others. The
pool is created beside a detector by age. -/
def through (p : PoolId) (maxAge : Nat) (s : Store α) : Move α → Prop
  | .create _ _ detector? => s.pools.size = p → detector? = some (.expiry maxAge [])
  | .enable e _ atOnce => e ∈ s.reservations p → atOnce = false
  | .acquire direct q _ => q = p → direct = false
  | .lease direct q _ _ => q = p → direct = false
  | .settle direct q _ _ _ => q = p → direct = false
  | .settleLease q .. => q ≠ p
  | .release direct q _ e => (e ∈ s.reservations p ↔ q = p) ∧ (q = p → direct = false)
  | .remove direct q e => (e ∈ s.reservations p ↔ q = p) ∧ (q = p → direct = false)
  | _ => True

instance (p : PoolId) (maxAge : Nat) (s : Store α) : (m : Move α) → Decidable (through p maxAge s m)
  | .create _ _ detector? =>
    inferInstanceAs (Decidable (s.pools.size = p → detector? = some (.expiry maxAge [])))
  | .enable e _ atOnce => inferInstanceAs (Decidable (e ∈ s.reservations p → atOnce = false))
  | .acquire direct q _ => inferInstanceAs (Decidable (q = p → direct = false))
  | .lease direct q _ _ => inferInstanceAs (Decidable (q = p → direct = false))
  | .settle direct q _ _ _ => inferInstanceAs (Decidable (q = p → direct = false))
  | .settleLease q .. => inferInstanceAs (Decidable (q ≠ p))
  | .release direct q _ e =>
    inferInstanceAs (Decidable ((e ∈ s.reservations p ↔ q = p) ∧ (q = p → direct = false)))
  | .remove direct q e =>
    inferInstanceAs (Decidable ((e ∈ s.reservations p ↔ q = p) ∧ (q = p → direct = false)))
  | .forget _ | .enter _ | .leave _ | .reserve _ | .close _ | .dropGuard .. | .removeGuarded _ | .detach _
  | .hold _ | .unhold _ | .unholdAll | .sweep _ | .checkLeaks _ | .clearTracking _ | .wait _
  | .readLog => isTrue trivial

/-- The use of an entry through the pool `q` crosses no fence around `p`. -/
def Store.Respects (s : Store α) (p q : PoolId) (e : EntryId) : Prop :=
  e < s.entries.size ∧ (e ∈ s.reservations p ↔ q = p)

/-- Whether a call, if it is a release, crosses no fence around `p`. -/
def Call.Within (s : Store α) (p : PoolId) : Call α → Prop
  | release q _ e => e ∈ s.reservations p ↔ q = p
  | _ => True

/-- Hints stay within the fence around a pool. -/
structure Store.Fenced (s : Store α) (p : PoolId) : Prop where
  sound : s.registry.Sound
  known : ∀ q, ∀ e ∈ s.reservations q, q < s.pools.size
  hinted : ∀ q c e, (c, e) ∈ (s.pool q).hints.slots → s.Respects p q e

/-- Guards stay within the fence around a pool, and do not pass its tracker. -/
def Store.Warded (s : Store α) (p : PoolId) : Prop :=
  ∀ x ∈ s.guards, s.Respects p x.2.pool x.2.entry ∧ (x.2.pool = p → x.2.direct = false)

/-- Which pool reserved an entry that exists is settled. -/
theorem Call.mem_reservations_apply {s : Store α} (c : Call α) {p : PoolId} {e : EntryId}
    (he : e < s.entries.size) : e ∈ (c.apply s).reservations p ↔ e ∈ s.reservations p := by
  have hc := c.change s
  change e ∈ (c.apply s).registry.reservations p ↔ e ∈ s.registry.reservations p
  generalize (c.apply s).registry = w at hc
  cases hc with
  | reserve q =>
    have hne : e ≠ s.registry.size := Nat.ne_of_lt he
    rw [Sound.mem_reserve]
    exact or_iff_left fun h => hne h.2
  | _ => exact Iff.rfl

namespace Store

variable {s t : Store α} {p q : PoolId} {e : EntryId} {calls : List (Called α)}

namespace Respects

theorem of_registry (h : s.Respects p q e) (hr : t.registry = s.registry) : t.Respects p q e := by
  have hv : e < s.registry.size ∧ (e ∈ s.registry.reservations p ↔ q = p) := h
  rw [← hr] at hv
  exact hv

theorem trace (h : s.Respects p q e) (ht : Trace s calls t) : t.Respects p q e :=
  ht.keeps (P := fun u => u.Respects p q e) (fun _ _ same hu => hu.of_registry same.registry)
    (fun u d _ hu => ⟨Nat.lt_of_lt_of_le hu.1 (d.extends u).size,
      (d.mem_reservations_apply hu.1).trans hu.2⟩) h

end Respects

namespace Fenced

theorem blank (draws : List Nat) (p : PoolId) : (Store.blank draws : Store α).Fenced p where
  sound := sound_blank draws
  known _ _ he := absurd he List.not_mem_nil
  hinted _ _ _ he := absurd he List.not_mem_nil

/-- The entries of a pool respect the fence on it. -/
theorem respects_of_own (hs : s.Fenced p) (he : e ∈ s.reservations q) : s.Respects p q e := by
  refine ⟨hs.sound.bounded q e he, fun hp => hs.sound.disjoint q p e he hp, ?_⟩
  rintro rfl
  exact he

/-- What is acquired respects the fence, also if it was hinted at. -/
theorem respects_of_acquire (hs : s.Fenced p) {c : CallerId} (h : (s.acquire q c).1 = some e) :
    s.Respects p q e := by
  rcases mem_or_hinted_of_acquire h with he | he
  · exact hs.respects_of_own ((hs.sound.listed q).subset he)
  · exact hs.hinted q c e he

theorem alike (hs : s.Fenced p) (h : s.Alike t) : t.Fenced p where
  sound := h.registry ▸ hs.sound
  known q e he := by
    have hr : t.reservations = s.reservations := congrArg Registry.reservations h.registry
    rw [h.known]
    exact hs.known q e (hr ▸ he)
  hinted q c e he := by
    have hh : (t.pool q).bare.hints = (s.pool q).bare.hints := congrArg Pool.hints (h.pool q)
    exact (hs.hinted q c e (hh ▸ he)).of_registry h.registry

theorem apply (hs : s.Fenced p) (d : Call α) (hd : d.Within s p) : (d.apply s).Fenced p where
  sound := d.sound_apply hs.sound
  known := d.known_apply hs.known
  hinted q k i hi := by
    have hold : (k, i) ∈ (s.pool q).hints.slots → (d.apply s).Respects p q i :=
      fun hi => (hs.hinted q k i hi).trace (.one s d)
    rcases Call.mem_slots hi with hi | ⟨c, rfl⟩
    · exact hold hi
    · by_cases hg : (s.roster q).closed = false ∧ (s.entry i).Grants .release
      · have hr : s.Respects p q i := ⟨lt_size_of_grants hg.2, hd⟩
        exact hr.trace (.one s (.release q c i))
      · have hsame : (Call.release q c i).apply s = s :=
          (release_of_not_grants c fun hp hx => hg ⟨hp, hx⟩).2
        exact hold (hsame ▸ hi)

end Fenced

namespace Warded

theorem trace (h : s.Warded p) (ht : Trace s calls t) (hg : ∀ x ∈ t.guards, x ∈ s.guards) :
    t.Warded p := by
  intro x hx
  obtain ⟨hr, hd⟩ := h x (hg x hx)
  exact ⟨hr.trace ht, hd⟩

theorem putGuard (h : s.Warded p) {g : Guard} (hr : s.Respects p g.pool g.entry)
    (hd : g.pool = p → g.direct = false) (c : CallerId) (name : String) :
    (s.putGuard c name g).Warded p := by
  intro x hx
  have ht := s.trace_putGuard c name g
  rcases mem_guards_putGuard hx with hg | hx
  · rw [hg]
    exact ⟨hr.trace ht, hd⟩
  · obtain ⟨hr, hd⟩ := h x hx
    exact ⟨hr.trace ht, hd⟩

theorem lease (h : s.Warded p) (hs : s.Fenced p) {direct : Bool} (hd : q = p → direct = false)
    (c : CallerId) (name : String) : (s.lease direct q c name).2.Warded p := by
  have hfst := s.trackedAcquire_fst direct q c
  have htrace := s.trace_trackedAcquire direct q c
  have hg := (s.frame_trackedAcquire q direct c).guards
  unfold Store.lease
  cases ht : s.trackedAcquire direct q c with
  | mk found t =>
    rw [ht] at hfst htrace hg
    have hw : t.Warded p := h.trace htrace fun x hx => hg ▸ hx
    cases found with
    | none => exact hw
    | some e =>
      have hr : s.Respects p q e := hs.respects_of_acquire hfst.symm
      exact hw.putGuard (g := { pool := q, entry := e, direct }) (hr.trace htrace) hd c name

theorem settleLease (h : s.Warded p) (hs : s.Fenced p) (he : e ∈ s.reservations q) (hq : q ≠ p)
    (c : CallerId) (name : String) (creation : Creation α) :
    (Move.apply s (.settleLease q c name e creation)).Warded p := by
  have htrace := s.trace_settle q c e creation
  have hg := (s.frame_settle q c e creation).guards
  unfold Move.apply guardResult
  dsimp only
  cases ht : s.settle q c e creation with
  | mk result t =>
    rw [ht] at htrace hg
    have hw : t.Warded p := h.trace htrace fun x hx => hg ▸ hx
    split
    · next x hx =>
      obtain ⟨v, -, hgranted⟩ := granted?_of_settle ((congrArg Prod.fst ht).trans hx)
      obtain ⟨-, hpair⟩ := Option.ite_none_right_eq_some.mp hgranted
      obtain ⟨rfl, -⟩ := Prod.mk.inj (Option.some.inj hpair)
      have hr : t.Respects p q e := (hs.respects_of_own he).trace htrace
      exact hw.putGuard (g := { pool := q, entry := e }) hr (fun hqp => absurd hqp hq) c name
    · exact hw

/-- Calls within the fence store no guard across it. -/
theorem apply (h : s.Warded p) (hs : s.Fenced p) {maxAge : Nat} {m : Move α} (proper : m.Proper s)
    (ok : through p maxAge s m) : (m.apply s).Warded p := by
  have hother : m.isLeasing = false → (m.apply s).Warded p :=
    fun hm => h.trace (m.trace s) (Move.guards_sublist hm).subset
  cases m with
  | lease direct q c name => exact h.lease hs ok c name
  | settleLease q c name e creation => exact h.settleLease hs proper ok c name creation
  | _ => exact hother rfl

end Warded

end Store

end ResourcePool
