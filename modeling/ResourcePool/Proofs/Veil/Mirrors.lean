import ResourcePool.Proofs.Veil

/-! Mirrors: what is done through trackers to one store, and past them to another that mirrors it, is
answered the same and leaves stores that mirror each other. -/
namespace ResourcePool.Store

variable {α ρ : Type}

/-- Equal answers, related reports, and stores that mirror each other. -/
def MirroredWith {β : Type} (R : List ρ → List ρ → Prop) (x y : β × List ρ × Store α) : Prop :=
  x.1 = y.1 ∧ R x.2.1 y.2.1 ∧ x.2.2.Mirrors y.2.2

theorem Mirrored.exists_eq {β : Type} {x y : β × Store α} (h : Mirrored x y) :
    ∃ b u v, x = (b, u) ∧ y = (b, v) ∧ u.Mirrors v :=
  ⟨x.1, x.2, y.2, rfl, Prod.ext h.1.symm rfl, h.2⟩

theorem MirroredWith.exists_eq {β : Type} {R : List ρ → List ρ → Prop} {x y : β × List ρ × Store α}
    (h : MirroredWith R x y) :
    ∃ b rs rs' u v, x = (b, rs, u) ∧ y = (b, rs', v) ∧ R rs rs' ∧ u.Mirrors v :=
  ⟨x.1, x.2.1, y.2.1, x.2.2, y.2.2, rfl, Prod.ext h.1.symm rfl, h.2.1, h.2.2⟩

theorem mirrors_setTracker {s : Store α} {p : PoolId} {x : Tracker}
    (hx : (s.pool p).tracker? = some x) (y : Tracker) : s.Mirrors (s.setTracker p y) :=
  (s.veiled_setTracker p hx y).symm

theorem mirrors_checkLeaks {s : Store α} {p : PoolId} {x : Tracker}
    (hx : (s.pool p).tracker? = some x) : s.Mirrors (s.checkLeaks p x).2 :=
  (s.veiled_checkLeaks p hx).symm

namespace Mirrors

variable {s t u : Store α}

theorem refl (s : Store α) : s.Mirrors s :=
  rfl

theorem symm (h : s.Mirrors t) : t.Mirrors s :=
  Eq.symm h

theorem trans (h : s.Mirrors t) (h' : t.Mirrors u) : s.Mirrors u :=
  Eq.trans h h'

/-- What reads the same under the veil reads the same off stores that mirror each other. -/
theorem read {β : Type} {f : Store α → β} (hf : ∀ s, f s.veiled = f s) (h : s.Mirrors t) : f s = f t := by
  rw [← hf s, ← hf t, show s.veiled = t.veiled from h]

theorem map {f : Store α → Store α} (hf : ∀ s, (f s).veiled = f s.veiled) (h : s.Mirrors t) :
    (f s).Mirrors (f t) := by
  unfold Mirrors
  rw [hf s, hf t, show s.veiled = t.veiled from h]

variable (h : s.Mirrors t)

include h

/-! ### Readings -/

theorem entries : s.entries = t.entries :=
  h.read (f := Store.entries) fun _ => rfl

theorem handles : s.handles = t.handles :=
  h.read (f := Store.handles) fun _ => rfl

theorem callers : s.callers = t.callers :=
  h.read (f := Store.callers) fun _ => rfl

theorem entry (e : EntryId) : s.entry e = t.entry e :=
  h.read (f := fun u => u.entry e) fun _ => rfl

theorem value? (e : EntryId) : s.value? e = t.value? e :=
  h.read (f := fun u => u.value? e) fun _ => rfl

theorem find? (name : String) : s.find? name = t.find? name :=
  h.read (f := fun u => u.find? name) fun _ => rfl

theorem members (p : PoolId) : s.members p = t.members p :=
  h.read (f := fun u => u.members p) fun u => u.members_veiled p

theorem metrics (p : PoolId) : s.metrics p = t.metrics p := by
  refine h.read (f := fun u => u.metrics p) fun u => ?_
  unfold Store.metrics
  rw [u.pool_veiled, u.tally_veiled]
  rfl

theorem health (p : PoolId) : s.health p = t.health p := by
  refine h.read (f := fun u => u.health p) fun u => ?_
  unfold Store.health
  rw [u.pool_veiled, u.tally_veiled]
  rfl

theorem describePool (p : PoolId) : s.describePool p = t.describePool p := by
  refine h.read (f := fun u => u.describePool p) fun u => ?_
  unfold Store.describePool
  rw [u.pool_veiled]
  rfl

theorem veiled_pool (p : PoolId) : (s.pool p).veiled = (t.pool p).veiled := by
  rw [← s.pool_veiled, ← t.pool_veiled, show s.veiled = t.veiled from h]

theorem bare (p : PoolId) : (s.pool p).bare = (t.pool p).bare := by
  have hb : (s.pool p).veiled.bare = (t.pool p).veiled.bare := congrArg Pool.bare (h.veiled_pool p)
  exact hb

theorem isSome_tracker? (p : PoolId) :
    (s.pool p).tracker?.isSome = (t.pool p).tracker?.isSome := by
  have ht : (s.pool p).veiled.tracker?.isSome = (t.pool p).veiled.tracker?.isSome := by
    rw [h.veiled_pool p]
  simpa [Pool.veiled] using ht

/-! ### Calls -/

theorem create (name : String) (settings : Settings α) (detector? : Option Detector) :
    Mirrored (s.create name settings detector?) (t.create name settings detector?) := by
  have hveiled : ∀ u : Store α, (u.create name settings detector?).2.veiled =
      { u.veiled with
        pools := u.veiled.pools.push (Pool.ofSettings name settings detector?).veiled
        names := u.veiled.names.filter (·.1 != name) ++ [(name, u.veiled.pools.size)] } := by
    intro u
    simp [Store.create, veiled]
  have hsize : s.pools.size = t.pools.size :=
    h.read (f := fun s => s.pools.size) fun s => by simp [veiled]
  refine ⟨hsize, ?_⟩
  unfold Mirrors
  rw [hveiled, hveiled, show s.veiled = t.veiled from h]

theorem reserve (p : PoolId) : Mirrored (s.reserve p) (t.reserve p) :=
  blurred_of_commutes (g := fun s => s.reserve p) (fun s => blurs_veiled.reserve s p) h

theorem enable (e : EntryId) (v : α) (atOnce : Bool) :
    Mirrored (s.enable e v atOnce) (t.enable e v atOnce) :=
  blurred_of_commutes (g := fun s => s.enable e v atOnce) (fun s => blurs_veiled.enable s e v atOnce) h

theorem acquire (p : PoolId) (c : CallerId) : Mirrored (s.acquire p c) (t.acquire p c) :=
  blurred_of_commutes (g := fun s => s.acquire p c) (fun s => blurs_veiled.acquire s p c) h

theorem settle (p : PoolId) (c : CallerId) (e : EntryId) (creation : Creation α) :
    Mirrored (s.settle p c e creation) (t.settle p c e creation) :=
  blurred_of_commutes (g := fun s => s.settle p c e creation)
    (fun s => blurs_veiled.settle s p c e creation) h

theorem close (p : PoolId) : Mirrored (s.close p) (t.close p) :=
  blurred_of_commutes (g := fun s => s.close p) (fun s => blurs_veiled.close s p) h

theorem trackedAcquire (direct direct' : Bool) (p : PoolId) (c : CallerId) :
    Mirrored (s.trackedAcquire direct p c) (t.trackedAcquire direct' p c) := by
  have ha := h.acquire p c
  refine ⟨?_, ?_⟩
  · rw [trackedAcquire_fst, trackedAcquire_fst]
    exact ha.1
  · unfold Mirrors
    rw [veiled_trackedAcquire, veiled_trackedAcquire]
    exact ha.2

theorem trackedRelease (direct direct' : Bool) (p : PoolId) (c : CallerId) (e : EntryId) :
    Mirrored (s.trackedRelease direct p c e) (t.trackedRelease direct' p c e) := by
  refine blurred_of_commutes (g := fun s => s.release p c e) (fun s => blurs_veiled.release s p c e) ?_
  rw [veiled_unless direct (s.veiled_observeRelease p e),
    veiled_unless direct' (t.veiled_observeRelease p e)]
  exact h

theorem trackedRemove (direct direct' : Bool) (p : PoolId) (e : EntryId) :
    Mirrored (s.trackedRemove direct p e) (t.trackedRemove direct' p e) := by
  refine blurred_of_commutes (g := fun s => s.remove p e) (fun s => blurs_veiled.remove s p e) ?_
  rw [veiled_unless direct (s.veiled_observeRemoval p e),
    veiled_unless direct' (t.veiled_observeRemoval p e)]
  exact h

theorem giveBack (c : CallerId) {g g' : Guard} (hg : g.veiled = g'.veiled) :
    (s.giveBack c g).Mirrors (t.giveBack c g') := by
  obtain ⟨p, e, direct⟩ := g
  obtain ⟨p', e', direct'⟩ := g'
  obtain ⟨rfl, rfl⟩ : p = p' ∧ e = e' := Guard.veiled_eq_iff.mp hg
  obtain ⟨answer, u, v, hs, ht, hstores⟩ := (h.trackedRelease direct direct' p c e).exists_eq
  unfold Store.giveBack
  dsimp only
  rw [hs, ht]
  cases answer with
  | ok done => exact hstores
  | error fault => exact hstores.map fun u => u.veiled_note rfl

/-- Guards of the same name end alike. -/
theorem guard? (name : String) : (s.guard? name).map Guard.veiled = (t.guard? name).map Guard.veiled := by
  rw [← s.guard?_veiled, ← t.guard?_veiled, show s.veiled = t.veiled from h]

theorem putGuard (c : CallerId) (name : String) {g g' : Guard} (hg : g.veiled = g'.veiled) :
    (s.putGuard c name g).Mirrors (t.putGuard c name g') := by
  let stored := fun (s : Store α) (g : Guard) =>
    { s.endGuard name with guards := (name, g) :: (s.endGuard name).guards }
  have hstored : (stored s g).Mirrors (stored t g') := by
    have he : (s.endGuard name).veiled = (t.endGuard name).veiled :=
      h.map fun u => u.veiled_endGuard name
    change { (s.endGuard name).veiled with
      guards := (name, g.veiled) :: (s.endGuard name).veiled.guards } =
      { (t.endGuard name).veiled with
        guards := (name, g'.veiled) :: (t.endGuard name).veiled.guards }
    rw [he, hg]
  have hold := h.guard? name
  unfold Store.putGuard
  dsimp only
  cases hs : s.guard? name with
  | none =>
    rw [hs] at hold
    rw [Option.map_eq_none_iff.mp hold.symm]
    exact hstored
  | some old =>
    rw [hs] at hold
    obtain ⟨old', ht, hveiled⟩ := Option.map_eq_some_iff.mp hold.symm
    rw [ht]
    exact hstored.giveBack c hveiled.symm

theorem lease (direct direct' : Bool) (p : PoolId) (c : CallerId) (name : String) :
    Mirrored (s.lease direct p c name) (t.lease direct' p c name) := by
  obtain ⟨found, u, v, hs, ht, hstores⟩ := (h.trackedAcquire direct direct' p c).exists_eq
  unfold Store.lease
  rw [hs, ht]
  cases found with
  | none => exact ⟨rfl, hstores⟩
  | some e => exact ⟨rfl, hstores.putGuard c name rfl⟩

theorem drain (direct direct' : Bool) (p : PoolId) (c : CallerId) (fuel : Nat) :
    Mirrored (Store.drain direct p c fuel s) (Store.drain direct' p c fuel t) := by
  induction fuel generalizing s t with
  | zero => exact ⟨rfl, h⟩
  | succ fuel ih =>
    obtain ⟨found, u, v, hs, ht, hstores⟩ := (h.trackedAcquire direct direct' p c).exists_eq
    unfold Store.drain
    rw [hs, ht]
    cases found with
    | none => exact ⟨rfl, hstores⟩
    | some e =>
      obtain ⟨hrest, hstores⟩ := ih hstores
      exact ⟨congrArg (e :: ·) hrest, hstores⟩

theorem holdAll (es : List EntryId) : (s.holdAll es).Mirrors (t.holdAll es) := by
  induction es generalizing s t with
  | nil => exact h
  | cons e es ih => exact ih (h.map fun u => u.veiled_hold e)

theorem removeGuarded (name : String) {g g' : Guard} (hg : g.veiled = g'.veiled) :
    Mirrored (s.removeGuarded name g) (t.removeGuarded name g') := by
  obtain ⟨hpool, hentry⟩ := Guard.veiled_eq_iff.mp hg
  have hended : (s.endGuard name).Mirrors (t.endGuard name) := h.map fun u => u.veiled_endGuard name
  unfold Store.removeGuarded
  rw [hpool, hentry]
  exact hended.trackedRemove g.direct g'.direct g'.pool g'.entry

/-! ### Creators and factories -/

/-- Creators that do the same to stores that mirror each other make `acquireWith` do so. -/
theorem acquireWith {R : List ρ → List ρ → Prop} (hnil : R [] []) (p : PoolId) (c : CallerId)
    {f g : EntryId → Store α → Creation α × List ρ × Store α}
    (hc : ∀ e u v, u.Mirrors v → MirroredWith R (f e u) (g e v)) :
    MirroredWith R (s.acquireWith p c f) (t.acquireWith p c g) :=
  blurs_veiled.acquireWith hnil h p c hc

theorem trackedAcquireWith {R : List ρ → List ρ → Prop} (hnil : R [] []) (direct direct' : Bool)
    (p : PoolId) (c : CallerId) {f g : EntryId → Store α → Creation α × List ρ × Store α}
    (hc : ∀ e u v, u.Mirrors v → MirroredWith R (f e u) (g e v)) :
    MirroredWith R (s.trackedAcquireWith direct p c f) (t.trackedAcquireWith direct' p c g) := by
  obtain ⟨result, reports, reports', u, v, hs, ht, hreports, hstores⟩ :=
    (h.acquireWith hnil p c hc).exists_eq
  unfold Store.trackedAcquireWith
  rw [hs, ht]
  cases result with
  | error fault => exact ⟨rfl, hreports, hstores⟩
  | ok found =>
    cases found with
    | none => exact ⟨rfl, hreports, hstores⟩
    | some e =>
      refine ⟨rfl, hreports, ?_⟩
      unfold Mirrors
      rw [veiled_unless direct (u.veiled_observeAcquire p e),
        veiled_unless direct' (v.veiled_observeAcquire p e)]
      exact hstores

/-- So do factories with `warmup`. -/
theorem warmup {R : List ρ → List ρ → Prop} (hnil : R [] [])
    (happend : ∀ {as bs as' bs'}, R as bs → R as' bs' → R (as ++ as') (bs ++ bs')) (p : PoolId)
    {f g : Nat → EntryId → Store α → Option α × List ρ × Store α}
    (hf : ∀ n e u v, u.Mirrors v → MirroredWith R (f n e u) (g n e v)) (count call : Nat) :
    MirroredWith R (Store.warmup p f count call s) (Store.warmup p g count call t) :=
  blurs_veiled.warmup hnil h happend p hf count call

end Mirrors

end ResourcePool.Store
