import ResourcePool.Proofs.Blur
import ResourcePool.Store.Readings

/-! Veils: a store without what its leak trackers found, and with all guards past them. Calls on entries and
pools do the same under a veil. -/
namespace ResourcePool

variable {α : Type}

/-- The events that trackers note. -/
def Event.isTracking : Event α → Bool
  | .reacquired .. | .untrackedRelease .. | .untrackedRemoval .. | .leaked .. => true
  | _ => false

def Guard.veiled (g : Guard) : Guard :=
  { g with direct := true }

theorem Guard.veiled_eq_iff {g g' : Guard} :
    g.veiled = g'.veiled ↔ g.pool = g'.pool ∧ g.entry = g'.entry := by
  simp [veiled]

namespace Pool

/-- Whether there is a tracker can still be seen. -/
def veiled (x : Pool α) : Pool α :=
  { x with tracker? := x.tracker?.map fun _ => { detector := .default } }

end Pool

/-- How far the log was read is left out, too. -/
def Journal.veiled (j : Journal α) : Journal α where
  events := j.events.filter fun x => !x.isTracking

namespace Store

def veiled (s : Store α) : Store α :=
  { s with
    pools := s.pools.map Pool.veiled
    guards := s.guards.map fun x => (x.1, x.2.veiled)
    journal := s.journal.veiled }

/-- Stores that differ in what trackers found, in which guards pass them, and in the log. -/
def Mirrors (s t : Store α) : Prop :=
  s.veiled = t.veiled

/-- Equal answers, and stores that differ in what trackers found only. -/
def Mirrored {β : Type} (x y : β × Store α) : Prop :=
  x.1 = y.1 ∧ x.2.Mirrors y.2

variable (s : Store α) (p : PoolId) (c : CallerId) (e : EntryId)

@[simp] theorem pool_veiled : s.veiled.pool p = (s.pool p).veiled := by
  unfold pool veiled
  rw [Array.getD_eq_getD_getElem?, Array.getD_eq_getD_getElem?, Array.getElem?_map]
  cases s.pools[p]? <;> rfl

@[simp] theorem members_veiled : s.veiled.members p = s.members p := by
  unfold members
  rw [pool_veiled]
  rfl

theorem tally_veiled : s.veiled.tally p = s.tally p := by
  unfold tally
  rw [members_veiled]
  rfl

theorem veiled_modifyPool {f : Pool α → Pool α} (hf : ∀ x, (f x).veiled = f x.veiled) :
    (s.modifyPool p f).veiled = s.veiled.modifyPool p f := by
  have hpools : (s.pools.modify p f).map Pool.veiled = (s.pools.map Pool.veiled).modify p f := by
    refine Array.ext (by simp) fun i hi hi' => ?_
    simp only [Array.getElem_map, Array.getElem_modify]
    split_ifs
    · exact hf _
    · rfl
  simp only [veiled, modifyPool, hpools]

theorem veiled_note {x : Event α} (hx : x.isTracking = false) :
    (s.note x).veiled = s.veiled.note x := by
  simp [veiled, note, Journal.veiled, Journal.record, hx]

theorem veiled_note_of_isTracking {x : Event α} (hx : x.isTracking = true) :
    (s.note x).veiled = s.veiled := by
  simp [veiled, note, Journal.veiled, Journal.record, hx]

/-- What a tracker that is there already found cannot be seen. -/
theorem veiled_setTracker {t : Tracker} (hp : (s.pool p).tracker? = some t) (x : Tracker) :
    (s.setTracker p x).veiled = s.veiled := by
  have hpools : (s.pools.modify p fun pool => { pool with tracker? := some x }).map Pool.veiled =
      s.pools.map Pool.veiled := by
    refine Array.ext (by simp) fun i hi hi' => ?_
    simp only [Array.getElem_map, Array.getElem_modify]
    split_ifs with hip
    · subst hip
      have hsize : p < s.pools.size := by simpa using hi'
      have hpool : s.pools[p].tracker? = some t := by simpa [pool, hsize] using hp
      simp [Pool.veiled, hpool]
    · rfl
  simp only [veiled, setTracker, modifyPool, hpools]

theorem isAlive_veiled : s.veiled.isAlive = s.isAlive := by
  funext e
  have hguards : (s.veiled.guards.any fun x => x.2.entry == e || (s.veiled.members x.2.pool).contains e) =
      s.guards.any fun x => x.2.entry == e || (s.members x.2.pool).contains e := by
    simp only [members_veiled]
    exact List.any_map
  have hnames : (s.veiled.names.any fun x => (s.veiled.members x.2).contains e) =
      s.names.any fun x => (s.members x.2).contains e := by
    simp only [members_veiled]
    rfl
  exact congrArg₂ (· || ·) (congrArg (s.handles.contains e || ·) hguards) hnames

/-- Calls on entries and pools do not notice the veil. -/
theorem blurs_veiled : Blurs (veiled (α := α)) where
  entries _ := rfl
  draws _ := rfl
  pool s p := by
    rw [pool_veiled]
    rfl
  isAlive := isAlive_veiled
  set_entries _ _ := rfl
  set_draws _ _ := rfl
  modify s p g hg := by
    refine s.veiled_modifyPool p fun x => ?_
    have hsame : g x = (g x).under x.tracker? := hg x x.tracker?
    have htracker : (g x).tracker? = x.tracker? := by
      rw [hsame]
      rfl
    have hveiled : (g x).veiled = (g x).under (x.tracker?.map fun _ => { detector := .default }) := by
      rw [← htracker]
      rfl
    rw [hveiled, ← hg]
    rfl
  note s x hx := by
    have hplain : x.isTracking = false := by
      cases x <;> first | rfl | exact absurd hx Bool.false_ne_true
    exact s.veiled_note hplain

/-! ### Trackers, guards and creators -/

theorem veiled_observeAcquire : (s.observeAcquire p e).veiled = s.veiled := by
  unfold observeAcquire
  split
  · rfl
  · next x hx =>
    split
    · exact s.veiled_setTracker p hx _
    · rw [veiled_note_of_isTracking _ rfl, s.veiled_setTracker p hx]

theorem veiled_observeRelease : (s.observeRelease p e).veiled = s.veiled := by
  unfold observeRelease
  split
  · rfl
  · next x hx =>
    split
    · exact s.veiled_setTracker p hx _
    · rw [veiled_note_of_isTracking _ rfl, s.veiled_setTracker p hx]

theorem veiled_observeRemoval : (s.observeRemoval p e).veiled = s.veiled := by
  unfold observeRemoval
  split
  · rfl
  · next x hx =>
    split
    · exact s.veiled_setTracker p hx _
    · rw [veiled_note_of_isTracking _ rfl, s.veiled_setTracker p hx]

theorem veiled_checkLeaks {t : Tracker} (hp : (s.pool p).tracker? = some t) :
    (s.checkLeaks p t).2.veiled = s.veiled := by
  have hf : ∀ (leaks : List Leak) (u : Store α),
      (leaks.foldl (fun u leak => u.note (.leaked p leak)) u).veiled = u.veiled := by
    intro leaks
    induction leaks with
    | nil => exact fun _ => rfl
    | cons leak leaks ih =>
      intro u
      rw [List.foldl_cons, ih, veiled_note_of_isTracking _ rfl]
  unfold checkLeaks
  dsimp only
  rw [hf, s.veiled_setTracker p hp]

theorem veiled_trackedAcquire (direct : Bool) :
    (s.trackedAcquire direct p c).2.veiled = (s.acquire p c).2.veiled := by
  unfold trackedAcquire
  split
  · next e t ht =>
    rw [ht]
    cases direct with
    | true => rfl
    | false => exact t.veiled_observeAcquire p e
  · next t ht => rw [ht]

/-- Told or not, a tracker is behind the veil. -/
theorem veiled_unless (direct : Bool) {s t : Store α} (h : t.veiled = s.veiled) :
    (if direct then s else t).veiled = s.veiled := by
  cases direct with
  | true => rfl
  | false => exact h

theorem guard?_veiled (name : String) :
    s.veiled.guard? name = (s.guard? name).map Guard.veiled := by
  have hlookup : ∀ gs : List (String × Guard),
      (gs.map fun x => (x.1, x.2.veiled)).lookup name = (gs.lookup name).map Guard.veiled := by
    intro gs
    induction gs with
    | nil => rfl
    | cons x gs ih =>
      obtain ⟨n, g⟩ := x
      cases hx : name == n <;> simp [List.lookup_cons, hx, ih]
  exact hlookup s.guards

theorem veiled_endGuard (name : String) : (s.endGuard name).veiled = s.veiled.endGuard name := by
  have hfilter : (s.guards.filter (·.1 != name)).map (fun x => (x.1, x.2.veiled)) =
      (s.guards.map fun x => (x.1, x.2.veiled)).filter (·.1 != name) := by
    rw [List.filter_map]
    rfl
  simp only [veiled, endGuard, hfilter]

theorem veiled_hold : (s.hold e).veiled = s.veiled.hold e := by
  have hhandles : s.veiled.handles = s.handles := rfl
  unfold hold
  rw [hhandles]
  split_ifs <;> rfl

end Store

end ResourcePool
