import ResourcePool.Proofs.Blur

/-! Hushing: a store whose journal does not tell which guards failed, nor how far the log was read. Calls do the
same to a store that was hushed, and so do trackers. -/
namespace ResourcePool

variable {α : Type}

def Journal.hushed (j : Journal α) : Journal α where
  events := j.events.filter fun x => x.failure?.isNone

namespace Store

def hushed (s : Store α) : Store α :=
  { s with journal := s.journal.hushed }

/-- Stores that differ at most in which guards failed, and in how far the log was read. -/
def Echoes (s t : Store α) : Prop :=
  s.hushed = t.hushed

variable (s : Store α) (p : PoolId) (c : CallerId) (e : EntryId)

theorem hushed_note {x : Event α} (hx : x.failure? = none) : (s.note x).hushed = s.hushed.note x := by
  simp [hushed, note, Journal.hushed, Journal.record, hx]

/-- A guard that failed is not told of. -/
theorem hushed_note_failure (fault : Fault) : (s.note (.guardFailed p fault)).hushed = s.hushed := by
  simp [hushed, note, Journal.hushed, Journal.record, Event.failure?]

/-- Calls on entries and pools do not notice. -/
theorem blurs_hushed : Blurs (hushed (α := α)) where
  entries _ := rfl
  draws _ := rfl
  pool _ _ := rfl
  isAlive _ := rfl
  set_entries _ _ := rfl
  set_draws _ _ := rfl
  modify _ _ _ _ := rfl
  note s x hx := by
    have hquiet : x.failure? = none := by
      cases x <;> first | rfl | exact absurd hx Bool.false_ne_true
    exact s.hushed_note hquiet

/-! ### Trackers and handles -/

theorem hushed_observeAcquire : (s.observeAcquire p e).hushed = s.hushed.observeAcquire p e := by
  have hpool : s.hushed.pool p = s.pool p := rfl
  have hnow : s.hushed.now = s.now := rfl
  unfold observeAcquire
  rw [hpool, hnow]
  split
  · rfl
  · split
    · rfl
    · rw [hushed_note _ rfl]
      rfl

theorem hushed_observeRelease : (s.observeRelease p e).hushed = s.hushed.observeRelease p e := by
  have hpool : s.hushed.pool p = s.pool p := rfl
  unfold observeRelease
  rw [hpool]
  split
  · rfl
  · split
    · rfl
    · rw [hushed_note _ rfl]
      rfl

theorem hushed_observeRemoval : (s.observeRemoval p e).hushed = s.hushed.observeRemoval p e := by
  have hpool : s.hushed.pool p = s.pool p := rfl
  unfold observeRemoval
  rw [hpool]
  split
  · rfl
  · split
    · rfl
    · rw [hushed_note _ rfl]
      rfl

theorem checkLeaks_hushed (x : Tracker) :
    s.hushed.checkLeaks p x = ((s.checkLeaks p x).1, (s.checkLeaks p x).2.hushed) := by
  have hall : ∀ (leaks : List Leak) (u : Store α),
      (leaks.foldl (fun u leak => u.note (.leaked p leak)) u).hushed =
        leaks.foldl (fun u leak => u.note (.leaked p leak)) u.hushed := by
    intro leaks
    induction leaks with
    | nil => exact fun _ => rfl
    | cons leak leaks ih =>
      intro u
      rw [List.foldl_cons, ih, hushed_note _ rfl]
      rfl
  unfold checkLeaks
  dsimp only
  rw [hall]
  rfl

theorem trackedAcquire_hushed (direct : Bool) : s.hushed.trackedAcquire direct p c =
    ((s.trackedAcquire direct p c).1, (s.trackedAcquire direct p c).2.hushed) := by
  unfold trackedAcquire
  rw [blurs_hushed.acquire]
  generalize s.acquire p c = acquired
  obtain ⟨found, u⟩ := acquired
  cases found with
  | none => rfl
  | some e =>
    cases direct with
    | true => rfl
    | false =>
      dsimp only
      rw [if_neg Bool.false_ne_true, if_neg Bool.false_ne_true, hushed_observeAcquire]

theorem trackedRelease_hushed (direct : Bool) : s.hushed.trackedRelease direct p c e =
    ((s.trackedRelease direct p c e).1, (s.trackedRelease direct p c e).2.hushed) := by
  cases direct with
  | true => exact blurs_hushed.release s p c e
  | false =>
    have hobserved := s.hushed_observeRelease p e
    change (s.hushed.observeRelease p e).release p c e = _
    rw [← hobserved]
    exact blurs_hushed.release (s.observeRelease p e) p c e

theorem trackedRemove_hushed (direct : Bool) : s.hushed.trackedRemove direct p e =
    ((s.trackedRemove direct p e).1, (s.trackedRemove direct p e).2.hushed) := by
  cases direct with
  | true => exact blurs_hushed.remove s p e
  | false =>
    have hobserved := s.hushed_observeRemoval p e
    change (s.hushed.observeRemoval p e).remove p e = _
    rw [← hobserved]
    exact blurs_hushed.remove (s.observeRemoval p e) p e

theorem hushed_hold : (s.hold e).hushed = s.hushed.hold e := by
  have hhandles : s.hushed.handles = s.handles := rfl
  unfold hold
  rw [hhandles]
  split_ifs <;> rfl

theorem hushed_holdAll (es : List EntryId) (s : Store α) :
    (s.holdAll es).hushed = s.hushed.holdAll es := by
  induction es generalizing s with
  | nil => rfl
  | cons e es ih =>
    have hheld := s.hushed_hold e
    change ((s.hold e).holdAll es).hushed = (s.hushed.hold e).holdAll es
    rw [ih, hheld]

theorem drain_hushed (direct : Bool) (fuel : Nat) (s : Store α) : drain direct p c fuel s.hushed =
    ((drain direct p c fuel s).1, (drain direct p c fuel s).2.hushed) := by
  induction fuel generalizing s with
  | zero => rfl
  | succ fuel ih =>
    unfold drain
    rw [trackedAcquire_hushed]
    generalize s.trackedAcquire direct p c = acquired
    obtain ⟨found, u⟩ := acquired
    cases found with
    | none => rfl
    | some e =>
      dsimp only
      rw [ih]

namespace Echoes

variable {s t u : Store α}

theorem refl (s : Store α) : s.Echoes s :=
  rfl

theorem symm (h : s.Echoes t) : t.Echoes s :=
  Eq.symm h

theorem trans (h : s.Echoes t) (h' : t.Echoes u) : s.Echoes u :=
  Eq.trans h h'

/-- What reads the same off hushed stores reads the same off stores that echo each other. -/
theorem read {β : Type} {f : Store α → β} (hf : ∀ s, f s.hushed = f s) (h : s.Echoes t) : f s = f t := by
  rw [← hf s, ← hf t, show s.hushed = t.hushed from h]

theorem map {f : Store α → Store α} (hf : ∀ s, (f s).hushed = f s.hushed) (h : s.Echoes t) :
    (f s).Echoes (f t) := by
  unfold Echoes
  rw [hf s, hf t, show s.hushed = t.hushed from h]

variable (h : s.Echoes t)

include h

theorem find? (name : String) : s.find? name = t.find? name :=
  h.read (f := fun u => u.find? name) fun _ => rfl

theorem pool (p : PoolId) : s.pool p = t.pool p :=
  h.read (f := fun u => u.pool p) fun _ => rfl

theorem guard? (name : String) : s.guard? name = t.guard? name :=
  h.read (f := fun u => u.guard? name) fun _ => rfl

theorem value? (e : EntryId) : s.value? e = t.value? e :=
  h.read (f := fun u => u.value? e) fun _ => rfl

theorem hold (e : EntryId) : (s.hold e).Echoes (t.hold e) :=
  h.map fun u => u.hushed_hold e

theorem trackedAcquire (direct : Bool) (p : PoolId) (c : CallerId) :
    Blurred hushed (s.trackedAcquire direct p c) (t.trackedAcquire direct p c) :=
  blurred_of_commutes (g := fun u => u.trackedAcquire direct p c)
    (fun u => u.trackedAcquire_hushed p c direct) h

theorem trackedRelease (direct : Bool) (p : PoolId) (c : CallerId) (e : EntryId) :
    Blurred hushed (s.trackedRelease direct p c e) (t.trackedRelease direct p c e) :=
  blurred_of_commutes (g := fun u => u.trackedRelease direct p c e)
    (fun u => u.trackedRelease_hushed p c e direct) h

theorem trackedRemove (direct : Bool) (p : PoolId) (e : EntryId) :
    Blurred hushed (s.trackedRemove direct p e) (t.trackedRemove direct p e) :=
  blurred_of_commutes (g := fun u => u.trackedRemove direct p e)
    (fun u => u.trackedRemove_hushed p e direct) h

end Echoes

end Store

end ResourcePool
