import ResourcePool.Proofs.Registry.Tracking

/-! Runs: clients call a store in any order. What a creator or a factory does while `acquireWith` or
`warmup` waits for it counts as calls of its own, so that every point inside them is a point of the run. -/
namespace ResourcePool
open Registry

variable {α : Type}

/-- Tells the tracker what `acquireWith` got. -/
def Store.observeResult (s : Store α) (direct : Bool) (p : PoolId) :
    Except CreationError (Option EntryId) → Store α
  | .ok (some e) => if direct then s else s.observeAcquire p e
  | _ => s

/-- Guards what `acquireWith` got. -/
def Store.guardResult (s : Store α) (p : PoolId) (c : CallerId) (name : String) :
    Except CreationError (Option EntryId) → Store α
  | .ok (some e) => s.putGuard c name { pool := p, entry := e }
  | _ => s

/-- One call of a client. `acquireWith` begins as `acquire` and `reserve` and ends, when its creator
is done or has panicked, as `settle`; `warmup` alternates between `reserve` and `enable`. -/
inductive Move (α : Type) where
  | create (name : String) (settings : Settings α) (detector? : Option Detector)
  | forget (name : String)
  | enter (caller : String)
  | leave (caller : String)
  | reserve (p : PoolId)
  | enable (e : EntryId) (value : α) (acquire : Bool)
  | acquire (direct : Bool) (p : PoolId) (c : CallerId)
  | settle (direct : Bool) (p : PoolId) (c : CallerId) (e : EntryId) (creation : Creation α)
  | release (direct : Bool) (p : PoolId) (c : CallerId) (e : EntryId)
  | remove (direct : Bool) (p : PoolId) (e : EntryId)
  | close (p : PoolId)
  | lease (direct : Bool) (p : PoolId) (c : CallerId) (name : String)
  /-- The end of an `acquireWith` whose entry goes to a guard. -/
  | settleLease (p : PoolId) (c : CallerId) (name : String) (e : EntryId) (creation : Creation α)
  | dropGuard (c : CallerId) (name : String)
  | removeGuarded (name : String)
  | detach (name : String)
  | hold (e : EntryId)
  | unhold (e : EntryId)
  | unholdAll
  | sweep (p : PoolId)
  | checkLeaks (p : PoolId)
  | clearTracking (p : PoolId)
  | wait (milliseconds : Nat)
  | readLog

namespace Move

/-- The store after a call. A call that names no guard, no caller or no tracker changes nothing. -/
def apply (s : Store α) : Move α → Store α
  | create name settings detector? => (s.create name settings detector?).2
  | forget name => s.forget name
  | enter caller => { s with callers := (s.callers.enter caller).2 }
  | leave caller => (s.callers.leave? caller).elim s fun callers => { s with callers }
  | reserve p => (s.reserve p).2
  | enable e v active => (s.enable e v active).2
  | acquire direct p c => (s.trackedAcquire direct p c).2
  | settle direct p c e creation =>
    let (result, s) := s.settle p c e creation
    s.observeResult direct p result
  | release direct p c e => (s.trackedRelease direct p c e).2
  | remove direct p e => (s.trackedRemove direct p e).2
  | close p => (s.close p).2
  | lease direct p c name => (s.lease direct p c name).2
  | settleLease p c name e creation =>
    let (result, s) := s.settle p c e creation
    s.guardResult p c name result
  | dropGuard c name => (s.guard? name).elim s (s.dropGuard c name)
  | removeGuarded name => (s.guard? name).elim s fun g => (s.removeGuarded name g).2
  | detach name => (s.guard? name).elim s (s.detach name)
  | hold e => s.hold e
  | unhold e => s.unhold e
  | unholdAll => { s with handles := [] }
  | sweep p => (s.pool p).tracker?.elim s fun t => (s.sweep p t).2
  | checkLeaks p => (s.pool p).tracker?.elim s fun t => (s.checkLeaks p t).2
  | clearTracking p => (s.pool p).tracker?.elim s fun t => s.setTracker p t.clear
  | wait n => s.wait n
  | readLog => s.takeLog.2

/-- Calls about names, handles, trackers, callers, time and the log. -/
def isInert : Move α → Bool
  | forget _ | enter _ | leave _ | detach _ | hold _ | unhold _ | unholdAll | sweep _
  | checkLeaks _ | clearTracking _ | wait _ | readLog => true
  | _ => false

/-- A creation ends on the pool that reserved the entry for it. -/
def Proper (s : Store α) : Move α → Prop
  | settle _ p _ e _ => e ∈ s.reservations p
  | settleLease p _ _ e _ => e ∈ s.reservations p
  | _ => True

/-- The removal that a call asks for. -/
def removal? (s : Store α) : Move α → Option (PoolId × EntryId)
  | remove _ p e => some (p, e)
  | removeGuarded name => (s.guard? name).map fun g => (g.pool, g.entry)
  | settle _ p _ e creation => if creation.fails then some (p, e) else none
  | settleLease p _ _ e creation => if creation.fails then some (p, e) else none
  | _ => none

end Move

/-- The states that calls lead to from `s`, each call being one that `allowed` admits. -/
inductive Run (allowed : Store α → Move α → Prop) (s : Store α) : Store α → Prop
  | refl : Run allowed s s
  | step {t : Store α} (h : Run allowed s t) (m : Move α) (proper : m.Proper t)
      (ok : allowed t m) : Run allowed s (m.apply t)

/-- Any call may be made. -/
def free (_ : Store α) (_ : Move α) : Prop :=
  True

/-- The store that nothing has happened to yet. Random searches will draw the given numbers. -/
def Store.blank (draws : List Nat) : Store α where
  draws

namespace Store

variable {may : PoolId → EntryId → Prop}

@[simp] theorem registry_observeResult (s : Store α) (direct : Bool) (p : PoolId)
    (result : Except CreationError (Option EntryId)) :
    (s.observeResult direct p result).registry = s.registry := by
  unfold observeResult
  split
  · split_ifs
    · rfl
    · exact registry_observeAcquire s p _
  · rfl

theorem guardResult_path (s : Store α) (p : PoolId) (c : CallerId) (name : String)
    (result : Except CreationError (Option EntryId)) :
    Path may s.registry (s.guardResult p c name result).registry := by
  unfold guardResult
  split
  · exact putGuard_path s c name _
  · exact .refl

end Store

theorem Move.registry_apply_of_inert (s : Store α) (m : Move α) (h : m.isInert = true) :
    (m.apply s).registry = s.registry := by
  cases m with
  | leave caller =>
    unfold apply
    dsimp only
    cases s.callers.leave? caller <;> rfl
  | detach name =>
    unfold apply
    dsimp only
    cases s.guard? name with
    | none => rfl
    | some g => exact s.registry_hold g.entry
  | hold e => exact s.registry_hold e
  | sweep p =>
    unfold apply
    dsimp only
    cases (s.pool p).tracker? with
    | none => rfl
    | some t => exact s.registry_setTracker p _
  | checkLeaks p =>
    unfold apply
    dsimp only
    cases (s.pool p).tracker? with
    | none => rfl
    | some t => exact s.registry_checkLeaks p t
  | clearTracking p =>
    unfold apply
    dsimp only
    cases (s.pool p).tracker? with
    | none => rfl
    | some t => exact s.registry_setTracker p t.clear
  | forget | enter | unhold | unholdAll | wait | readLog => rfl
  | _ => simp [isInert] at h

/-- A call changes the registry by effects, and only a removal that it asks for on an open pool can
close an entry of another list. -/
theorem Move.path {may : PoolId → EntryId → Prop} (s : Store α) (m : Move α)
    (hmay : ∀ p e, m.removal? s = some (p, e) → (s.roster p).closed = false →
      s.state e ≠ .closed → may p e) :
    Path may s.registry (m.apply s).registry := by
  cases m with
  | create name settings detector? => exact s.create_path name settings detector?
  | reserve p => exact s.reserve_path p
  | enable e v acquire => exact s.enable_path e v acquire
  | acquire direct p c => exact s.trackedAcquire_path direct p c
  | settle direct p c e creation =>
    have hs : Path may s.registry (s.settle p c e creation).2.registry :=
      s.settle_path p c e creation fun hf => hmay p e (by simp [removal?, hf])
    exact hs.trans (.of_eq (Store.registry_observeResult _ direct p _))
  | release direct p c e => exact s.trackedRelease_path direct p c e
  | remove direct p e => exact s.trackedRemove_path direct p e (hmay p e rfl)
  | close p => exact s.close_path p
  | lease direct p c name => exact s.lease_path direct p c name
  | settleLease p c name e creation =>
    have hs : Path may s.registry (s.settle p c e creation).2.registry :=
      s.settle_path p c e creation fun hf => hmay p e (by simp [removal?, hf])
    exact hs.trans (Store.guardResult_path _ p c name _)
  | dropGuard c name =>
    unfold apply
    dsimp only
    cases s.guard? name with
    | none => exact .refl
    | some g => exact (s.endGuard name).giveBack_path c g
  | removeGuarded name =>
    unfold apply
    dsimp only
    cases hg : s.guard? name with
    | none => exact .refl
    | some g =>
      have hr : removal? s (.removeGuarded name) = some (g.pool, g.entry) := by
        simp [removal?, hg]
      exact (s.endGuard name).trackedRemove_path g.direct g.pool g.entry (hmay _ _ hr)
  | _ => exact .of_eq (registry_apply_of_inert s _ rfl)

theorem Run.trans {allowed : Store α → Move α → Prop} {s t u : Store α} (h : Run allowed s t)
    (h' : Run allowed t u) : Run allowed s u := by
  induction h' with
  | refl => exact h
  | step _ m proper ok ih => exact ih.step m proper ok

/-- Calls in a row, none of which ends a creation. -/
theorem Run.foldl (s : Store α) (ms : List (Move α)) (h : ∀ m ∈ ms, ∀ t, m.Proper t) :
    Run free s (ms.foldl Move.apply s) := by
  induction ms generalizing s with
  | nil => exact .refl
  | cons m ms ih =>
    have hm : Run free s (m.apply s) := refl.step m (h m (by simp) s) trivial
    exact hm.trans (ih (m.apply s) fun x hx => h x (by simp [hx]))

theorem Run.path {allowed : Store α → Move α → Prop} {s t : Store α} (h : Run allowed s t) :
    Path (fun _ _ => True) s.registry t.registry := by
  induction h with
  | refl => exact .refl
  | step _ m _ _ ih => exact ih.trans (m.path _ fun _ _ _ _ _ => trivial)

theorem Run.mem_reservations {allowed : Store α → Move α → Prop} {s t : Store α}
    (h : Run allowed s t) {p : PoolId} {e : EntryId} (he : e ∈ s.reservations p) :
    e ∈ t.reservations p :=
  (h.path.reservations_prefix p).subset he

end ResourcePool
