import Mathlib.Logic.Function.Basic
import Mathlib.Logic.Relation
import ResourcePool.Proofs.Grants
import ResourcePool.Store.Guards

/-! Registries: what a store says of entries and lists, past counters, hints, guards and trackers.
Every change of a registry is one of six effects. -/
namespace ResourcePool

variable {α : Type}

/-- The list of a pool, with what decides whether it takes another entry. -/
structure Roster where
  members : List EntryId
  closed : Bool
  limit : Nat

def Roster.isFull (r : Roster) : Bool :=
  0 < r.limit && r.limit ≤ r.members.length

def Pool.roster (p : Pool α) : Roster where
  members := p.members
  closed := p.closed
  limit := p.settings.maxEntries

/-- The request that an event grants, with the entry that it was made to. -/
def Event.granted? : Event α → Option (EntryId × Entry.Request α)
  | .enabled e v acquire => some (e, .enable v acquire)
  | .created _ _ e v => some (e, .enable v true)
  | .acquired _ _ e _ => some (e, .acquire)
  | .released _ _ e => some (e, .release)
  | .removed _ e => some (e, .remove)
  | .removedElsewhere _ e => some (e, .remove)
  | .reclaimed _ e => some (e, .remove)
  | _ => none

/-- The entry that an event reserved, with its pool. -/
def Event.reservation? : Event α → Option (PoolId × EntryId)
  | .reserved p e => some (p, e)
  | _ => none

namespace Store

def events (s : Store α) : List (Event α) :=
  s.journal.events.toList

/-- The requests that an entry was granted, in order. -/
def requests (s : Store α) (e : EntryId) : List (Entry.Request α) :=
  ((s.events.filterMap Event.granted?).filter (·.1 = e)).map (·.2)

/-- The entries that a pool reserved, in order. -/
def reservations (s : Store α) (p : PoolId) : List EntryId :=
  ((s.events.filterMap Event.reservation?).filter (·.1 = p)).map (·.2)

def roster (s : Store α) (p : PoolId) : Roster :=
  (s.pool p).roster

end Store

@[ext]
structure Registry (α : Type) where
  /-- How many entries were ever reserved. -/
  size : Nat
  entry : EntryId → Entry α
  roster : PoolId → Roster
  requests : EntryId → List (Entry.Request α)
  reservations : PoolId → List EntryId

def Store.registry (s : Store α) : Registry α where
  size := s.entries.size
  entry := s.entry
  roster := s.roster
  requests := s.requests
  reservations := s.reservations

namespace Registry

def create (v : Registry α) (p : PoolId) (limit : Nat) : Registry α :=
  { v with roster := Function.update v.roster p { members := [], closed := false, limit } }

def reserve (v : Registry α) (p : PoolId) : Registry α :=
  { v with
    size := v.size + 1
    entry := Function.update v.entry v.size .pending
    roster := Function.update v.roster p
      { v.roster p with members := (v.roster p).members ++ [v.size] }
    reservations := Function.update v.reservations p (v.reservations p ++ [v.size]) }

def grant (v : Registry α) (e : EntryId) (r : Entry.Request α) : Registry α :=
  { v with
    entry := Function.update v.entry e ((v.entry e).answer r).2
    requests := Function.update v.requests e (v.requests e ++ [r]) }

/-- Takes an entry from a list. -/
def strike (v : Registry α) (p : PoolId) (e : EntryId) : Registry α :=
  { v with
    roster := Function.update v.roster p
      { v.roster p with members := (v.roster p).members.erase e } }

/-- Closes entries, those that are closed already excepted. -/
def closeAll (v : Registry α) (es : List EntryId) : Registry α :=
  { v with
    entry := fun e => if e ∈ es then .closed (v.entry e).value? else v.entry e
    requests := fun e =>
      if e ∈ es ∧ (v.entry e).state ≠ .closed then v.requests e ++ [.remove] else v.requests e }

/-- Empties a list and closes every entry in it. -/
def close (v : Registry α) (p : PoolId) : Registry α :=
  { v.closeAll (v.roster p).members with
    roster := Function.update v.roster p { v.roster p with members := [], closed := true } }

theorem grant_entry_self (v : Registry α) (e : EntryId) (r : Entry.Request α) :
    (v.grant e r).entry e = ((v.entry e).answer r).2 :=
  Function.update_self ..

theorem grant_entry_of_ne (v : Registry α) {e i : EntryId} (r : Entry.Request α) (h : i ≠ e) :
    (v.grant e r).entry i = v.entry i :=
  Function.update_of_ne h _ _

theorem grant_requests_self (v : Registry α) (e : EntryId) (r : Entry.Request α) :
    (v.grant e r).requests e = v.requests e ++ [r] :=
  Function.update_self ..

theorem grant_requests_of_ne (v : Registry α) {e i : EntryId} (r : Entry.Request α) (h : i ≠ e) :
    (v.grant e r).requests i = v.requests i :=
  Function.update_of_ne h _ _

theorem reserve_entry_self (v : Registry α) (p : PoolId) :
    (v.reserve p).entry v.size = .pending :=
  Function.update_self ..

theorem reserve_entry_of_ne (v : Registry α) (p : PoolId) {e : EntryId} (h : e ≠ v.size) :
    (v.reserve p).entry e = v.entry e :=
  Function.update_of_ne h _ _

theorem reserve_roster_self (v : Registry α) (p : PoolId) :
    (v.reserve p).roster p = { v.roster p with members := (v.roster p).members ++ [v.size] } :=
  Function.update_self ..

theorem reserve_roster_of_ne (v : Registry α) {p q : PoolId} (h : q ≠ p) :
    (v.reserve p).roster q = v.roster q :=
  Function.update_of_ne h _ _

theorem reserve_reservations_self (v : Registry α) (p : PoolId) :
    (v.reserve p).reservations p = v.reservations p ++ [v.size] :=
  Function.update_self ..

theorem reserve_reservations_of_ne (v : Registry α) {p q : PoolId} (h : q ≠ p) :
    (v.reserve p).reservations q = v.reservations q :=
  Function.update_of_ne h _ _

/-- The changes of a registry. An entry may be removed through a pool whose list it is not in if
`may` says so. -/
inductive Effect (may : PoolId → EntryId → Prop) (v : Registry α) : Registry α → Prop
  | create (p : PoolId) (limit : Nat) (h : (v.roster p).members = []) :
      Effect may v (v.create p limit)
  | reserve (p : PoolId) (opened : (v.roster p).closed = false) (room : (v.roster p).isFull = false) :
      Effect may v (v.reserve p)
  | grant (e : EntryId) (r : Entry.Request α) (h : (v.entry e).Grants r) (keeps : r ≠ .remove) :
      Effect may v (v.grant e r)
  | evict (p : PoolId) (e : EntryId) (h : (v.entry e).Grants .remove)
      (listed : e ∈ (v.roster p).members) : Effect may v ((v.grant e .remove).strike p e)
  | disown (p : PoolId) (e : EntryId) (h : (v.entry e).Grants .remove)
      (unlisted : e ∉ (v.roster p).members) (allowed : may p e) : Effect may v (v.grant e .remove)
  | close (p : PoolId) : Effect may v (v.close p)

/-- A reservation is never taken back. -/
theorem Effect.reservations_prefix {may : PoolId → EntryId → Prop} {v w : Registry α}
    (h : Effect may v w) (q : PoolId) : v.reservations q <+: w.reservations q := by
  cases h with
  | reserve p _ _ =>
    by_cases hq : q = p
    · subst hq
      rw [reserve_reservations_self]
      exact List.prefix_append _ _
    · have hs : (v.reserve p).reservations q = v.reservations q := reserve_reservations_of_ne v hq
      exact hs ▸ List.prefix_rfl
  | _ => exact List.prefix_rfl

/-- A sequence of changes. -/
def Path (may : PoolId → EntryId → Prop) : Registry α → Registry α → Prop :=
  Relation.ReflTransGen (Effect may)

namespace Path

variable {may : PoolId → EntryId → Prop} {u v w : Registry α}

theorem refl : Path may v v :=
  Relation.ReflTransGen.refl

theorem trans (h : Path may u v) (h' : Path may v w) : Path may u w :=
  Relation.ReflTransGen.trans h h'

theorem of_effect (h : Effect may v w) : Path may v w :=
  Relation.ReflTransGen.single h

theorem of_eq (h : w = v) : Path may v w :=
  h ▸ refl

/-- What every change keeps, every sequence of changes keeps. -/
theorem keeps {P : Registry α → Prop} (step : ∀ v w, Effect may v w → P v → P w)
    (h : Path may v w) (hv : P v) : P w := by
  induction h with
  | refl => exact hv
  | tail _ he ih => exact step _ _ he ih

theorem reservations_prefix (h : Path may v w) (p : PoolId) :
    v.reservations p <+: w.reservations p :=
  h.keeps (P := fun w => v.reservations p <+: w.reservations p)
    (fun _ _ he hp => hp.trans (he.reservations_prefix p)) List.prefix_rfl

end Path

end Registry

end ResourcePool
