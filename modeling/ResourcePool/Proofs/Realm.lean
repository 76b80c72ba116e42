import ResourcePool.Proofs.Extant
import ResourcePool.Proofs.Orderly

/-! Realms: what belongs to one pool of a store. Two stores are linked when the realm is the same in both, but
for the numbers that its new entries get; everything else in the second one stays as it is in a third. -/
namespace ResourcePool
open Registry

variable {α : Type}

/-- The numbers of entries when others come before those from `base` on. -/
def shiftFrom (base gap e : Nat) : Nat :=
  if e < base then e else e + gap

/-- What belongs to the pool of a name: the entries it reserved below `base`, all those from `base` on, and the
guards of some names. Elsewhere, the entries from `base` on have numbers larger by `gap`. -/
structure Realm where
  pool : PoolId
  name : String
  own : Nat → Prop
  guards : String → Prop
  base : Nat
  gap : Nat
  own_lt : ∀ e, own e → e < base

namespace Realm

/-- The entries that belong to a realm. -/
def mine (R : Realm) (e : Nat) : Prop :=
  R.own e ∨ R.base ≤ e

/-- The number of an entry elsewhere. -/
def shift (R : Realm) : Nat → Nat :=
  shiftFrom R.base R.gap

/-- Whether an entry belongs to a realm and is one of the first `n`. -/
def Has (R : Realm) (n e : Nat) : Prop :=
  R.mine e ∧ e < n

section Shift

variable {R : Realm} {e i n m : Nat}

theorem shift_le_shift_iff : R.shift e ≤ R.shift i ↔ e ≤ i := by
  unfold shift shiftFrom
  split_ifs <;> omega

theorem shift_injective (R : Realm) : Function.Injective R.shift := by
  intro e i h
  have hle : e ≤ i := shift_le_shift_iff.mp h.le
  have hge : i ≤ e := shift_le_shift_iff.mp h.ge
  exact Nat.le_antisymm hle hge

theorem shift_of_lt (he : e < R.base) : R.shift e = e :=
  if_pos he

theorem shift_of_le (he : R.base ≤ e) : R.shift e = e + R.gap :=
  if_neg (Nat.not_lt.mpr he)

theorem shift_lt_iff (hn : R.base ≤ n) : R.shift e < n + R.gap ↔ e < n := by
  unfold shift shiftFrom
  split_ifs <;> omega

/-- No entry of a realm gets the number of an entry that stays outside. -/
theorem ne_shift_of_foreign (he : R.mine e) (hi : i < R.base + R.gap) (hown : ¬ R.own i) :
    i ≠ R.shift e := by
  rintro rfl
  rcases he with he | he
  · exact hown ((shift_of_lt (R.own_lt e he)).symm ▸ he)
  · rw [shift_of_le he] at hi
    omega

theorem Has.mono (h : R.Has n e) (hnm : n ≤ m) : R.Has m e :=
  ⟨h.1, Nat.lt_of_lt_of_le h.2 hnm⟩

end Shift

/-- What a realm is like within one store. -/
structure Private (R : Realm) (t : Store α) : Prop where
  made : R.pool < t.pools.size
  named : t.find? R.name = some R.pool
  reached : R.base ≤ t.entries.size
  refers : (t.pool R.pool).Refers (R.Has t.entries.size) t.entries.size
  held : ∀ e ∈ t.handles, R.mine e → e < t.entries.size
  leased : ∀ name g, R.guards name → t.guard? name = some g →
    g.pool = R.pool ∧ R.Has t.entries.size g.entry

/-- Outside a realm, a store is like another one. -/
structure Aside (R : Realm) (rest u : Store α) : Prop where
  pools : ∀ q ≠ R.pool, u.pool q = rest.pool q
  known : u.pools.size = rest.pools.size
  entries : ∀ e < R.base + R.gap, ¬ R.own e → u.entry e = rest.entry e
  reservations : ∀ q ≠ R.pool, u.reservations q = rest.reservations q
  handles : ∀ e < R.base + R.gap, ¬ R.own e → (e ∈ u.handles ↔ e ∈ rest.handles)
  guards : ∀ name, ¬ R.guards name → u.guard? name = rest.guard? name
  names : u.names = rest.names
  callers : u.callers = rest.callers
  clock : u.now = rest.now

/-- A realm is the same in two stores, but for the numbers of its new entries; outside it, the second store is
like a third one. -/
structure Linked (R : Realm) (rest t u : Store α) : Prop extends R.Private t, R.Aside rest u where
  there : R.pool < u.pools.size
  found : u.find? R.name = some R.pool
  size : u.entries.size = t.entries.size + R.gap
  pool : u.pool R.pool = (t.pool R.pool).renumber R.shift
  entry : ∀ e, R.mine e → u.entry (R.shift e) = t.entry e
  reserved : u.reservations R.pool = (t.reservations R.pool).map R.shift
  handle : ∀ e, R.mine e → (R.shift e ∈ u.handles ↔ e ∈ t.handles)
  guard : ∀ name, R.guards name → u.guard? name = (t.guard? name).map (·.renumber R.shift)
  draws : u.draws = t.draws
  now : u.now = t.now

end Realm

/-! ### Small updates of a store -/

namespace Store

theorem entry_setEntry_eq (s : Store α) (e i : EntryId) (x : Entry α) :
    (s.setEntry e x).entry i = if i = e ∧ e < s.entries.size then x else s.entry i := by
  by_cases he : e < s.entries.size
  · rw [s.entry_setEntry he, Function.update_apply]
    simp only [he, and_true]
  · have hsame : (s.setEntry e x).entries = s.entries :=
      Array.setIfInBounds_eq_of_size_le (Nat.not_lt.mp he)
    rw [if_neg fun h => he h.2, entry, hsame, entry]

theorem size_setEntry (s : Store α) (e : EntryId) (x : Entry α) :
    (s.setEntry e x).entries.size = s.entries.size :=
  Array.size_setIfInBounds

theorem guard?_endGuard (s : Store α) (name other : String) :
    (s.endGuard name).guard? other = if other = name then none else s.guard? other :=
  lookup_filter s.guards name other

/-- Stores a guard under a name that has none any more. -/
def storeGuard (s : Store α) (name : String) (g : Guard) : Store α :=
  { s.endGuard name with guards := (name, g) :: (s.endGuard name).guards }

theorem guard?_storeGuard (s : Store α) (name other : String) (g : Guard) :
    (s.storeGuard name g).guard? other = if other = name then some g else s.guard? other := by
  have hother := s.guard?_endGuard name other
  unfold guard? storeGuard at *
  rw [List.lookup_cons]
  by_cases h : other = name
  · simp [h]
  · rw [beq_false_of_ne h, if_neg h]
    rwa [if_neg h] at hother

theorem reservations_note (s : Store α) {x : Event α} (hx : x.reservation? = none) :
    (s.note x).reservations = s.reservations := by
  funext p
  simp [reservations, events_note, hx]

theorem reservations_note_reserved (s : Store α) (p q : PoolId) (e : EntryId) :
    (s.note (.reserved p e)).reservations q =
      if q = p then s.reservations q ++ [e] else s.reservations q := by
  have hr := congrFun (congrArg Registry.reservations (s.registry_note_reserved p e)) q
  change (s.note (.reserved p e)).reservations q = Function.update s.reservations p _ q at hr
  rw [hr, Function.update_apply]
  split_ifs with hq
  · rw [hq]
  · rfl

end Store

/-! ### Linked stores -/

namespace Realm.Linked
open Store

variable {R : Realm} {rest t u : Store α} {e : EntryId}

theorem note (h : R.Linked rest t u) {x y : Event α} (hx : x.reservation? = none)
    (hy : y.reservation? = none) : R.Linked rest (t.note x) (u.note y) :=
  { h with
    toPrivate := { h.toPrivate with }
    toAside := { h.toAside with
      reservations := fun q hq => (congrFun (u.reservations_note hy) q).trans (h.reservations q hq) }
    reserved := by rw [t.reservations_note hx, u.reservations_note hy, h.reserved] }

theorem noteReserved (h : R.Linked rest t u) (e : EntryId) :
    R.Linked rest (t.note (.reserved R.pool e)) (u.note (.reserved R.pool (R.shift e))) :=
  { h with
    toPrivate := { h.toPrivate with }
    toAside := { h.toAside with
      reservations := fun q hq => by
        rw [reservations_note_reserved, if_neg hq]
        exact h.reservations q hq }
    reserved := by
      rw [reservations_note_reserved, reservations_note_reserved, if_pos rfl, if_pos rfl, h.reserved,
        List.map_append]
      rfl }

theorem shift_lt (h : R.Linked rest t u) : R.shift e < u.entries.size ↔ e < t.entries.size :=
  h.size.symm ▸ shift_lt_iff h.reached

theorem setEntry (h : R.Linked rest t u) (he : R.mine e) (x : Entry α) :
    R.Linked rest (t.setEntry e x) (u.setEntry (R.shift e) x) :=
  { h with
    toPrivate := by
      have ht := h.toPrivate
      refine ⟨ht.made, ht.named, ?_, ?_, ?_, ?_⟩ <;> rw [size_setEntry]
      · exact ht.reached
      · exact ht.refers
      · exact ht.held
      · exact ht.leased
    toAside := { h.toAside with
      entries := fun i hi hown => by
        rw [entry_setEntry_eq, if_neg fun hx => ne_shift_of_foreign he hi hown hx.1]
        exact h.entries i hi hown }
    size := by rw [size_setEntry, size_setEntry, h.size]
    entry := fun i hi => by
      rw [entry_setEntry_eq, entry_setEntry_eq, h.entry i hi]
      simp only [h.shift_lt, R.shift_injective.eq_iff] }

theorem modify (h : R.Linked rest t u) {f g : Pool α → Pool α}
    (hfg : g ((t.pool R.pool).renumber R.shift) = (f (t.pool R.pool)).renumber R.shift)
    (hf : (f (t.pool R.pool)).Refers (R.Has t.entries.size) t.entries.size) :
    R.Linked rest (t.modifyPool R.pool f) (u.modifyPool R.pool g) :=
  { h with
    toPrivate := { h.toPrivate with
      made := (size_modifyPool t R.pool f).symm ▸ h.made
      refers := (pool_modifyPool_self h.made f).symm ▸ hf }
    toAside := { h.toAside with
      pools := fun q hq => by
        rw [pool_modifyPool, if_neg fun hx => hq hx.1]
        exact h.pools q hq
      known := (size_modifyPool u R.pool g).trans h.known }
    there := (size_modifyPool u R.pool g).symm ▸ h.there
    pool := by rw [pool_modifyPool_self h.there, pool_modifyPool_self h.made, h.pool, hfg] }

theorem count (h : R.Linked rest t u) (f : Counters → Counters) :
    R.Linked rest (t.count R.pool f) (u.count R.pool f) := by
  refine h.modify rfl ?_
  exact { h.refers with }

/-- A new entry is of the realm; its number is the next one in either store. -/
theorem push (h : R.Linked rest t u) (x : Entry α) :
    R.Linked rest { t with entries := t.entries.push x } { u with entries := u.entries.push x } :=
  { h with
    toPrivate := by
      have hsize : t.entries.size ≤ (t.entries.push x).size := by simp
      exact { h.toPrivate with
        reached := h.reached.trans hsize
        refers := h.refers.mono (fun _ he => he.mono hsize) hsize
        held := fun e he hm => Nat.lt_of_lt_of_le (h.held e he hm) hsize
        leased := fun name g hname hg => (h.leased name g hname hg).imp_right fun he => he.mono hsize }
    toAside := { h.toAside with
      entries := fun e he hown => by
        have hlt : e < u.entries.size := Nat.lt_of_lt_of_le he (h.size ▸ Nat.add_le_add_right h.reached _)
        rw [entry_push, Function.update_of_ne (Nat.ne_of_lt hlt)]
        exact h.entries e he hown }
    size := by
      rw [Array.size_push, Array.size_push, h.size]
      omega
    entry := fun e he => by
      have hnext : R.shift e = u.entries.size ↔ e = t.entries.size := by
        rw [h.size, ← shift_of_le h.reached]
        exact R.shift_injective.eq_iff
      rw [entry_push, entry_push, Function.update_apply, Function.update_apply, h.entry e he]
      simp only [hnext] }

theorem hold (h : R.Linked rest t u) (he : R.Has t.entries.size e) :
    R.Linked rest (t.hold e) (u.hold (R.shift e)) := by
  rw [t.hold_eq, u.hold_eq]
  exact { h with
    toPrivate := { h.toPrivate with
      held := fun i hi hm => by
        rcases (t.mem_hold e i).mp hi with hi | rfl
        · exact h.held i hi hm
        · exact he.2 }
    toAside := { h.toAside with
      handles := fun i hi hown => by
        refine (u.mem_hold (R.shift e) i).trans ((or_iff_left ?_).trans (h.handles i hi hown))
        exact ne_shift_of_foreign he.1 hi hown }
    handle := fun i hi => by
      refine (u.mem_hold (R.shift e) _).trans (Iff.trans ?_ (t.mem_hold e i).symm)
      exact or_congr (h.handle i hi) R.shift_injective.eq_iff }

theorem unhold (h : R.Linked rest t u) (he : R.mine e) :
    R.Linked rest (t.unhold e) (u.unhold (R.shift e)) :=
  { h with
    toPrivate := { h.toPrivate with
      held := fun i hi hm => h.held i ((t.mem_unhold e i).mp hi).1 hm }
    toAside := { h.toAside with
      handles := fun i hi hown => by
        refine (u.mem_unhold (R.shift e) i).trans ((and_iff_left ?_).trans (h.handles i hi hown))
        exact ne_shift_of_foreign he hi hown }
    handle := fun i hi => by
      refine (u.mem_unhold (R.shift e) _).trans (Iff.trans ?_ (t.mem_unhold e i).symm)
      exact and_congr (h.handle i hi) R.shift_injective.ne_iff }

/-- A guard of the realm ends, or another takes its name. -/
theorem setGuard (h : R.Linked rest t u) {name : String} (hname : R.guards name) (g? : Option Guard)
    (hg : ∀ g, g? = some g → g.pool = R.pool ∧ R.Has t.entries.size g.entry)
    {gs gs' : List (String × Guard)}
    (ht : ∀ other, gs.lookup other = if other = name then g? else t.guard? other)
    (hu : ∀ other, gs'.lookup other =
      if other = name then g?.map (·.renumber R.shift) else u.guard? other) :
    R.Linked rest { t with guards := gs } { u with guards := gs' } :=
  { h with
    toPrivate := { h.toPrivate with
      leased := fun other g hother hfound => by
        have hfound : gs.lookup other = some g := hfound
        rw [ht] at hfound
        split_ifs at hfound
        · exact hg g hfound
        · exact h.leased other g hother hfound }
    toAside := { h.toAside with
      guards := fun other hother => by
        refine (hu other).trans ((if_neg ?_).trans (h.guards other hother))
        rintro rfl
        exact hother hname }
    guard := fun other hother => by
      have hsame := h.guard other hother
      change gs'.lookup other = (gs.lookup other).map _
      rw [ht, hu]
      split_ifs
      · rfl
      · exact hsame }

theorem endGuard (h : R.Linked rest t u) {name : String} (hname : R.guards name) :
    R.Linked rest (t.endGuard name) (u.endGuard name) :=
  h.setGuard hname none (fun _ hg => nomatch hg) (t.guard?_endGuard name) (u.guard?_endGuard name)

theorem storeGuard (h : R.Linked rest t u) {name : String} (hname : R.guards name) {g : Guard}
    (hp : g.pool = R.pool) (hg : R.Has t.entries.size g.entry) :
    R.Linked rest (t.storeGuard name g) (u.storeGuard name (g.renumber R.shift)) :=
  h.setGuard hname (some g) (fun _ hx => Option.some.inj hx ▸ ⟨hp, hg⟩)
    (fun other => t.guard?_storeGuard name other g)
    fun other => u.guard?_storeGuard name other (g.renumber R.shift)

theorem draw (h : R.Linked rest t u) (draws : List Nat) :
    R.Linked rest { t with draws } { u with draws } :=
  { h with
    toPrivate := { h.toPrivate with }
    toAside := { h.toAside with }
    draws := rfl }

theorem readLog (h : R.Linked rest t u) : R.Linked rest t.takeLog.2 u.takeLog.2 :=
  { h with
    toPrivate := { h.toPrivate with }
    toAside := { h.toAside with } }

end Realm.Linked

end ResourcePool
