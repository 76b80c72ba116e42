import ResourcePool.Proofs.Realm.Programs

/-! Independence: when entries are used through the pools that reserved them only, pools do not interfere. A
step on one of them leaves the others as they are, and depends on none of them. -/
namespace ResourcePool
open Registry

variable {α : Type}

/-! ### Stores whose pools keep apart -/

/-- Orderly stores of entries that exist, with guards of the pools that reserved them. -/
structure Store.Apart (s : Store α) : Prop extends s.Orderly, s.Extant where
  guarded : ∀ x ∈ s.guards, x.2.entry ∈ s.reservations x.2.pool

theorem History.leases_own {allowed : Store α → Move α → Prop} {draws : List Nat} {s : Store α}
    {calls : List (Called α)} (h : History allowed (.blank draws) calls s)
    (own : ∀ x ∈ calls, x.2.OnOwn x.1) : ∀ x ∈ s.guards, x.2.entry ∈ s.reservations x.2.pool := by
  induction h with
  | start => exact fun _ hx => absurd hx List.not_mem_nil
  | @move calls t hprev m proper ok ih =>
    have hold : ∀ x ∈ calls, x.2.OnOwn x.1 := fun x hx => own x (List.mem_append_left _ hx)
    have ht : t.Orderly := hprev.trace.orderly hold
    have hpath : Path (fun _ _ => True) t.registry (m.apply t).registry := m.path t fun _ _ _ _ _ => trivial
    intro x hx
    refine (hpath.reservations_prefix x.2.pool).subset ?_
    rcases Move.mem_guards hx with hx | ⟨d, r, hd, hsite, hgranted, -⟩
    · exact ih hold x hx
    · have hown : d.OnOwn t := own (t, d) (List.mem_append_right _ hd)
      rcases ht.own_of_granted hown (m.fulfilsOwn proper (t, d) hd) hgranted with
        ⟨v, atOnce, rfl⟩ | ⟨q, hq, hmem⟩
      · exact nomatch hsite
      · rw [Option.some.inj (hsite.symm.trans hq)]
        exact hmem

theorem History.apart {draws : List Nat} {s : Store α} {calls : List (Called α)}
    (h : History tidy (.blank draws) calls s) (own : ∀ x ∈ calls, x.2.OnOwn x.1) : s.Apart where
  toOrderly := h.trace.orderly own
  toExtant := h.run.extant
  guarded := h.leases_own own

/-- Two stores are the same for a pool: the pool itself, the entries it reserved, the guards of some names, and
what all pools share. -/
structure Store.SameFor (s t : Store α) (p : PoolId) (name : String) (guards : String → Prop) : Prop where
  room : s.entries.size ≤ t.entries.size
  made : p < t.pools.size
  named : t.find? name = s.find? name
  pool : t.pool p = s.pool p
  reservations : t.reservations p = s.reservations p
  entry : ∀ e ∈ s.reservations p, t.entry e = s.entry e
  handle : ∀ e ∈ s.reservations p, (e ∈ t.handles ↔ e ∈ s.handles)
  guard : ∀ guard, guards guard → t.guard? guard = s.guard? guard
  draws : t.draws = s.draws
  now : t.now = s.now

/-- What a store keeps when something is done to one pool: all other pools, the entries they reserved, the
handles on these, and all guards but those of some names. -/
structure Store.Spares (s t : Store α) (p : PoolId) (guards : String → Prop) : Prop where
  pool : ∀ q ≠ p, t.pool q = s.pool q
  reservations : ∀ q ≠ p, t.reservations q = s.reservations q
  entry : ∀ q ≠ p, ∀ e ∈ s.reservations q, t.entry e = s.entry e
  handle : ∀ q ≠ p, ∀ e ∈ s.reservations q, (e ∈ t.handles ↔ e ∈ s.handles)
  guard : ∀ guard, ¬ guards guard → t.guard? guard = s.guard? guard
  names : t.names = s.names
  callers : t.callers = s.callers
  now : t.now = s.now

/-- The entries that a pool reserved and those that are still to come. -/
def Store.Owns (s : Store α) (p : PoolId) (e : EntryId) : Prop :=
  e ∈ s.reservations p ∨ s.entries.size ≤ e

/-- A step on a pool in a store: it names the pool, its own entries, and guards that are its own. -/
structure Program.Step.OnPool (step : Program.Step) (s : Store String) (p : PoolId) (name : String)
    (guards : String → Prop) : Prop where
  made : p < s.pools.size
  named : s.find? name = some p
  guarded : ∀ guard g, guards guard → s.guard? guard = some g → g.pool = p
  on : step.On name (s.Owns p) guards

/-- The same stores but for the numbers of entries, the order of handles and guards, and the journal. -/
structure Store.Renumbered (π : EntryId → EntryId) (s t : Store α) : Prop where
  size : t.entries.size = s.entries.size
  entry : ∀ e, t.entry (π e) = s.entry e
  known : t.pools.size = s.pools.size
  pool : ∀ r, t.pool r = (s.pool r).renumber π
  reservations : ∀ r, t.reservations r = (s.reservations r).map π
  handle : ∀ e, π e ∈ t.handles ↔ e ∈ s.handles
  guard : ∀ name, t.guard? name = (s.guard? name).map (·.renumber π)
  names : t.names = s.names
  callers : t.callers = s.callers
  draws : t.draws = s.draws
  now : t.now = s.now

namespace Store.Apart

variable {s t : Store α}

/-- The realm of a pool, with room for more entries before its new ones. -/
def realm (hs : s.Apart) (p : PoolId) (name : String) (guards : String → Prop) (gap : Nat) : Realm where
  pool := p
  name
  own e := e ∈ s.reservations p
  guards
  base := s.entries.size
  gap
  own_lt := hs.sound.bounded p

/-- Pools list, hint at and track entries that exist. -/
theorem refers (hs : s.Apart) (p : PoolId) :
    (s.pool p).Refers (fun e => e ∈ s.reservations p) s.entries.size where
  listed _ he := (hs.sound.listed p).subset he
  hinted y hy := hs.hinted p y.1 y.2 hy
  tracked := hs.tracked p

/-- A step on a pool finds its realm in any store that is the same for the pool. -/
theorem inStep (hs : s.Apart) {p : PoolId} {name : String} {guards : String → Prop} (made : p < s.pools.size)
    (named : s.find? name = some p)
    (guarded : ∀ guard g, guards guard → s.guard? guard = some g → g.pool = p)
    (same : s.SameFor t p name guards) (held : ∀ e ∈ t.handles, e < t.entries.size) :
    (hs.realm p name guards (t.entries.size - s.entries.size)).InStep t s t := by
  let R := hs.realm p name guards (t.entries.size - s.entries.size)
  have hsize : t.entries.size = s.entries.size + (t.entries.size - s.entries.size) := by
    have hroom := same.room
    omega
  have hfixed : ∀ e < s.entries.size, R.shift e = e := fun e he => if_pos he
  have hown : ∀ e ∈ s.reservations p, e < s.entries.size := hs.sound.bounded p
  have hnew : ∀ e, s.entries.size ≤ e → t.entries.size ≤ R.shift e := by
    intro e he
    rw [Realm.shift_of_le he, hsize]
    exact Nat.add_le_add_right he _
  exact {
    made
    named
    reached := Nat.le_refl _
    refers := (hs.refers p).mono (fun e he => ⟨.inl he, hown e he⟩) (Nat.le_refl _)
    held := fun e he _ => hs.held e he
    leased := fun guard g hguard hg => by
      have hp := guarded guard g hguard hg
      have hmem := hs.guarded (guard, g) (Store.mem_guards_of_guard? hg)
      exact ⟨hp, .inl (hp ▸ hmem), hs.leased (guard, g) (Store.mem_guards_of_guard? hg)⟩
    pools := fun _ _ => rfl
    known := rfl
    entries := fun _ _ _ => rfl
    reservations := fun _ _ => rfl
    handles := fun _ _ _ => Iff.rfl
    guards := fun _ _ => rfl
    names := rfl
    callers := rfl
    clock := rfl
    there := same.made
    found := same.named.trans named
    size := hsize
    pool := by
      have hself : (s.pool p).renumber R.shift = s.pool p :=
        Pool.renumber_eq_self (hs.refers p) (fun e he => hfixed e (hown e he)) hfixed
      exact same.pool.trans hself.symm
    entry := fun e he => by
      rcases he with he | he
      · rw [hfixed e (hown e he)]
        exact same.entry e he
      · rw [s.entry_of_size_le he, t.entry_of_size_le (hnew e he)]
    reserved := by
      have hself : (s.reservations p).map R.shift = s.reservations p :=
        (List.map_congr_left fun e he => hfixed e (hown e he)).trans (List.map_id' _)
      exact same.reservations.trans hself.symm
    handle := fun e he => by
      rcases he with he | he
      · rw [hfixed e (hown e he)]
        exact same.handle e he
      · exact iff_of_false (fun h => Nat.not_lt.mpr (hnew e he) (held _ h))
          fun h => Nat.not_lt.mpr he (hs.held e h)
    guard := fun guard hguard => by
      rw [same.guard guard hguard]
      cases hg : s.guard? guard with
      | none => rfl
      | some g =>
        have hlt := hs.leased (guard, g) (Store.mem_guards_of_guard? hg)
        exact congrArg (fun e => some { g with entry := e }) (hfixed g.entry hlt).symm
    draws := same.draws
    now := same.now
    kept := fun e he hopen => by
      rcases he with he | he
      · exact hs.mem_of_own he hopen
      · exact absurd (congrArg Entry.state (s.entry_of_size_le he)) hopen }

/-- What stays within a realm leaves no handles on entries that do not exist. -/
theorem held_of_inStep {p : PoolId} {name : String} {guards : String → Prop} (hs : s.Apart)
    (h : (hs.realm p name guards 0).InStep s t t) : ∀ e ∈ t.handles, e < t.entries.size := by
  intro e he
  by_cases hnew : s.entries.size ≤ e
  · exact h.held e he (.inr hnew)
  · exact Nat.lt_of_lt_of_le (Nat.not_le.mp hnew) h.reached

end Store.Apart

/-! ### One step -/

namespace Program

theorem Action.renumber_id (a : Action) : a.renumber id = a := by
  cases a with
  | invalid held? pool? field => rw [Action.renumber, Option.map_id_fun, id]
  | _ => rfl

mutual

theorem Step.renumber_id (step : Step) : step.renumber id = step := by
  cases step with
  | act a => rw [Step.renumber, a.renumber_id]
  | acquireWith name direct steps creation => rw [Step.renumber, renumberSteps_id steps]
  | leaseWith name guard steps creation => rw [Step.renumber, renumberSteps_id steps]
  | warmup name count value at? steps panics => rw [Step.renumber, renumberSteps_id steps]

theorem renumberSteps_id (steps : List Step) : renumberSteps id steps = steps := by
  cases steps with
  | nil => rfl
  | cons step steps => rw [renumberSteps, step.renumber_id, renumberSteps_id steps]

end

namespace Step.OnPool

variable {s t : Store String} {p : PoolId} {name : String} {guards : String → Prop} {a : Step}

/-- In a store that is the same for the pool, a step on it goes the same way. -/
theorem follows (ha : a.OnPool s p name guards) (hs : s.Apart) (v : View) (c : CallerId)
    (same : s.SameFor t p name guards) (held : ∀ e ∈ t.handles, e < t.entries.size) :
    Follows (hs.realm p name guards (t.entries.size - s.entries.size)) t (a.run v c s)
      ((a.renumber (shiftFrom s.entries.size (t.entries.size - s.entries.size))).run v c t) :=
  step_follows v c a ha.on (hs.inStep ha.made ha.named ha.guarded same held)

/-- A step on a pool stays within its realm. -/
theorem inStep (ha : a.OnPool s p name guards) (hs : s.Apart) (v : View) (c : CallerId) :
    (hs.realm p name guards 0).InStep s (a.run v c s).2 (a.run v c s).2 := by
  have same : s.SameFor s p name guards :=
    ⟨Nat.le_refl _, ha.made, rfl, rfl, rfl, fun _ _ => rfl, fun _ _ => Iff.rfl, fun _ _ => rfl, rfl, rfl⟩
  have hfollows := ha.follows hs v c same hs.held
  have hid : shiftFrom s.entries.size 0 = id := funext fun e => by simp [shiftFrom]
  rw [Nat.sub_self, hid, a.renumber_id] at hfollows
  exact hfollows.2

theorem spares (ha : a.OnPool s p name guards) (hs : s.Apart) (v : View) (c : CallerId) :
    s.Spares (a.run v c s).2 p guards := by
  have h := ha.inStep hs v c
  have hforeign : ∀ q ≠ p, ∀ e ∈ s.reservations q, e < s.entries.size + 0 ∧ e ∉ s.reservations p :=
    fun q hq e he => ⟨hs.sound.bounded q e he, fun hp => hq (hs.sound.disjoint q p e he hp)⟩
  exact {
    pool := h.pools
    reservations := h.reservations
    entry := fun q hq e he => h.entries e (hforeign q hq e he).1 (hforeign q hq e he).2
    handle := fun q hq e he => h.handles e (hforeign q hq e he).1 (hforeign q hq e he).2
    guard := h.guards
    names := h.names
    callers := h.callers
    now := h.clock }

/-- Handles are of entries that exist after a step too. -/
theorem held (ha : a.OnPool s p name guards) (hs : s.Apart) (v : View) (c : CallerId) :
    ∀ e ∈ (a.run v c s).2.handles, e < (a.run v c s).2.entries.size :=
  hs.held_of_inStep (ha.inStep hs v c)

/-- After a step on another pool that draws no number, the store is the same for this one. -/
theorem sameFor {q : PoolId} {name' : String} {guards' : String → Prop} {b : Step}
    (ha : a.OnPool s p name guards) (hb : b.OnPool s q name' guards') (hs : s.Apart) (hpq : p ≠ q)
    (hguards : ∀ guard, guards guard → ¬ guards' guard) (v : View) (d : CallerId)
    (hdraws : (b.run v d s).2.draws = s.draws) : s.SameFor (b.run v d s).2 p name guards := by
  have h := hb.inStep hs v d
  have hspared := hb.spares hs v d
  exact {
    room := h.reached
    made := h.known ▸ ha.made
    named := congrArg (List.lookup name) hspared.names
    pool := hspared.pool p hpq
    reservations := hspared.reservations p hpq
    entry := hspared.entry p hpq
    handle := hspared.handle p hpq
    guard := fun guard hguard => hspared.guard guard (hguards guard hguard)
    draws := hdraws
    now := hspared.now }

end Step.OnPool

end Program

/-! ### Two steps -/

/-- Two rows of numbers from `n` on, `k` and `l` long, change places. -/
def exchange (n k l e : Nat) : Nat :=
  if e < n then e else if e < n + k then e + l else if e < n + k + l then e - k else e

theorem exchange_exchange (n k l e : Nat) : exchange n l k (exchange n k l e) = e := by
  unfold exchange
  split_ifs <;> omega

theorem exchange_bijective (n k l : Nat) : Function.Bijective (exchange n k l) :=
  Function.bijective_iff_has_inverse.mpr ⟨exchange n l k, exchange_exchange n k l, exchange_exchange n l k⟩

section Exchange

variable {n k l e : Nat}

theorem exchange_of_lt (he : e < n) : exchange n k l e = e :=
  if_pos he

/-- The first row moves as when the second one comes before it. -/
theorem exchange_of_lt_add (he : e < n + k) : exchange n k l e = shiftFrom n l e := by
  unfold exchange shiftFrom
  split_ifs <;> rfl

/-- The second row moves to where it is without the first one. -/
theorem exchange_shiftFrom (he : e < n + l) : exchange n k l (shiftFrom n k e) = e := by
  unfold exchange shiftFrom
  split_ifs <;> omega

end Exchange

/-- What two steps make of things that belong to the entries, one by one, in either order. -/
theorem agree_exchange {β : Type} {n k l : Nat} {own own' : Nat → Prop} {f f₁ f₂ f₁₂ f₂₁ : Nat → β} {z : β}
    (hown : ∀ e, own e → e < n ∧ ¬ own' e) (hown' : ∀ e, own' e → e < n)
    (h₁ : ∀ e < n, ¬ own e → f₁ e = f e) (h₂ : ∀ e < n, ¬ own' e → f₂ e = f e)
    (hend₁ : ∀ e, n + k ≤ e → f₁ e = z) (hend₂ : ∀ e, n + l ≤ e → f₂ e = z)
    (h₁₂ : ∀ e, own' e ∨ n ≤ e → f₁₂ (shiftFrom n k e) = f₂ e) (h₁₂' : ∀ e < n + k, ¬ own' e → f₁₂ e = f₁ e)
    (h₂₁ : ∀ e, own e ∨ n ≤ e → f₂₁ (shiftFrom n l e) = f₁ e) (h₂₁' : ∀ e < n + l, ¬ own e → f₂₁ e = f₂ e)
    (e : Nat) : f₂₁ (exchange n k l e) = f₁₂ e := by
  by_cases hold : e < n
  · have hfix : exchange n k l e = e := if_pos hold
    rw [hfix]
    by_cases ho : own e
    · have hfix : shiftFrom n l e = e := if_pos hold
      rw [h₁₂' e (by omega) (hown e ho).2, ← h₂₁ e (.inl ho), hfix]
    · rw [h₂₁' e (by omega) ho]
      by_cases ho' : own' e
      · have hfix : shiftFrom n k e = e := if_pos hold
        rw [← h₁₂ e (.inl ho'), hfix]
      · rw [h₂ e hold ho', h₁₂' e (by omega) ho', h₁ e hold ho]
  by_cases hfirst : e < n + k
  · rw [exchange_of_lt_add hfirst, h₂₁ e (.inr (by omega)), h₁₂' e hfirst fun ho' => hold (hown' e ho')]
  -- From here on, `e - k` is the number of the entry after the second step alone.
  have hshift : shiftFrom n k (e - k) = e := by
    unfold shiftFrom
    split_ifs <;> omega
  have hsecond : f₁₂ e = f₂ (e - k) := by
    rw [← h₁₂ (e - k) (.inr (by omega)), hshift]
  by_cases hlast : e < n + k + l
  · have hback : exchange n k l e = e - k := by
      unfold exchange
      rw [if_neg hold, if_neg hfirst, if_pos hlast]
    rw [hback, hsecond]
    exact h₂₁' (e - k) (by omega) fun ho => by
      have hlt := (hown _ ho).1
      omega
  · have hstay : exchange n k l e = shiftFrom n l (e - l) := by
      unfold exchange shiftFrom
      split_ifs <;> omega
    rw [hstay, h₂₁ (e - l) (.inr (by omega)), hsecond, hend₁ (e - l) (by omega), hend₂ (e - k) (by omega)]

/-- What two steps make of things that refer to entries, one by one, in either order. -/
theorem agree_renumbered {ι β : Type} (act : (Nat → Nat) → β → β) {n k l : Nat} {mine others : ι → Prop}
    {f f₁ f₂ f₁₂ f₂₁ : ι → β} (apart : ∀ i, mine i → ¬ others i)
    (h₁ : ∀ i, ¬ mine i → f₁ i = f i) (h₂ : ∀ i, ¬ others i → f₂ i = f i)
    (h₁₂ : ∀ i, others i → f₁₂ i = act (shiftFrom n k) (f₂ i)) (h₁₂' : ∀ i, ¬ others i → f₁₂ i = f₁ i)
    (h₂₁ : ∀ i, mine i → f₂₁ i = act (shiftFrom n l) (f₁ i)) (h₂₁' : ∀ i, ¬ mine i → f₂₁ i = f₂ i)
    (hrest : ∀ i, act (exchange n k l) (f i) = f i)
    (hfirst : ∀ i, mine i → act (exchange n k l) (f₁ i) = act (shiftFrom n l) (f₁ i))
    (hsecond : ∀ i, others i → act (exchange n k l) (act (shiftFrom n k) (f₂ i)) = f₂ i) (i : ι) :
    f₂₁ i = act (exchange n k l) (f₁₂ i) := by
  by_cases hmine : mine i
  · rw [h₂₁ i hmine, h₁₂' i (apart i hmine), hfirst i hmine]
  by_cases hothers : others i
  · rw [h₂₁' i hmine, h₁₂ i hothers, hsecond i hothers]
  · rw [h₂₁' i hmine, h₁₂' i hothers, h₁ i hmine, h₂ i hothers, hrest i]

/-- Two changes of a store in different realms lead to the same store in either order. -/
theorem Store.Apart.exchanged {s s₁ s₂ x y : Store α} (hs : s.Apart) {p q : PoolId} {name name' : String}
    {guards guards' : String → Prop} {k l : Nat} (hpq : p ≠ q)
    (hguards : ∀ guard, guards guard → ¬ guards' guard)
    (alone : (hs.realm p name guards 0).InStep s s₁ s₁) (alone' : (hs.realm q name' guards' 0).InStep s s₂ s₂)
    (later : (hs.realm p name guards l).InStep s₂ s₁ y) (later' : (hs.realm q name' guards' k).InStep s₁ s₂ x)
    (hk : s₁.entries.size = s.entries.size + k) (hl : s₂.entries.size = s.entries.size + l)
    (sound : s₁.registry.Sound) (sound' : s₂.registry.Sound)
    (hdraws : s₁.draws = s.draws) (hdraws' : s₂.draws = s.draws) :
    x.Renumbered (exchange s.entries.size k l) y := by
  let π := exchange s.entries.size k l
  have hown : ∀ e, e ∈ s.reservations p → e < s.entries.size ∧ e ∉ s.reservations q :=
    fun e he => ⟨hs.sound.bounded p e he, fun he' => hpq (hs.sound.disjoint p q e he he')⟩
  have hown' : ∀ e, e ∈ s.reservations q → e < s.entries.size := hs.sound.bounded q
  have hapart : ∀ r, r = p → ¬ r = q := fun _ hr => hr ▸ hpq
  -- What there was before, what the first change adds, and what the second one does.
  have hrest : ∀ e < s.entries.size, π e = e := fun e => exchange_of_lt
  have hfirst : ∀ e < s₁.entries.size, π e = shiftFrom s.entries.size l e :=
    fun e he => exchange_of_lt_add (hk ▸ he)
  have hsecond : ∀ e < s₂.entries.size, π (shiftFrom s.entries.size k e) = e :=
    fun e he => exchange_shiftFrom (hl ▸ he)
  exact {
    size := by
      have hx : x.entries.size = s₂.entries.size + k := later'.size
      have hy : y.entries.size = s₁.entries.size + l := later.size
      omega
    entry := agree_exchange (z := .closed none) hown hown' alone.entries alone'.entries
      (fun e he => s₁.entry_of_size_le (hk ▸ he)) (fun e he => s₂.entry_of_size_le (hl ▸ he))
      later'.entry later'.entries later.entry later.entries
    known := (later.known.trans alone'.known).trans (later'.known.trans alone.known).symm
    pool := agree_renumbered Pool.renumber hapart alone.pools alone'.pools
      (fun r hr => hr ▸ later'.pool) later'.pools (fun r hr => hr ▸ later.pool) later.pools
      (fun r => Pool.renumber_eq_self (hs.refers r) (fun e he => hrest e (hs.sound.bounded r e he)) hrest)
      (fun r hr => hr ▸ Pool.renumber_congr alone.refers (fun e he => hfirst e he.2) hfirst)
      fun r hr => by
        rw [Pool.renumber_renumber]
        exact hr ▸ Pool.renumber_eq_self alone'.refers (fun e he => hsecond e he.2) hsecond
    reservations := agree_renumbered List.map hapart alone.reservations alone'.reservations
      (fun r hr => hr ▸ later'.reserved) later'.reservations (fun r hr => hr ▸ later.reserved) later.reservations
      (fun r => (List.map_congr_left fun e he => hrest e (hs.sound.bounded r e he)).trans (List.map_id' _))
      (fun r _ => List.map_congr_left fun e he => hfirst e (sound.bounded r e he))
      fun r _ => by
        rw [List.map_map]
        exact (List.map_congr_left fun e he => hsecond e (sound'.bounded r e he)).trans (List.map_id' _)
    handle := fun e => by
      have hend : ∀ e, s.entries.size + k ≤ e → e ∉ s₁.handles :=
        fun e he h => Nat.not_lt.mpr he (hk ▸ hs.held_of_inStep alone e h)
      have hend' : ∀ e, s.entries.size + l ≤ e → e ∉ s₂.handles :=
        fun e he h => Nat.not_lt.mpr he (hl ▸ hs.held_of_inStep alone' e h)
      exact Iff.of_eq (agree_exchange (f := (· ∈ s.handles)) (z := False) hown hown'
        (fun e he ho => propext (alone.handles e he ho)) (fun e he ho => propext (alone'.handles e he ho))
        (fun e he => eq_false (hend e he)) (fun e he => eq_false (hend' e he))
        (fun e he => propext (later'.handle e he)) (fun e he ho => propext (later'.handles e he ho))
        (fun e he => propext (later.handle e he)) (fun e he ho => propext (later.handles e he ho)) e)
    guard := agree_renumbered (fun π => Option.map (Guard.renumber π)) hguards alone.guards alone'.guards
      later'.guard later'.guards later.guard later.guards
      (fun guard => (Option.map_congr fun g hg => g.renumber_eq_self
        (hrest g.entry (hs.leased (guard, g) (mem_guards_of_guard? hg)))).trans Option.map_id')
      (fun guard hguard => Option.map_congr fun g hg => g.renumber_congr
        (hfirst g.entry (alone.leased guard g hguard hg).2.2))
      fun guard hguard => by
        rw [Option.map_map]
        exact (Option.map_congr fun g hg => g.renumber_eq_self (π := π ∘ shiftFrom s.entries.size k)
          (hsecond g.entry (alone'.leased guard g hguard hg).2.2)).trans Option.map_id'
    names := (later.names.trans alone'.names).trans (later'.names.trans alone.names).symm
    callers := (later.callers.trans alone'.callers).trans (later'.callers.trans alone.callers).symm
    draws := (later.draws.trans hdraws).trans (later'.draws.trans hdraws').symm
    now := (later.clock.trans alone'.clock).trans (later'.clock.trans alone.clock).symm }

section Swap
open Program

variable {s : Store String} {p q : PoolId} {name name' : String} {guards guards' : String → Prop} {a b : Step}

/-- Two steps on different pools answer the same and lead to the same store in either order. -/
theorem Program.Step.OnPool.swap (hs : s.Apart) (ha : a.OnPool s p name guards)
    (hb : b.OnPool s q name' guards') (hpq : p ≠ q) (hguards : ∀ guard, guards guard → ¬ guards' guard)
    (v : View) (c d : CallerId) {k l : Nat}
    (hk : (a.run v c s).2.entries.size = s.entries.size + k)
    (hl : (b.run v d s).2.entries.size = s.entries.size + l)
    (hdraws : (a.run v c s).2.draws = s.draws) (hdraws' : (b.run v d s).2.draws = s.draws) :
    let second := (b.renumber (shiftFrom s.entries.size k)).run v d (a.run v c s).2
    let second' := (a.renumber (shiftFrom s.entries.size l)).run v c (b.run v d s).2
    second.1.bare = ((b.run v d s).1.renumber (shiftFrom s.entries.size k)).bare ∧
    second'.1.bare = ((a.run v c s).1.renumber (shiftFrom s.entries.size l)).bare ∧
    second.2.Renumbered (exchange s.entries.size k l) second'.2 := by
  have hguards' : ∀ guard, guards' guard → ¬ guards guard := fun guard h' h => hguards guard h h'
  have hA := ha.follows hs v c (ha.sameFor hb hs hpq hguards v d hdraws') (hb.held hs v d)
  have hB := hb.follows hs v d (hb.sameFor ha hs hpq.symm hguards' v c hdraws) (ha.held hs v c)
  rw [hl, Nat.add_sub_cancel_left] at hA
  rw [hk, Nat.add_sub_cancel_left] at hB
  have sound : (a.run v c s).2.registry.Sound := (run_step v c a s).path.sound hs.sound
  have sound' : (b.run v d s).2.registry.Sound := (run_step v d b s).path.sound hs.sound
  have hstores := hs.exchanged hpq hguards (ha.inStep hs v c) (hb.inStep hs v d) hA.2 hB.2 hk hl sound sound'
    hdraws hdraws'
  exact ⟨hB.1, hA.1, hstores⟩

/--
Pools do not interfere, in runs that release and remove entries on the pools that reserved them only. A step on
one pool, with all that its creators do, leaves all other pools as they are. Its answer is the same in every
store that is the same for the pool, whatever the other pools are like, but for the numbers of the entries it
reserves when more were given out before. And two steps on different pools that draw no number give the same
answers and lead to the same store in either order, where just the entries that they reserve change numbers.
-/
theorem pools_independent {draws : List Nat} {s : Store String} {calls : List (Called String)}
    (h : History tidy (.blank draws) calls s) (own : ∀ x ∈ calls, x.2.OnOwn x.1)
    (ha : a.OnPool s p name guards) (v : View) (c : CallerId) :
    s.Spares (a.run v c s).2 p guards ∧
    (∀ (draws' : List Nat) (t : Store String), Run tidy (.blank draws') t → s.SameFor t p name guards →
      let π := shiftFrom s.entries.size (t.entries.size - s.entries.size)
      ((a.renumber π).run v c t).1.bare = ((a.run v c s).1.renumber π).bare) ∧
    ∀ (q : PoolId) (name' : String) (guards' : String → Prop) (b : Step) (d : CallerId),
      b.OnPool s q name' guards' → p ≠ q → (∀ guard, guards guard → ¬ guards' guard) →
      (a.run v c s).2.draws = s.draws → (b.run v d s).2.draws = s.draws →
      ∃ k l, (a.run v c s).2.entries.size = s.entries.size + k ∧
        (b.run v d s).2.entries.size = s.entries.size + l ∧
        (let later := shiftFrom s.entries.size k
        let second := (b.renumber later).run v d (a.run v c s).2
        second.1.bare = ((b.run v d s).1.renumber later).bare ∧
        let later := shiftFrom s.entries.size l
        let second' := (a.renumber later).run v c (b.run v d s).2
        second'.1.bare = ((a.run v c s).1.renumber later).bare ∧
        let π := exchange s.entries.size k l
        Store.Renumbered π second.2 second'.2 ∧ π.Bijective ∧ ∀ e < s.entries.size, π e = e) := by
  have hs : s.Apart := h.apart own
  refine ⟨ha.spares hs v c, fun draws' t ht same => (ha.follows hs v c same ht.extant.held).1, ?_⟩
  intro q name' guards' b d hb hpq hguards hdraws hdraws'
  obtain ⟨k, hk⟩ := Nat.exists_eq_add_of_le (ha.inStep hs v c).reached
  obtain ⟨l, hl⟩ := Nat.exists_eq_add_of_le (hb.inStep hs v d).reached
  obtain ⟨hB, hA, hstores⟩ := Step.OnPool.swap hs ha hb hpq hguards v c d hk hl hdraws hdraws'
  exact ⟨k, l, hk, hl, hB, hA, hstores, exchange_bijective _ k l, fun e => exchange_of_lt⟩

/-- A creator on one pool returns an entry while the other pool reserves one. -/
theorem pools_independent_nested :
    let ms : List (Move String) := [.create "a" { cached := true } (some .default), .create "b" {} none,
      .reserve 0, .enable 0 "x" true, .hold 0, .reserve 1]
    let more : List (Move String) := [.reserve 1, .enable 1 "y" false]
    let s := ms.foldl Move.apply (.blank [])
    let t := (ms ++ more).foldl Move.apply (.blank [])
    let a : Step := .acquireWith "a" false [.act (.release "a" 0 false), .act (.entry 2)] (.value "z")
    let b : Step := .act (.reserve "b")
    History tidy (.blank []) (Move.trail (.blank []) ms) s ∧
      (∀ x ∈ Move.trail (.blank []) ms, x.2.OnOwn x.1) ∧ Run tidy (.blank []) t ∧
      a.OnPool s 0 "a" (· = "g") ∧ b.OnPool s 1 "b" (· ≠ "g") ∧ s.SameFor t 0 "a" (· = "g") ∧
      s.Spares (a.run {} 0 s).2 0 (· = "g") ∧
      ((a.renumber (shiftFrom 2 1)).run {} 0 t).1.bare =
        ((a.run {} 0 s).1.renumber (shiftFrom 2 1)).bare ∧
      Store.Renumbered (exchange 2 1 1) ((b.renumber (shiftFrom 2 1)).run {} 0 (a.run {} 0 s).2).2
        ((a.renumber (shiftFrom 2 1)).run {} 0 (b.run {} 0 s).2).2 := by
  intro ms more s t a b
  have hh : History tidy (.blank []) (Move.trail (.blank []) ms) s := .of_along _ ms (by decide +kernel)
  have own : ∀ x ∈ Move.trail (.blank []) ms, x.2.OnOwn x.1 := by decide +kernel
  have ht : Run tidy (.blank []) t := (History.of_along _ (ms ++ more) (by decide +kernel)).run
  have hno : s.guards = [] := by decide +kernel
  have ha : a.OnPool s 0 "a" (· = "g") := {
    made := by decide +kernel
    named := by decide +kernel
    guarded := fun guard g _ hg => by simp [Store.guard?, hno] at hg
    on := by
      have h0 : 0 ∈ s.reservations 0 := by decide +kernel
      have h2 : s.entries.size ≤ 2 := by decide +kernel
      exact ⟨rfl, ⟨rfl, .inl h0⟩, .inr h2, trivial⟩ }
  have hb : b.OnPool s 1 "b" (· ≠ "g") := {
    made := by decide +kernel
    named := by decide +kernel
    guarded := fun guard g _ hg => by simp [Store.guard?, hno] at hg
    on := rfl }
  have same : s.SameFor t 0 "a" (· = "g") := {
    room := by decide +kernel
    made := by decide +kernel
    named := by decide +kernel
    pool := rfl
    reservations := by decide +kernel
    entry := by decide +kernel
    handle := by decide +kernel
    guard := by
      rintro _ rfl
      rfl
    draws := by decide +kernel
    now := by decide +kernel }
  have hs : s.entries.size = 2 := by decide +kernel
  have hsa : (a.run {} 0 s).2.entries.size = 3 := by decide +kernel
  have hsb : (b.run {} 0 s).2.entries.size = 3 := by decide +kernel
  have hst : t.entries.size = 3 := by decide +kernel
  obtain ⟨hspares, hanswer, hswap⟩ := pools_independent hh own ha {} 0
  obtain ⟨k, l, hk, hl, -, -, hstores, -⟩ := hswap 1 "b" (· ≠ "g") b 0 hb (by decide) (by simp)
    (by decide +kernel) (by decide +kernel)
  obtain rfl : k = 1 := by omega
  obtain rfl : l = 1 := by omega
  have htold := hanswer [] t ht same
  rw [hs, hst] at htold
  rw [hs] at hstores
  exact ⟨hh, own, ht, ha, hb, same, hspares, htold, hstores⟩

end Swap

end ResourcePool
