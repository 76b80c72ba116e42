import ResourcePool.Proofs.Tracker

/-! Renumbering: entries have no name but their number, so what a pool, a tracker or a guard says of them can
be said of other numbers. Calls do not notice, as long as different entries keep different numbers. -/
namespace ResourcePool

variable {α : Type}

/-- What is found in a list of pairs by a key, when keys and values are mapped. -/
theorem lookup_map {κ κ' β β' : Type} [BEq κ] [LawfulBEq κ] [BEq κ'] [LawfulBEq κ'] {f : κ → κ'}
    (hf : Function.Injective f) (g : κ → β → β') (pairs : List (κ × β)) (k : κ) :
    (pairs.map fun x => (f x.1, g x.1 x.2)).lookup (f k) = (pairs.lookup k).map (g k) := by
  induction pairs with
  | nil => rfl
  | cons x pairs ih =>
    obtain ⟨i, y⟩ := x
    rw [List.map_cons, List.lookup_cons, List.lookup_cons]
    by_cases hk : k = i
    · subst hk
      simp
    · rw [beq_false_of_ne hk, beq_false_of_ne (hf.ne hk)]
      exact ih

/-! ### Trackers -/

namespace Leak

/-- The same leak of an entry of another number. A detector with fixed answers knows no entry. -/
def renumber (π : EntryId → EntryId) (leak : Leak) : Leak :=
  match leak.resource? with
  | some r => { leak with resource? := some (π r), description := Store.describe (π r) }
  | none => leak

theorem resource?_renumber (π : EntryId → EntryId) (leak : Leak) :
    (leak.renumber π).resource? = leak.resource?.map π := by
  unfold renumber
  split
  · next r hr => rw [hr]; rfl
  · next hr => rw [hr]; rfl

/-- Numbers in the same order are sorted the same, if all leaks are numbered or none. -/
theorem sorted_renumber {π : EntryId → EntryId} (hπ : ∀ e i, π e ≤ π i ↔ e ≤ i) {leaks : List Leak}
    {numbered : Bool} (hl : ∀ leak ∈ leaks, leak.resource?.isSome = numbered) :
    sorted (leaks.map (renumber π)) = (sorted leaks).map (renumber π) := by
  refine (List.map_mergeSort fun a ha b hb => ?_).symm
  have hsame : a.resource?.isSome = b.resource?.isSome := (hl a ha).trans (hl b hb).symm
  rw [resource?_renumber, resource?_renumber]
  cases ha : a.resource? with
  | none =>
    rw [ha] at hsame
    rw [Option.isNone_iff_eq_none.mp (Option.isSome_eq_false_iff.mp hsame.symm)]
    rfl
  | some r =>
    rw [ha] at hsame
    obtain ⟨i, hi⟩ := Option.isSome_iff_exists.mp hsame.symm
    simp [hi, hπ]

end Leak

/-- The same holding of another entry. -/
def Holding.of (h : Holding) (e : EntryId) : Holding :=
  { h with description := Store.describe e }

namespace Detector

/-- The same detector of entries of other numbers. -/
def renumber (π : EntryId → EntryId) : Detector → Detector
  | expiry maxAge held => expiry maxAge (held.map fun x => (π x.1, x.2.of (π x.1)))
  | fixed acquired released leaks => fixed acquired released leaks

/-- Only entries below `n` are tracked, each as what a pool says it is. -/
def Apt (n : Nat) (d : Detector) : Prop :=
  ∀ x ∈ d.holdings, x.1 < n ∧ x.2.description = Store.describe x.1

instance (n : Nat) (d : Detector) : Decidable (d.Apt n) :=
  inferInstanceAs (Decidable (∀ x ∈ d.holdings, _ ∧ _))

variable {π ρ : EntryId → EntryId} {n : Nat} {d : Detector}

theorem Apt.mono {m : Nat} (h : d.Apt n) (hnm : n ≤ m) : d.Apt m :=
  fun x hx => ⟨Nat.lt_of_lt_of_le (h x hx).1 hnm, (h x hx).2⟩

theorem Apt.acquired (h : d.Apt n) {e : EntryId} (he : e < n) (now : Nat) :
    (d.acquired now e (Store.describe e)).2.Apt n := by
  cases d with
  | fixed => exact h
  | expiry maxAge held =>
    unfold Detector.acquired
    dsimp only
    split_ifs
    · exact h
    · intro x hx
      rcases List.mem_append.mp hx with hx | hx
      · exact h x hx
      · rw [List.mem_singleton.mp hx]
        exact ⟨he, rfl⟩

theorem Apt.released (h : d.Apt n) (e : EntryId) : (d.released e).2.Apt n := by
  cases d with
  | fixed => exact h
  | expiry maxAge held => exact fun x hx => h x (List.mem_of_mem_filter hx)

theorem Apt.sweep (h : d.Apt n) (now : Nat) : (d.sweep now).2.Apt n := by
  cases d with
  | fixed => exact h
  | expiry maxAge held =>
    intro x hx
    obtain ⟨y, hy, rfl⟩ := List.mem_map.mp hx
    exact h y hy

theorem renumber_congr (h : d.Apt n) (hπ : ∀ e < n, π e = ρ e) : d.renumber π = d.renumber ρ := by
  cases d with
  | fixed => rfl
  | expiry maxAge held =>
    refine congrArg (expiry maxAge) (List.map_congr_left fun x hx => ?_)
    rw [hπ x.1 (h x hx).1]

theorem renumber_renumber (d : Detector) : (d.renumber π).renumber ρ = d.renumber (ρ ∘ π) := by
  cases d with
  | fixed => rfl
  | expiry maxAge held => exact congrArg (expiry maxAge) List.map_map

theorem renumber_id (h : d.Apt n) : d.renumber id = d := by
  cases d with
  | fixed => rfl
  | expiry maxAge held =>
    have hid : held.map (fun x => (id x.1, x.2.of (id x.1))) = held.map id := by
      refine List.map_congr_left fun x hx => Prod.ext rfl ?_
      change { x.2 with description := Store.describe x.1 } = x.2
      rw [← (h x hx).2]
    exact congrArg (expiry maxAge) (hid.trans held.map_id)

/-- The leaks of one pass are all numbered or none is. -/
theorem isSome_of_mem_sweep (d : Detector) (now : Nat) :
    ∃ numbered, ∀ leak ∈ (d.sweep now).1, leak.resource?.isSome = numbered := by
  cases d with
  | fixed acquired released n =>
    refine ⟨false, fun leak hl => ?_⟩
    rw [List.eq_of_mem_replicate hl]
    rfl
  | expiry maxAge held =>
    refine ⟨true, fun leak hl => ?_⟩
    obtain ⟨x, -, rfl⟩ := List.mem_map.mp hl
    rfl

variable (hπ : Function.Injective π)

include hπ

theorem isSome_lookup_renumber (held : List (Nat × Holding)) (e : EntryId) :
    ((held.map fun x => (π x.1, x.2.of (π x.1))).lookup (π e)).isSome = (held.lookup e).isSome := by
  have hl := lookup_map hπ (fun r (h : Holding) => h.of (π r)) held e
  exact (congrArg Option.isSome hl).trans Option.isSome_map

theorem acquired_renumber (d : Detector) (now : Nat) (e : EntryId) :
    (d.renumber π).acquired now (π e) (Store.describe (π e)) =
      ((d.acquired now e (Store.describe e)).1, (d.acquired now e (Store.describe e)).2.renumber π) := by
  cases d with
  | fixed => rfl
  | expiry maxAge held =>
    unfold renumber acquired
    dsimp only
    rw [isSome_lookup_renumber hπ]
    split_ifs
    · rfl
    · simp [Holding.of]

theorem released_renumber (d : Detector) (e : EntryId) :
    (d.renumber π).released (π e) = ((d.released e).1, (d.released e).2.renumber π) := by
  cases d with
  | fixed => rfl
  | expiry maxAge held =>
    have hne : ∀ x ∈ held, (π x.1 != π e) = (x.1 != e) := fun x _ => by simp [hπ.eq_iff, bne]
    unfold renumber released
    dsimp only
    rw [isSome_lookup_renumber hπ, List.filter_map, ← List.filter_congr hne]
    rfl

omit hπ in
theorem sweep_renumber (d : Detector) (π : EntryId → EntryId) (now : Nat) :
    (d.renumber π).sweep now = ((d.sweep now).1.map (Leak.renumber π), (d.sweep now).2.renumber π) := by
  cases d with
  | fixed acquired released n => simp [renumber, sweep, Leak.renumber]
  | expiry maxAge held =>
    simp [renumber, sweep, List.filter_map, Function.comp_def, isDue, Leak.renumber, Holding.of]

end Detector

def Tracker.renumber (π : EntryId → EntryId) (t : Tracker) : Tracker :=
  { t with detector := t.detector.renumber π }

/-! ### Pools -/

namespace Hints

def renumber (π : EntryId → EntryId) (h : Hints) : Hints where
  slots := h.slots.map fun x => (x.1, π x.2)

theorem lookup_renumber (π : EntryId → EntryId) (h : Hints) (c : CallerId) :
    (h.renumber π).slots.lookup c = (h.slots.lookup c).map π :=
  lookup_map Function.injective_id (fun _ => π) h.slots c

theorem set_renumber (π : EntryId → EntryId) (h : Hints) (c : CallerId) (e : EntryId) :
    (h.renumber π).set c (π e) = (h.set c e).renumber π := by
  simp [renumber, set, List.filter_map, Function.comp_def]

end Hints

/-- A guard of the entry of another number. -/
def Guard.renumber (π : EntryId → EntryId) (g : Guard) : Guard :=
  { g with entry := π g.entry }

theorem Guard.renumber_congr {π ρ : EntryId → EntryId} (g : Guard) (h : π g.entry = ρ g.entry) :
    g.renumber π = g.renumber ρ :=
  congrArg (fun e => { g with entry := e }) h

theorem Guard.renumber_eq_self {π : EntryId → EntryId} (g : Guard) (h : π g.entry = g.entry) :
    g.renumber π = g :=
  g.renumber_congr (ρ := id) h

namespace Pool

/-- A pool whose entries have other numbers. -/
def renumber (π : EntryId → EntryId) (x : Pool α) : Pool α :=
  { x with
    members := x.members.map π
    hints := x.hints.renumber π
    tracker? := x.tracker?.map (·.renumber π) }

/-- A pool lists and hints at certain entries only, and its tracker tracks entries below `n`. -/
structure Refers (P : EntryId → Prop) (n : Nat) (x : Pool α) : Prop where
  listed : ∀ e ∈ x.members, P e
  hinted : ∀ y ∈ x.hints.slots, P y.2
  tracked : ∀ y, x.tracker? = some y → y.detector.Apt n

section Renumber

variable {π ρ : EntryId → EntryId} {P : EntryId → Prop} {n : Nat} {x : Pool α}

@[simp] theorem renumber_settings : (x.renumber π).settings = x.settings := rfl

@[simp] theorem renumber_members : (x.renumber π).members = x.members.map π := rfl

@[simp] theorem renumber_closed : (x.renumber π).closed = x.closed := rfl

@[simp] theorem renumber_turn : (x.renumber π).turn = x.turn := rfl

@[simp] theorem renumber_hints : (x.renumber π).hints = x.hints.renumber π := rfl

@[simp] theorem renumber_counters : (x.renumber π).counters = x.counters := rfl

@[simp] theorem renumber_tracker? : (x.renumber π).tracker? = x.tracker?.map (·.renumber π) := rfl

@[simp] theorem renumber_isFull : (x.renumber π).isFull = x.isFull := by
  unfold isFull
  rw [renumber_settings, renumber_members, List.length_map]

theorem remember_renumber (c : CallerId) (e : EntryId) :
    (x.renumber π).remember c (π e) = (x.remember c e).renumber π := by
  unfold remember
  rw [renumber_settings, renumber_hints, Hints.set_renumber]
  split_ifs <;> rfl

theorem renumber_congr (h : x.Refers P n) (hP : ∀ e, P e → π e = ρ e) (hn : ∀ e < n, π e = ρ e) :
    x.renumber π = x.renumber ρ := by
  have hm : x.members.map π = x.members.map ρ := List.map_congr_left fun e he => hP e (h.listed e he)
  have hh : x.hints.renumber π = x.hints.renumber ρ :=
    congrArg Hints.mk (List.map_congr_left fun y hy => Prod.ext rfl (hP y.2 (h.hinted y hy)))
  have ht : x.tracker?.map (·.renumber π) = x.tracker?.map (·.renumber ρ) := by
    refine Option.map_congr fun y hy => ?_
    unfold Tracker.renumber
    rw [Detector.renumber_congr (h.tracked y hy) hn]
  unfold renumber
  rw [hm, hh, ht]

theorem renumber_renumber (x : Pool α) : (x.renumber π).renumber ρ = x.renumber (ρ ∘ π) := by
  have ht : (x.tracker?.map (·.renumber π)).map (·.renumber ρ) = x.tracker?.map (·.renumber (ρ ∘ π)) := by
    rw [Option.map_map]
    refine Option.map_congr fun y _ => ?_
    exact congrArg (fun d => { y with detector := d }) y.detector.renumber_renumber
  unfold renumber
  simp only [List.map_map, ht, Hints.renumber, Function.comp_def]

theorem renumber_id (h : x.Refers P n) : x.renumber id = x := by
  have ht : x.tracker?.map (·.renumber id) = x.tracker? := by
    refine (Option.map_congr fun y hy => ?_).trans Option.map_id'
    exact congrArg (fun d => { y with detector := d }) (Detector.renumber_id (h.tracked y hy))
  unfold renumber
  rw [ht, List.map_id]
  exact congrArg (fun hints => { x with hints }) (congrArg Hints.mk x.hints.slots.map_id)

/-- What keeps its numbers stays the same. -/
theorem renumber_eq_self (h : x.Refers P n) (hP : ∀ e, P e → π e = e) (hn : ∀ e < n, π e = e) :
    x.renumber π = x :=
  (renumber_congr h hP hn).trans (renumber_id h)

namespace Refers

theorem mono {m : Nat} {Q : EntryId → Prop} (h : x.Refers P n) (hP : ∀ e, P e → Q e) (hnm : n ≤ m) :
    x.Refers Q m where
  listed e he := hP e (h.listed e he)
  hinted y hy := hP y.2 (h.hinted y hy)
  tracked y hy := (h.tracked y hy).mono hnm

theorem append (h : x.Refers P n) {e : EntryId} (he : P e) :
    { x with members := x.members ++ [e] }.Refers P n where
  listed i hi := by
    rcases List.mem_append.mp hi with hi | hi
    · exact h.listed i hi
    · exact List.mem_singleton.mp hi ▸ he
  hinted := h.hinted
  tracked := h.tracked

theorem erase (h : x.Refers P n) (e : EntryId) :
    { x with members := x.members.erase e }.Refers P n where
  listed i hi := h.listed i (List.mem_of_mem_erase hi)
  hinted := h.hinted
  tracked := h.tracked

theorem remember (h : x.Refers P n) (c : CallerId) {e : EntryId} (he : P e) :
    (x.remember c e).Refers P n := by
  unfold Pool.remember
  split_ifs
  · refine ⟨h.listed, fun y hy => ?_, h.tracked⟩
    rcases List.mem_cons.mp hy with rfl | hy
    · exact he
    · exact h.hinted y (List.mem_of_mem_filter hy)
  · exact h

theorem close (h : x.Refers P n) :
    { x with closed := true, members := [], hints := {} }.Refers P n where
  listed _ he := absurd he List.not_mem_nil
  hinted _ he := absurd he List.not_mem_nil
  tracked := h.tracked

theorem track (h : x.Refers P n) {y : Tracker} (hy : y.detector.Apt n) :
    { x with tracker? := some y }.Refers P n where
  listed := h.listed
  hinted := h.hinted
  tracked _ hz := Option.some.inj hz ▸ hy

end Refers

end Renumber

end Pool

end ResourcePool
