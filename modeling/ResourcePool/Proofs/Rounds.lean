import ResourcePool.Program.Search
import ResourcePool.Proofs.History.Change
import ResourcePool.Proofs.Selection

/-! Rounds of a pool that hands its members out by turns: who comes when, and which rounds meet everyone
once. -/
namespace ResourcePool
open Registry

variable {α : Type}

/-! ### Turns as numbers -/

/-- Turns that do not wrap, or that wrap at a multiple of `n`, go around. -/
theorem turns_perm {M n c : ℕ} (h : c + n ≤ M ∨ n ∣ M) :
    ((List.range n).map fun k => (c + k) % M % n).Perm (List.range n) := by
  have hturn : ((List.range n).map fun k => (c + k) % M % n) = (List.range n).rotate c := by
    refine List.ext_getElem (by simp) fun k hk _ => ?_
    have hkn : k < n := by simpa using hk
    have hmod : (c + k) % M % n = (c + k) % n := by
      rcases h with hle | hdvd
      · rw [Nat.mod_eq_of_lt (by omega : c + k < M)]
      · exact Nat.mod_mod_of_dvd _ hdvd
    rw [List.getElem_map, List.getElem_range, hmod, List.getElem_rotate, List.getElem_range,
      List.length_range, Nat.add_comm]
  rw [hturn]
  exact List.rotate_perm _ _

/-- Turns that wrap elsewhere come to the first place a second time, or never to the last. -/
theorem le_or_dvd_of_turns_perm {M n c : ℕ} (hc : c < M)
    (h : ((List.range n).map fun k => (c + k) % M % n).Perm (List.range n)) : c + n ≤ M ∨ n ∣ M := by
  by_contra hnot
  obtain ⟨hwrap, hdvd⟩ := not_or.mp hnot
  have hinj : ∀ i < n, ∀ j < n, (c + i) % M % n = (c + j) % M % n → i = j := by
    have hnodup := h.nodup_iff.mpr List.nodup_range
    intro i hi j hj hij
    exact List.inj_on_of_nodup_map hnodup (List.mem_range.mpr hi) (List.mem_range.mpr hj) hij
  obtain ⟨k, hk, hlast⟩ : ∃ k ∈ List.range n, (c + k) % M % n = n - 1 :=
    List.mem_map.mp (h.mem_iff.mpr (List.mem_range.mpr (by omega)))
  have hkn : k < n := List.mem_range.mp hk
  rcases Nat.lt_or_ge M n with hlong | hshort
  · have hlt : (c + k) % M < M := Nat.mod_lt _ (by omega)
    rw [Nat.mod_eq_of_lt (by omega : (c + k) % M < n)] at hlast
    omega
  rcases Nat.lt_or_ge (c + k) M with hbefore | hafter
  · -- The last place comes before the wrap, so the first place comes next, and once more at the wrap.
    rw [Nat.mod_eq_of_lt hbefore] at hlast
    have hnext : (c + (k + 1)) % n = 0 := by
      rw [← Nat.add_assoc, Nat.add_mod, hlast, Nat.add_mod_mod, Nat.sub_add_cancel (by omega), Nat.mod_self]
    rcases Nat.lt_or_ge (c + (k + 1)) M with hlt | hge
    · have hagain : (c + (k + 1)) % M % n = (c + (M - c)) % M % n := by
        rw [Nat.mod_eq_of_lt hlt, hnext, Nat.add_sub_cancel' hc.le, Nat.mod_self, Nat.zero_mod]
      have hk : k + 1 = M - c := hinj (k + 1) (by omega) (M - c) (by omega) hagain
      omega
    · obtain rfl : M = c + (k + 1) := by omega
      exact hdvd (Nat.dvd_of_mod_eq_zero hnext)
  · have hmod : (c + k) % M = c + k - M := by
      rw [Nat.mod_eq_sub_mod hafter, Nat.mod_eq_of_lt (by omega)]
    rw [hmod, Nat.mod_eq_of_lt (by omega : c + k - M < n)] at hlast
    omega

theorem turns_perm_iff {M n c : ℕ} (hc : c < M) :
    ((List.range n).map fun k => (c + k) % M % n).Perm (List.range n) ↔ c + n ≤ M ∨ n ∣ M :=
  ⟨le_or_dvd_of_turns_perm hc, turns_perm⟩

/-- Places of a list without duplicates name each member once just when they are all its places. -/
theorem perm_map_some_iff {ε : Type} [DecidableEq ε] {l : List ε} (hl : l.Nodup) {is : List ℕ}
    (h : ∀ i ∈ is, i < l.length) :
    (is.map fun i => l[i]?).Perm (l.map some) ↔ is.Perm (List.range l.length) := by
  have hall : l.map some = (List.range l.length).map fun i => l[i]? :=
    List.ext_getElem (by simp) fun i _ _ => by simp
  rw [hall]
  refine ⟨fun hperm => ?_, fun hperm => hperm.map _⟩
  let place : Option ε → ℕ := fun x => x.elim 0 l.idxOf
  have hplace : ∀ is : List ℕ, (∀ i ∈ is, i < l.length) → (is.map fun i => l[i]?).map place = is := by
    intro is his
    rw [List.map_map]
    refine (List.map_congr_left fun i hi => ?_).trans (List.map_id is)
    simp [place, his i hi, hl.idxOf_getElem]
  have := hperm.map place
  rwa [hplace is h, hplace _ fun i => List.mem_range.mp] at this

/-! ### Turns of a pool -/

/-- An open pool by turns without hints, whose members are idle except one that may be out. -/
structure Store.ByTurns (s : Store α) (p : PoolId) (es : List EntryId) (turn : UInt64)
    (out? : Option EntryId) : Prop where
  opened : (s.pool p).closed = false
  strategy : (s.pool p).settings.strategy = .roundRobin
  uncached : (s.pool p).settings.cached = false
  members : s.members p = es
  turn : (s.pool p).turn = some turn
  state : ∀ e ∈ es, s.state e = if out? = some e then .active else .idle

/-- Whether a pool, its tracker aside, and the states of its members are the same in two stores. -/
structure Store.Untouched (s : Store α) (p : PoolId) (t : Store α) : Prop where
  pool : (t.pool p).bare = (s.pool p).bare
  state : ∀ e ∈ s.members p, t.state e = s.state e

/-- Trackers, handles and guards have no part in it. -/
theorem Store.Alike.untouched {s t : Store α} (h : s.Alike t) (p : PoolId) : s.Untouched p t where
  pool := h.pool p
  state e _ := congrArg (fun v : Registry α => (v.entry e).state) h.registry

/-- Nor have calls on other pools, as far as they leave the members alone. -/
theorem Call.untouched {s : Store α} {p : PoolId} {c : Call α} (hsite : c.site? s ≠ some p)
    (h : ∀ e ∈ s.members p, (c.apply s).state e = s.state e) : s.Untouched p (c.apply s) where
  pool := congrArg Pool.bare (Call.pool_apply_of_ne hsite)
  state := h

namespace Store.ByTurns

variable {s t : Store α} {p : PoolId} {es : List EntryId} {turn : UInt64} {out? : Option EntryId}
  {e : EntryId}

theorem untouched (h : s.ByTurns p es turn out?) (same : s.Untouched p t) :
    t.ByTurns p es turn out? where
  opened := (congrArg Pool.closed same.pool).trans h.opened
  strategy := (congrArg (fun x : Pool α => x.settings.strategy) same.pool).trans h.strategy
  uncached := (congrArg (fun x : Pool α => x.settings.cached) same.pool).trans h.uncached
  members := (congrArg Pool.members same.pool).trans h.members
  turn := (congrArg Pool.turn same.pool).trans h.turn
  state e he := (same.state e (h.members ▸ he)).trans (h.state e he)

/-- What a request that a member grants leaves of its pool. -/
theorem grant (h : s.ByTurns p es turn out?) {r : Entry.Request α} (hg : (s.entry e).Grants r)
    (hr : t.registry = s.registry.grant e r) (hs : (t.pool p).settings = (s.pool p).settings)
    {turn' : UInt64} (hturn : (t.pool p).turn = some turn') {out' : Option EntryId}
    (hout : ∀ x ∈ es, (if x = e then r.target else s.state x) = if out' = some x then .active else .idle) :
    t.ByTurns p es turn' out' := by
  have hroster : t.roster p = s.roster p := congrArg (fun v : Registry α => v.roster p) hr
  have hclosed : (t.pool p).closed = (s.pool p).closed := congrArg Roster.closed hroster
  have hmembers : t.members p = s.members p := congrArg Roster.members hroster
  refine ⟨hclosed.trans h.opened, hs ▸ h.strategy, hs ▸ h.uncached, hmembers.trans h.members, hturn,
    fun x hx => ?_⟩
  have hentry : t.entry x = (s.registry.grant e r).entry x :=
    congrArg (fun v : Registry α => v.entry x) hr
  rw [← hout x hx]
  unfold Store.state
  rw [hentry]
  split_ifs with hxe
  · subst hxe
    rw [grant_entry_self]
    exact Entry.state_answer hg
  · rw [grant_entry_of_ne _ _ hxe]
    rfl

/-- The member whose turn it is goes out. -/
theorem acquire (h : s.ByTurns p es turn none) (he : es[turn.toNat % es.length]? = some e) (c : CallerId) :
    (s.acquire p c).1 = some e ∧ (s.acquire p c).2.ByTurns p es (turn + 1) (some e) := by
  have hmem : e ∈ es := List.mem_of_getElem? he
  have hne : s.members p ≠ [] := h.members ▸ List.ne_nil_of_mem hmem
  have hp : p < s.pools.size := lt_size_of_open h.opened
  have horigin : (s.start p c).1 = turn.toNat % es.length := by
    rw [start_fst (r := 0) (k := turn) (by simp [h.strategy]) fun _ => h.turn, h.strategy, h.members]
    rfl
  have hidle : s.isIdle e = true := Entry.isIdle_iff.mpr (h.state e hmem)
  have hfind : ((s.members p).rotate (s.start p c).1).find? s.isIdle = some e := by
    have hlt : turn.toNat % es.length < es.length := Nat.mod_lt _ (List.length_pos_of_mem hmem)
    obtain ⟨l, hl⟩ := List.head?_eq_some_iff.mp ((List.head?_rotate hlt).trans he)
    rw [horigin, h.members, hl, List.find?_cons_of_pos hidle]
  have hhint : s.hinted? p c = none := by
    unfold hinted?
    rw [h.uncached, if_neg Bool.false_ne_true]
  have hget := acquire_of_not_hinted? (c := c) h.opened hne hhint
  rw [hfind] at hget
  have hsome : (s.acquire p c).1 = some e := by rw [hget]
  obtain ⟨hg, hr⟩ := acquire_of_some hsome
  have hsettings : ((s.acquire p c).2.pool p).settings = (s.pool p).settings :=
    acquire_keeps Pool.settings (fun _ _ => rfl) (fun _ _ => rfl) s p c
  have hturn : ((s.acquire p c).2.pool p).turn = some (turn + 1) := by
    have hpool : (s.start p c).2.pool p = (s.pool p).searched := by
      rw [start_snd hne]
      exact pool_modifyPool_self hp _
    have hsize : p < (s.start p c).2.pools.size := (s.size_start p c).symm ▸ hp
    rw [hget]
    dsimp only
    rw [pool_handOut hsize, hpool]
    simp [Pool.count, Pool.searched, h.strategy, h.turn]
  refine ⟨hsome, h.grant hg hr hsettings hturn fun x hx => ?_⟩
  by_cases hxe : x = e
  · subst hxe
    rw [if_pos rfl, if_pos rfl]
    rfl
  · rw [if_neg hxe, if_neg fun heq => hxe (Option.some.inj heq).symm]
    exact h.state x hx

/-- What is out comes back. -/
theorem release (h : s.ByTurns p es turn (some e)) (he : e ∈ es) (c : CallerId) :
    (s.release p c e).2.ByTurns p es turn none := by
  have hactive : s.state e = .active := (h.state e he).trans (if_pos rfl)
  have hg : (s.entry e).Grants .release := Entry.grants_release_iff.mpr hactive
  have hr := (release_of_grants c h.opened hg).2
  have hsettings : ((s.release p c e).2.pool p).settings = (s.pool p).settings :=
    release_keeps Pool.settings (fun _ _ => rfl) (fun _ _ => rfl) s p c e
  have hturn : ((s.release p c e).2.pool p).turn = (s.pool p).turn :=
    release_keeps Pool.turn (fun _ _ => rfl) (fun _ _ => rfl) s p c e
  refine h.grant hg hr hsettings (hturn.trans h.turn) fun x hx => ?_
  by_cases hxe : x = e
  · rw [if_pos hxe]
    rfl
  · rw [if_neg hxe]
    exact (h.state x hx).trans (if_neg fun heq => hxe (Option.some.inj heq).symm)

end Store.ByTurns

/-- Gives back what an acquire got, if it got anything. -/
def Store.putBack (s : Store α) (p : PoolId) (c : CallerId) : Option EntryId → Store α
  | some e => (s.release p c e).2
  | none => s

/-- What cycles of an acquire and a release get one after the other, by any callers, when nothing else is
done to the pool or its members in between. -/
inductive Cycles (p : PoolId) (s : Store α) : List (Option EntryId) → Store α → Prop
  | start : Cycles p s [] s
  | aside {got : List (Option EntryId)} {t u : Store α} (h : Cycles p s got t) (same : t.Untouched p u) :
      Cycles p s got u
  | cycle {got : List (Option EntryId)} {t u : Store α} (h : Cycles p s got t) (c d : CallerId)
      (same : (t.acquire p c).2.Untouched p u) :
      Cycles p s (got ++ [(t.acquire p c).1]) (u.putBack p d (t.acquire p c).1)

/-- After `k` cycles the counter has moved on `k` times, and each cycle got the member whose turn it was. -/
theorem Cycles.got_eq {s t : Store α} {p : PoolId} {es : List EntryId} {c : UInt64}
    {got : List (Option EntryId)} (h : s.ByTurns p es c none) (hne : es ≠ []) (hc : Cycles p s got t) :
    t.ByTurns p es (c + UInt64.ofNat got.length) none ∧
      got = (List.range got.length).map fun k => es[(c.toNat + k) % UInt64.size % es.length]? := by
  induction hc with
  | start => simpa using h
  | aside _ same ih => exact ⟨ih.1.untouched same, ih.2⟩
  | @cycle got t u _ a b same ih =>
    obtain ⟨hturns, hgot⟩ := ih
    have hturn : (c + UInt64.ofNat got.length).toNat = (c.toNat + got.length) % UInt64.size := by simp
    have hlt : (c.toNat + got.length) % UInt64.size % es.length < es.length :=
      Nat.mod_lt _ (List.length_pos_iff.mpr hne)
    obtain ⟨e, he⟩ : ∃ e, es[(c.toNat + got.length) % UInt64.size % es.length]? = some e :=
      ⟨_, List.getElem?_eq_getElem hlt⟩
    obtain ⟨hsome, hout⟩ := hturns.acquire (hturn ▸ he) a
    have hback := (hout.untouched same).release (List.mem_of_getElem? he) b
    have hnext : c + UInt64.ofNat got.length + 1 = c + UInt64.ofNat (got.length + 1) := by
      rw [UInt64.ofNat_add, UInt64.add_assoc]
      rfl
    rw [hsome, List.length_append, List.length_singleton]
    refine ⟨hnext ▸ hback, ?_⟩
    rw [List.range_succ, List.map_append, ← hgot, List.map_singleton, he]

/--
Cycles of an open pool by turns whose members are idle get them in the order of their list, from the one whose
turn it is on, and begin anew when the counter wraps. As many cycles as there are members meet everyone once
just when the counter does not wrap on the way, or wraps at a multiple of their number.
-/
theorem rounds_go_around {s t : Store α} {p : PoolId} {es : List EntryId} {c : UInt64}
    {got : List (Option EntryId)} (h : s.ByTurns p es c none) (nonempty : es ≠ []) (nodup : es.Nodup)
    (hc : Cycles p s got t) :
    (∀ k < got.length, ∃ e,
      es[(c.toNat + k) % UInt64.size % es.length]? = some e ∧ got[k]? = some (some e)) ∧
    (got.length = es.length →
      (got.Perm (es.map some) ↔ c.toNat + es.length ≤ UInt64.size ∨ es.length ∣ UInt64.size)) := by
  obtain ⟨-, hgot⟩ := hc.got_eq h nonempty
  have hlt : ∀ i, i % es.length < es.length := fun i => Nat.mod_lt _ (List.length_pos_iff.mpr nonempty)
  refine ⟨fun k hk => ?_, fun hlength => ?_⟩
  · have he := List.getElem?_eq_getElem (hlt ((c.toNat + k) % UInt64.size))
    refine ⟨_, he, ?_⟩
    rw [hgot, List.getElem?_map, List.getElem?_range hk, Option.map_some, he]
  · rw [hgot, hlength, ← turns_perm_iff c.toNat_lt_size, ← perm_map_some_iff nodup, List.map_map]
    · rfl
    · intro i hi
      obtain ⟨k, -, rfl⟩ := List.mem_map.mp hi
      exact hlt _

/-- A counter that wraps between three members passes one over, also when another pool is made meanwhile. -/
theorem rounds_go_around_wrapping :
    ∃ (s t : Store ℕ) (got : List (Option EntryId)), s.ByTurns 0 [0, 1, 2] (-1) none ∧
      Cycles 0 s got t ∧ got = [some 0, some 0, some 1] ∧ ¬ got.Perm ([0, 1, 2].map some) := by
  let s := (Program.numbered 3 .roundRobin (-1)).2
  have h : s.ByTurns 0 [0, 1, 2] (-1) none :=
    ⟨by decide +kernel, by decide +kernel, by decide +kernel, by decide +kernel, by decide +kernel,
      by decide +kernel⟩
  let u := (Call.create "others" {} none).apply (s.acquire 0 .leaving).2
  have haside : (s.acquire 0 .leaving).2.Untouched 0 u :=
    Call.untouched (by decide +kernel) (by decide +kernel)
  let v := u.putBack 0 .main (s.acquire 0 .leaving).1
  let w := (v.acquire 0 .main).2.putBack 0 .leaving (v.acquire 0 .main).1
  have hcycles := ((Cycles.start.cycle .leaving .main haside).cycle .main .leaving
    (u := (v.acquire 0 .main).2) ((Store.Alike.refl _).untouched 0)).cycle .main .main
    (u := (w.acquire 0 .main).2) ((Store.Alike.refl _).untouched 0)
  have hgot : [] ++ [(s.acquire 0 .leaving).1] ++ [(v.acquire 0 .main).1] ++ [(w.acquire 0 .main).1] =
      [some 0, some 0, some 1] := by
    decide +kernel
  obtain ⟨-, hround⟩ := rounds_go_around h (by decide) (by decide) hcycles
  have hnot := mt (hround (congrArg List.length hgot)).mp (by decide)
  exact ⟨s, _, _, h, hcycles, hgot, hnot⟩

end ResourcePool
