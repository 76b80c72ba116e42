import ResourcePool.Proofs.Rollback
import ResourcePool.Proofs.Run.Program

/-! Creations that yield a value. The creator is asked at most once, when nothing else helps, and what becomes
of its value is decided by the state in which it left the entry that was reserved. -/
namespace ResourcePool
open Registry

variable {α ρ : Type}

/-- A creator that reports, each time it is asked, the entry and the store that it was given. -/
def recording (creator : EntryId → Store α → Creation α × List ρ × Store α) (e : EntryId)
    (u : Store α) : Creation α × List (EntryId × Store α) × Store α :=
  ((creator e u).1, [(e, u)], (creator e u).2.2)

namespace Store

variable {s t u w : Store α} {p : PoolId} {c : CallerId} {e : EntryId} {creation : Creation α}
  {reports : List ρ} {creator : EntryId → Store α → Creation α × List ρ × Store α}

theorem trackedAcquireWith_of_creator (direct : Bool) (ha : s.acquire p c = (none, t))
    (hr : t.reserve p = (some e, u)) (hc : creator e u = (creation, reports, w)) :
    s.trackedAcquireWith direct p c creator = ((w.settle p c e creation).1, reports,
      (w.settle p c e creation).2.observeResult direct p (w.settle p c e creation).1) := by
  rw [Program.trackedAcquireWith_eq, acquireWith_of_creator ha hr hc]

/-- The creator is asked for the entry that is reserved when none is acquired, and not at all if none is
reserved either. -/
theorem recorded_eq (s : Store α) (direct : Bool) (p : PoolId) (c : CallerId)
    (creator : EntryId → Store α → Creation α × List ρ × Store α) :
    (s.trackedAcquireWith direct p c (recording creator)).2.1 =
      match s.acquire p c with
      | (some _, _) => []
      | (none, t) =>
        match t.reserve p with
        | (some e, u) => [(e, u)]
        | (none, _) => [] := by
  rw [Program.trackedAcquireWith_eq]
  rcases s.acquireWith_cases p c (recording creator) with
    ⟨e, t, ha, hwith⟩ | ⟨t, ha, ⟨u, hr, hwith⟩ | ⟨e, u, hr, hwith⟩⟩
  · rw [hwith, ha]
  · rw [hwith, ha]
    dsimp only
    rw [hr]
  · rw [hwith, ha]
    dsimp only
    rw [hr]
    rfl

theorem length_recorded_le (s : Store α) (direct : Bool) (p : PoolId) (c : CallerId)
    (creator : EntryId → Store α → Creation α × List ρ × Store α) :
    (s.trackedAcquireWith direct p c (recording creator)).2.1.length ≤ 1 := by
  rw [recorded_eq]
  split
  · exact Nat.zero_le 1
  · split
    · exact Nat.le_refl 1
    · exact Nat.zero_le 1

theorem mem_recorded_iff {direct : Bool} :
    (e, u) ∈ (s.trackedAcquireWith direct p c (recording creator)).2.1 ↔
      ∃ t, s.acquire p c = (none, t) ∧ t.reserve p = (some e, u) := by
  rw [recorded_eq]
  constructor
  · intro hmem
    split at hmem
    · exact absurd hmem List.not_mem_nil
    · next t ha =>
      split at hmem
      · next hr =>
        obtain ⟨rfl, rfl⟩ := Prod.mk.inj (List.mem_singleton.mp hmem)
        exact ⟨t, ha, hr⟩
      · exact absurd hmem List.not_mem_nil
  · rintro ⟨t, ha, hr⟩
    rw [ha]
    dsimp only
    rw [hr]
    exact List.mem_singleton_self _

end Store

/-! ### What the creator leaves -/

/-- An entry that is closed by calls is removed by one of them or closed with its pool. -/
theorem Trace.exists_closes {u w : Store α} {p : PoolId} {e : EntryId} {calls : List (Called α)}
    (h : Trace u calls w) (hu : u.Stands p e []) (hopen : u.state e ≠ .closed) (hw : w.Gone e) :
    ∃ r d, (r, d) ∈ calls ∧ d.Closes r e ∧ (d = .close p ∨ ∃ q, d = .remove q e) := by
  have hcount := h.length_closings e
  rw [if_neg fun hg => hopen hg.2, if_pos hw, Nat.zero_add] at hcount
  obtain ⟨⟨r, d⟩, hx⟩ := List.length_eq_one_iff.mp hcount
  obtain ⟨hmem, hcloses⟩ := List.mem_filter.mp (hx ▸ List.mem_singleton_self (r, d))
  replace hcloses : d.Closes r e := of_decide_eq_true hcloses
  have hr : ∃ earlier, r.Stands p e earlier :=
    h.holds_of_mem (P := fun t : Store α => ∃ earlier, t.Stands p e earlier)
      (fun _ _ same ⟨earlier, ht⟩ => ⟨earlier, ht.aside same⟩)
      (fun _ d _ ⟨_, ht⟩ => ⟨_, ht.call d⟩) ⟨[], hu⟩ hmem
  obtain ⟨earlier, hr⟩ := hr
  refine ⟨r, d, hmem, hcloses, ?_⟩
  rcases hcloses.cases with ⟨q, rfl, -⟩ | ⟨q, rfl, hq⟩
  · exact .inr ⟨q, rfl⟩
  · have hp : e ∈ r.members p := hr.sound.kept p e hr.reserved hcloses.1
    obtain rfl : q = p := hr.sound.eq_of_mem hq hp
    exact .inl rfl

/-- A pending entry takes the value and is handed out. -/
theorem Store.Stands.fulfilled {w : Store α} {p : PoolId} {e : EntryId} {calls : List (Called α)}
    (h : w.Stands p e calls) (hx : w.state e = .pending) (direct : Bool) (c : CallerId) (v : α) :
    let x := (w.settle p c e (.value v)).2.observeResult direct p (.ok (some e))
    x.entry e = .active v ∧ e ∈ x.members p ∧ (x.pool p).closed = false ∧
      (x.pool p).counters = { (w.pool p).counters with
        acquired := (w.pool p).counters.acquired + 1 } := by
  intro x
  have hg : (w.entry e).Grants (.enable v true) := Entry.grants_enable_iff.mpr hx
  have hopen : w.state e ≠ .closed := by simp [hx]
  have hlisted : e ∈ w.members p := h.sound.kept p e h.reserved hopen
  have hsame := (w.settle p c e (.value v)).2.alike_observeResult direct p (.ok (some e))
  have hr : x.registry = w.registry.grant e (.enable v true) :=
    hsame.registry.trans (settle_of_grants hg).2
  have hpool : (x.pool p).bare = ((w.pool p).count fun k => { k with acquired := k.acquired + 1 }).bare :=
    (hsame.pool p).trans (congrArg Pool.bare (pool_settle_of_grants h.known c hg))
  have hentry : x.entry e = ((w.entry e).answer (.enable v true)).2 :=
    (congrArg (fun v : Registry α => v.entry e) hr).trans (grant_entry_self ..)
  have hactive : ((w.entry e).answer (.enable v true)).2 = .active v := by
    change ((w.entry e).enable v true).2 = _
    rw [Entry.enable_of_pending hx]
  refine ⟨hentry.trans hactive, ?_, ?_, congrArg Pool.counters hpool⟩
  · have hm : x.members p = w.members p := congrArg (fun v : Registry α => (v.roster p).members) hr
    exact hm ▸ hlisted
  · exact (congrArg Pool.closed hpool).trans (h.opened hlisted)

/-- No creation that ends leaves its entry pending. -/
theorem Store.Stands.settled {w : Store α} {p : PoolId} {e : EntryId} {calls : List (Called α)}
    (h : w.Stands p e calls) {creation : Creation α} (hpanic : creation ≠ .panicked) (direct : Bool)
    (c : CallerId) : ((w.settle p c e creation).2.observeResult direct p
      (w.settle p c e creation).1).state e ≠ .pending := by
  have hr := registry_observeResult (w.settle p c e creation).2 direct p (w.settle p c e creation).1
  have hstate : ((w.settle p c e creation).2.observeResult direct p (w.settle p c e creation).1).state e =
      (w.settle p c e creation).2.state e :=
    congrArg (fun v : Registry α => (v.entry e).state) hr
  have hremoved : (w.remove p e).2.state e ≠ .pending := by simp [h.closed_of_remove]
  rw [hstate]
  cases creation with
  | value v =>
    by_cases hx : w.state e = .pending
    · have hentry : (w.settle p c e (.value v)).2.entry e = .active v := (h.fulfilled hx true c v).1
      have hactive : (w.settle p c e (.value v)).2.state e = .active := congrArg Entry.state hentry
      simp [hactive]
    · have hg : ¬ (w.entry e).Grants (.enable v true) := mt Entry.grants_enable_iff.mp hx
      rw [(settle_of_not_grants hg).2]
      exact hx
  | nothing => exact hremoved
  | refused reason => exact hremoved
  | panicked => exact absurd rfl hpanic

/--
The creator of an entry is asked once if nothing is acquired and an entry is reserved, and else not at all. If
it yields a value, then a reserved entry that is pending still takes it and is handed out; one that was closed
meanwhile, by a removal or with the pool, is not, and nothing changes; and one that the creator enabled itself
is a fault and keeps its own value. No creation that ends leaves its entry pending.
-/
theorem creations_end_by_state {draws : List Nat} {s : Store α} (h : Run free (.blank draws) s)
    (direct : Bool) (p : PoolId) (c : CallerId)
    (creator : EntryId → Store α → Creation α × List ρ × Store α) :
    let asked := (s.trackedAcquireWith direct p c (recording creator)).2.1
    asked.length ≤ 1 ∧
    (∀ e u, (e, u) ∈ asked ↔ ∃ t, s.acquire p c = (none, t) ∧ t.reserve p = (some e, u)) ∧
    ∀ t u w e creation reports calls, s.acquire p c = (none, t) → t.reserve p = (some e, u) →
      creator e u = (creation, reports, w) → History free u calls w →
      ∃ answer x, s.trackedAcquireWith direct p c creator = (answer, reports, x) ∧
        (creation ≠ .panicked → x.state e ≠ .pending) ∧
        ∀ v, creation = .value v →
          (w.state e = .pending → answer = .ok (some e) ∧ x.entry e = .active v ∧ e ∈ x.members p ∧
            (x.pool p).closed = false ∧ (x.pool p).counters = { (w.pool p).counters with
              acquired := (w.pool p).counters.acquired + 1 }) ∧
          (w.state e = .closed → answer = .ok none ∧ x = w ∧ ∃ r d, (r, d) ∈ calls ∧ d.Closes r e ∧
            (d = .close p ∨ ∃ q, d = .remove q e)) ∧
          (w.state e = .idle ∨ w.state e = .active → answer = .error (.fault .alreadyEnabled) ∧ x = w ∧
            e ∈ x.members p ∧ ∃ own, given e calls = [own] ∧ x.value? e = some own) := by
  intro asked
  refine ⟨s.length_recorded_le direct p c creator, fun e u => Store.mem_recorded_iff,
    fun t u w e creation reports calls ha hr hc hw => ?_⟩
  have hs : s.registry.Sound := h.sound
  have ht : t.registry.Sound := by
    have hsound := Call.sound_apply hs (.acquire p c)
    change (s.acquire p c).2.registry.Sound at hsound
    rwa [ha] at hsound
  have hu : u.Stands p e [] := Store.stands_of_reserve ht hr
  have hstands : w.Stands p e calls := hw.trace.stands hu
  have hpending : u.state e = .pending := by
    have hm := Store.mem_of_reserve (congrArg Prod.fst hr)
    rw [hr] at hm
    exact hm.2
  refine ⟨_, _, Store.trackedAcquireWith_of_creator direct ha hr hc, fun hpanic => ?_, fun v hv => ?_⟩
  · exact hstands.settled hpanic direct c
  subst hv
  refine ⟨fun hx => ?_, fun hx => ?_, fun hx => ?_⟩
  · have hsettle := Store.settle_of_pending (p := p) (c := c) hx v
    have hanswer : (w.settle p c e (.value v)).1 = .ok (some e) := congrArg Prod.fst hsettle
    rw [hanswer]
    exact ⟨rfl, hstands.fulfilled hx direct c v⟩
  · rw [Store.settle_of_closed hx]
    refine ⟨rfl, rfl, hw.trace.exists_closes hu ?_ (hstands.gone hx)⟩
    simp [hpending]
  · rw [Store.settle_of_enabled hx]
    have hopen : w.state e ≠ .closed := by rcases hx with hx | hx <;> simp [hx]
    refine ⟨rfl, rfl, hstands.sound.kept p e hstands.reserved hopen, ?_⟩
    obtain ⟨own, hown⟩ := Option.isSome_iff_exists.mp (Entry.value?_of_in_circulation hx)
    refine ⟨own, ?_, hown⟩
    have hgiven := hw.trace.given_eq e
    have hnone : u.value? e = none := Entry.value?_of_pending hpending
    have hvalue : w.value? e = some own := hown
    rw [hvalue, hnone] at hgiven
    exact hgiven.symm

/-- A creator that makes a nested creation of its own, and enables and releases the entry reserved for it. -/
theorem creations_end_by_state_enabled :
    let s : Store Nat := [Move.create "p" {} none].foldl Move.apply (.blank [])
    let u := (s.acquire 0 .main).2.reserve 0
    let ms : List (Move Nat) := [.acquire true 0 .main, .reserve 0, .settle true 0 .main 1 (.value 8),
      .enable 0 9 true, .release true 0 .main 0]
    Run free (.blank []) s ∧ (s.acquire 0 .main).1 = none ∧ u.1 = some 0 ∧
      History free u.2 (Move.trail u.2 ms) (ms.foldl Move.apply u.2) ∧
      ∃ x, s.trackedAcquireWith true 0 .main (fun _ u => (.value 7, [()], ms.foldl Move.apply u)) =
          (.error (.fault .alreadyEnabled), [()], x) ∧ 0 ∈ x.members 0 ∧ x.value? 0 = some 9 := by
  intro s u ms
  have hrun : Run free (.blank []) s := Run.foldl _ _ (by simp [Move.Proper])
  have hmiss : (s.acquire 0 .main).1 = none := by decide +kernel
  have hone : u.1 = some 0 := by decide +kernel
  have hcalls : History free u.2 (Move.trail u.2 ms) (ms.foldl Move.apply u.2) :=
    .of_moves _ ms (by decide +kernel)
  let creator : EntryId → Store Nat → Creation Nat × List Unit × Store Nat :=
    fun _ u => (.value 7, [()], ms.foldl Move.apply u)
  obtain ⟨-, -, hend⟩ := creations_end_by_state hrun true 0 .main creator
  obtain ⟨answer, x, hx, -, hvalue⟩ := hend _ u.2 _ 0 (.value 7) [()] _ (Prod.ext hmiss rfl)
    (Prod.ext hone rfl) rfl hcalls
  obtain ⟨-, -, henabled⟩ := hvalue 7 rfl
  obtain ⟨rfl, -, hlisted, own, hgiven, hown⟩ := henabled (.inl (by decide +kernel))
  have hnine : given 0 (Move.trail u.2 ms) = [9] := by decide +kernel
  obtain rfl : own = 9 := List.singleton_inj.mp (hgiven.symm.trans hnine)
  exact ⟨hrun, hmiss, hone, hcalls, x, hx, hlisted, hown⟩

end ResourcePool
