import ResourcePool.Program.Search
import ResourcePool.Proofs.Outcomes

/-! Selection: which entry an acquire of an open pool hands out, and all that it changes. -/
namespace ResourcePool

variable {α : Type}

/-- Where a search among `size` members begins: by the number drawn, the caller's, or the one whose turn
it is. -/
def Strategy.origin (strategy : Strategy) (size : Nat) (caller : CallerId) (draw : Nat) (turn : UInt64) :
    Nat :=
  match strategy with
  | .first => 0
  | .random => draw
  | .byCaller => caller % size
  | .roundRobin => turn.toNat % size

theorem Pool.searched_of_turn {x : Pool α} {k : UInt64}
    (turn : x.settings.strategy = .roundRobin → x.turn = some k) : x.searched =
      { x with turn := if x.settings.strategy = .roundRobin then some (k + 1) else x.turn } := by
  unfold searched
  split_ifs with hs
  · rw [turn hs]
    rfl
  · rfl

namespace Store

variable {s : Store α} {p : PoolId} {c : CallerId}

theorem start_fst {r : Nat} {k : UInt64}
    (draw : (s.pool p).settings.strategy = .random → s.draws.headD 0 % (s.members p).length = r)
    (turn : (s.pool p).settings.strategy = .roundRobin → (s.pool p).turn = some k) :
    (s.start p c).1 = (s.pool p).settings.strategy.origin (s.members p).length c r k := by
  change ((s.pool p).settings.strategy.start (s.members p).length c (s.draws.headD 0)
    (s.pool p).turn).1 = _
  cases hs : (s.pool p).settings.strategy with
  | first => rfl
  | random => exact draw hs
  | byCaller => rfl
  | roundRobin =>
    rw [turn hs]
    rfl

/-- What it takes to hand an idle entry out. -/
theorem handOut_of_idle {e : EntryId} {v : α} (he : s.entry e = .idle v) (hinted : Bool) :
    s.handOut p c e hinted = { s.modifyPool p (fun x => { x with counters := { x.counters with
        acquired := x.counters.acquired + 1,
        hits := if hinted then x.counters.hits + 1 else x.counters.hits } }) with
      entries := s.entries.setIfInBounds e (.active v)
      journal := s.journal.record (.acquired p c e hinted) } := by
  unfold handOut
  rw [he]
  rfl

/-- The same after the start of a search. -/
theorem handOut_of_search {e : EntryId} {v : α} {k : UInt64} (hm : s.members p ≠ [])
    (turn : (s.pool p).settings.strategy = .roundRobin → (s.pool p).turn = some k)
    (he : s.entry e = .idle v) :
    (s.start p c).2.handOut p c e false = { s.modifyPool p (fun x => { x with
        turn := if x.settings.strategy = .roundRobin then some (k + 1) else x.turn
        counters := { x.counters with acquired := x.counters.acquired + 1 } }) with
      entries := s.entries.setIfInBounds e (.active v)
      draws := s.drawn p
      journal := s.journal.record (.acquired p c e false) } := by
  have hentry : (s.start p c).2.entry e = .idle v :=
    (congrArg (fun v : Registry α => v.entry e) (s.registry_start p c)).trans he
  have hpools : (s.modifyPool p Pool.searched).modifyPool p (fun x => { x with
        counters := { x.counters with acquired := x.counters.acquired + 1 } }) =
      s.modifyPool p fun x => { x with
        turn := if x.settings.strategy = .roundRobin then some (k + 1) else x.turn
        counters := { x.counters with acquired := x.counters.acquired + 1 } } := by
    rw [modifyPool_modifyPool]
    refine modifyPool_congr ?_
    rw [Pool.searched_of_turn turn]
  rw [handOut_of_idle hentry, start_snd hm]
  exact congrArg (fun y : Store α => { y with
    entries := s.entries.setIfInBounds e (.active v)
    draws := s.drawn p
    journal := s.journal.record (.acquired p c e false) }) hpools

end Store

/--
An acquire of an open pool with members follows the hint of the caller, if the pool gives hints and the entry
is alive and idle still. Otherwise it takes the first idle member from where its search begins on, around the
list, and moves the turn on. The entry becomes active, the call is counted, and nothing else changes.
-/
theorem acquire_takes_first_idle (s : Store α) (p : PoolId) (c : CallerId) (r : Nat) (k : UInt64)
    (opened : (s.pool p).closed = false) (nonempty : s.members p ≠ [])
    (draw : (s.pool p).settings.strategy = .random → s.draws.headD 0 % (s.members p).length = r)
    (turn : (s.pool p).settings.strategy = .roundRobin → (s.pool p).turn = some k) :
    let origin := (s.pool p).settings.strategy.origin (s.members p).length c r k
    let draws := if (s.pool p).settings.strategy = .random then s.draws.tail else s.draws
    (∀ e v, (s.pool p).settings.cached = true → (s.pool p).hints.slots.lookup c = some e →
      s.isAlive e = true → s.entry e = .idle v →
      s.acquire p c = (some e, { s.modifyPool p (fun x => { x with
          counters := { x.counters with
            acquired := x.counters.acquired + 1, hits := x.counters.hits + 1 } }) with
        entries := s.entries.setIfInBounds e (.active v)
        journal := s.journal.record (.acquired p c e true) })) ∧
    ((∀ e, (s.pool p).settings.cached = true → (s.pool p).hints.slots.lookup c = some e →
      s.isAlive e = true → s.state e ≠ .idle) →
      (∀ e, ((s.members p).rotate origin).find? s.isIdle = some e → ∃ v, s.entry e = .idle v ∧
        s.acquire p c = (some e, { s.modifyPool p (fun x => { x with
            turn := if x.settings.strategy = .roundRobin then some (k + 1) else x.turn
            counters := { x.counters with acquired := x.counters.acquired + 1 } }) with
          entries := s.entries.setIfInBounds e (.active v)
          draws
          journal := s.journal.record (.acquired p c e false) })) ∧
      (((s.members p).rotate origin).find? s.isIdle = none →
        s.acquire p c = (none, { s.modifyPool p (fun x => { x with
            turn := if x.settings.strategy = .roundRobin then some (k + 1) else x.turn
            counters := { x.counters with misses := x.counters.misses + 1 } }) with
          draws
          journal := s.journal.record (.missed p) }))) := by
  intro origin draws
  have hdraws : s.drawn p = draws := by simp [Store.drawn, draws, nonempty]
  have horigin : (s.start p c).1 = origin := Store.start_fst draw turn
  refine ⟨fun e v hc hl ha he => ?_, fun hnot => ?_⟩
  · have hidle : s.state e = .idle := congrArg Entry.state he
    have hhint : s.hinted? p c = some e := Store.hinted?_eq_some_iff.mpr ⟨hc, hl, ha, hidle⟩
    rw [Store.acquire_of_hinted opened nonempty hhint, Store.handOut_of_idle he]
    rfl
  have hhint : s.hinted? p c = none := by
    refine Option.eq_none_iff_forall_ne_some.mpr fun e he => ?_
    obtain ⟨hc, hl, ha, hidle⟩ := Store.hinted?_eq_some_iff.mp he
    exact hnot e hc hl ha hidle
  have hsearch := Store.acquire_of_not_hinted? opened nonempty hhint
  rw [horigin] at hsearch
  refine ⟨fun e hfind => ?_, fun hfind => ?_⟩
  · have hidle : s.isIdle e = true := List.find?_some hfind
    obtain ⟨v, he⟩ := Entry.exists_of_isIdle hidle
    have hgot : s.acquire p c = (some e, (s.start p c).2.handOut p c e false) := by
      rw [hsearch, hfind]
    exact ⟨v, he, by rw [hgot, Store.handOut_of_search nonempty turn he, hdraws]⟩
  · have hgot : s.acquire p c = (none, (s.start p c).2.miss p) := by rw [hsearch, hfind]
    have hmissed : s.modifyPool p Pool.missed = s.modifyPool p fun x => { x with
        turn := if x.settings.strategy = .roundRobin then some (k + 1) else x.turn
        counters := { x.counters with misses := x.counters.misses + 1 } } := by
      refine Store.modifyPool_congr ?_
      rw [Pool.missed_of_ne_nil nonempty, Pool.searched_of_turn turn]
      rfl
    rw [hgot, Store.eq_of_acquire_eq_none opened hgot, hdraws, hmissed]

/-- The turn of the last place comes when that place and the first are in use, and the counter wraps. -/
theorem acquire_takes_first_idle_around_the_end :
    let s := (Program.searchAll 0 [.acquire, .acquire] (Program.numbered 4 .roundRobin 3).2).2.modifyPool 0
      fun x => { x with turn := some (-1) }
    (s.pool 0).closed = false ∧ s.members 0 = [0, 1, 2, 3] ∧ s.state 3 = .active ∧ s.state 0 = .active ∧
      (s.pool 0).turn = some (-1) ∧ ∃ t, s.acquire 0 .leaving = (some 1, t) ∧ t.state 1 = .active ∧
        (t.pool 0).turn = some 0 := by
  intro s
  have hopen : (s.pool 0).closed = false := by decide +kernel
  have hmembers : s.members 0 = [0, 1, 2, 3] := by decide +kernel
  have hstrategy : (s.pool 0).settings.strategy = .roundRobin := by decide +kernel
  have hturn : (s.pool 0).turn = some (-1) := by decide +kernel
  have huncached : (s.pool 0).settings.cached = false := by decide +kernel
  obtain ⟨-, hsearch⟩ := acquire_takes_first_idle s 0 .leaving 0 (-1) hopen (by simp [hmembers])
    (by simp [hstrategy]) fun _ => hturn
  obtain ⟨hfound, -⟩ := hsearch (by simp [huncached])
  obtain ⟨v, hv, hacquire⟩ := hfound 1 (by decide +kernel)
  have hvalue : s.entry 1 = .idle 1 := by decide +kernel
  obtain rfl : v = 1 := by injection hv.symm.trans hvalue
  exact ⟨hopen, hmembers, by decide +kernel, by decide +kernel, hturn, _, hacquire, by decide +kernel,
    by decide +kernel⟩

end ResourcePool
