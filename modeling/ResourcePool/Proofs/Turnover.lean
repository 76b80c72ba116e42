import ResourcePool.Proofs.Gauge

/-! Turnover: what a pool went through, and when a gauge agrees with it. Each way that a gauge moves keeps the
two in agreement. -/
namespace ResourcePool

/-- What happened on a pool, counted from the calls alone. -/
structure Turnover where
  /-- Reservations that were granted. -/
  reserved : Nat := 0
  /-- Members that were in the list when the pool closed. -/
  drained : Nat := 0
  /-- Entries that were enabled for their caller to have at once. -/
  enabled : Nat := 0
  /-- Searches for an idle entry, found or not, while the pool was open. -/
  attempts : Nat := 0
  /-- Entries that were created and handed out in one call. -/
  created : Nat := 0
  /-- Members that were in use when they were closed. -/
  lost : Nat := 0
  deriving DecidableEq, Repr

def Turnover.add (b b' : Turnover) : Turnover where
  reserved := b.reserved + b'.reserved
  drained := b.drained + b'.drained
  enabled := b.enabled + b'.enabled
  attempts := b.attempts + b'.attempts
  created := b.created + b'.created
  lost := b.lost + b'.lost

namespace Gauge

/-- A gauge agrees with a turnover: each entry that came in is in the list or left it, each entry that went out
is in use or came back, and each search found an entry or missed. -/
structure Balanced (g : Gauge) (b : Turnover) : Prop where
  stock : g.tally.size + g.counters.removed + b.drained = b.reserved
  flow : g.counters.acquired + b.enabled = g.counters.released + g.tally.inUse + b.lost
  demand : g.counters.acquired + g.counters.misses = b.attempts + b.created

namespace Balanced

variable {g g' : Gauge} {b b' : Turnover} {t : Tally} {st : EntryState}

/-- It is enough that both move by the same amounts. -/
theorem move (h : g.Balanced b)
    (stock : g'.tally.size + g'.counters.removed + b'.drained =
      g.tally.size + g.counters.removed + b'.reserved)
    (flow : g'.counters.acquired + b'.enabled + g.counters.released + g.tally.inUse =
      g.counters.acquired + g'.counters.released + g'.tally.inUse + b'.lost)
    (demand : g'.counters.acquired + g'.counters.misses =
      g.counters.acquired + g.counters.misses + b'.attempts + b'.created) :
    g'.Balanced (b.add b') := by
  have hs := h.stock
  have hf := h.flow
  have hd := h.demand
  refine ⟨?_, ?_, ?_⟩ <;> dsimp only [Turnover.add] <;> omega

theorem reserve (h : g.Balanced b) :
    g.reserve.2.Balanced (b.add { reserved := if g.reserve.1 = true then 1 else 0 }) := by
  by_cases hc : (g.closed || g.isFull) = true
  · rw [Gauge.reserve, if_pos hc]
    refine h.move rfl ?_ rfl
    dsimp only [Gauge.count]
    omega
  · rw [Gauge.reserve, if_neg hc]
    have hsize := g.tally.size_add .pending
    refine h.move ?_ ?_ rfl
    · dsimp only
      rw [if_pos rfl]
      omega
    · dsimp only [Tally.add]
      omega

theorem tally_shift {old new : EntryState} (ht : g.tally = t.add old) :
    (g.shift old new).tally = t.add new := by
  rw [Gauge.shift, ht, Tally.drop_add]

/-- A member goes to another state, without having been handed out by the pool. -/
theorem shift (h : g.Balanced b) {old new : EntryState} (ht : g.tally = t.add old)
    (hold : old ≠ .active) :
    (g.shift old new).Balanced (b.add { enabled := if new = .active then 1 else 0 }) := by
  have htally : (g.shift old new).tally = t.add new := tally_shift ht
  have hg := t.inUse_add old
  have hg' := t.inUse_add new
  rw [if_neg hold] at hg
  refine h.move ?_ ?_ rfl
  · rw [htally, ht, t.size_add, t.size_add]
    rfl
  · rw [htally, ht, hg, hg']
    dsimp only [Gauge.shift]
    omega

theorem acquire (h : g.Balanced b) (ht : g.tally.idle ≠ 0 → ∃ t : Tally, g.tally = t.add .idle) :
    g.acquire.2.Balanced (b.add { attempts := if g.closed = false then 1 else 0 }) := by
  cases hc : g.closed with
  | true =>
    rw [Gauge.acquire, if_pos hc]
    exact h
  | false =>
    rw [Gauge.acquire, if_neg (by simp [hc])]
    by_cases hi : g.tally.idle = 0
    · rw [if_pos hi]
      refine h.move rfl ?_ ?_
      · dsimp only [Gauge.count]
        omega
      · dsimp only [Gauge.count]
        rw [if_pos rfl]
        omega
    · rw [if_neg hi]
      obtain ⟨t, ht⟩ := ht hi
      have htally : (g.shift .idle .active).tally = t.add .active := tally_shift ht
      refine h.move ?_ ?_ ?_
      · dsimp only [Gauge.count]
        rw [htally, ht, t.size_add, t.size_add]
        rfl
      · dsimp only [Gauge.count]
        rw [htally, ht]
        dsimp only [Tally.add, Gauge.shift]
        omega
      · dsimp only [Gauge.count, Gauge.shift]
        rw [if_pos rfl]
        omega

/-- An active member is released. -/
theorem release (h : g.Balanced b) (hc : g.closed = false) (ht : g.tally = t.add .active) :
    g.release.2.Balanced (b.add {}) := by
  have htally : (g.shift .active .idle).tally = t.add .idle := tally_shift ht
  rw [Gauge.release, if_neg (by simp [hc])]
  refine h.move ?_ ?_ rfl
  · dsimp only [Gauge.count]
    rw [htally, ht, t.size_add, t.size_add]
    rfl
  · dsimp only [Gauge.count]
    rw [htally, ht]
    dsimp only [Tally.add, Gauge.shift]
    omega

/-- A member is removed. -/
theorem remove (h : g.Balanced b) (hc : g.closed = false) (ht : g.tally = t.add st) :
    (g.remove st).2.Balanced (b.add { lost := if st = .active then 1 else 0 }) := by
  have hsize := t.size_add st
  have huse := t.inUse_add st
  rw [Gauge.remove, if_neg (by simp [hc])]
  refine h.move ?_ ?_ rfl
  · dsimp only [Gauge.count]
    rw [ht, Tally.drop_add]
    omega
  · dsimp only [Gauge.count]
    rw [ht, Tally.drop_add]
    omega

/-- A pending member gets the value of its creator. -/
theorem settle {α : Type} (h : g.Balanced b) (ht : g.tally = t.add .pending) (v : α) :
    (g.settle (.value v)).2.Balanced (b.add { created := 1 }) := by
  have htally : (g.shift .pending .active).tally = t.add .active := tally_shift ht
  unfold Gauge.settle
  refine h.move ?_ ?_ ?_
  · dsimp only [Gauge.count]
    rw [htally, ht, t.size_add, t.size_add]
    rfl
  · dsimp only [Gauge.count]
    rw [htally, ht]
    dsimp only [Tally.add, Gauge.shift]
    omega
  · dsimp only [Gauge.count, Gauge.shift]
    omega

theorem close (h : g.Balanced b) :
    g.close.Balanced (b.add { drained := g.tally.size, lost := g.tally.inUse }) := by
  refine h.move ?_ ?_ rfl
  · dsimp only [Gauge.close, Tally.size]
    omega
  · dsimp only [Gauge.close]
    omega

end Balanced

end Gauge

end ResourcePool
