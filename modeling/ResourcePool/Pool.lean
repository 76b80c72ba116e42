import ResourcePool.Detector
import ResourcePool.Hints
import ResourcePool.Metrics
import ResourcePool.Settings

/-! A pool: its settings, its members in order of reservation, and what it keeps count of. -/
namespace ResourcePool

/-- Pools are numbered in order of creation and numbers are never reused. -/
abbrev PoolId := Nat

structure Pool (α : Type) where
  name : String := ""
  settings : Settings α := {}
  members : List EntryId := []
  closed : Bool := false
  /-- Advances with every search by turns; only pools of that strategy have one. -/
  turn : Option UInt64 := none
  hints : Hints := {}
  counters : Counters := {}
  tracker? : Option Tracker := none

namespace Pool

variable {α : Type}

/-- An empty pool. -/
def ofSettings (name : String) (settings : Settings α) (detector? : Option Detector) : Pool α where
  name
  settings
  turn := if settings.strategy = .roundRobin then some 0 else none
  tracker? := detector?.map fun detector => { detector }

/-- A pool that does not exist is like one that is closed. -/
def absent : Pool α where
  closed := true

def isFull (p : Pool α) : Bool :=
  0 < p.settings.maxEntries && p.settings.maxEntries ≤ p.members.length

def count (p : Pool α) (f : Counters → Counters) : Pool α :=
  { p with counters := f p.counters }

/-- Remembers what a caller released last, if the pool gives hints. -/
def remember (p : Pool α) (caller : CallerId) (entry : EntryId) : Pool α :=
  if p.settings.cached then { p with hints := p.hints.set caller entry } else p

end Pool

end ResourcePool
