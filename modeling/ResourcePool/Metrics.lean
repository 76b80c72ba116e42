import ResourcePool.Binary64
import ResourcePool.Entry

/-! Pool metrics: event counts, a tally of the members by state, and the ratio in use. -/
namespace ResourcePool

/-- How often each thing happened. Readings are taken modulo the word size. -/
structure Counters where
  acquired : Nat := 0
  released : Nat := 0
  removed : Nat := 0
  hits : Nat := 0
  misses : Nat := 0
  rejections : Nat := 0
  deriving DecidableEq, Repr

/-- Members of a list by state. -/
structure Tally where
  reserved : Nat := 0
  idle : Nat := 0
  inUse : Nat := 0
  closed : Nat := 0
  deriving DecidableEq, Repr

namespace Tally

def size (t : Tally) : Nat :=
  t.reserved + t.idle + t.inUse + t.closed

def ofStates (states : List EntryState) : Tally where
  reserved := states.count .pending
  idle := states.count .idle
  inUse := states.count .active
  closed := states.count .closed

end Tally

structure Metrics where
  acquired : UInt64 := 0
  released : UInt64 := 0
  removed : UInt64 := 0
  hits : UInt64 := 0
  cachedCallers : UInt64 := 0
  misses : UInt64 := 0
  rejections : UInt64 := 0
  reserved : UInt64 := 0
  idle : UInt64 := 0
  inUse : UInt64 := 0
  closed : UInt64 := 0
  size : UInt64 := 0
  maxEntries : UInt64 := 0
  utilization : Binary64 := .zero
  deriving DecidableEq, Repr

namespace Metrics

/-- Entries in use against a capacity, `0` when there is none. -/
def ratio (inUse capacity : UInt64) : Binary64 :=
  if capacity = 0 then .zero
  else (Binary64.ofNat inUse.toNat).div (.ofNat capacity.toNat)

/-- The capacity of an unbounded pool is its size. -/
def gather (c : Counters) (t : Tally) (maxEntries : Nat) (cachedCallers : Nat) : Metrics :=
  let limit := UInt64.ofNat maxEntries
  let size := UInt64.ofNat t.size
  let inUse := UInt64.ofNat t.inUse
  { acquired := .ofNat c.acquired
    released := .ofNat c.released
    removed := .ofNat c.removed
    hits := .ofNat c.hits
    cachedCallers := .ofNat cachedCallers
    misses := .ofNat c.misses
    rejections := .ofNat c.rejections
    reserved := .ofNat t.reserved
    idle := .ofNat t.idle
    inUse
    closed := .ofNat t.closed
    size
    maxEntries := limit
    utilization := ratio inUse (if limit = 0 then size else limit) }

/-- Equality as numbers: no metrics with a NaN equal themselves. -/
def same (m n : Metrics) : Bool :=
  m.utilization.equals n.utilization &&
    { m with utilization := .zero } == { n with utilization := .zero }

end Metrics

end ResourcePool
