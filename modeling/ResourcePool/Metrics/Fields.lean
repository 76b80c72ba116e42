import ResourcePool.Metrics
import ResourcePool.Decimal.Fixed

/-! The fields of the metrics by name, in their fixed order. -/
namespace ResourcePool.Metrics

/-- A metric is a count or, for the utilization alone, a ratio. -/
inductive Reading where
  | count (n : UInt64)
  | ratio (x : Binary64)
  deriving DecidableEq

/-- A ratio shows two decimal places. -/
def Reading.text : Reading → String
  | .count n => toString n.toNat
  | .ratio x => Decimal.fixed 2 x

inductive Field where
  | acquired
  | released
  | removed
  | hits
  | cachedCallers
  | misses
  | rejections
  | reserved
  | idle
  | inUse
  | closed
  | size
  | maxEntries
  | utilization
  deriving DecidableEq, Repr

namespace Field

/-- All fields in order. -/
def all : List Field :=
  [acquired, released, removed, hits, cachedCallers, misses, rejections, reserved, idle, inUse,
    closed, size, maxEntries, utilization]

def name : Field → String
  | acquired => "total_acquired"
  | released => "total_released"
  | removed => "total_removed"
  | hits => "cache_hits"
  | cachedCallers => "cached_callers"
  | misses => "acquire_misses"
  | rejections => "reserve_rejections"
  | reserved => "reserved_entries"
  | idle => "idle_entries"
  | inUse => "in_use_entries"
  | closed => "closed_entries"
  | size => "size"
  | maxEntries => "max_entries"
  | utilization => "utilization"

def ofName? (s : String) : Option Field :=
  all.find? (·.name == s)

end Field

def read (m : Metrics) : Field → Reading
  | .acquired => .count m.acquired
  | .released => .count m.released
  | .removed => .count m.removed
  | .hits => .count m.hits
  | .cachedCallers => .count m.cachedCallers
  | .misses => .count m.misses
  | .rejections => .count m.rejections
  | .reserved => .count m.reserved
  | .idle => .count m.idle
  | .inUse => .count m.inUse
  | .closed => .count m.closed
  | .size => .count m.size
  | .maxEntries => .count m.maxEntries
  | .utilization => .ratio m.utilization

/-- All readings by name, in order. -/
def readings (m : Metrics) : List (String × Reading) :=
  Field.all.map fun f => (f.name, m.read f)

/-- All readings as texts. -/
def texts (m : Metrics) : List (String × String) :=
  Field.all.map fun f => (f.name, (m.read f).text)

end ResourcePool.Metrics
