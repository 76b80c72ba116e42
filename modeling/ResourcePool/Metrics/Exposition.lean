import ResourcePool.Metrics.Fields

/-!
The exposition of metrics to a scraper: for each metric a help line, a type line and one sample
with its labels, the pool's name first and then the tags by key. Label values stand as they are.
-/
namespace ResourcePool.Metrics

inductive Kind where
  | gauge
  | counter
  deriving DecidableEq

def Kind.name : Kind → String
  | .gauge => "gauge"
  | .counter => "counter"

structure Sample where
  name : String
  help : String
  kind : Kind
  field : Field

/-- Every exposed metric in order. The closed entries are not exposed. -/
def samples : List Sample :=
  [ ⟨"entrypool_entries_idle", "Idle entries", .gauge, .idle⟩,
    ⟨"entrypool_entries_in_use", "In-use entries", .gauge, .inUse⟩,
    ⟨"entrypool_entries_reserved", "Reserved entries", .gauge, .reserved⟩,
    ⟨"entrypool_entries", "Entries in the pool", .gauge, .size⟩,
    ⟨"entrypool_entries_max", "Maximum entries, 0 when unbounded", .gauge, .maxEntries⟩,
    ⟨"entrypool_cached_callers", "Threads with a cached entry", .gauge, .cachedCallers⟩,
    ⟨"entrypool_utilization", "Pool utilization ratio", .gauge, .utilization⟩,
    ⟨"entrypool_acquired_total", "Total entries acquired", .counter, .acquired⟩,
    ⟨"entrypool_released_total", "Total entries released", .counter, .released⟩,
    ⟨"entrypool_removed_total", "Total entries removed", .counter, .removed⟩,
    ⟨"entrypool_cache_hits_total", "Acquisitions served by the thread cache", .counter, .hits⟩,
    ⟨"entrypool_acquire_misses_total", "Acquisitions that found no idle entry", .counter, .misses⟩,
    ⟨"entrypool_reserve_rejections_total", "Refused reservations", .counter, .rejections⟩ ]

abbrev Tags := List (String × String)

/-- Tags by key, in the order of code points. -/
def sortedTags (tags : Tags) : Tags :=
  tags.mergeSort fun a b => decide (a.1 ≤ b.1)

def label (key value : String) : String :=
  key ++ "=\"" ++ value ++ "\""

def labels (poolName : String) (tags : Tags) : String :=
  ",".intercalate (label "pool" poolName :: (sortedTags tags).map fun (k, v) => label k v)

/-- The three lines of one metric. -/
def Sample.lines (s : Sample) (labels : String) (m : Metrics) : List String :=
  [ "# HELP " ++ s.name ++ " " ++ s.help,
    "# TYPE " ++ s.name ++ " " ++ s.kind.name,
    s.name ++ "\x7b" ++ labels ++ "\x7d " ++ (m.read s.field).text ]

/-- The exposition, every line ended by a line break. -/
def exposition (m : Metrics) (poolName : String) (tags : Tags) : String :=
  let labels := labels poolName tags
  String.join ((samples.flatMap fun s => s.lines labels m).map (· ++ "\n"))

end ResourcePool.Metrics
