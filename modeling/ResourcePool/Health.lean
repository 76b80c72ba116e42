import ResourcePool.Metrics
import ResourcePool.Decimal.Fixed

/-! Health of a pool: unhealthy when closed or more than nine tenths in use. -/
namespace ResourcePool

/-- What a health check warns of. -/
inductive Warning where
  | closed
  | highUtilization (utilization : Binary64)
  | noIdleEntries
  deriving DecidableEq, Repr

namespace Warning

/-- Percentages show one decimal place. -/
def message : Warning → String
  | closed => "Pool is closed"
  | highUtilization x => "High utilization: " ++ Decimal.fixed 1 (x.mul (.ofNat 100)) ++ "%"
  | noIdleEntries => "No idle entries"

/-- A pool without idle entries may still grow, so that alone makes no pool unhealthy. -/
def isCritical : Warning → Bool
  | noIdleEntries => false
  | _ => true

end Warning

structure Health where
  idle : UInt64
  inUse : UInt64
  maxEntries : UInt64
  closed : Bool
  deriving DecidableEq, Repr

namespace Health

/-- Entries in use against the capacity, `0` for an unbounded pool. -/
def utilization (h : Health) : Binary64 :=
  Metrics.ratio h.inUse h.maxEntries

/-- The utilization from which on a pool is alarming. -/
def alarmLevel : Binary64 :=
  .ofRatio 9 10

def warnings (h : Health) : List Warning :=
  (if h.closed then [.closed] else []) ++
    (if h.utilization.exceeds alarmLevel then [.highUtilization h.utilization] else []) ++
    (if h.idle = 0 ∧ 0 < h.inUse then [.noIdleEntries] else [])

def isHealthy (h : Health) : Bool :=
  !h.warnings.any (·.isCritical)

end Health

end ResourcePool
