import ResourcePool.Health
import ResourcePool.Store.Basic

/-! What can be read off a pool: tally, metrics, health and texts. -/
namespace ResourcePool.Store

variable {α : Type}

def tally (s : Store α) (p : PoolId) : Tally :=
  .ofStates ((s.members p).map s.state)

def metrics (s : Store α) (p : PoolId) : Metrics :=
  let pool := s.pool p
  .gather pool.counters (s.tally p) pool.settings.maxEntries pool.hints.size

def health (s : Store α) (p : PoolId) : Health :=
  let pool := s.pool p
  let t := s.tally p
  { idle := .ofNat t.idle
    inUse := .ofNat t.inUse
    maxEntries := .ofNat pool.settings.maxEntries
    closed := pool.closed }

/-- The pool in one short line. -/
def summary (s : Store α) (p : PoolId) : String :=
  let pool := s.pool p
  let inUse := (s.tally p).inUse
  let size := pool.members.length
  let max := pool.settings.maxEntries
  let closed := pool.closed
  s!"Pool[in_use={inUse},size={size},max={max},closed={closed}]"

/-- The pool with its settings, as a record. -/
def describePool (s : Store α) (p : PoolId) : String :=
  let pool := s.pool p
  let size := pool.members.length
  let max := pool.settings.maxEntries
  let strategy := pool.settings.strategy.name
  let cached := pool.settings.cached
  let closed := pool.closed
  "Pool \x7b " ++
    s!"size: {size}, max_entries: {max}, strategy: {strategy}, cache: {cached}, closed: {closed}" ++
    " \x7d"

/-- Every pool by name with its members in order, each as number and letter of its state. -/
def listing (s : Store α) : List (String × String) :=
  s.names.map fun (name, p) =>
    (name, " ".intercalate ((s.members p).map fun e =>
      toString e ++ toString (s.state e).letter))

end ResourcePool.Store
