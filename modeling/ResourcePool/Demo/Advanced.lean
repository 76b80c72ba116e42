import ResourcePool.Demo.Basic
import ResourcePool.Metrics.Exposition

/-! The advanced demonstration: strategies, hints, leak tracking, exposition and disposal. -/
namespace ResourcePool.Demo

/-- Leases one entry after the other and lists what they held. -/
def visits {α : Type} (p : PoolId) : Nat → Store α → List α
  | 0, _ => []
  | n + 1, s =>
    let (e?, s) := s.lease false p .main "visit"
    (e?.bind s.value?).toList ++ visits p n (dropLease s "visit")

/-- The members that four leases visit; a random search has no visits to show. -/
def visited (strategy : Strategy) : String :=
  if strategy = .random then "*"
  else
    let (p, s) := ({} : Store Nat).create "visited" { strategy } none
    let (_, s) := s.fill p 4 (· + 1)
    ", ".intercalate ((visits p 4 s).map toString)

def strategies : List String :=
  ["1. Strategies:"] ++ (Strategy.all.map fun s => "   " ++ s.name ++ ": [" ++ visited s ++ "]") ++
    [""]

/-- The totals depend on how the callers interleave. -/
def callerCache : List String :=
  ["2. Thread Cache:", "   * acquisitions, * served by the cache", ""]

/-- A check for leaks on a tracked pool: how many, and the log lines. -/
def checkLeaks {α : Type} (s : Store α) (p : PoolId) : Nat × List String × Store α :=
  match (s.pool p).tracker? with
  | none => (0, [], s)
  | some t =>
    let (n, s) := s.checkLeaks p t
    let (lines, s) := s.takeLog
    (n, lines, s)

/-- A detector of twenty milliseconds, and an entry forgotten for thirty. -/
def leakTracking : List String :=
  let (p, s) := ({} : Store String).create "tracked" {} (some (.expiry 20 []))
  let (_, s) := s.fill p 3 fun _ => "Connection-0"
  let (e?, s) := s.lease false p .main "lease"
  let leased := (e?.bind s.value?).toList.map ("   Leased " ++ ·)
  let s := dropLease s "lease"
  let (forgotten?, s) := s.trackedAcquire false p .main
  let (first, warnings, s) := checkLeaks (s.wait 30) p
  let (second, more, s) := checkLeaks s p
  let total := ((s.pool p).tracker?.map (·.resources)).getD 0
  let (log, _) :=
    (forgotten?.elim s fun e => (s.trackedRelease false p .main e).2).takeLog
  ["3. Leak Tracking:"] ++ leased ++ warnings ++ [s!"   Leaks found: {first}"] ++ more ++
    [s!"   Leaks found on second pass: {second}", s!"   Leaked resources: {total}"] ++ log ++ [""]

def expositionLines : List String :=
  let (p, s) := ({} : Store Nat).create "connections" { maxEntries := 10 } none
  let (_, s) := s.fill p 5 fun _ => 0
  let (_, s) := s.lease false p .main "a"
  let (_, s) := s.lease false p .main "b"
  let tags := [("service", "api"), ("region", "eu-west")]
  ["4. Prometheus Export:"] ++
    ((s.metrics p).exposition "connections" tags).splitOn "\n"

def disposal : List String :=
  let (p, s) := ({} : Store String).create "disposal" { dispose? := some fun _ => none } none
  let (_, s) := s.fill p 3 fun n => "Connection-" ++ toString (n + 1)
  let (_, s) := s.lease false p .main "used"
  let (values, s) := s.close p
  let (log, s) := s.takeLog
  ["5. Disposal on Close:"] ++ values.map ("   Shutting down " ++ ·) ++ log ++ ["   " ++ s.summary p]

/-- What is printed, line by line, with the log. -/
def advanced : List String :=
  ["=== EsoxSolutions.EntryPool - Advanced Features ===", ""] ++ strategies ++ callerCache ++
    leakTracking ++ expositionLines ++ disposal

end ResourcePool.Demo
