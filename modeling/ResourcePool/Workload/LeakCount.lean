import ResourcePool.Store.Readings
import ResourcePool.Store.Tracking

/-! Counting leaks: a tracked pool, some acquisitions, some of them given back, and two checks. -/
namespace ResourcePool.Workload

structure LeakCount where
  added : Nat
  acquired : Nat
  released : Nat
  removed : Nat
  first : Nat
  second : Nat
  tracker : Tracker
  summary : String

namespace LeakCount

def acquires (p : PoolId) : Nat → Store Nat → List EntryId × Store Nat
  | 0, s => ([], s)
  | n + 1, s =>
    let (e?, s) := s.trackedAcquire false p .main
    let (es, s) := acquires p n s
    (e?.toList ++ es, s)

/-- How many releases succeeded. -/
def releases (p : PoolId) : List EntryId → Store Nat → Nat × Store Nat
  | [], s => (0, s)
  | e :: es, s =>
    let (result, s) := s.trackedRelease false p .main e
    let (n, s) := releases p es s
    (match result with | .ok true => n + 1 | _ => n, s)

/-- How many removals succeeded. -/
def removes (p : PoolId) : List EntryId → Store Nat → Nat × Store Nat
  | [], s => (0, s)
  | e :: es, s =>
    let (done, s) := s.trackedRemove false p e
    let (n, s) := removes p es s
    (if done then n + 1 else n, s)

def check (s : Store Nat) (p : PoolId) : Nat × Store Nat :=
  match (s.pool p).tracker? with
  | some t => s.checkLeaks p t
  | none => (0, s)

/-- Releases the first of the entries acquired and then removes the last, from the end. -/
def run (settings : Settings Nat) (detector : Detector) (entries acquire release remove : Nat) :
    LeakCount :=
  let (p, s) := ({} : Store Nat).create "tracked" settings (some detector)
  let (added, s) := s.fill p entries id
  let (es, s) := acquires p acquire s
  let (released, s) := releases p (es.take release) s
  let (removed, s) := removes p (es.reverse.take remove) s
  let (first, s) := check s p
  let (second, s) := check s p
  { added, acquired := es.length, released, removed, first, second
    tracker := (s.pool p).tracker?.getD { detector }
    summary := s.summary p }

end LeakCount

end ResourcePool.Workload
