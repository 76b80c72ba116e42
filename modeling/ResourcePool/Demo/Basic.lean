import ResourcePool.Entry.Text
import ResourcePool.Metrics.Fields
import ResourcePool.Store.Guards
import ResourcePool.Store.Readings

/-! The basic demonstration: an entry's lifecycle, creation on demand, leases, and readings. -/
namespace ResourcePool.Demo

/-- Drops a guard by name, if there is one. -/
def dropLease {α : Type} (s : Store α) (name : String) : Store α :=
  match s.guard? name with
  | some g => s.dropGuard .main name g
  | none => s

def lifecycle : List String :=
  let (p, s) := ({} : Store String).create "lifecycle" { maxEntries := 2 } none
  match s.reserve p with
  | (none, _) => []
  | (some e, s) =>
    let reserved := (s.state e).label
    let (_, s) := s.enable e "conn-1" false
    let enabled := (s.state e).label
    let (got?, s) := s.acquire p .main
    let acquired := (s.state e).label
    let value :=
      match got?.bind s.value? with
      | some v => "Some(" ++ Text.quoted v ++ ")"
      | none => "None"
    let (_, s) := s.release p .main e
    let released := (s.state e).label
    let (again, s) := s.release p .main e
    let second :=
      match again with
      | .ok _ => "   Released again?"
      | .error fault => "   Second release: " ++ fault.message
    let (_, s) := s.remove p e
    let removed := (s.state e).label
    let size := (s.members p).length
    [ "1. Entry Lifecycle:",
      s!"   Reserved: {reserved}",
      s!"   Enabled: {enabled}",
      s!"   Acquired {value}: {acquired}",
      s!"   Released: {released}",
      second,
      s!"   Removed: {removed}, pool size {size}",
      "" ]

/-- A creator that makes one value and reports a line. -/
def creating {α : Type} (value : α) (line : String) :
    EntryId → Store α → Creation α × List String × Store α :=
  fun _ s => (.value value, [line], s)

/-- The entry that a call got, if it got one. -/
def obtained? : Except CreationError (Option EntryId) → Option EntryId
  | .ok e? => e?
  | .error _ => none

def lazyCreation : List String :=
  let (p, s) := ({} : Store (List UInt8)).create "lazy" { maxEntries := 2 } none
  let buffer := List.replicate 1024 (0 : UInt8)
  let (first, lines, s) := s.acquireWith p .main (creating buffer "   Creating buffer...")
  let (second, _, s) := s.acquireWith p .main (creating buffer "")
  let (third, _, s) := s.acquireWith p .main (creating buffer "")
  let attempt := if (obtained? third).isSome then "Some(\"entry\")" else "None"
  let s := ([first, second].filterMap obtained?).foldl (fun s e => (s.release p .main e).2) s
  let idle := (s.tally p).idle
  ["2. Lazy Creation:"] ++ lines ++
    [s!"   Third attempt: {attempt}", s!"   Idle after release: {idle}", ""]

def leases : List String :=
  let (p, s) := ({} : Store Nat).create "leases" {} none
  let (_, s) := s.fill p 1 fun _ => 42
  let (first?, s) := s.lease false p .main "first"
  let (second?, s) := s.lease false p .main "second"
  let s := dropLease s "first"
  let (third?, _) := s.lease false p .main "third"
  ["3. Leases:"] ++
    (if first?.isSome then ["   First lease: Success"] else []) ++
    (if second?.isNone then ["   Second lease: None (pool exhausted)"] else []) ++
    (if third?.isSome then ["   Third lease: Success"] else []) ++ [""]

def readings : List String :=
  let (p, s) := ({} : Store Nat).create "readings" { maxEntries := 5 } none
  let (_, s) := s.fill p 5 fun _ => 0
  let (_, s) := s.lease false p .main "a"
  let (_, s) := s.lease false p .main "b"
  let health := s.health p
  let verdict := if health.isHealthy then "Healthy" else "Unhealthy"
  let percent := Decimal.fixed 1 (health.utilization.mul (.ofNat 100))
  let inUse := health.inUse.toNat
  let idle := health.idle.toNat
  let s := dropLease (dropLease s "b") "a"
  let texts := (s.metrics p).texts.mergeSort fun a b => decide (a.1 ≤ b.1)
  [ "4. Metrics and Health:",
    s!"   Health: {verdict}",
    s!"   Utilization: {percent}%",
    s!"   In use: {inUse}, Idle: {idle}",
    "",
    "   Metrics:" ] ++ texts.map fun (name, text) => s!"     {name}: {text}"

/-- What is printed, line by line. The metrics come by name. -/
def basic : List String :=
  ["=== EsoxSolutions.EntryPool - Basic Examples ===", ""] ++ lifecycle ++ lazyCreation ++ leases ++
    readings

end ResourcePool.Demo
