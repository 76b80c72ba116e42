import ResourcePool.Store.Guards
import ResourcePool.Store.Readings

/-! The quick demonstration: one lease on a small pool. -/
namespace ResourcePool.Demo

/-- What is printed, line by line. -/
def quick : List String :=
  let (p, s) := ({} : Store Nat).create "quick" { maxEntries := 3, strategy := .roundRobin } none
  let (_, s) := s.fill p 3 fun _ => 0
  let (e?, s) := s.lease false p .main "entry"
  let got :=
    match e?.bind s.value? with
    | some value =>
      let inUse := (s.tally p).inUse
      [s!"  Got entry holding: {value}", s!"  In use: {inUse}"]
    | none => []
  let s :=
    match s.guard? "entry" with
    | some g => s.dropGuard .main "entry" g
    | none => s
  let idle := (s.tally p).idle
  let closed := (s.close p).2
  [ "=== EsoxSolutions.EntryPool v1.0.0 ===",
    "See demos/ directory for usage examples",
    "Run: cargo run --example basic",
    "",
    "Quick Demo:" ] ++ got ++
  [ s!"  Idle after release: {idle}",
    "  " ++ s.summary p,
    "  After close: " ++ closed.summary p ]

end ResourcePool.Demo
