import ResourcePool.Demo.Basic

/-!
The demonstration of waiting: the pool never waits, so who wants to retries every ten milliseconds,
for as long as it likes.
-/
namespace ResourcePool.Demo

/-- Tries to lease every ten milliseconds until the deadline; `others` act at the given times. -/
def leaseEventually {α : Type} (p : PoolId) (others : Nat → Store α → Store α) :
    (attempts : Nat) → Store α → Option EntryId × Store α
  | 0, s => (none, s)
  | attempts + 1, s =>
    let s := others s.now s
    match s.lease false p .main "waiting" with
    | (some e, s) => (some e, s)
    | (none, s) => leaseEventually p others attempts (s.wait 10)

/-- The entry is held for fifty milliseconds. -/
def retrying : List String :=
  let (p, s) := ({} : Store Nat).create "retrying" {} none
  let (_, s) := s.fill p 1 fun _ => 7
  let (held?, s) := s.acquire p .main
  let releaseLater := fun now (s : Store Nat) =>
    if now = 50 then held?.elim s fun e => (s.release p .main e).2 else s
  let (e?, s) := leaseEventually p releaseLater 100 s
  ["1. Retry With Backoff:"] ++
    (e?.bind s.value?).toList.map (fun value => s!"   Got entry after retrying: {value}") ++ [""]

/-- The entry is never given back, and ten attempts reach the deadline. -/
def givingUp : List String :=
  let (p, s) := ({} : Store Nat).create "deadline" {} none
  let (_, s) := s.fill p 1 fun _ => 42
  let (_, s) := s.lease false p .main "held"
  let (e?, _) := leaseEventually p (fun _ s => s) 10 s
  let line := if e?.isSome then "   Got entry" else "   Gave up: no entry within 100ms"
  ["2. Retry With Deadline:", line, ""]

/-- What each of `n` tasks says that lease at once; every guard is kept under its task's name. -/
def tasks (p : PoolId) : Nat → Store Nat → List String × Store Nat
  | 0, s => ([], s)
  | n + 1, s =>
    let (e?, s) := s.lease false p .main (toString n)
    let line :=
      match e?.bind s.value? with
      | some value => s!"   Task * got entry holding {value}"
      | none => "   Task * found the pool exhausted"
    let (lines, s) := tasks p n s
    (line :: lines, s)

/-- Ten tasks and five entries; which task gets one does not matter, so equal lines count once. -/
def together : List String :=
  let (p, s) := ({} : Store Nat).create "together" { maxEntries := 5, strategy := .random } none
  let (_, s) := s.fill p 5 fun _ => 0
  let (lines, s) := tasks p 10 s
  let s := (List.range 10).foldl (fun s n => dropLease s (toString n)) s
  let idle := (s.tally p).idle
  ["3. Concurrent Access:"] ++ (lines.mergeSort fun a b => decide (a ≤ b)).eraseDups ++
    [s!"   Final idle: {idle}"]

/-- What is printed, line by line. -/
def waiting : List String :=
  ["=== EsoxSolutions.EntryPool - Async Examples ===", ""] ++ retrying ++ givingUp ++ together

end ResourcePool.Demo
