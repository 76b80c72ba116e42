import ResourcePool.Workload.Contest

/-!
Races of several callers on the same entries. Only what no interleaving changes is reported, so the
callers run one after the other, the one that removes first.
-/
namespace ResourcePool.Workload

inductive Race where
  /-- Every caller enables each reserved entry. -/
  | enable
  /-- One caller removes each reserved entry while the others enable it. -/
  | enableRemove
  /-- One caller removes all entries, last first, while the others acquire and release. -/
  | shrink
  deriving DecidableEq, Repr

namespace Race

/-- Answers of the calls that count. -/
structure Score where
  ok : Nat := 0
  no : Nat := 0
  errors : Nat := 0
  removed : Nat := 0

def Score.add (score : Score) : Except Fault Bool → Score
  | .ok true => { score with ok := score.ok + 1 }
  | .ok false => { score with no := score.no + 1 }
  | .error _ => { score with errors := score.errors + 1 }

def reservations (p : PoolId) : Nat → Store Nat → Store Nat
  | 0, s => s
  | n + 1, s => reservations p n (s.reserve p).2

/-- Enables each entry and counts the answers. -/
def enables (value : Nat) : List EntryId → Score → Store Nat → Score × Store Nat
  | [], score, s => (score, s)
  | e :: es, score, s =>
    let (result, s) := s.enable e value false
    enables value es (score.add result) s

/-- Acquires and releases until nothing is left to acquire; only faults count. -/
def cycleUntilEmpty (p : PoolId) (c : CallerId) : (fuel : Nat) → Score → Store Nat →
    Score × Store Nat
  | 0, score, s => (score, s)
  | fuel + 1, score, s =>
    if (s.members p).isEmpty then (score, s)
    else
      match s.acquire p c with
      | (none, s) => cycleUntilEmpty p c fuel score s
      | (some e, s) =>
        match s.release p c e with
        | (.ok _, s) => cycleUntilEmpty p c fuel score s
        | (.error _, s) => cycleUntilEmpty p c fuel { score with errors := score.errors + 1 } s

/-- The part of one caller; the one of number `0` is first. -/
def play (race : Race) (p : PoolId) (entries : List EntryId) (state : Score × Store Nat) (n : Nat) :
    Score × Store Nat :=
  let (score, s) := state
  match race with
  | enable => enables n entries score s
  | enableRemove =>
    if n = 0 then
      let (removed, s) := Contest.removals p entries s
      ({ score with removed := removed.length }, s)
    else (score, (enables n entries {} s).2)
  | shrink =>
    if n = 0 then
      let (removed, s) := Contest.removals p entries.reverse s
      ({ score with removed := removed.length }, s)
    else cycleUntilEmpty p (n + 1) entries.length score s

structure Outcome where
  score : Score
  closed : Nat
  /-- Whether one more acquisition gets an entry; the rest is taken after it. -/
  again : Bool
  summary : String
  idle : Nat

/-- A race of so many callers on `n` entries, or fewer if the pool takes no more. -/
def run (race : Race) (settings : Settings Nat) (callers n : Nat) : Outcome :=
  let (p, s) := ({} : Store Nat).create "race" settings none
  let s := if race = shrink then (s.fill p n id).2 else reservations p n s
  let entries := s.members p
  let (score, s) := (List.range callers).foldl (race.play p entries) ({}, s)
  let closed := (entries.filter fun e => s.state e == .closed).length
  let (e?, s) := s.acquire p .main
  { score, closed, again := e?.isSome, summary := s.summary p, idle := (s.tally p).idle }

end Race

end ResourcePool.Workload
