import ResourcePool.Store.Readings
import ResourcePool.Store.Tracking

/-!
Contests of several callers for one pool. What a contest reports does not depend on how its callers
interleave, so they run one after the other.
-/
namespace ResourcePool.Workload

inductive Contest where
  /-- Each caller acquires once and keeps what it got. -/
  | acquire
  /-- Each caller acquires and releases fifty times. -/
  | cycle
  /-- Each caller tries to remove every entry. -/
  | remove
  /-- Each caller reserves once. -/
  | reserve
  /-- Each caller acquires once, creating an entry if none is idle. -/
  | acquireWith
  /-- Each caller closes the pool. -/
  | close
  deriving DecidableEq, Repr

namespace Contest

/-- Whether the pool is filled before the contest. -/
def isWarm : Contest → Bool
  | acquire => true
  | cycle => true
  | remove => true
  | _ => false

/-- Entries won by all callers together, values created, and the store. -/
structure Round where
  won : List EntryId := []
  made : Nat := 0
  store : Store Nat

/-- Acquires and releases `n` times. -/
def cycles (p : PoolId) (c : CallerId) : Nat → Store Nat → Store Nat
  | 0, s => s
  | n + 1, s =>
    match s.acquire p c with
    | (some e, s) => cycles p c n (s.release p c e).2
    | (none, s) => cycles p c n s

/-- The entries whose removal succeeded. -/
def removals (p : PoolId) : List EntryId → Store Nat → List EntryId × Store Nat
  | [], s => ([], s)
  | e :: es, s =>
    let (done, s) := s.remove p e
    let (removed, s) := removals p es s
    (if done then e :: removed else removed, s)

/-- The part of one caller. -/
def play (contest : Contest) (p : PoolId) (entries : List EntryId) (r : Round) (c : CallerId) :
    Round :=
  match contest with
  | acquire =>
    let (e?, store) := r.store.acquire p c
    { r with won := r.won ++ e?.toList, store }
  | cycle => { r with store := cycles p c 50 r.store }
  | remove =>
    let (removed, store) := removals p entries r.store
    { r with won := r.won ++ removed, store }
  | reserve =>
    let (e?, store) := r.store.reserve p
    { r with won := r.won ++ e?.toList, store }
  | acquireWith =>
    let (result, calls, store) := r.store.acquireWith p c fun _ s => (.value c, [c], s)
    match result with
    | .ok e? => { won := r.won ++ e?.toList, made := r.made + calls.length, store }
    | .error _ => { r with made := r.made + calls.length, store }
  | close => { r with store := (r.store.close p).2 }

structure Outcome where
  wins : Nat
  distinct : Nat
  made : Nat
  summary : String
  idle : Nat
  reserved : Nat

/-- A contest of so many callers for a pool filled, if at all, with so many entries. -/
def run (contest : Contest) (settings : Settings Nat) (callers capacity : Nat) : Outcome :=
  let (p, s) := ({} : Store Nat).create "contest" settings none
  let s := if contest.isWarm then (s.fill p capacity id).2 else s
  let r := (List.range callers).foldl
    (fun r c => contest.play p (s.members p) r (c + 1)) { store := s }
  { wins := r.won.length
    distinct := r.won.eraseDups.length
    made := r.made
    summary := r.store.summary p
    idle := (r.store.tally p).idle
    reserved := (r.store.tally p).reserved }

end Contest

end ResourcePool.Workload
