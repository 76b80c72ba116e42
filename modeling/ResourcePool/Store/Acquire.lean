import ResourcePool.Scan
import ResourcePool.Store.Lifecycle

/-!
Entries going out and coming back: acquire, release, and the two calls that create entries as they
go, `acquireWith` and `warmup`. What a creator or factory does to the store in between is up to it.
-/
namespace ResourcePool

/-- What a creator answers for the entry it was asked to fill. -/
inductive Creation (α : Type) where
  | value (v : α)
  | nothing
  | refused (reason : String)
  | panicked

/-- Why no entry could be had although one may have been free. -/
inductive CreationError where
  | refused (reason : String)
  | fault (f : Fault)
  | panicked
  deriving DecidableEq, Repr

/-- How far a warmup came: entries added, and values its factory made. -/
structure Warmup where
  added : Nat := 0
  calls : Nat := 0
  panicked : Bool := false
  deriving DecidableEq, Repr

namespace Store

variable {α ρ : Type}

/-- The entry that the caller released last, if the pool gives hints and it can be acquired. -/
def hinted? (s : Store α) (p : PoolId) (c : CallerId) : Option EntryId :=
  if (s.pool p).settings.cached then
    ((s.pool p).hints.get? s.isAlive c).filter s.isIdle
  else none

/-- Where the next search of a pool begins. A random start takes one of the numbers to draw. -/
def start (s : Store α) (p : PoolId) (c : CallerId) : Nat × Store α :=
  let pool := s.pool p
  let (i, turn) :=
    pool.settings.strategy.start pool.members.length c (s.draws.headD 0) pool.turn
  let draws := if pool.settings.strategy = .random then s.draws.tail else s.draws
  (i, { s with draws }.modifyPool p fun pool => { pool with turn })

/-- Makes an idle entry active. -/
def handOut (s : Store α) (p : PoolId) (c : CallerId) (e : EntryId) (hinted : Bool) : Store α :=
  let s := s.setEntry e (s.entry e).tryAcquire.2
  let s := s.count p fun k =>
    { k with acquired := k.acquired + 1, hits := if hinted then k.hits + 1 else k.hits }
  s.note (.acquired p c e hinted)

/-- Searches the list from `index`, as computed for a list of `size` members. -/
def search (s : Store α) (p : PoolId) (c : CallerId) (index size : Nat) : Option EntryId × Store α :=
  match scan (s.members p) s.isIdle size index size with
  | some e => (some e, s.handOut p c e false)
  | none => (none, s)

def miss (s : Store α) (p : PoolId) : Store α :=
  (s.count p fun c => { c with misses := c.misses + 1 }).note (.missed p)

/-- An idle entry: the hinted one if there is one, and else the first one the search meets. -/
def acquire (s : Store α) (p : PoolId) (c : CallerId) : Option EntryId × Store α :=
  if (s.pool p).closed then (none, s)
  else if (s.members p).isEmpty then (none, s.miss p)
  else
    match s.hinted? p c with
    | some e => (some e, s.handOut p c e true)
    | none =>
      let (i, s) := s.start p c
      match s.search p c i (s.members p).length with
      | (some e, s) => (some e, s)
      | (none, s) => (none, s.miss p)

/-- Gives an active entry back; `false` if the pool is closed or the entry no longer in use. -/
def release (s : Store α) (p : PoolId) (c : CallerId) (e : EntryId) :
    Except Fault Bool × Store α :=
  if (s.pool p).closed then (.ok false, s)
  else
    match (s.entry e).tryRelease with
    | (.ok true, x) =>
      let s := (s.setEntry e x).count p fun k => { k with released := k.released + 1 }
      (.ok true, (s.modifyPool p (·.remember c e)).note (.released p c e))
    | (answer, _) => (answer, s)

/--
Finishes a creation. An entry that got no value is removed again; one that was closed meanwhile is
not handed out, and one that was enabled meanwhile is a fault.
-/
def settle (s : Store α) (p : PoolId) (c : CallerId) (e : EntryId) :
    Creation α → Except CreationError (Option EntryId) × Store α
  | .value v =>
    match (s.entry e).enable v true with
    | (.ok true, x) =>
      let s := (s.setEntry e x).count p fun k => { k with acquired := k.acquired + 1 }
      (.ok (some e), s.note (.created p c e v))
    | (.ok false, _) => (.ok none, s)
    | (.error f, _) => (.error (.fault f), s)
  | .nothing => (.ok none, (s.remove p e).2)
  | .refused reason => (.error (.refused reason), (s.remove p e).2)
  | .panicked => (.error .panicked, s)

/--
Acquires an entry, or reserves one and has it filled by `creator`, which also returns what it has
to report.
-/
def acquireWith (s : Store α) (p : PoolId) (c : CallerId)
    (creator : EntryId → Store α → Creation α × List ρ × Store α) :
    Except CreationError (Option EntryId) × List ρ × Store α :=
  match s.acquire p c with
  | (some e, s) => (.ok (some e), [], s)
  | (none, s) =>
    match s.reserve p with
    | (none, s) => (.ok none, [], s)
    | (some e, s) =>
      let (creation, reports, s) := creator e s
      let (answer, s) := s.settle p c e creation
      (answer, reports, s)

/--
Adds up to `count` idle entries with values made by `factory`, which is given the number of the
call. Stops when the pool takes no more, when an entry was closed or enabled before its value
came, or when the factory makes none.
-/
def warmup (p : PoolId) (factory : Nat → EntryId → Store α → Option α × List ρ × Store α) :
    (count call : Nat) → Store α → Warmup × List ρ × Store α
  | 0, _, s => ({}, [], s)
  | count + 1, call, s =>
    match s.reserve p with
    | (none, s) => ({}, [], s)
    | (some e, s) =>
      match factory call e s with
      | (none, reports, s) => ({ panicked := true }, reports, s)
      | (some v, reports, s) =>
        match s.enable e v false with
        | (.ok true, s) =>
          let (w, more, s) := warmup p factory count (call + 1) s
          ({ w with added := w.added + 1, calls := w.calls + 1 }, reports ++ more, s)
        | (_, s) => ({ calls := 1 }, reports, s)

/-- A warmup whose factory does nothing but make values. -/
def fill (s : Store α) (p : PoolId) (count : Nat) (value : Nat → α) : Nat × Store α :=
  let (w, _, s) := warmup (ρ := Unit) p (fun n _ s => (some (value n), [], s)) count 0 s
  (w.added, s)

end Store

end ResourcePool
