import ResourcePool.Store.Acquire

/-!
Leak tracking: calls on a tracked pool first tell its detector, unless they are made `direct`. On
a pool without tracker both are the same.
-/
namespace ResourcePool.Store

variable {α ρ : Type}

/-- What a pool's detector is told of an entry. -/
def describe (e : EntryId) : String :=
  "entry@" ++ String.ofList (Nat.toDigits 16 e)

def setTracker (s : Store α) (p : PoolId) (t : Tracker) : Store α :=
  s.modifyPool p fun pool => { pool with tracker? := some t }

/-- Tells the detector of an acquisition. An entry tracked already was never returned. -/
def observeAcquire (s : Store α) (p : PoolId) (e : EntryId) : Store α :=
  match (s.pool p).tracker? with
  | none => s
  | some t =>
    match t.detector.acquired s.now e (describe e) with
    | (true, detector) => s.setTracker p { t with detector }
    | (false, detector) =>
      (s.setTracker p { t with detector, acquires := t.acquires + 1 }).note (.reacquired p e)

/-- Tells the detector of a release. -/
def observeRelease (s : Store α) (p : PoolId) (e : EntryId) : Store α :=
  match (s.pool p).tracker? with
  | none => s
  | some t =>
    match t.detector.released e with
    | (true, detector) => s.setTracker p { t with detector }
    | (false, detector) =>
      (s.setTracker p { t with detector, releases := t.releases + 1 }).note (.untrackedRelease p e)

/-- Tells the detector of a removal. -/
def observeRemoval (s : Store α) (p : PoolId) (e : EntryId) : Store α :=
  match (s.pool p).tracker? with
  | none => s
  | some t =>
    match t.detector.released e with
    | (true, detector) => s.setTracker p { t with detector }
    | (false, detector) =>
      (s.setTracker p { t with detector, removes := t.removes + 1 }).note (.untrackedRemoval p e)

def trackedAcquire (s : Store α) (direct : Bool) (p : PoolId) (c : CallerId) :
    Option EntryId × Store α :=
  match s.acquire p c with
  | (some e, s) => (some e, if direct then s else s.observeAcquire p e)
  | (none, s) => (none, s)

def trackedRelease (s : Store α) (direct : Bool) (p : PoolId) (c : CallerId) (e : EntryId) :
    Except Fault Bool × Store α :=
  (if direct then s else s.observeRelease p e).release p c e

def trackedRemove (s : Store α) (direct : Bool) (p : PoolId) (e : EntryId) : Bool × Store α :=
  (if direct then s else s.observeRemoval p e).remove p e

def trackedAcquireWith (s : Store α) (direct : Bool) (p : PoolId) (c : CallerId)
    (creator : EntryId → Store α → Creation α × List ρ × Store α) :
    Except CreationError (Option EntryId) × List ρ × Store α :=
  match s.acquireWith p c creator with
  | (.ok (some e), reports, s) =>
    (.ok (some e), reports, if direct then s else s.observeAcquire p e)
  | other => other

/-- A pass of the detector, told to nobody. -/
def sweep (s : Store α) (p : PoolId) (t : Tracker) : List Leak × Store α :=
  let (leaks, detector) := t.detector.sweep s.now
  (leaks, s.setTracker p { t with detector })

/-- A pass of the detector whose leaks are counted and noted. -/
def checkLeaks (s : Store α) (p : PoolId) (t : Tracker) : Nat × Store α :=
  let (leaks, detector) := t.detector.sweep s.now
  let s := s.setTracker p { t with detector, resources := t.resources + leaks.length }
  (leaks.length, leaks.foldl (fun s leak => s.note (.leaked p leak)) s)

/-- Acquires until nothing is got; no more entries can be got than there are. -/
def drain (direct : Bool) (p : PoolId) (c : CallerId) :
    (fuel : Nat) → Store α → List EntryId × Store α
  | 0, s => ([], s)
  | fuel + 1, s =>
    match s.trackedAcquire direct p c with
    | (none, s) => ([], s)
    | (some e, s) =>
      let (es, s) := drain direct p c fuel s
      (e :: es, s)

/-- Acquires all there is. -/
def acquireAll (s : Store α) (direct : Bool) (p : PoolId) (c : CallerId) :
    List EntryId × Store α :=
  drain direct p c (s.entries.size + 1) s

end ResourcePool.Store
