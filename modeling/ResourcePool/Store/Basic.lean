import ResourcePool.Event
import ResourcePool.Pool

/-!
The store: all entries and pools, who holds entries, and who calls. A pool lives while it has its
name or a guard, and an entry while a handle, a guard or the list of a living pool holds it; hints
do not hold it.
-/
namespace ResourcePool

/-- A hold on an acquired entry that gives it back to its pool when dropped. -/
structure Guard where
  pool : PoolId
  entry : EntryId
  /-- Whether the guard works past the leak tracker of its pool. -/
  direct : Bool := false

structure Store (α : Type) where
  entries : Array (Entry α) := #[]
  pools : Array (Pool α) := #[]
  /-- The pools that were not dropped, by name. -/
  names : List (String × PoolId) := []
  handles : List EntryId := []
  guards : List (String × Guard) := []
  callers : Callers := {}
  /-- The numbers that searches from a random member will draw. -/
  draws : List Nat := []
  /-- Milliseconds since the start. -/
  now : Nat := 0
  journal : Journal α := {}

namespace Store

variable {α : Type}

/-- An entry that does not exist is like one that is closed. -/
def entry (s : Store α) (e : EntryId) : Entry α :=
  s.entries.getD e (.closed none)

def state (s : Store α) (e : EntryId) : EntryState :=
  (s.entry e).state

def value? (s : Store α) (e : EntryId) : Option α :=
  (s.entry e).value?

def isIdle (s : Store α) (e : EntryId) : Bool :=
  (s.entry e).isIdle

def setEntry (s : Store α) (e : EntryId) (x : Entry α) : Store α :=
  { s with entries := s.entries.setIfInBounds e x }

def pool (s : Store α) (p : PoolId) : Pool α :=
  s.pools.getD p .absent

def modifyPool (s : Store α) (p : PoolId) (f : Pool α → Pool α) : Store α :=
  { s with pools := s.pools.modify p f }

def count (s : Store α) (p : PoolId) (f : Counters → Counters) : Store α :=
  s.modifyPool p (·.count f)

def note (s : Store α) (e : Event α) : Store α :=
  { s with journal := s.journal.record e }

/-- The pool of this name, unless it was dropped. -/
def find? (s : Store α) (name : String) : Option PoolId :=
  s.names.lookup name

/-- The entries in the list of a pool. -/
def members (s : Store α) (p : PoolId) : List EntryId :=
  (s.pool p).members

def isAlive (s : Store α) (e : EntryId) : Bool :=
  s.handles.contains e ||
    s.guards.any (fun (_, g) => g.entry == e || (s.members g.pool).contains e) ||
    s.names.any fun (_, p) => (s.members p).contains e

/-- Takes a handle on an entry, if there is none yet. -/
def hold (s : Store α) (e : EntryId) : Store α :=
  if s.handles.contains e then s else { s with handles := s.handles ++ [e] }

def holdAll (s : Store α) (es : List EntryId) : Store α :=
  es.foldl hold s

/-- Gives up the handle on an entry. -/
def unhold (s : Store α) (e : EntryId) : Store α :=
  { s with handles := s.handles.filter (· != e) }

/-- A new pool takes the name; a pool of that name before only lives on through its guards. -/
def create (s : Store α) (name : String) (settings : Settings α) (detector? : Option Detector) :
    PoolId × Store α :=
  (s.pools.size, { s with
    pools := s.pools.push (.ofSettings name settings detector?)
    names := s.names.filter (·.1 != name) ++ [(name, s.pools.size)] })

/-- Drops the pool of a name. -/
def forget (s : Store α) (name : String) : Store α :=
  { s with names := s.names.filter (·.1 != name) }

/-- Lets time pass. -/
def wait (s : Store α) (milliseconds : Nat) : Store α :=
  { s with now := s.now + milliseconds }

/-- The log lines since the log was read last. -/
def takeLog (s : Store α) : List String × Store α :=
  let (lines, journal) := s.journal.takeLog
  (lines, { s with journal })

end Store

end ResourcePool
