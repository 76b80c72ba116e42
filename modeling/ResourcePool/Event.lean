import ResourcePool.Entry
import ResourcePool.Pool

/-!
Events: everything that happens to entries and pools, in order. Some of them are worth a line in
the log; the journal remembers how far the log has been read.
-/
namespace ResourcePool

inductive Event (α : Type) where
  | reserved (pool : PoolId) (entry : EntryId)
  /-- The pool was full or closed. -/
  | rejected (pool : PoolId)
  | enabled (entry : EntryId) (value : α) (acquired : Bool)
  | acquired (pool : PoolId) (caller : CallerId) (entry : EntryId) (hinted : Bool)
  | missed (pool : PoolId)
  /-- An entry was reserved, given a value and handed out in one call. -/
  | created (pool : PoolId) (caller : CallerId) (entry : EntryId) (value : α)
  | released (pool : PoolId) (caller : CallerId) (entry : EntryId)
  | removed (pool : PoolId) (entry : EntryId)
  | removedAgain (pool : PoolId) (entry : EntryId)
  /-- The entry was closed through a pool whose list it is not in. -/
  | removedElsewhere (pool : PoolId) (entry : EntryId)
  | reclaimed (pool : PoolId) (entry : EntryId)
  /-- Closing the pool met an entry that was closed before. -/
  | skipped (pool : PoolId) (entry : EntryId)
  | disposed (pool : PoolId) (entry : EntryId) (value : α)
  | disposalFailed (reason : String)
  | closed (pool : PoolId) (drained reclaimed : Nat)
  | reacquired (pool : PoolId) (entry : EntryId)
  | untrackedRelease (pool : PoolId) (entry : EntryId)
  | untrackedRemoval (pool : PoolId) (entry : EntryId)
  | leaked (pool : PoolId) (leak : Leak)
  /-- A guard could not give its entry back. -/
  | guardFailed (pool : PoolId) (fault : Fault)

namespace Event

variable {α : Type}

/-- The line an event writes to the log, if it writes one. -/
def line? : Event α → Option String
  | removedAgain .. =>
    some ("DEBUG attempt to remove an entry that is already closed state=" ++
      EntryState.closed.label)
  | removedElsewhere .. => some "DEBUG attempt to remove an entry that does not exist in the pool"
  | skipped .. => some "DEBUG pooled entry already removed"
  | disposalFailed reason =>
    some ("TRACE ignored error while disposing pooled value error=" ++ reason)
  | closed _ n m =>
    some ("DEBUG pool closed entries=" ++ toString n ++ " reclaimed=" ++ toString m)
  | reacquired .. => some "DEBUG entry leaked acquire"
  | untrackedRelease .. => some "DEBUG entry leaked release"
  | untrackedRemoval .. => some "DEBUG entry leaked remove"
  | leaked .. => some "WARN entry leaked"
  | guardFailed _ fault => some ("ERROR failed to release pooled entry error=" ++ fault.message)
  | _ => none

end Event

structure Journal (α : Type) where
  events : Array (Event α) := #[]
  /-- How many events the log has been read up to. -/
  read : Nat := 0

namespace Journal

variable {α : Type}

def record (j : Journal α) (e : Event α) : Journal α :=
  { j with events := j.events.push e }

def unread (j : Journal α) : List (Event α) :=
  (j.events.toList).drop j.read

/-- The log lines since the log was read last. -/
def takeLog (j : Journal α) : List String × Journal α :=
  (j.unread.filterMap Event.line?, { j with read := j.events.size })

end Journal

end ResourcePool
