/-!
Entries of a pool: a lifecycle state, the value from the moment the entry is enabled, and the four
transitions a caller or a pool can ask for.
-/
namespace ResourcePool

/-- Entries are numbered in order of reservation and numbers are never reused. -/
abbrev EntryId := Nat

inductive EntryState where
  | pending
  | idle
  | active
  | closed
  deriving DecidableEq, Repr

namespace EntryState

/-- Name of the state as entries print it. -/
def name : EntryState → String
  | pending => "Pending"
  | idle => "Idle"
  | active => "Active"
  | closed => "Closed"

/-- Name of the state as messages print it. -/
def label : EntryState → String
  | pending => "PENDING"
  | idle => "IDLE"
  | active => "ACTIVE"
  | closed => "CLOSED"

/-- One letter for listings. -/
def letter : EntryState → Char
  | pending => 'P'
  | idle => 'I'
  | active => 'A'
  | closed => 'C'

end EntryState

/-- Misuse of an entry by its caller. A closed pool or an exhausted one is no fault. -/
inductive Fault where
  | alreadyEnabled
  | alreadyReleased
  deriving DecidableEq, Repr

def Fault.message : Fault → String
  | .alreadyEnabled => "Entry already enabled"
  | .alreadyReleased => "Cannot release an already released entry"

/-- An entry has no value while pending, has one while idle or active, and keeps it when closed. -/
inductive Entry (α : Type) where
  | pending
  | idle (value : α)
  | active (value : α)
  | closed (value? : Option α)
  deriving DecidableEq, Repr

namespace Entry

variable {α : Type}

def state : Entry α → EntryState
  | pending => .pending
  | idle _ => .idle
  | active _ => .active
  | closed _ => .closed

def value? : Entry α → Option α
  | pending => none
  | idle v => some v
  | active v => some v
  | closed v => v

def isIdle : Entry α → Bool
  | idle _ => true
  | _ => false

/--
Gives a pending entry its value. With `acquire` the caller holds the entry at once. The answer is
`false`, and the value is dropped, when the entry was closed first.
-/
def enable (value : α) (acquire : Bool) : Entry α → Except Fault Bool × Entry α
  | pending => (.ok true, if acquire then active value else idle value)
  | closed v => (.ok false, closed v)
  | idle v => (.error .alreadyEnabled, idle v)
  | active v => (.error .alreadyEnabled, active v)

/-- Only an idle entry can be acquired. -/
def tryAcquire : Entry α → Bool × Entry α
  | idle v => (true, active v)
  | e => (false, e)

/-- Only an active entry can be released; releasing an idle one is a fault. -/
def tryRelease : Entry α → Except Fault Bool × Entry α
  | active v => (.ok true, idle v)
  | idle v => (.error .alreadyReleased, idle v)
  | e => (.ok false, e)

/-- Closes the entry, and says whether it was open before. -/
def tryRemove : Entry α → Bool × Entry α
  | closed v => (false, closed v)
  | e => (true, closed e.value?)

/-- A request made to a single entry. -/
inductive Request (α : Type) where
  | enable (value : α) (acquire : Bool)
  | acquire
  | release
  | remove

/-- What a request answers, with the entry after it. -/
def answer (e : Entry α) : Request α → Except Fault Bool × Entry α
  | .enable v acquire => e.enable v acquire
  | .acquire => let (done, e) := e.tryAcquire; (.ok done, e)
  | .release => e.tryRelease
  | .remove => let (done, e) := e.tryRemove; (.ok done, e)

/-- The answers to a list of requests, each with the entry after it. -/
def answers (e : Entry α) : List (Request α) → List (Except Fault Bool × Entry α)
  | [] => []
  | r :: rs => let (a, e) := e.answer r; (a, e) :: answers e rs

end Entry

end ResourcePool
