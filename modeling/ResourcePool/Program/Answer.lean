import ResourcePool.Health
import ResourcePool.Store.Acquire
import ResourcePool.Store.Readings

/-! Answers of program steps, and the reports they are collected in. -/
namespace ResourcePool.Program

/-- Why a step has no regular answer. -/
inductive StepError where
  | fault (f : Fault)
  | refused (reason : String)
  | panicked
  | noPool
  | noHandle
  | noGuard
  | noCaller
  | leased
  | badInput (field : String)
  deriving DecidableEq, Repr

namespace StepError

def kind : StepError → String
  | fault .alreadyEnabled => "EntryAlreadyEnabled"
  | fault .alreadyReleased => "EntryAlreadyReleased"
  | refused _ => "Refused"
  | panicked => "panic"
  | noPool => "NoPool"
  | noHandle => "NoHandle"
  | noGuard => "NoLease"
  | noCaller => "NoCaller"
  | leased => "Leased"
  | badInput _ => "BadInput"

def message? : StepError → Option String
  | fault f => some f.message
  | refused reason => some reason
  | badInput field => some field
  | _ => none

end StepError

/-- What a pool shows of itself at one look. -/
structure Overview where
  tally : Tally
  size : Nat
  maxEntries : Nat
  closed : Bool
  strategy : Strategy
  summary : String
  text : String

def Overview.of (s : Store String) (p : PoolId) : Overview where
  tally := s.tally p
  size := (s.members p).length
  maxEntries := (s.pool p).settings.maxEntries
  closed := (s.pool p).closed
  strategy := (s.pool p).settings.strategy
  summary := s.summary p
  text := s.describePool p

inductive Answer where
  | failed (e : StepError)
  | created (text : String)
  | done (ok : Bool)
  | got (id? : Option EntryId) (value? : Option String)
  | handle (entry : EntryId)
  | entries (ids : List EntryId)
  | dropped (count : Nat)
  | disposed (values : List String)
  | warmed (w : Warmup)
  | entry (e : Entry String)
  | overview (o : Overview)
  | metrics (m : Metrics)
  | texts (m : Metrics)
  | exposition (text : String)
  | health (h : Health)
  | found (leaks : Nat)
  | tracking (t : Tracker)

/-- Pools by name with their listed members. -/
abbrev Listing := List (String × String)

/-- The outcome of a step, with what its nested steps reported and a view of the store after it. -/
inductive Report where
  | reserved (entry : EntryId)
  | step (answer : Answer) (inner? : Option (List Report)) (listing? : Option Listing)
    (log? : Option (List String))
  | left (inner : List Report)

end ResourcePool.Program
