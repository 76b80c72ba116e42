/-!
Leak detection: a detector tracks resources from acquisition to return and decides which of them
leaked. A leak is reported once per acquisition.
-/
namespace ResourcePool

/-- A tracked resource. Times are in milliseconds. -/
structure Holding where
  since : Nat
  description : String
  reported : Bool := false
  deriving DecidableEq, Repr

/-- A resource that was acquired and not returned in time; it has a number if the detector knows. -/
structure Leak where
  resource? : Option Nat
  description : String
  heldFor : Nat
  deriving DecidableEq, Repr

/-- Leaks by number of their resources. -/
def Leak.sorted (leaks : List Leak) : List Leak :=
  leaks.mergeSort fun a b => decide (a.resource?.getD 0 ≤ b.resource?.getD 0)

/-- A detector by age of what is held, or one with the same answer to every call. -/
inductive Detector where
  | expiry (maxAge : Nat) (held : List (Nat × Holding))
  | fixed (acquired released : Bool) (leaks : Nat)
  deriving DecidableEq, Repr

namespace Detector

/-- Considers a resource leaked after so many seconds. -/
def ofSeconds (maxAge : Nat) : Detector :=
  expiry (1000 * maxAge) []

def default : Detector :=
  ofSeconds 60

/-- Starts tracking; `false` if the resource is tracked already, which then stays as it is. -/
def acquired (d : Detector) (now resource : Nat) (description : String) : Bool × Detector :=
  match d with
  | expiry maxAge held =>
    if (held.lookup resource).isSome then (false, d)
    else (true, expiry maxAge (held ++ [(resource, { since := now, description })]))
  | fixed answer _ _ => (answer, d)

/-- Stops tracking; `false` if the resource was not tracked. -/
def released (d : Detector) (resource : Nat) : Bool × Detector :=
  match d with
  | expiry maxAge held =>
    ((held.lookup resource).isSome, expiry maxAge (held.filter (·.1 != resource)))
  | fixed _ answer _ => (answer, d)

/-- Whether a holding is to be reported now. -/
def isDue (maxAge now : Nat) (h : Holding) : Bool :=
  !h.reported && maxAge ≤ now - h.since

/-- The resources newly found leaked, in the order of their acquisition. -/
def sweep (d : Detector) (now : Nat) : List Leak × Detector :=
  match d with
  | expiry maxAge held =>
    ((held.filter fun (_, h) => isDue maxAge now h).map fun (r, h) =>
        { resource? := some r, description := h.description, heldFor := now - h.since },
      expiry maxAge (held.map fun (r, h) =>
        (r, { h with reported := h.reported || isDue maxAge now h })))
  | fixed _ _ n => (List.replicate n { resource? := none, description := "", heldFor := 0 }, d)

/-- How many resources are tracked, if the detector tracks any at all. -/
def tracked? : Detector → Option Nat
  | expiry _ held => some held.length
  | fixed .. => none

/-- The age in whole seconds that makes a leak. -/
def maxAgeSeconds? : Detector → Option Nat
  | expiry maxAge _ => some (maxAge / 1000)
  | fixed .. => none

inductive Request where
  | acquired (resource : Nat) (description : String)
  | released (resource : Nat)
  | sweep

inductive Answer where
  | done (accepted : Bool)
  | leaks (found : List Leak)

def answer (d : Detector) (now : Nat) : Request → Answer × Detector
  | .acquired r description => let (ok, d) := d.acquired now r description; (.done ok, d)
  | .released r => let (ok, d) := d.released r; (.done ok, d)
  | .sweep => let (found, d) := d.sweep now; (.leaks found, d)

/-- The answers to a list of requests, each with the detector after it. -/
def answers (d : Detector) (now : Nat) : List Request → List (Answer × Detector)
  | [] => []
  | r :: rs => let (a, d) := d.answer now r; (a, d) :: d.answers now rs

end Detector

/-- A detector beside what its pool noticed: calls it refused, and leaks it found. -/
structure Tracker where
  detector : Detector
  acquires : Nat := 0
  releases : Nat := 0
  removes : Nat := 0
  resources : Nat := 0
  deriving DecidableEq, Repr

namespace Tracker

/-- Sets the refused calls back to none; the leaks found stay counted. -/
def clear (t : Tracker) : Tracker :=
  { t with acquires := 0, releases := 0, removes := 0 }

end Tracker

end ResourcePool
