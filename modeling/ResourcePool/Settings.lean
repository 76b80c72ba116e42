import ResourcePool.Strategy

/-! How a pool behaves: capacity, strategy, per-caller hints and disposal of values. -/
namespace ResourcePool

structure Settings (α : Type) where
  /-- Most entries the pool accepts; `0` means no limit. -/
  maxEntries : Nat := 100
  strategy : Strategy := .first
  /-- Whether each caller is offered the entry it released last. -/
  cached : Bool := false
  /-- Called on every value reclaimed when the pool closes; a text is the reason of a failure. -/
  dispose? : Option (α → Option String) := none

namespace Settings

variable {α : Type}

def withMaxEntries (n : Nat) (s : Settings α) : Settings α :=
  { s with maxEntries := n }

def unbounded (s : Settings α) : Settings α :=
  { s with maxEntries := 0 }

def withStrategy (strategy : Strategy) (s : Settings α) : Settings α :=
  { s with strategy }

def withCache (s : Settings α) : Settings α :=
  { s with cached := true }

def withDisposer (dispose : α → Option String) (s : Settings α) : Settings α :=
  { s with dispose? := some dispose }

/-- The settings after each of a list of changes. -/
def trail (s : Settings α) : List (Settings α → Settings α) → List (Settings α)
  | [] => []
  | change :: changes => change s :: (change s).trail changes

end Settings

end ResourcePool
