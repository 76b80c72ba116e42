import ResourcePool.Caller
import ResourcePool.Entry

/-!
Hints: the entry that each caller released last. A hint does not keep its entry alive, so reading
one asks whether the entry still is.
-/
namespace ResourcePool

/-- At most one slot per caller. -/
structure Hints where
  slots : List (CallerId × EntryId) := []

namespace Hints

def size (h : Hints) : Nat :=
  h.slots.length

/-- The entry last set for the caller, if it is still alive. -/
def get? (h : Hints) (alive : EntryId → Bool) (caller : CallerId) : Option EntryId :=
  (h.slots.lookup caller).filter alive

/-- Remembers an entry for the caller in place of any earlier one. -/
def set (h : Hints) (caller : CallerId) (entry : EntryId) : Hints where
  slots := (caller, entry) :: h.slots.filter (·.1 != caller)

end Hints

/-- Hints beside entries known by name: an entry lives as long as its name stands for it. -/
structure NamedHints where
  hints : Hints := {}
  entries : List (String × EntryId) := []
  created : Nat := 0

namespace NamedHints

inductive Request where
  | make (name : String)
  | set (name : String)
  | drop (name : String)
  | get
  | clear

/-- `unknown` answers a request for a name that stands for nothing. -/
inductive Answer where
  | done (changed : Bool)
  | got (name? : Option String)
  | unknown

def alive (s : NamedHints) (e : EntryId) : Bool :=
  s.entries.any (·.2 == e)

def nameOf? (s : NamedHints) (e : EntryId) : Option String :=
  (s.entries.find? (·.2 == e)).map (·.1)

/-- The name of the live entry that the caller set last. -/
def get? (s : NamedHints) (caller : CallerId) : Option String :=
  (s.hints.get? s.alive caller).bind s.nameOf?

def forget (s : NamedHints) (name : String) : NamedHints :=
  { s with entries := s.entries.filter (·.1 != name) }

/-- A new entry takes the name; the entry it stood for before is dropped. -/
def make (s : NamedHints) (name : String) : NamedHints :=
  { s.forget name with
    entries := (name, s.created) :: (s.forget name).entries
    created := s.created + 1 }

def answer (s : NamedHints) (caller : CallerId) : Request → Answer × NamedHints
  | .make name => (.done true, s.make name)
  | .set name =>
    match s.entries.lookup name with
    | some e => (.done true, { s with hints := s.hints.set caller e })
    | none => (.unknown, s)
  | .drop name => (.done (s.entries.lookup name).isSome, s.forget name)
  | .get => (.got (s.get? caller), s)
  | .clear => (.done true, { s with hints := {} })

/-- The answers to the requests of one caller, each with the number of slots after it. -/
def answers (s : NamedHints) (caller : CallerId) : List Request → List (Answer × Nat)
  | [] => []
  | r :: rs =>
    let (a, s) := s.answer caller r
    (a, s.hints.size) :: s.answers caller rs

end NamedHints

end ResourcePool
