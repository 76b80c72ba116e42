import ResourcePool.Caller

/-! Acquisition strategies: the member of the list at which a search for an idle entry begins. -/
namespace ResourcePool

inductive Strategy where
  | first
  | random
  | byCaller
  | roundRobin
  deriving DecidableEq, Repr

namespace Strategy

def name : Strategy → String
  | first => "First"
  | random => "Random"
  | byCaller => "ThreadId"
  | roundRobin => "RoundRobin"

def all : List Strategy :=
  [first, random, byCaller, roundRobin]

def ofName? (s : String) : Option Strategy :=
  all.find? (·.name == s)

/--
The start index in a list of `size` members, with the turn counter after it. Only `roundRobin`
reads the counter and moves it on; it wraps at the word size. `draw` is the number that `random`
is given.
-/
def start (s : Strategy) (size : Nat) (caller : CallerId) (draw : Nat) (turn : Option UInt64) :
    Nat × Option UInt64 :=
  match s with
  | first => (0, turn)
  | random => (draw % size, turn)
  | byCaller => (caller % size, turn)
  | roundRobin =>
    match turn with
    | some k => (k.toNat % size, some (k + 1))
    | none => (0, none)

/-- The start indices of one search per size, made one after the other by the main caller. -/
def starts (s : Strategy) (turn : Option UInt64) : List Nat → List Nat × Option UInt64
  | [] => ([], turn)
  | size :: sizes =>
    let (i, turn) := s.start size .main 0 turn
    let (is, turn) := s.starts turn sizes
    (i :: is, turn)

end Strategy

end ResourcePool
