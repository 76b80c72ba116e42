/-!
Callers of pools: small numbers, one per live caller. A number given back is handed out again
before a fresh one is used, so numbers stay below the most callers ever alive at once.
-/
namespace ResourcePool

abbrev CallerId := Nat

namespace CallerId

/-- The caller that is there from the start and never leaves. -/
def main : CallerId := 0

/-- A caller that is leaving has given its number back already and counts as this one. -/
def leaving : CallerId := Nat.pow 2 64 - 1

end CallerId

/-- Live callers by name, the numbers given back (latest first) and the least number never used. -/
structure Callers where
  live : List (String × CallerId) := []
  freed : List CallerId := []
  fresh : CallerId := 1

namespace Callers

def find? (callers : Callers) (name : String) : Option CallerId :=
  callers.live.lookup name

/-- The number of the caller of this name, who enters at the first mention. -/
def enter (callers : Callers) (name : String) : CallerId × Callers :=
  match callers.find? name with
  | some c => (c, callers)
  | none =>
    match callers.freed with
    | c :: freed => (c, { callers with live := callers.live ++ [(name, c)], freed })
    | [] =>
      let c := callers.fresh
      (c, { callers with live := callers.live ++ [(name, c)], fresh := c + 1 })

/-- Gives the number of a live caller back and forgets the name. -/
def leave? (callers : Callers) (name : String) : Option Callers :=
  (callers.find? name).map fun c =>
    { callers with live := callers.live.filter (·.1 != name), freed := c :: callers.freed }

end Callers

end ResourcePool
