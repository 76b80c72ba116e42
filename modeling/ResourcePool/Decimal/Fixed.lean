import ResourcePool.Binary64

/-! Numbers with a fixed count of decimal places, rounded from the exact value, ties to even. -/
namespace ResourcePool.Decimal

/-- Decimal digits with zeros in front up to the width. -/
def padded (width n : Nat) : String :=
  let digits := toString n
  "".pushn '0' (width - digits.length) ++ digits

/-- All integer digits, a point and `places` digits; a negative number keeps its sign. -/
def fixed (places : Nat) (x : Binary64) : String :=
  if x.isNaN then "NaN"
  else
    let sign := if x.isNegative then "-" else ""
    if x.isInfinite then sign ++ "inf"
    else
      let n := roundDiv (x.units * Nat.pow 10 places) Binary64.one
      sign ++ toString (n / Nat.pow 10 places) ++ "." ++ padded places (n % Nat.pow 10 places)

end ResourcePool.Decimal
