import ResourcePool.Binary64

/-! Decimal numbers with their point at any place, and the binary64 numbers nearest to them. -/
namespace ResourcePool.Decimal

/-- The decimal number `digits / 10 ^ places`. -/
structure Scaled where
  digits : Nat
  places : Int

namespace Scaled

/-- How many places the point stands behind the first digit that counts: `0` for `0.5`. -/
def point (d : Scaled) : Int :=
  (toString d.digits).length - d.places

/--
The nearest binary64 number, rounded once from the exact value. From `10 ^ 309` on that is infinity
and below `10 ^ -324` it is zero, so no larger power of ten is ever built.
-/
def toBinary64 (d : Scaled) : Binary64 :=
  if d.digits = 0 ∨ d.point ≤ -324 then .zero
  else if 309 < d.point then .infinity
  else .ofRatio (d.digits * Nat.pow 10 (-d.places).toNat) (Nat.pow 10 d.places.toNat)

end Scaled

end ResourcePool.Decimal
