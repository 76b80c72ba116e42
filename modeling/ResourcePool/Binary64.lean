/-!
Binary64 numbers by their bits. The magnitude of a finite number is a whole number of *units*, the
least positive number; quotients and products are the exact ones rounded once, ties to even.
-/
namespace ResourcePool

/-- Divides to the nearest whole number; a tie goes to the even one. -/
def roundDiv (num den : Nat) : Nat :=
  let q := num / den
  let twice := 2 * (num % den)
  if twice < den then q
  else if den < twice then q + 1
  else q + q % 2

structure Binary64 where
  bits : UInt64
  deriving DecidableEq, Repr

namespace Binary64

/-- How many units make one. -/
def one : Nat := Nat.pow 2 1074

def signBit : Nat := Nat.pow 2 63

/-- The bits of positive infinity, which follow those of the largest finite number. -/
def infinityBits : Nat := 2047 * Nat.pow 2 52

def isNegative (x : Binary64) : Bool :=
  signBit ≤ x.bits.toNat

def magnitudeBits (x : Binary64) : Nat :=
  x.bits.toNat % signBit

def isFinite (x : Binary64) : Bool :=
  x.magnitudeBits < infinityBits

def isInfinite (x : Binary64) : Bool :=
  x.magnitudeBits == infinityBits

def isNaN (x : Binary64) : Bool :=
  infinityBits < x.magnitudeBits

/-- The power of two, counted in units, that the significand is scaled by. -/
def scale (x : Binary64) : Nat :=
  x.magnitudeBits / Nat.pow 2 52 - 1

def significand (x : Binary64) : Nat :=
  let fraction := x.magnitudeBits % Nat.pow 2 52
  if x.magnitudeBits < Nat.pow 2 52 then fraction else Nat.pow 2 52 + fraction

/-- The magnitude of a finite number in units. -/
def units (x : Binary64) : Nat :=
  x.significand * Nat.pow 2 x.scale

/--
The bits of the number nearest to `num / den` units, for `0 < den`. A significand rounded up to
`2 ^ 53` carries into the exponent, and past the largest finite number comes infinity.
-/
def nearestBits (num den : Nat) : Nat :=
  let k := (num / den).log2 - 52
  min (k * Nat.pow 2 52 + roundDiv num (den * Nat.pow 2 k)) infinityBits

/-- The number nearest to the ratio `num / den`, for `0 < den`. -/
def ofRatio (num den : Nat) : Binary64 :=
  ⟨UInt64.ofNat (nearestBits (num * one) den)⟩

def zero : Binary64 := ⟨0⟩

def infinity : Binary64 := ⟨UInt64.ofNat infinityBits⟩

def ofNat (n : Nat) : Binary64 :=
  ofRatio n 1

/-- Quotient of the magnitudes of finite numbers, the second one not zero. -/
def div (x y : Binary64) : Binary64 :=
  ofRatio x.units y.units

/-- Product of the magnitudes of finite numbers. -/
def mul (x y : Binary64) : Binary64 :=
  ofRatio (x.units * y.units) (one * one)

def neg (x : Binary64) : Binary64 :=
  ⟨UInt64.ofNat ((x.bits.toNat + signBit) % Nat.pow 2 64)⟩

/-- Compares the magnitudes of finite numbers. -/
def exceeds (x y : Binary64) : Bool :=
  y.units < x.units

/-- Equality of numbers: the two zeros are equal, and NaN differs from itself. -/
def equals (x y : Binary64) : Bool :=
  !x.isNaN && (x == y || (x.magnitudeBits == 0 && y.magnitudeBits == 0))

end Binary64

end ResourcePool
