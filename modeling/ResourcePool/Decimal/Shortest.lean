import ResourcePool.Decimal.Scaled

/-! The fewest decimal digits that read back as a number, and its text with them. -/
namespace ResourcePool.Decimal

/-- The floor of `num / den * 10 ^ places`. -/
def scaledFloor (num den : Nat) (places : Int) : Nat :=
  num * Nat.pow 10 places.toNat / (den * Nat.pow 10 (-places).toNat)

/-- The place of the leading digit of `num / den`; `400` places reach the least positive number. -/
def leadingPlace (num den : Nat) : Int :=
  ((toString (num * Nat.pow 10 400 / den)).length : Int) - 401

/--
The decimal of `count` digits nearest to a positive finite number, if one reads back as it: it must
lie between the midpoints to the neighbours, which themselves count for an even significand.
-/
def nearest? (x : Binary64) (count : Nat) : Option Scaled :=
  let den := 4 * Binary64.one
  let gap := Nat.pow 2 x.scale
  let value := 4 * x.units
  let low := value - (if x.significand = Nat.pow 2 52 ∧ x.scale ≠ 0 then gap else 2 * gap)
  let high := value + 2 * gap
  let places := (count : Int) - 1 - leadingPlace value den
  let up := Nat.pow 10 places.toNat
  let down := den * Nat.pow 10 (-places).toNat
  let readsBack := fun d =>
    if x.significand % 2 = 0 then low * up ≤ d * down && d * down ≤ high * up
    else low * up < d * down && d * down < high * up
  let below := scaledFloor value den places
  let above := below + 1
  let offset := 2 * (value * up - below * down)
  match readsBack below, readsBack above with
  | true, true =>
    some ⟨if offset < down ∨ (offset = down ∧ below % 2 = 0) then below else above, places⟩
  | true, false => some ⟨below, places⟩
  | false, true => some ⟨above, places⟩
  | false, false => none

/-- The shortest decimal of a positive finite number; seventeen digits always suffice. -/
def shortest (x : Binary64) : Scaled :=
  ((List.range 17).findSome? fun n => nearest? x (n + 1)).getD ⟨0, 0⟩

/-- Digits without the zeros at their end, at least one. -/
def trimmed (digits : List Char) : List Char :=
  match (digits.reverse.dropWhile (· == '0')).reverse with
  | [] => ['0']
  | ds => ds

/--
The text of a finite number: positional while the point stands at most four places in front of the
first digit or sixteen behind it, and else with an exponent, which always has a sign. A whole number
in positional form keeps one zero.
-/
def text (x : Binary64) : String :=
  let sign := if x.isNegative then "-" else ""
  if x.units = 0 then sign ++ "0.0"
  else
    let s := shortest x
    let digits := trimmed (toString s.digits).toList
    let point := s.point
    let body : List Char :=
      if 0 < point ∧ point ≤ 16 then
        let n := point.toNat
        if digits.length ≤ n then digits ++ List.replicate (n - digits.length) '0' ++ ['.', '0']
        else digits.take n ++ '.' :: digits.drop n
      else if -5 < point ∧ point ≤ 0 then
        '0' :: '.' :: List.replicate (-point).toNat '0' ++ digits
      else
        let tail := if digits.length = 1 then [] else '.' :: digits.drop 1
        let exponent := (if 0 < point then "+" else "") ++ toString (point - 1)
        digits.take 1 ++ tail ++ 'e' :: exponent.toList
    sign ++ String.ofList body

end ResourcePool.Decimal
