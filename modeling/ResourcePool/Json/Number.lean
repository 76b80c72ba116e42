import ResourcePool.Decimal.Scaled
import ResourcePool.Json.Reader

/-!
Numbers of a document. A number with a fraction or an exponent, or too large for a word, is the
binary64 number nearest to it; one that would be infinite is malformed.
-/
namespace ResourcePool.Json

inductive Number where
  | natural (n : Nat)
  /-- The number `-n`. -/
  | negative (n : Nat)
  | decimal (x : Binary64)

namespace Number

def word? : Number → Option UInt64
  | natural n => some (UInt64.ofNat n)
  | _ => none

def toBinary64 : Number → Binary64
  | natural n => .ofNat n
  | negative n => (Binary64.ofNat n).neg
  | decimal x => x

def digit (c : Char) : Nat :=
  c.toNat - '0'.toNat

def startsWithDigit (cs : List Char) : Bool :=
  cs.head?.any Char.isDigit

def valueOf (digits : List Char) : Nat :=
  digits.foldl (fun n c => 10 * n + digit c) 0

def ofDecimal (negative : Bool) (d : Decimal.Scaled) : Except ReadError Number :=
  let x := d.toBinary64
  if x.isInfinite then .error .malformed else .ok (decimal (if negative then x.neg else x))

/-- A number without fraction and exponent. -/
def ofWhole (negative : Bool) (n : Nat) : Except ReadError Number :=
  if n < Nat.pow 2 64 then .ok (if negative then .negative n else natural n)
  else ofDecimal negative ⟨n, 0⟩

/-- The rest of a number after the letter of its exponent. -/
def readExponent (negative : Bool) (d : Decimal.Scaled) (cs : List Char) :
    Except ReadError (Number × List Char) :=
  let (down, cs) :=
    match cs with
    | '+' :: cs => (false, cs)
    | '-' :: cs => (true, cs)
    | cs => (false, cs)
  if cs.isEmpty then .error .truncated
  else if !startsWithDigit cs then .error .malformed
  else
    let n := valueOf (cs.takeWhile Char.isDigit)
    let places := if down then d.places + n else d.places - n
    (ofDecimal negative { d with places }).map (·, cs.dropWhile Char.isDigit)

/-- The rest of a number after its point, the digits in front of it being `whole`. -/
def readFraction (negative : Bool) (whole cs : List Char) :
    Except ReadError (Number × List Char) :=
  if cs.isEmpty then .error .truncated
  else if !startsWithDigit cs then .error .malformed
  else
    let fraction := cs.takeWhile Char.isDigit
    let d : Decimal.Scaled := ⟨valueOf (whole ++ fraction), fraction.length⟩
    match cs.dropWhile Char.isDigit with
    | 'e' :: rest => readExponent negative d rest
    | 'E' :: rest => readExponent negative d rest
    | rest => (ofDecimal negative d).map (·, rest)

/-- A number without its sign. -/
def readUnsigned (negative : Bool) (cs : List Char) : Except ReadError (Number × List Char) :=
  if cs.isEmpty then .error .truncated
  else if !startsWithDigit cs || (cs.head? == some '0' && startsWithDigit cs.tail) then
    .error .malformed
  else
    let whole := cs.takeWhile Char.isDigit
    match cs.dropWhile Char.isDigit with
    | '.' :: rest => readFraction negative whole rest
    | 'e' :: rest => readExponent negative ⟨valueOf whole, 0⟩ rest
    | 'E' :: rest => readExponent negative ⟨valueOf whole, 0⟩ rest
    | rest => (ofWhole negative (valueOf whole)).map (·, rest)

/-- What follows a number without its sign whose value does not matter. An early end is malformed. -/
def passUnsigned (cs : List Char) : Except ReadError (List Char) :=
  if !startsWithDigit cs || (cs.head? == some '0' && startsWithDigit cs.tail) then .error .malformed
  else
    match cs.dropWhile Char.isDigit with
    | '.' :: rest =>
      if startsWithDigit rest then passExponent (rest.dropWhile Char.isDigit)
      else .error .malformed
    | rest => passExponent rest
where
  passDigits (cs : List Char) : Except ReadError (List Char) :=
    if startsWithDigit cs then .ok (cs.dropWhile Char.isDigit) else .error .malformed
  passSigned : List Char → Except ReadError (List Char)
    | '+' :: cs => passDigits cs
    | '-' :: cs => passDigits cs
    | cs => passDigits cs
  passExponent : List Char → Except ReadError (List Char)
    | 'e' :: cs => passSigned cs
    | 'E' :: cs => passSigned cs
    | cs => .ok cs

end Number

namespace Reader

/-- A number whose first character is next. -/
def number : Reader Number := do
  let negative := (← peek?) == some '-'
  if negative then advance
  let (n, rest) ← (Number.readUnsigned negative (← get) : Except ReadError _)
  set rest
  pure n

/-- Passes over a number whose first character is next. -/
def skipNumber : Reader Unit := do
  if (← peek?) == some '-' then advance
  let rest ← (Number.passUnsigned (← get) : Except ReadError _)
  set rest

end Reader

end ResourcePool.Json
