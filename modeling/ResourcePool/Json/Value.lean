import ResourcePool.Json.Number
import ResourcePool.Json.Quoted

/-! Values of a document: single ones of an expected type, and any value passed over. -/
namespace ResourcePool.Json

/-- A list or an object that is open. -/
inductive Frame where
  | list
  | object
  deriving DecidableEq

def Frame.close : Frame → Char
  | .list => ']'
  | .object => '}'

namespace Reader

variable {β : Type}

def startsNumber (c : Char) : Bool :=
  c == '-' || c.isDigit

/-- A value of another type than expected, `c` being its first character. A scalar is read first. -/
def reject (c : Char) : Reader β := do
  if c = 'n' then word "null".toList
  else if c = 't' then word "true".toList
  else if c = 'f' then word "false".toList
  else if startsNumber c then discard number
  else if c = '"' then discard quoted
  else if c ≠ '[' ∧ c ≠ '\x7b' then malformed
  throw (.mismatch none)

def numberValue : Reader Number := do
  match ← token? with
  | none => truncated
  | some c => if startsNumber c then number else reject c

/-- A number that is a word. -/
def wordValue : Reader UInt64 := do
  match (← numberValue).word? with
  | some n => pure n
  | none => throw (.mismatch none)

def nullValue : Reader Unit := do
  match ← token? with
  | none => truncated
  | some c => if c = 'n' then word "null".toList else reject c

/-- The key of a member and its colon, both passed over. -/
def skipKey : Reader Unit := do
  match ← token? with
  | none => truncated
  | some c =>
    if c ≠ '"' then malformed
    skipQuoted
    expect ':'

/-- Passes over a scalar, or opens a list or an object. -/
def skipScalar : Reader (Option Frame) := do
  match ← token? with
  | none => truncated
  | some c =>
    if c = '[' then
      advance
      return some .list
    if c = '\x7b' then
      advance
      return some .object
    if c = 'n' then word "null".toList
    else if c = 't' then word "true".toList
    else if c = 'f' then word "false".toList
    else if startsNumber c then skipNumber
    else if c = '"' then skipQuoted
    else malformed
    return none

/--
Passes over what is left of a value inside open frames; `fresh` says that the innermost one has no
item yet. Every round takes a character, so fuel above their number never runs out.
-/
def skipOpen : (fuel : Nat) → (fresh : Bool) → List Frame → Reader Unit
  | _, _, [] => pure ()
  | 0, _, _ => truncated
  | fuel + 1, fresh, frame :: frames => do
    match ← token? with
    | none => truncated
    | some c =>
      if c = frame.close then
        advance
        skipOpen fuel false frames
      else
        unless fresh do
          if c ≠ ',' then malformed
          advance
        if frame = .object then skipKey
        match ← skipScalar with
        | some inner => skipOpen fuel true (inner :: frame :: frames)
        | none => skipOpen fuel false (frame :: frames)

/-- Passes over any value. -/
def skipValue : Reader Unit := do
  match ← skipScalar with
  | none => pure ()
  | some frame => skipOpen ((← get).length + 1) true [frame]

end Reader

end ResourcePool.Json
