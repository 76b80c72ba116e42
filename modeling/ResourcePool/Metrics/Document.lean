import ResourcePool.Decimal.Shortest
import ResourcePool.Json.Value
import ResourcePool.Metrics.Fields

/-!
Metrics as a document: an object with one member per field, written in the order of the fields.
Reading takes the members in any order and passes over others, or takes a list of the values.
-/
namespace ResourcePool.Metrics

def Reading.document : Reading → String
  | .count n => toString n.toNat
  | .ratio x => Decimal.text x

def document (m : Metrics) : String :=
  "\x7b" ++ ",".intercalate (Field.all.map fun f => "\"" ++ f.name ++ "\":" ++ (m.read f).document)
    ++ "\x7d"

open Json Json.Reader

/-- Field values read so far. -/
abbrev Found := List (Field × Reading)

def Found.count (found : Found) (f : Field) : UInt64 :=
  match found.lookup f with
  | some (.count n) => n
  | _ => 0

def Found.ratio (found : Found) (f : Field) : Binary64 :=
  match found.lookup f with
  | some (.ratio x) => x
  | _ => .zero

def ofFound (found : Found) : Metrics where
  acquired := found.count .acquired
  released := found.count .released
  removed := found.count .removed
  hits := found.count .hits
  cachedCallers := found.count .cachedCallers
  misses := found.count .misses
  rejections := found.count .rejections
  reserved := found.count .reserved
  idle := found.count .idle
  inUse := found.count .inUse
  closed := found.count .closed
  size := found.count .size
  maxEntries := found.count .maxEntries
  utilization := found.ratio .utilization

def missing (f : Field) : ReadError :=
  .mismatch (some ("missing field `" ++ f.name ++ "`"))

def duplicate (f : Field) : ReadError :=
  .mismatch (some ("duplicate field `" ++ f.name ++ "`"))

/-- The value of a field: a number for the utilization, else a word. -/
def readingOf (f : Field) : Reader Reading := do
  if f = .utilization then return .ratio (← numberValue).toBinary64
  else return .count (← wordValue)

/-- The next key of an object, or none at its end. -/
def nextKey? (first : Bool) : Reader (Option String) := do
  match ← token? with
  | none => truncated
  | some '\x7d' => return none
  | some c =>
    unless first do
      if c ≠ ',' then malformed
      advance
    match ← token? with
    | none => truncated
    | some '"' => return some (← quoted)
    | some _ => malformed

/-- The members of an object up to its end; the fuel exceeds the number of characters. -/
def members : (fuel : Nat) → (first : Bool) → Found → Reader Found
  | 0, _, found => pure found
  | fuel + 1, first, found => do
    match ← nextKey? first with
    | none => return found
    | some key =>
      match Field.ofName? key with
      | none =>
        expect ':'
        skipValue
        members fuel false found
      | some f =>
        if (found.lookup f).isSome then throw (duplicate f)
        expect ':'
        let reading ← readingOf f
        members fuel false ((f, reading) :: found)

def objectBody : Reader Metrics := do
  let found ← members ((← get).length + 1) true []
  match Field.all.find? fun f => (found.lookup f).isNone with
  | some f => throw (missing f)
  | none =>
    expect '\x7d'
    return ofFound found

/-- The items of a list, one per field; a list that ends before is of another shape. -/
def items (first : Bool) : List Field → Reader Found
  | [] => pure []
  | f :: fs => do
    match ← token? with
    | none => truncated
    | some ']' => throw (.mismatch none)
    | some c =>
      unless first do
        if c ≠ ',' then malformed
        advance
        if (← token?) = some ']' then malformed
      let reading ← readingOf f
      return (f, reading) :: (← items false fs)

def listBody : Reader Metrics := do
  let found ← items true Field.all
  expect ']'
  return ofFound found

def reader : Reader Metrics := do
  match ← token? with
  | none => truncated
  | some '\x7b' => advance; objectBody
  | some '[' => advance; listBody
  | some c => reject c

/-- Reads metrics from a document. -/
def parse (text : String) : Except ReadError Metrics :=
  Reader.parse reader text

end ResourcePool.Metrics
