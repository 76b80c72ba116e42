import ResourcePool.Json.Reader

/-! Quoted strings of a document: reading them, and passing over one whose content does not matter. -/
namespace ResourcePool.Json

def hexValue? (c : Char) : Option Nat :=
  if c.isDigit then some (c.toNat - '0'.toNat)
  else if 'a' ≤ c ∧ c ≤ 'f' then some (c.toNat - 'a'.toNat + 10)
  else if 'A' ≤ c ∧ c ≤ 'F' then some (c.toNat - 'A'.toNat + 10)
  else none

/-- The number in four hexadecimal digits; fewer than four bytes are an early end. -/
def hexQuad (cs : List Char) : Except ReadError Nat :=
  let quad := cs.take 4
  if quad.foldl (· + ·.utf8Size) 0 < 4 then .error .truncated
  else
    match quad.mapM hexValue? with
    | some ds => if ds.length = 4 then .ok (ds.foldl (16 * · + ·) 0) else .error .malformed
    | none => .error .malformed

def isHighSurrogate (n : Nat) : Bool :=
  0xD800 ≤ n && n < 0xDC00

def isLowSurrogate (n : Nat) : Bool :=
  0xDC00 ≤ n && n < 0xE000

def simpleEscape? : Char → Option Char
  | '"' => some '"'
  | '\\' => some '\\'
  | '/' => some '/'
  | 'b' => some '\x08'
  | 'f' => some '\x0c'
  | 'n' => some '\n'
  | 'r' => some '\r'
  | 't' => some '\t'
  | _ => none

/-- The character that an escape stands for, and how many characters it takes after its backslash. -/
def unescape : List Char → Except ReadError (Char × Nat)
  | [] => .error .truncated
  | 'u' :: cs => do
    let n ← hexQuad cs
    if isLowSurrogate n then .error .malformed
    else if isHighSurrogate n then
      match cs.drop 4 with
      | [] => .error .truncated
      | ['\\'] => .error .truncated
      | '\\' :: 'u' :: rest =>
        let m ← hexQuad rest
        if isLowSurrogate m then
          .ok (Char.ofNat (0x10000 + (n - 0xD800) * 0x400 + (m - 0xDC00)), 11)
        else .error .malformed
      | _ => .error .malformed
    else .ok (Char.ofNat n, 5)
  | c :: _ =>
    match simpleEscape? c with
    | some d => .ok (d, 1)
    | none => .error .malformed

/-- As `unescape`, but surrogates need not pair up. -/
def passEscape : List Char → Except ReadError Nat
  | [] => .error .truncated
  | 'u' :: cs => (hexQuad cs).map fun _ => 5
  | c :: _ => if (simpleEscape? c).isSome then .ok 1 else .error .malformed

/-- The content of a string whose opening quote was taken, and what follows the closing one. -/
def quotedContent : List Char → Except ReadError (List Char × List Char)
  | [] => .error .truncated
  | c :: cs =>
    if c = '"' then .ok ([], cs)
    else if c = '\\' then
      match unescape cs with
      | .error e => .error e
      | .ok (d, n) => (quotedContent (cs.drop n)).map fun (ds, rest) => (d :: ds, rest)
    else if c < ' ' then .error .malformed
    else (quotedContent cs).map fun (ds, rest) => (c :: ds, rest)
  termination_by cs => cs.length
  decreasing_by all_goals (simp only [List.length_cons, List.length_drop]; omega)

/-- What follows the closing quote of a string whose opening quote was taken. -/
def passQuoted : List Char → Except ReadError (List Char)
  | [] => .error .truncated
  | c :: cs =>
    if c = '"' then .ok cs
    else if c = '\\' then
      match passEscape cs with
      | .error e => .error e
      | .ok n => passQuoted (cs.drop n)
    else if c < ' ' then .error .malformed
    else passQuoted cs
  termination_by cs => cs.length
  decreasing_by all_goals (simp only [List.length_cons, List.length_drop]; omega)

namespace Reader

/-- A string whose opening quote is next. -/
def quoted : Reader String := do
  advance
  let (content, rest) ← (quotedContent (← get) : Except ReadError _)
  set rest
  pure (String.ofList content)

/-- Passes over a string whose opening quote is next. -/
def skipQuoted : Reader Unit := do
  advance
  let rest ← (passQuoted (← get) : Except ReadError _)
  set rest

end Reader

end ResourcePool.Json
