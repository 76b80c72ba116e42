/-!
Reading a document from its characters on. The first thing wrong decides the error: text that is no
document, a document that ends too early, or a value of another shape than the one asked for.
-/
namespace ResourcePool.Json

inductive ReadError where
  | malformed
  | truncated
  | mismatch (message? : Option String)
  deriving DecidableEq, Repr

namespace ReadError

def kind : ReadError → String
  | malformed => "Syntax"
  | truncated => "Eof"
  | mismatch _ => "Data"

def message? : ReadError → Option String
  | mismatch m => m
  | _ => none

end ReadError

/-- Reads from the front of the characters that are left. -/
abbrev Reader := StateT (List Char) (Except ReadError)

namespace Reader

variable {β : Type}

def isBlank (c : Char) : Bool :=
  c == ' ' || c == '\n' || c == '\t' || c == '\r'

def malformed : Reader β :=
  throw .malformed

def truncated : Reader β :=
  throw .truncated

def peek? : Reader (Option Char) :=
  return (← get).head?

/-- The next character that is not blank, not taken yet. -/
def token? : Reader (Option Char) := do
  modify (·.dropWhile isBlank)
  peek?

def advance : Reader Unit :=
  modify List.tail

/-- Takes the characters of a word. -/
def word : List Char → Reader Unit
  | [] => pure ()
  | expected :: rest => do
    match ← peek? with
    | none => truncated
    | some c =>
      if c = expected then
        advance
        word rest
      else malformed

/-- Takes one expected character after blanks. -/
def expect (expected : Char) : Reader Unit := do
  match ← token? with
  | none => truncated
  | some c => if c = expected then advance else malformed

/-- Nothing but blanks may be left. -/
def finish : Reader Unit := do
  match ← token? with
  | none => pure ()
  | some _ => malformed

/-- Reads a whole text. -/
def parse (r : Reader β) (text : String) : Except ReadError β :=
  (do let b ← r; finish; pure b : Reader β).run' text.toList

end Reader

end ResourcePool.Json
