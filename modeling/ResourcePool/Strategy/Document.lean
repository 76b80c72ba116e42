import ResourcePool.Json.Value
import ResourcePool.Strategy

/-! Strategies as documents: the quoted name, or an object whose one member holds null. -/
namespace ResourcePool.Strategy

open Json Json.Reader

def document (s : Strategy) : String :=
  "\"" ++ s.name ++ "\""

def unknown (name : String) : ReadError :=
  .mismatch (some ("unknown variant `" ++ name ++ "`, expected one of " ++
    ", ".intercalate (all.map fun s => "`" ++ s.name ++ "`")))

def named (name : String) : Reader Strategy :=
  match ofName? name with
  | some s => pure s
  | none => throw (unknown name)

def reader : Reader Strategy := do
  match ← token? with
  | none => truncated
  | some '"' => named (← quoted)
  | some '\x7b' =>
    advance
    match ← token? with
    | none => truncated
    | some '"' =>
      let s ← named (← quoted)
      expect ':'
      nullValue
      expect '\x7d'
      return s
    | some _ => malformed
  | some _ => malformed

/-- Reads a strategy from a document. -/
def parse (text : String) : Except ReadError Strategy :=
  Reader.parse reader text

end ResourcePool.Strategy
