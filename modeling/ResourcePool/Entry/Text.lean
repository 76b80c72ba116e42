import ResourcePool.Entry
import ResourcePool.Text.Quoted

/-! Entries as texts, on one line or over several; values are quoted. -/
namespace ResourcePool.Entry

def text (e : Entry String) : String :=
  let value :=
    match e.value? with
    | some v => "Some(" ++ Text.quoted v ++ ")"
    | none => "None"
  "Entry \x7b state: " ++ e.state.name ++ ", pooled: " ++ value ++ " \x7d"

/-- The lines of an entry, parts indented below what they belong to. -/
def lines (e : Entry String) : List String :=
  let value :=
    match e.value? with
    | some v => ["    pooled: Some(", "        " ++ Text.quoted v ++ ",", "    ),"]
    | none => ["    pooled: None,"]
  ["Entry \x7b", "    state: " ++ e.state.name ++ ","] ++ value ++ ["\x7d"]

end ResourcePool.Entry
