/-!
The search for an idle entry: probe the members of a list from a start index, wrapping around. The
size is the one the start index was computed for; a probe outside the list takes the list's own.
-/
namespace ResourcePool

variable {ε : Type}

/-- Probes at most `probes` members, the next one at `index`. -/
def scan (members : List ε) (idle : ε → Bool) : (probes index size : Nat) → Option ε
  | 0, _, _ => none
  | probes + 1, index, size =>
    match members[index]? with
    | some e => if idle e then some e else scan members idle probes ((index + 1) % size) size
    | none =>
      if members.length = 0 then none
      else scan members idle probes ((index + 1) % members.length) members.length

end ResourcePool
