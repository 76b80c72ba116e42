import ResourcePool.Store.Tracking

/-! Guards by name: each ends in exactly one of a release, a removal, or neither. -/
namespace ResourcePool.Store

variable {α : Type}

def guard? (s : Store α) (name : String) : Option Guard :=
  s.guards.lookup name

/-- Ends a guard without touching its entry. -/
def endGuard (s : Store α) (name : String) : Store α :=
  { s with guards := s.guards.filter (·.1 != name) }

/-- Gives the entry of an ended guard back. A fault has nobody to go to and is only noted. -/
def giveBack (s : Store α) (c : CallerId) (g : Guard) : Store α :=
  match s.trackedRelease g.direct g.pool c g.entry with
  | (.ok _, s) => s
  | (.error fault, s) => s.note (.guardFailed g.pool fault)

/-- Stores a guard under a name. A guard of that name is dropped after that. -/
def putGuard (s : Store α) (c : CallerId) (name : String) (g : Guard) : Store α :=
  let stored := { s.endGuard name with guards := (name, g) :: (s.endGuard name).guards }
  match s.guard? name with
  | some old => stored.giveBack c old
  | none => stored

/-- Acquires an entry and guards it. -/
def lease (s : Store α) (direct : Bool) (p : PoolId) (c : CallerId) (name : String) :
    Option EntryId × Store α :=
  match s.trackedAcquire direct p c with
  | (some e, s) => (some e, s.putGuard c name { pool := p, entry := e, direct })
  | (none, s) => (none, s)

def dropGuard (s : Store α) (c : CallerId) (name : String) (g : Guard) : Store α :=
  (s.endGuard name).giveBack c g

/-- Retires the guarded entry instead of giving it back. -/
def removeGuarded (s : Store α) (name : String) (g : Guard) : Bool × Store α :=
  (s.endGuard name).trackedRemove g.direct g.pool g.entry

/-- Turns a guard into a handle. -/
def detach (s : Store α) (name : String) (g : Guard) : Store α :=
  (s.hold g.entry).endGuard name

end ResourcePool.Store
