import ResourcePool.Store.Basic

/-! Entries entering and leaving pools: reserve, enable, remove, and closing the pool. -/
namespace ResourcePool.Store

variable {α : Type}

/-- A new pending entry at the end of the list, unless the pool is full or closed. -/
def reserve (s : Store α) (p : PoolId) : Option EntryId × Store α :=
  if (s.pool p).closed || (s.pool p).isFull then
    (none, (s.count p fun c => { c with rejections := c.rejections + 1 }).note (.rejected p))
  else
    let e := s.entries.size
    let s := { s with entries := s.entries.push .pending }
    let s := s.modifyPool p fun pool => { pool with members := pool.members ++ [e] }
    (some e, s.note (.reserved p e))

/-- Gives a reserved entry its value. -/
def enable (s : Store α) (e : EntryId) (value : α) (acquire : Bool) : Except Fault Bool × Store α :=
  match (s.entry e).enable value acquire with
  | (.ok true, x) => (.ok true, (s.setEntry e x).note (.enabled e value acquire))
  | (answer, _) => (answer, s)

/-- Closes an entry and takes it from the list; `true` only if this call did both. -/
def remove (s : Store α) (p : PoolId) (e : EntryId) : Bool × Store α :=
  if (s.pool p).closed then (false, s)
  else
    match (s.entry e).tryRemove with
    | (false, _) => (false, s.note (.removedAgain p e))
    | (true, x) =>
      let s := s.setEntry e x
      if (s.members p).contains e then
        let s := s.modifyPool p fun pool => { pool with members := pool.members.erase e }
        let s := s.count p fun c => { c with removed := c.removed + 1 }
        (true, s.note (.removed p e))
      else (false, s.note (.removedElsewhere p e))

/-- Passes a reclaimed value to the disposer; a failure is only noted. -/
def dispose (s : Store α) (p : PoolId) (e : EntryId) : List α × Store α :=
  match (s.pool p).settings.dispose?, s.value? e with
  | some dispose, some v =>
    let s := s.note (.disposed p e v)
    match dispose v with
    | some reason => ([v], s.note (.disposalFailed reason))
    | none => ([v], s)
  | _, _ => ([], s)

/-- Closes drained entries: how many this call closed, and the values disposed of. -/
def reclaim (p : PoolId) : List EntryId → Store α → Nat × List α × Store α
  | [], s => (0, [], s)
  | e :: es, s =>
    match (s.entry e).tryRemove with
    | (false, _) => reclaim p es (s.note (.skipped p e))
    | (true, x) =>
      let (v, s) := ((s.setEntry e x).note (.reclaimed p e)).dispose p e
      let (n, vs, s) := reclaim p es s
      (n + 1, v ++ vs, s)

/-- Closes the pool and every entry in it. Returns the values disposed of, in order. -/
def close (s : Store α) (p : PoolId) : List α × Store α :=
  let drained := s.members p
  let s := s.modifyPool p fun pool => { pool with closed := true, members := [], hints := {} }
  if drained.isEmpty then ([], s)
  else
    let (n, values, s) := reclaim p drained s
    (values, s.note (.closed p drained.length n))

end ResourcePool.Store
