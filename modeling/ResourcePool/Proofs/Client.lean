import ResourcePool.Proofs.Gauge

/-! Clients that name entries by their place among those they have, and the census that stands for such
a client when its entries cannot be told apart. -/
namespace ResourcePool

variable {α : Type}

/-- What a client asks of a pool. Reserved entries that were not used yet and held entries are named by
their places in order of having been obtained. -/
inductive Order (α : Type) where
  | warmup (count : Nat) (value : Nat → α)
  | reserve
  | enable (place : Nat) (value : α) (acquire : Bool)
  /-- Removes an entry that was not used yet. -/
  | discard (place : Nat)
  | acquire
  /-- The creator makes no calls. -/
  | acquireWith (creation : Creation α)
  | release (place : Nat)
  | remove (place : Nat)
  | close

/-- What a client is told, with no word of which entry it is about. -/
inductive Reply where
  | warmed (added : Nat)
  | got (found : Bool)
  | enabled (answer : Except Fault Bool)
  | created (answer : Except CreationError Bool)
  | released (answer : Except Fault Bool)
  | removed (done : Bool)
  | closed
  /-- There is no entry at that place, and no call was made. -/
  | nothing
  deriving DecidableEq

structure Client (α : Type) where
  store : Store α
  unused : List EntryId := []
  held : List EntryId := []

/-- Readings of a pool that do not tell its entries apart. -/
structure Reading where
  tally : Tally
  /-- Hits and the number of hints are left out. -/
  metrics : Metrics
  health : Health

namespace Client

/-- An order is carried out as one call by caller `c` on pool `p`. -/
def perform (k : Client α) (p : PoolId) (c : CallerId) : Order α → Reply × Client α
  | .warmup count value =>
    let (added, store) := k.store.fill p count value
    (.warmed added, { k with store })
  | .reserve =>
    let (e?, store) := k.store.reserve p
    (.got e?.isSome, { k with store, unused := k.unused ++ e?.toList })
  | .enable place v acquire =>
    match k.unused[place]? with
    | some e =>
      let (answer, store) := k.store.enable e v acquire
      (.enabled answer, {
        store
        unused := k.unused.erase e
        held := if acquire && answer = .ok true then k.held ++ [e] else k.held })
    | none => (.nothing, k)
  | .discard place =>
    match k.unused[place]? with
    | some e =>
      let (done, store) := k.store.remove p e
      (.removed done, { k with store, unused := k.unused.erase e })
    | none => (.nothing, k)
  | .acquire =>
    let (e?, store) := k.store.acquire p c
    (.got e?.isSome, { k with store, held := k.held ++ e?.toList })
  | .acquireWith creation =>
    let (answer, _, store) :=
      k.store.acquireWith (ρ := Unit) p c fun _ s => (creation, [], s)
    (.created (answer.map Option.isSome), {
      k with store, held := k.held ++ answer.toOption.join.toList })
  | .release place =>
    match k.held[place]? with
    | some e =>
      let (answer, store) := k.store.release p c e
      (.released answer, { k with store, held := k.held.erase e })
    | none => (.nothing, k)
  | .remove place =>
    match k.held[place]? with
    | some e =>
      let (done, store) := k.store.remove p e
      (.removed done, { k with store, held := k.held.erase e })
    | none => (.nothing, k)
  | .close => (.closed, { k with store := (k.store.close p).2 })

def reading (k : Client α) (p : PoolId) : Reading where
  tally := k.store.tally p
  metrics := { k.store.metrics p with hits := 0, cachedCallers := 0 }
  health := k.store.health p

/-- The replies to orders by any callers, each with what the pool reads after it. -/
def trail (k : Client α) (p : PoolId) : List (CallerId × Order α) → List (Reply × Reading)
  | [] => []
  | (c, order) :: orders =>
    let (reply, k) := k.perform p c order
    (reply, k.reading p) :: k.trail p orders

end Client

def Gauge.reading (g : Gauge) : Reading where
  tally := g.tally
  metrics := .gather g.counters g.tally g.limit 0
  health := {
    idle := .ofNat g.tally.idle
    inUse := .ofNat g.tally.inUse
    maxEntries := .ofNat g.limit
    closed := g.closed }

/-- A client that only knows how many entries it has. -/
structure Census where
  gauge : Gauge
  unused : Nat
  held : Nat

namespace Census

/-- The reply to a call on an entry that there is, and `nothing` without one. -/
def placed (n : Census) (place count : Nat) (reply : Reply × Census) : Reply × Census :=
  if place < count then reply else (.nothing, n)

theorem placed_of_lt {place count : Nat} (h : place < count) (n : Census)
    (reply : Reply × Census) : n.placed place count reply = reply :=
  if_pos h

theorem placed_of_getElem?_eq_none {l : List EntryId} {place : Nat} (h : l[place]? = none)
    (n : Census) (reply : Reply × Census) : n.placed place l.length reply = (.nothing, n) :=
  if_neg (Nat.not_lt.mpr (List.getElem?_eq_none_iff.mp h))

def perform (n : Census) : Order α → Reply × Census
  | .warmup count _ =>
    let (added, gauge) := n.gauge.fill count
    (.warmed added, { n with gauge })
  | .reserve =>
    let (found, gauge) := n.gauge.reserve
    (.got found, { n with gauge, unused := n.unused + found.toNat })
  | .enable place _ acquire =>
    let (done, gauge) := n.gauge.enable acquire
    n.placed place n.unused (.enabled (.ok done), {
      gauge, unused := n.unused - 1, held := n.held + (acquire && done).toNat })
  | .discard place =>
    let (done, gauge) := n.gauge.remove .pending
    n.placed place n.unused (.removed done, { n with gauge, unused := n.unused - 1 })
  | .acquire =>
    let (found, gauge) := n.gauge.acquire
    (.got found, { n with gauge, held := n.held + found.toNat })
  | .acquireWith creation =>
    let (answer, gauge) := n.gauge.acquireWith creation
    (.created answer, { n with gauge, held := n.held + (answer.toOption.getD false).toNat })
  | .release place =>
    let (done, gauge) := n.gauge.release
    n.placed place n.held (.released (.ok done), { n with gauge, held := n.held - 1 })
  | .remove place =>
    let (done, gauge) := n.gauge.remove .active
    n.placed place n.held (.removed done, { n with gauge, held := n.held - 1 })
  | .close => (.closed, { n with gauge := n.gauge.close })

def trail (n : Census) : List (Order α) → List (Reply × Reading)
  | [] => []
  | order :: orders =>
    let (reply, n) := n.perform order
    (reply, n.gauge.reading) :: n.trail orders

end Census

end ResourcePool
