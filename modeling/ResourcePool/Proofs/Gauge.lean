import ResourcePool.Proofs.Outcomes
import ResourcePool.Proofs.Steady
import ResourcePool.Proofs.Tally

/-! Gauges: what a pool shows when its entries cannot be told apart. Each call moves the gauge in a way
that neither strategy nor hints have a part in. -/
namespace ResourcePool
open Registry

variable {α : Type}

/-- Hits are left out of the counters. -/
structure Gauge where
  closed : Bool
  limit : Nat
  tally : Tally
  counters : Counters

namespace Gauge

def count (g : Gauge) (f : Counters → Counters) : Gauge :=
  { g with counters := f g.counters }

def isFull (g : Gauge) : Bool :=
  0 < g.limit && g.limit ≤ g.tally.size

/-- A member goes from one state to another. -/
def shift (g : Gauge) (old new : EntryState) : Gauge :=
  { g with tally := (g.tally.drop old).add new }

def reserve (g : Gauge) : Bool × Gauge :=
  if g.closed || g.isFull then
    (false, g.count fun c => { c with rejections := c.rejections + 1 })
  else (true, { g with tally := g.tally.add .pending })

/-- Enables a pending member. -/
def enable (g : Gauge) (acquire : Bool) : Bool × Gauge :=
  if g.closed then (false, g) else (true, g.shift .pending (if acquire then .active else .idle))

def acquire (g : Gauge) : Bool × Gauge :=
  if g.closed then (false, g)
  else if g.tally.idle = 0 then (false, g.count fun c => { c with misses := c.misses + 1 })
  else (true, (g.shift .idle .active).count fun c => { c with acquired := c.acquired + 1 })

/-- Releases an active member. -/
def release (g : Gauge) : Bool × Gauge :=
  if g.closed then (false, g)
  else (true, (g.shift .active .idle).count fun c => { c with released := c.released + 1 })

/-- Removes a member that is in the given state. -/
def remove (g : Gauge) (st : EntryState) : Bool × Gauge :=
  if g.closed then (false, g)
  else (true, { g with tally := g.tally.drop st }.count fun c => { c with removed := c.removed + 1 })

/-- Finishes the creation of a pending member of an open pool. -/
def settle (g : Gauge) : Creation α → Except CreationError Bool × Gauge
  | .value _ =>
    (.ok true, (g.shift .pending .active).count fun c => { c with acquired := c.acquired + 1 })
  | .nothing => (.ok false, (g.remove .pending).2)
  | .refused reason => (.error (.refused reason), (g.remove .pending).2)
  | .panicked => (.error .panicked, g)

def acquireWith (g : Gauge) (creation : Creation α) : Except CreationError Bool × Gauge :=
  match g.acquire with
  | (true, g) => (.ok true, g)
  | (false, g) =>
    match g.reserve with
    | (false, g) => (.ok false, g)
    | (true, g) => g.settle creation

def close (g : Gauge) : Gauge :=
  { g with closed := true, tally := {} }

def fill (g : Gauge) : Nat → Nat × Gauge
  | 0 => (0, g)
  | count + 1 =>
    match g.reserve with
    | (false, g) => (0, g)
    | (true, g) =>
      let (added, g) := (g.enable false).2.fill count
      (added + 1, g)

end Gauge

/-- The gauge of a pool with the given tally. -/
def Pool.gauge (x : Pool α) (t : Tally) : Gauge where
  closed := x.closed
  limit := x.settings.maxEntries
  tally := t
  counters := { x.counters with hits := 0 }

namespace Store

def gauge (s : Store α) (p : PoolId) : Gauge :=
  (s.pool p).gauge (s.tally p)

variable {s t : Store α} {p : PoolId} {e : EntryId}

theorem gauge_eq {x : Pool α} {v : Registry α} (hpool : s.pool p = x) (hr : s.registry = v) :
    s.gauge p = x.gauge (v.tally p) := by
  rw [← hpool, ← hr]
  rfl

theorem isFull_gauge (s : Store α) (p : PoolId) : (s.gauge p).isFull = (s.roster p).isFull := by
  have hsize : (s.tally p).size = (s.members p).length := by
    rw [tally, Tally.size_ofStates, List.length_map]
  change (0 < (s.pool p).settings.maxEntries && (s.pool p).settings.maxEntries ≤ (s.tally p).size) = _
  rw [hsize]
  rfl

theorem gauge_reserve (hs : s.Steady p) :
    ((s.reserve p).1.isSome, (s.reserve p).2.gauge p) = (s.gauge p).reserve := by
  have hpool := pool_reserve hs.known
  have hr := s.registry_reserve p
  have hc : ((s.gauge p).closed || (s.gauge p).isFull) =
      ((s.roster p).closed || (s.roster p).isFull) := by
    rw [isFull_gauge]
    rfl
  change (s.reserve p).2.pool p = if (s.roster p).closed || (s.roster p).isFull then _ else _ at hpool
  rw [s.reserve_fst p, Gauge.reserve, hc]
  split_ifs at hpool hr ⊢
  · rw [gauge_eq hpool hr]
    rfl
  · rw [gauge_eq hpool hr, tally_reserve hs.sound]
    rfl

theorem gauge_enable (hs : s.Steady p) (he : e ∈ s.members p) (hx : s.state e = .pending)
    (hc : (s.pool p).closed = false) (v : α) (acquire : Bool) :
    (s.enable e v acquire).1 = .ok true ∧
      (true, (s.enable e v acquire).2.gauge p) = (s.gauge p).enable acquire := by
  have hg : (s.registry.entry e).Grants (.enable v acquire) := Entry.grants_enable_iff.mpr hx
  have hst : (s.registry.entry e).state = .pending := hx
  obtain ⟨ha, hr⟩ := enable_of_grants hg
  refine ⟨ha, ?_⟩
  rw [gauge_eq (s.pool_enable p e v acquire) hr, tally_grant (hs.sound.nodup p) he hg, hst,
    Gauge.enable, if_neg (by simp [gauge, Pool.gauge, hc])]
  rfl

theorem idle_tally_eq_zero_iff : (s.tally p).idle = 0 ↔ ∀ e ∈ s.members p, s.state e ≠ .idle := by
  change List.count EntryState.idle ((s.members p).map s.state) = 0 ↔ _
  rw [List.count_eq_zero, List.mem_map]
  constructor
  · intro h e he hi
    exact h ⟨e, he, hi⟩
  · rintro h ⟨e, he, hi⟩
    exact h e he hi

/-- Whether an entry is had depends on the tally alone. -/
theorem gauge_acquire (hs : s.Steady p) (c : CallerId) :
    ((s.acquire p c).1.isSome, (s.acquire p c).2.gauge p) = (s.gauge p).acquire := by
  cases hc : (s.pool p).closed with
  | true =>
    rw [acquire_of_closed c hc, Gauge.acquire, if_pos (show (s.gauge p).closed = true from hc)]
    rfl
  | false =>
    rw [Gauge.acquire, if_neg (show ¬ (s.gauge p).closed = true by simp [gauge, Pool.gauge, hc])]
    cases ha : (s.acquire p c).1 with
    | none =>
      have hi : (s.gauge p).tally.idle = 0 := by
        refine idle_tally_eq_zero_iff.mpr fun e he hst => ?_
        have hn : s.isIdle e = false := not_idle_of_acquire_eq_none hc ha he
        have hy : s.isIdle e = true := Entry.isIdle_iff.mpr hst
        exact Bool.false_ne_true (hn.symm.trans hy)
      obtain ⟨turn, hpool⟩ := pool_acquire_of_none hc ha
      rw [if_pos hi, gauge_eq hpool (acquire_of_none ha)]
      rfl
    | some e =>
      obtain ⟨he, hi⟩ := hs.mem_of_acquire ha
      obtain ⟨hg, hr⟩ := acquire_of_some ha
      obtain ⟨turn, hits, hpool⟩ := pool_acquire_of_some ha
      have hst : (s.registry.entry e).state = .idle := hi
      have hn : (s.gauge p).tally.idle ≠ 0 := fun h => idle_tally_eq_zero_iff.mp h e he hi
      rw [if_neg hn, gauge_eq hpool hr, tally_grant (hs.sound.nodup p) he hg, hst]
      rfl

theorem gauge_remember (x : Pool α) (c : CallerId) (e : EntryId) (t : Tally) :
    (x.remember c e).gauge t = x.gauge t := by
  unfold Pool.remember
  split <;> rfl

theorem gauge_release (hs : s.Steady p) (he : e ∈ s.members p) (hx : s.state e = .active)
    (hc : (s.pool p).closed = false) (c : CallerId) :
    (s.release p c e).1 = .ok true ∧
      (true, (s.release p c e).2.gauge p) = (s.gauge p).release := by
  have hg : (s.registry.entry e).Grants .release := Entry.grants_release_iff.mpr hx
  have hst : (s.registry.entry e).state = .active := hx
  obtain ⟨ha, hr⟩ := release_of_grants c hc hg
  refine ⟨ha, ?_⟩
  rw [gauge_eq (pool_release_of_grants c hc hg) hr, gauge_remember,
    tally_grant (hs.sound.nodup p) he hg, hst, Gauge.release,
    if_neg (by simp [gauge, Pool.gauge, hc])]
  rfl

theorem gauge_remove (hs : s.Steady p) (he : e ∈ s.members p) (hc : (s.pool p).closed = false) :
    (s.remove p e).1 = true ∧
      (true, (s.remove p e).2.gauge p) = (s.gauge p).remove (s.state e) := by
  have hg : (s.registry.entry e).Grants .remove := Entry.grants_remove_iff.mpr (hs.live e he)
  obtain ⟨ha, hr⟩ := remove_of_mem hc hg he
  refine ⟨ha, ?_⟩
  rw [gauge_eq (pool_remove_of_mem hc hg he) hr, tally_evict (hs.sound.nodup p) he, Gauge.remove,
    if_neg (by simp [gauge, Pool.gauge, hc])]
  rfl

theorem gauge_settle (hs : s.Steady p) (he : e ∈ s.members p) (hx : s.state e = .pending)
    (hc : (s.pool p).closed = false) (c : CallerId) (creation : Creation α) :
    ((s.settle p c e creation).1.map Option.isSome, (s.settle p c e creation).2.gauge p) =
      (s.gauge p).settle creation := by
  have hst : (s.registry.entry e).state = .pending := hx
  have hremove : (s.remove p e).2.gauge p = ((s.gauge p).remove .pending).2 := by
    have hr := (gauge_remove hs he hc).2
    rw [hx] at hr
    exact congrArg Prod.snd hr
  cases creation with
  | value v =>
    have hg : (s.registry.entry e).Grants (.enable v true) := Entry.grants_enable_iff.mpr hx
    obtain ⟨ha, hr⟩ := settle_of_grants (p := p) (c := c) hg
    rw [ha, gauge_eq (pool_settle_of_grants hs.known c hg) hr,
      tally_grant (hs.sound.nodup p) he hg, hst]
    rfl
  | nothing => exact Prod.ext rfl hremove
  | refused reason => exact Prod.ext rfl hremove
  | panicked => rfl

theorem gauge_close (hs : s.Steady p) : (s.close p).2.gauge p = (s.gauge p).close := by
  rw [gauge_eq (pool_close hs.known) (s.registry_close p), tally_close]
  rfl

/-- A creator that makes no calls, seen from the gauge. -/
theorem gauge_acquireWith (hs : s.Steady p) (c : CallerId) (creation : Creation α) :
    let r := s.acquireWith (ρ := Unit) p c fun _ s => (creation, [], s)
    (r.1.map Option.isSome, r.2.2.gauge p) = (s.gauge p).acquireWith creation ∧ r.2.2.Steady p := by
  have ha := gauge_acquire hs c
  have hsa := hs.acquire c
  unfold Gauge.acquireWith
  rw [← ha]
  obtain ⟨e, t, ht, hw⟩ | ⟨t, ht, ⟨u, hu, hw⟩ | ⟨e, u, hu, hw⟩⟩ :=
    s.acquireWith_cases (ρ := Unit) p c fun _ s => (creation, [], s)
  · rw [hw]
    rw [ht] at hsa ⊢
    exact ⟨rfl, hsa⟩
  · rw [ht] at hsa ⊢
    have hr := gauge_reserve hsa
    have hsr := hsa.reserve
    rw [hu] at hr hsr
    dsimp only [Option.isSome] at hr ⊢
    rw [hw, ← hr]
    exact ⟨rfl, hsr⟩
  · rw [ht] at hsa ⊢
    have hr := gauge_reserve hsa
    have hsr := hsa.reserve
    obtain ⟨hm, hst⟩ := mem_of_reserve (congrArg Prod.fst hu)
    have hc := open_of_reserve (congrArg Prod.fst hu)
    rw [hu] at hr hsr hm hst hc
    dsimp only [Option.isSome] at hr ⊢
    rw [hw, ← hr]
    exact ⟨gauge_settle hsr hm hst hc c creation, hsr.settle c e creation⟩

/-- A warmup whose factory makes no calls, seen from the gauge. -/
theorem gauge_warmup (value : Nat → α) (count call : Nat) {s : Store α} (hs : s.Steady p) :
    let r := warmup (ρ := Unit) p (fun n _ s => (some (value n), [], s)) count call s
    (r.1.added, r.2.2.gauge p) = (s.gauge p).fill count ∧ r.2.2.Steady p := by
  induction count generalizing s call with
  | zero => exact ⟨rfl, hs⟩
  | succ count ih =>
    have hr := gauge_reserve hs
    have hsr := hs.reserve
    unfold warmup Gauge.fill
    rw [← hr]
    cases hy : s.reserve p with
    | mk reserved u =>
      have hfst : (s.reserve p).1 = reserved := congrArg Prod.fst hy
      rw [hy] at hsr
      cases reserved with
      | none => exact ⟨rfl, hsr⟩
      | some e =>
        obtain ⟨hm, hst⟩ := mem_of_reserve hfst
        have hc := open_of_reserve hfst
        rw [hy] at hm hst hc
        obtain ⟨he, hg⟩ := gauge_enable hsr hm hst hc (value call) false
        have hse := hsr.enable e (value call) false
        dsimp only [Option.isSome]
        rw [← hg]
        cases hz : u.enable e (value call) false with
        | mk answer w =>
          rw [hz] at he hse
          obtain rfl : answer = .ok true := he
          obtain ⟨hw, hsw⟩ := ih (call + 1) hse
          dsimp only at hw hsw ⊢
          rw [← hw]
          exact ⟨rfl, hsw⟩

end Store

end ResourcePool
