import ResourcePool.Proofs.Orderly
import ResourcePool.Proofs.Outcomes

/-! Shutdown: a closed pool never opens again. It answers every call in the negative, and nothing of it
changes any more but the number of reservations that it refused. -/
namespace ResourcePool
open Registry

variable {α : Type}

/-- A pool that was closed. -/
structure Store.Shut (s : Store α) (p : PoolId) : Prop where
  known : p < s.pools.size
  sound : s.registry.Sound
  closed : (s.pool p).closed = true
  forgotten : (s.pool p).hints = {}

/-- A pool after so many more reservations that it refused. -/
def Pool.refusing (x : Pool α) (n : Nat) : Pool α :=
  x.count fun k => { k with rejections := k.rejections + n }

/-- Whether a call is a reservation on the pool. -/
def Call.isReservation (p : PoolId) : Call α → Bool
  | reserve q => q == p
  | _ => false

/-- How a creation ends on a pool that has no use for it. -/
def Creation.declined : Creation α → Except CreationError (Option EntryId)
  | .value _ | .nothing => .ok none
  | .refused reason => .error (.refused reason)
  | .panicked => .error .panicked

/-- The answers of a pool that takes part in nothing any more, also to creations and warmups that began
before. No entry is changed by any of them. -/
structure Store.Declines (s : Store α) (p : PoolId) : Prop where
  reserve : (s.reserve p).1 = none ∧ (s.reserve p).2.entries = s.entries ∧
    (s.reserve p).2.pool p = (s.pool p).refusing 1
  acquire : ∀ direct c, s.trackedAcquire direct p c = (none, s)
  lease : ∀ direct c name, s.lease direct p c name = (none, s)
  release : ∀ direct c e, (s.trackedRelease direct p c e).1 = .ok false ∧
    (s.trackedRelease direct p c e).2.entries = s.entries
  remove : ∀ direct e, (s.trackedRemove direct p e).1 = false ∧
    (s.trackedRemove direct p e).2.entries = s.entries
  acquireWith : ∀ {ρ : Type} direct c
    (creator : EntryId → Store α → Creation α × List ρ × Store α),
    s.trackedAcquireWith direct p c creator = (.ok none, [], (s.reserve p).2)
  warmup : ∀ {ρ : Type} (factory : Nat → EntryId → Store α → Option α × List ρ × Store α) count call,
    Store.warmup p factory count call s = ({}, [], if count = 0 then s else (s.reserve p).2)
  settle : ∀ e ∈ s.reservations p, ∀ c creation, s.settle p c e creation = (creation.declined, s)
  enable : ∀ e ∈ s.reservations p, ∀ v atOnce, s.enable e v atOnce = (.ok false, s)
  close : s.close p = ([], s)
  begunCreation : ∀ {ρ : Type} {e} (_ : e ∈ s.reservations p) (u v w : Store α) direct c
    (creator : EntryId → Store α → Creation α × List ρ × Store α), u.acquire p c = (none, v) →
    v.reserve p = (some e, w) → (creator e w).2.2 = s → u.trackedAcquireWith direct p c creator =
      ((creator e w).1.declined, (creator e w).2.1, s)
  begunWarmup : ∀ {ρ : Type} {e} (_ : e ∈ s.reservations p) (u w : Store α)
    (factory : Nat → EntryId → Store α → Option α × List ρ × Store α) call v (reports : List ρ) count,
    u.reserve p = (some e, w) → factory call e w = (some v, reports, s) →
    Store.warmup p factory (count + 1) call u = ({ calls := 1 }, reports, s)

namespace Store

variable {s t : Store α} {p : PoolId} {e : EntryId}

theorem modifyPool_eq_self {f : Pool α → Pool α} (h : f (s.pool p) = s.pool p) :
    s.modifyPool p f = s := by
  have hpools : s.pools.modify p f = s.pools := by
    refine Array.ext Array.size_modify fun i hi hi' => ?_
    rw [Array.getElem_modify]
    split_ifs with hp
    · subst hp
      have hpool : s.pool p = s.pools[p] := by simp [pool, hi']
      rw [← hpool, h]
    · rfl
  simp only [modifyPool, hpools]

theorem entries_observeRelease (s : Store α) (p : PoolId) (e : EntryId) :
    (s.observeRelease p e).entries = s.entries := by
  unfold observeRelease
  split
  · rfl
  · split <;> rfl

theorem entries_observeRemoval (s : Store α) (p : PoolId) (e : EntryId) :
    (s.observeRemoval p e).entries = s.entries := by
  unfold observeRemoval
  split
  · rfl
  · split <;> rfl

namespace Shut

theorem members (hs : s.Shut p) : s.members p = [] :=
  hs.sound.emptied p hs.closed

/-- All entries of a closed pool are closed. -/
theorem ended (hs : s.Shut p) (he : e ∈ s.reservations p) : s.state e = .closed :=
  hs.sound.state_of_closed hs.closed he

/-- Closing a pool shuts it. -/
theorem of_close (hs : s.registry.Sound) (hp : p < s.pools.size) : (s.close p).2.Shut p where
  known := (s.size_close p).symm ▸ hp
  sound := Call.sound_apply hs (.close p)
  closed := by rw [pool_close hp]
  forgotten := by rw [pool_close hp]

theorem alike (hs : s.Shut p) (h : s.Alike t) : t.Shut p where
  known := h.known.symm ▸ hs.known
  sound := h.registry ▸ hs.sound
  closed := (congrArg Pool.closed (h.pool p)).trans hs.closed
  forgotten := (congrArg Pool.hints (h.pool p)).trans hs.forgotten

theorem reserve (hs : s.Shut p) : (s.reserve p).1 = none ∧ (s.reserve p).2.entries = s.entries ∧
    (s.reserve p).2.pool p = (s.pool p).refusing 1 := by
  have hfull : ((s.pool p).closed || (s.pool p).isFull) = true := by simp [hs.closed]
  refine ⟨?_, ?_, ?_⟩
  · rw [s.reserve_fst p]
    exact if_pos hfull
  · unfold Store.reserve
    rw [if_pos hfull]
    rfl
  · rw [pool_reserve hs.known, if_pos hfull]
    rfl

/-- A closed entry takes no value any more. -/
theorem enable (hs : s.Shut p) (he : e ∈ s.reservations p) (v : α) (atOnce : Bool) :
    s.enable e v atOnce = (.ok false, s) :=
  enable_of_closed (hs.ended he) v atOnce

theorem settle (hs : s.Shut p) (he : e ∈ s.reservations p) (c : CallerId)
    (creation : Creation α) : s.settle p c e creation = (creation.declined, s) := by
  cases creation with
  | value v => exact settle_of_closed (hs.ended he) v
  | nothing => simp [Store.settle, remove_of_closed e hs.closed, Creation.declined]
  | refused reason => simp [Store.settle, remove_of_closed e hs.closed, Creation.declined]
  | panicked => rfl

theorem close (hs : s.Shut p) : s.close p = ([], s) := by
  have hm := hs.members
  have hsame : s.modifyPool p (fun pool => { pool with closed := true, members := [], hints := {} }) =
      s := by
    refine modifyPool_eq_self ?_
    rw [← hs.closed, ← hm, ← hs.forgotten]
    rfl
  unfold Store.close
  dsimp only
  rw [hm, hsame]
  rfl

theorem acquire (hs : s.Shut p) (direct : Bool) (c : CallerId) :
    s.trackedAcquire direct p c = (none, s) := by
  unfold trackedAcquire
  rw [acquire_of_closed c hs.closed]

theorem release (hs : s.Shut p) (direct : Bool) (c : CallerId) (e : EntryId) :
    (s.trackedRelease direct p c e).1 = .ok false ∧
      (s.trackedRelease direct p c e).2.entries = s.entries := by
  unfold trackedRelease
  cases direct with
  | true =>
    have hr := release_of_closed c e hs.closed
    exact ⟨congrArg Prod.fst hr, congrArg (fun x => x.2.entries) hr⟩
  | false =>
    have hr := release_of_closed c e (hs.alike (s.alike_observeRelease p e)).closed
    refine ⟨congrArg Prod.fst hr, ?_⟩
    exact (congrArg (fun x => x.2.entries) hr).trans (s.entries_observeRelease p e)

theorem remove (hs : s.Shut p) (direct : Bool) (e : EntryId) :
    (s.trackedRemove direct p e).1 = false ∧
      (s.trackedRemove direct p e).2.entries = s.entries := by
  unfold trackedRemove
  cases direct with
  | true =>
    have hr := remove_of_closed e hs.closed
    exact ⟨congrArg Prod.fst hr, congrArg (fun x => x.2.entries) hr⟩
  | false =>
    have hr := remove_of_closed e (hs.alike (s.alike_observeRemoval p e)).closed
    refine ⟨congrArg Prod.fst hr, ?_⟩
    exact (congrArg (fun x => x.2.entries) hr).trans (s.entries_observeRemoval p e)

/-- An `acquireWith` comes to a refused reservation and never calls its creator. -/
theorem acquireWith {ρ : Type} (hs : s.Shut p) (direct : Bool) (c : CallerId)
    (creator : EntryId → Store α → Creation α × List ρ × Store α) :
    s.trackedAcquireWith direct p c creator = (.ok none, [], (s.reserve p).2) := by
  have hr : s.reserve p = (none, (s.reserve p).2) := Prod.ext hs.reserve.1 rfl
  have hw : s.acquireWith p c creator = (.ok none, [], (s.reserve p).2) := by
    unfold Store.acquireWith
    rw [acquire_of_closed c hs.closed]
    dsimp only
    rw [hr]
  unfold trackedAcquireWith
  rw [hw]

theorem warmup {ρ : Type} (hs : s.Shut p)
    (factory : Nat → EntryId → Store α → Option α × List ρ × Store α) (count call : Nat) :
    Store.warmup p factory count call s = ({}, [], if count = 0 then s else (s.reserve p).2) := by
  have hr : s.reserve p = (none, (s.reserve p).2) := Prod.ext hs.reserve.1 rfl
  cases count with
  | zero => rfl
  | succ count =>
    unfold Store.warmup
    rw [hr]
    rfl

/-- A creation that began before the pool was closed leaves the store as its creator does. -/
theorem acquireWith_of_creator {ρ : Type} (hs : s.Shut p) (he : e ∈ s.reservations p) {u v w : Store α}
    (direct : Bool) (c : CallerId) {creator : EntryId → Store α → Creation α × List ρ × Store α}
    (ha : u.acquire p c = (none, v)) (hr : v.reserve p = (some e, w))
    (hc : (creator e w).2.2 = s) : u.trackedAcquireWith direct p c creator =
      ((creator e w).1.declined, (creator e w).2.1, s) := by
  have hw : u.acquireWith p c creator = ((creator e w).1.declined, (creator e w).2.1, s) := by
    have hanswer : creator e w = ((creator e w).1, (creator e w).2.1, s) := by rw [← hc]
    rw [Store.acquireWith_of_creator ha hr hanswer, hs.settle he]
  unfold trackedAcquireWith
  rw [hw]
  cases (creator e w).1 <;> rfl

/-- So does a warmup, which adds no more entries. -/
theorem warmup_of_factory {ρ : Type} (hs : s.Shut p) (he : e ∈ s.reservations p) {u w : Store α}
    {factory : Nat → EntryId → Store α → Option α × List ρ × Store α} {call : Nat} {v : α}
    {reports : List ρ} (count : Nat) (hr : u.reserve p = (some e, w))
    (hf : factory call e w = (some v, reports, s)) :
    Store.warmup p factory (count + 1) call u = ({ calls := 1 }, reports, s) := by
  unfold Store.warmup
  rw [hr]
  dsimp only
  rw [hf]
  dsimp only
  rw [hs.enable he]

theorem declines (hs : s.Shut p) : s.Declines p where
  reserve := hs.reserve
  acquire := hs.acquire
  lease direct c name := by
    unfold Store.lease
    rw [hs.acquire]
  release := hs.release
  remove := hs.remove
  acquireWith := hs.acquireWith
  warmup := hs.warmup
  settle _ he := hs.settle he
  enable _ he := hs.enable he
  close := hs.close
  begunCreation he _ _ _ direct c _ := hs.acquireWith_of_creator he direct c
  begunWarmup he _ _ _ _ _ _ count := hs.warmup_of_factory he count

/-- No call but a refused reservation leaves a mark on a closed pool. -/
theorem apply (hs : s.Shut p) {c : Call α} (fulfils : c.FulfilsOwn s) : (c.apply s).Shut p ∧
    (c.apply s).pool p = (s.pool p).refusing (if c.isReservation p then 1 else 0) := by
  have hpool : (c.apply s).pool p =
      (s.pool p).refusing (if c.isReservation p then 1 else 0) := by
    by_cases hp : c.site? s = some p
    · cases c with
      | enable => simp [Call.site?] at hp
      | create name settings detector? =>
        exact absurd (Option.some.inj hp) (Nat.ne_of_gt hs.known)
      | reserve q =>
        obtain rfl := Option.some.inj hp
        rw [Call.isReservation, if_pos (beq_self_eq_true q)]
        exact hs.reserve.2.2
      | acquire q c =>
        obtain rfl := Option.some.inj hp
        exact congrArg (fun x => x.2.pool q) (acquire_of_closed c hs.closed)
      | fulfil q c e v =>
        obtain rfl := Option.some.inj hp
        exact congrArg (fun x => x.2.pool q) (hs.settle fulfils c (.value v))
      | release q c e =>
        obtain rfl := Option.some.inj hp
        exact congrArg (fun x => x.2.pool q) (release_of_closed c e hs.closed)
      | remove q e =>
        obtain rfl := Option.some.inj hp
        exact congrArg (fun x => x.2.pool q) (remove_of_closed e hs.closed)
      | close q =>
        obtain rfl := Option.some.inj hp
        exact congrArg (fun x => x.2.pool q) hs.close
    · have hnot : c.isReservation p = false := by
        cases c with
        | reserve q => exact beq_eq_false_iff_ne.mpr fun hq => hp (congrArg some hq)
        | _ => rfl
      rw [Call.pool_apply_of_ne hp, hnot]
      rfl
  refine ⟨⟨?_, Call.sound_apply hs.sound c, ?_, ?_⟩, hpool⟩
  · exact Nat.lt_of_lt_of_le hs.known (c.size_apply s)
  · rw [hpool]
    exact hs.closed
  · rw [hpool]
    exact hs.forgotten

end Shut

end Store

/-- Along calls, a closed pool counts the reservations that it refuses and is the same otherwise. -/
theorem Trace.shut {s t : Store α} {calls : List (Called α)} {p : PoolId} (h : Trace s calls t)
    (hs : s.Shut p) (fulfils : ∀ x ∈ calls, x.2.FulfilsOwn x.1) : t.Shut p ∧
      (t.pool p).bare = ((s.pool p).refusing (calls.countP fun x => x.2.isReservation p)).bare := by
  induction h with
  | start => exact ⟨hs, rfl⟩
  | aside _ same ih =>
    obtain ⟨ht, hpool⟩ := ih fulfils
    exact ⟨ht.alike same, (same.pool p).trans hpool⟩
  | @call calls u _ c ih =>
    obtain ⟨hu, hpool⟩ := ih fun x hx => fulfils x (List.mem_append_left _ hx)
    have hlast : (u, c) ∈ calls ++ [(u, c)] := List.mem_append_right _ (List.mem_singleton_self _)
    obtain ⟨ht, hstep⟩ := hu.apply (fulfils _ hlast)
    refine ⟨ht, ?_⟩
    have hbare : ((c.apply u).pool p).bare =
        ((u.pool p).bare.refusing (if c.isReservation p then 1 else 0)) := congrArg Pool.bare hstep
    rw [hbare, hpool, List.countP_append, List.countP_singleton]
    simp only [Pool.bare, Pool.refusing, Pool.count, Nat.add_assoc]

/-- Once closed, a pool stays closed and empty, without hints, whatever is called from then on, also when it was
closed while creations or warmups were under way. Nothing of it changes but the number of reservations that
it refused, which counts each of them. It answers in the negative, and none of its answers changes an entry. -/
theorem closed_for_good {allowed allowed' : Store α → Move α → Prop} {draws : List Nat} {s t : Store α}
    {calls : List (Called α)} {p : PoolId} (h : Run allowed (.blank draws) s)
    (hp : p < s.pools.size) (h' : History allowed' (s.close p).2 calls t) :
    ((t.pool p).closed = true ∧ t.members p = [] ∧ (t.pool p).hints = {}) ∧
    (t.pool p).bare =
      (((s.close p).2.pool p).refusing (calls.countP fun x => x.2.isReservation p)).bare ∧
    t.Declines p := by
  have hs : (s.close p).2.Shut p := .of_close h.sound hp
  obtain ⟨ht, hpool⟩ := h'.trace.shut hs h'.fulfilsOwn
  exact ⟨⟨ht.closed, ht.members, ht.forgotten⟩, hpool, ht.declines⟩

/-- A pool with a cache is closed by the creator of an `acquireWith`, while one of its entries is in use. -/
theorem closed_for_good_in_creation :
    let before : List (Move Nat) := [.create "p" { cached := true } none, .reserve 0,
      .enable 0 7 false, .acquire true 0 1, .release true 0 1 0, .acquire true 0 2,
      .acquire true 0 1, .reserve 0]
    let after : List (Move Nat) := [.settle true 0 1 1 (.value 8), .reserve 0, .release true 0 2 0,
      .close 0, .acquire true 0 1, .reserve 0]
    let s := before.foldl Move.apply (.blank [])
    let t := after.foldl Move.apply (s.close 0).2
    Run free (.blank []) s ∧ 0 < s.pools.size ∧ s.state 0 = .active ∧ s.state 1 = .pending ∧
      History free (s.close 0).2 (Move.trail (s.close 0).2 after) t ∧
      (t.pool 0).counters = { acquired := 2, released := 1, hits := 0, misses := 1, rejections := 2 } ∧
      t.settle 0 1 1 (.value 9) = (.ok none, t) := by
  intro before after s t
  have hs : Run free (.blank []) s := Run.foldl _ _ (by simp [before, Move.Proper])
  have hp : 0 < s.pools.size := by decide +kernel
  have ht : History free (s.close 0).2 (Move.trail (s.close 0).2 after) t :=
    .of_moves _ after (by decide +kernel)
  obtain ⟨-, -, hno⟩ := closed_for_good hs hp ht
  exact ⟨hs, hp, by decide +kernel, by decide +kernel, ht, by decide +kernel,
    hno.settle 1 (by decide +kernel) 1 (.value 9)⟩

end ResourcePool
