import ResourcePool.Proofs.Blur
import ResourcePool.Proofs.Creation
import ResourcePool.Proofs.Shutdown

/-!
Warmups. A factory that only makes values fills the room there is and nothing else changes; one that makes calls
of its own may cut the warmup short, but leaves no entry of it pending.
-/
namespace ResourcePool
open Registry

variable {α ρ : Type}

/-! ### Factories that only make values -/

namespace Pool

variable {x y : Pool α}

/-- How many of so many entries a pool takes. -/
def room (x : Pool α) (count : Nat) : Nat :=
  if x.closed then 0
  else if x.settings.maxEntries = 0 then count
  else min count (x.settings.maxEntries - x.members.length)

theorem room_of_refusing (h : (x.closed || x.isFull) = true) (count : Nat) : x.room count = 0 := by
  unfold room
  split_ifs with hc hm
  · rfl
  · simp [isFull, hc, hm] at h
  · have hfull : x.isFull = true := by simpa [hc] using h
    simp only [isFull, Bool.and_eq_true, decide_eq_true_eq] at hfull
    omega

/-- One entry more in the list leaves room for one less. -/
theorem room_succ (h : (x.closed || x.isFull) = false) (hclosed : y.closed = x.closed)
    (hmax : y.settings.maxEntries = x.settings.maxEntries) (hlen : y.members.length = x.members.length + 1)
    (count : Nat) : x.room (count + 1) = y.room count + 1 := by
  obtain ⟨hc, hfull⟩ := Bool.or_eq_false_iff.mp h
  simp only [isFull, Bool.and_eq_false_iff, decide_eq_false_iff_not] at hfull
  simp only [room, hclosed, hc, hmax, hlen, Bool.false_eq_true, if_false]
  split_ifs <;> omega

end Pool

namespace Store

/-- The events of a warmup: entries with these values reserved and enabled in turn, and then the refusals. -/
def arrivals (p : PoolId) (first : EntryId) (values : List α) (refusals : Nat) : List (Event α) :=
  (values.zipIdx first).flatMap (fun (v, e) => [.reserved p e, .enabled e v false]) ++
    List.replicate refusals (.rejected p)

/-- The store with idle entries of these values at the end of a pool's list, and with so many refusals more. -/
def filled (s : Store α) (p : PoolId) (values : List α) (refusals : Nat) : Store α :=
  { s.modifyPool p (fun x => { x with
      members := x.members ++ List.range' s.entries.size values.length
      counters := { x.counters with rejections := x.counters.rejections + refusals } }) with
    entries := s.entries ++ (values.map Entry.idle).toArray
    journal := { s.journal with
      events := s.journal.events ++ (arrivals p s.entries.size values refusals).toArray } }

variable {s t u : Store α} {p : PoolId} {e : EntryId}

theorem filled_nil (s : Store α) (p : PoolId) : s.filled p [] 0 = s := by
  have hsame : s.modifyPool p (fun x => { x with
      members := x.members ++ List.range' s.entries.size 0
      counters := { x.counters with rejections := x.counters.rejections + 0 } }) = s :=
    modifyPool_eq_self (by simp)
  unfold filled
  rw [List.length_nil, hsame]
  simp [arrivals]

/-- A refusal and nothing else. -/
theorem filled_refused (s : Store α) (p : PoolId) : s.filled p [] 1 =
    { s.count p (fun k => { k with rejections := k.rejections + 1 }) with
      journal := s.journal.record (.rejected p) } := by
  have hsame : s.modifyPool p (fun x => { x with
      members := x.members ++ List.range' s.entries.size 0
      counters := { x.counters with rejections := x.counters.rejections + 1 } }) =
      s.count p (fun k => { k with rejections := k.rejections + 1 }) :=
    modifyPool_congr (by simp [Pool.count])
  unfold filled
  rw [List.length_nil, hsame]
  simp [arrivals, Journal.record]
  rfl

/-- Values that come one after the other. -/
theorem filled_filled (s : Store α) (p : PoolId) (v : α) (values : List α) (refusals : Nat) :
    (s.filled p [v] 0).filled p values refusals = s.filled p (v :: values) refusals := by
  have hsize : (s.filled p [v] 0).entries.size = s.entries.size + 1 := by simp [filled]
  have hpools : ((s.filled p [v] 0).filled p values refusals).pools =
      (s.filled p (v :: values) refusals).pools := by
    have htwice := s.modifyPool_modifyPool p
      (fun x => { x with
        members := x.members ++ List.range' s.entries.size 1
        counters := { x.counters with rejections := x.counters.rejections + 0 } })
      fun x => { x with
        members := x.members ++ List.range' (s.entries.size + 1) values.length
        counters := { x.counters with rejections := x.counters.rejections + refusals } }
    rw [filled, hsize]
    refine (congrArg Store.pools htwice).trans ?_
    simp [filled, modifyPool, List.range'_succ]
  have hentries : ((s.filled p [v] 0).filled p values refusals).entries =
      (s.filled p (v :: values) refusals).entries := by
    simp [filled]
  have hjournal : ((s.filled p [v] 0).filled p values refusals).journal =
      (s.filled p (v :: values) refusals).journal := by
    rw [filled, hsize]
    simp [filled, arrivals]
  calc (s.filled p [v] 0).filled p values refusals
      = { s with
          entries := ((s.filled p [v] 0).filled p values refusals).entries
          pools := ((s.filled p [v] 0).filled p values refusals).pools
          journal := ((s.filled p [v] 0).filled p values refusals).journal } := rfl
    _ = s.filled p (v :: values) refusals := by
        rw [hpools, hentries, hjournal]
        rfl

/-- An entry that is reserved and given its value. -/
theorem filled_one (h : t.reserve p = (some e, u)) (v : α) :
    u.enable e v false = (.ok true, t.filled p [v] 0) := by
  obtain ⟨rfl, rfl⟩ := eq_of_reserve_eq_some h
  have hentry : ({ t.modifyPool p (fun x => { x with members := x.members ++ [t.entries.size] }) with
      entries := t.entries.push .pending
      journal := t.journal.record (.reserved p t.entries.size) } : Store α).entry t.entries.size = .pending :=
    (congrFun (t.entry_push .pending) _).trans (Function.update_self ..)
  have hevents : ∀ (xs : Array (Event α)) x y, (xs.push x).push y = xs ++ #[x, y] := by
    intro xs x y
    exact Array.toList_inj.mp (by simp)
  unfold enable
  rw [hentry]
  refine Prod.ext rfl ?_
  simp [filled, arrivals, Entry.enable, setEntry, note, Journal.record, modifyPool, Array.setIfInBounds,
    Array.set_push, hevents]

/-- Without room a reservation is refused. -/
theorem reserve_of_refusing (h : ((s.pool p).closed || (s.pool p).isFull) = true) :
    s.reserve p = (none, s.filled p [] 1) := by
  have hfst : (s.reserve p).1 = none := (s.reserve_fst p).trans (if_pos h)
  exact Prod.ext hfst ((eq_of_reserve_eq_none hfst).trans (s.filled_refused p).symm)

/-- A factory that only makes values fills the room that there is. -/
theorem warmup_of_values (p : PoolId) (value : Nat → α) (report : Nat → EntryId → List ρ) (count call : Nat)
    (s : Store α) : warmup p (fun n e u => (some (value n), report n e, u)) count call s =
      ({ added := (s.pool p).room count, calls := (s.pool p).room count },
        (List.range ((s.pool p).room count)).flatMap fun k => report (call + k) (s.entries.size + k),
        s.filled p ((List.range ((s.pool p).room count)).map fun k => value (call + k))
          (if (s.pool p).room count < count then 1 else 0)) := by
  induction count generalizing call s with
  | zero =>
    have hroom : (s.pool p).room 0 = 0 := by simp [Pool.room]
    rw [warmup, hroom]
    exact Prod.ext rfl (Prod.ext rfl (s.filled_nil p).symm)
  | succ count ih =>
    rw [warmup]
    by_cases h : ((s.pool p).closed || (s.pool p).isFull) = true
    · rw [reserve_of_refusing h, Pool.room_of_refusing h, if_pos (Nat.succ_pos count)]
      rfl
    · have hfst : (s.reserve p).1 = some s.entries.size := (s.reserve_fst p).trans (if_neg h)
      have hr : s.reserve p = (some s.entries.size, (s.reserve p).2) := Prod.ext hfst rfl
      let t := s.filled p [value call] 0
      rw [Bool.not_eq_true] at h
      have hp : p < s.pools.size := lt_size_of_open (Bool.or_eq_false_iff.mp h).1
      have hpool : t.pool p = _ := pool_modifyPool_self hp _
      have hsize : t.entries.size = s.entries.size + 1 := by simp [t, filled]
      have hroom : (s.pool p).room (count + 1) = (t.pool p).room count + 1 :=
        Pool.room_succ h (by rw [hpool]) (by rw [hpool]) (by rw [hpool]; simp) count
      rw [hr]
      dsimp only
      rw [filled_one hr]
      dsimp only
      rw [ih (call + 1) t, hroom, hsize, filled_filled]
      -- The calls that are left are numbered from the next one on, and so are their entries.
      have hnext : ∀ a k, a + 1 + k = a + (k + 1) := fun a k => by omega
      simp only [hnext, List.range_succ_eq_map, List.map_cons, List.flatMap_cons, List.map_map,
        List.flatMap_map, Nat.add_zero, Nat.add_lt_add_iff_right]
      rfl

end Store

/-! ### Factories that make calls -/

/-- A factory that reports, each time it is asked, the number of the call and the entry and store it was given. -/
def noting (factory : Nat → EntryId → Store α → Option α × List ρ × Store α) (n : Nat) (e : EntryId)
    (u : Store α) : Option α × List (Nat × EntryId × Store α) × Store α :=
  ((factory n e u).1, [(n, e, u)], (factory n e u).2.2)

/-- How a warmup of `count` entries ends whose factory never panics. The factory was asked, each time for an entry
reserved just before, at most once more than entries were added, and none of these entries is pending. -/
structure Store.Warmed (s : Store α) (p : PoolId) (count : Nat) (w : Warmup)
    (asked : List (Nat × EntryId × Store α)) (t : Store α) : Prop where
  calm : w.panicked = false
  within : w.added ≤ count
  added : w.added ≤ w.calls
  last : w.calls ≤ w.added + 1
  length : asked.length = w.calls
  run : Run free s t
  reserved : ∀ n e u, (n, e, u) ∈ asked → ∃ r, Run free s r ∧ r.reserve p = (some e, u)
  settled : ∀ n e u, (n, e, u) ∈ asked → e ∈ t.reservations p ∧ t.state e ≠ .pending

namespace Store

variable {s t u w : Store α} {p : PoolId} {e : EntryId} {count call : Nat}
  {asked : List (Nat × EntryId × Store α)}
  {factory : Nat → EntryId → Store α → Option α × List ρ × Store α}

/-- No entry is pending after it was asked to take a value. -/
theorem state_enable_ne_pending (s : Store α) (e : EntryId) (v : α) (atOnce : Bool) :
    (s.enable e v atOnce).2.state e ≠ .pending := by
  by_cases hg : (s.entry e).Grants (.enable v atOnce)
  · have hstate : (s.enable e v atOnce).2.state e = _ :=
      (congrArg (fun v : Registry α => (v.entry e).state) (enable_of_grants hg).2).trans
        ((congrArg Entry.state (grant_entry_self ..)).trans (Entry.state_answer hg))
    rw [hstate]
    cases atOnce <;> simp [Entry.Request.target]
  · rw [(enable_of_not_grants hg).2]
    exact mt Entry.grants_enable_iff.mpr hg

/-- What one call of the factory leaves: its entry is reserved, and not pending whatever the call did to it. -/
theorem settled_of_call (hr : s.reserve p = (some e, u)) (hw : Run free u w) (v : α)
    (h : Run free (w.enable e v false).2 t) : e ∈ t.reservations p ∧ t.state e ≠ .pending := by
  have hrun : Run free u (w.enable e v false).2 := hw.step (.enable e v false) trivial trivial
  have hreserved : e ∈ u.reservations p := by
    have hmem := Run.mem_reservations_of_reserve (congrArg Prod.fst hr)
    rwa [hr] at hmem
  have hknown : e < u.entries.size := by
    obtain ⟨rfl, rfl⟩ := eq_of_reserve_eq_some hr
    simp
  have hsize : u.entries.size ≤ (w.enable e v false).2.entries.size := hrun.path.extends.size
  refine ⟨(hrun.trans h).mem_reservations hreserved, ?_⟩
  exact h.path.extends.enabled e (Nat.lt_of_lt_of_le hknown hsize) (state_enable_ne_pending w e v false)

namespace Warmed

theorem refused (s : Store α) (p : PoolId) (count : Nat) : s.Warmed p count {} [] (s.reserve p).2 where
  calm := rfl
  within := Nat.zero_le count
  added := Nat.le_refl 0
  last := Nat.zero_le 1
  length := rfl
  run := .one (.reserve p) trivial trivial
  reserved _ _ _ h := absurd h List.not_mem_nil
  settled _ _ _ h := absurd h List.not_mem_nil

/-- The call after which the warmup stops, since its entry was closed or enabled before. -/
theorem stop (hr : s.reserve p = (some e, u)) (hw : Run free u w) (v : α) (count : Nat) :
    s.Warmed p count { calls := 1 } [(call, e, u)] (w.enable e v false).2 where
  calm := rfl
  within := Nat.zero_le count
  added := Nat.zero_le 1
  last := Nat.le_refl 1
  length := rfl
  run := by
    have hu : Run free s (s.reserve p).2 := .one (.reserve p) trivial trivial
    rw [hr] at hu
    exact (hu.trans hw).step (.enable e v false) trivial trivial
  reserved n i r h := by
    obtain ⟨rfl, rfl, rfl⟩ : n = call ∧ i = e ∧ r = u := by simpa using h
    exact ⟨s, .refl, hr⟩
  settled n i r h := by
    obtain ⟨rfl, rfl, rfl⟩ : n = call ∧ i = e ∧ r = u := by simpa using h
    exact settled_of_call hr hw v .refl

/-- A call that added its entry, before the rest of the warmup. -/
theorem cons {x : Warmup} (hr : s.reserve p = (some e, u)) (hw : Run free u w) (v : α)
    (rest : (w.enable e v false).2.Warmed p count x asked t) :
    s.Warmed p (count + 1) { x with added := x.added + 1, calls := x.calls + 1 } ((call, e, u) :: asked) t := by
  have hu : Run free s (s.reserve p).2 := .one (.reserve p) trivial trivial
  rw [hr] at hu
  have hstep : Run free s (w.enable e v false).2 := (hu.trans hw).step (.enable e v false) trivial trivial
  refine ⟨rest.calm, Nat.succ_le_succ rest.within, Nat.succ_le_succ rest.added, Nat.succ_le_succ rest.last,
    congrArg Nat.succ rest.length, hstep.trans rest.run, fun n i r h => ?_, fun n i r h => ?_⟩
  · rcases List.mem_cons.mp h with heq | h
    · obtain ⟨rfl, rfl, rfl⟩ : n = call ∧ i = e ∧ r = u := by simpa using heq
      exact ⟨s, .refl, hr⟩
    · obtain ⟨y, hy, hreserve⟩ := rest.reserved n i r h
      exact ⟨y, hstep.trans hy, hreserve⟩
  · rcases List.mem_cons.mp h with heq | h
    · obtain ⟨rfl, rfl, rfl⟩ : n = call ∧ i = e ∧ r = u := by simpa using heq
      exact settled_of_call hr hw v rest.run
    · exact rest.settled n i r h

end Warmed

/-- A warmup whose factory never panics, and otherwise does what it likes. -/
theorem warmed (s : Store α) (count call : Nat)
    (calm : ∀ n e u, (n, e, u) ∈ (warmup p (noting factory) count call s).2.1 →
      (factory n e u).1 ≠ none ∧ Run free u (factory n e u).2.2) :
    s.Warmed p count (warmup p (noting factory) count call s).1 (warmup p (noting factory) count call s).2.1
      (warmup p (noting factory) count call s).2.2 := by
  induction count generalizing call s with
  | zero => exact ⟨rfl, Nat.le_refl 0, Nat.le_refl 0, Nat.zero_le 1, rfl, .refl,
      fun _ _ _ h => absurd h List.not_mem_nil, fun _ _ _ h => absurd h List.not_mem_nil⟩
  | succ count ih =>
    rw [warmup] at calm ⊢
    rcases hr : s.reserve p with ⟨_ | e, u⟩
    · have hrefused := Warmed.refused s p (count + 1)
      rwa [hr] at hrefused
    rw [hr] at calm
    rcases hf : factory call e u with ⟨v?, reports, w⟩
    have hn : noting factory call e u = (v?, [(call, e, u)], w) := by simp [noting, hf]
    dsimp only at calm ⊢
    rw [hn] at calm ⊢
    cases v? with
    | none => exact absurd (congrArg Prod.fst hf) (calm call e u (List.mem_singleton_self _)).1
    | some v =>
      dsimp only at calm ⊢
      rcases he : w.enable e v false with ⟨answer, t⟩
      have ht : t = (w.enable e v false).2 := by rw [he]
      rw [he] at calm
      rcases answer with f | _ | _
      · have hw := (calm call e u (List.mem_singleton_self _)).2
        rw [hf] at hw
        exact ht ▸ .stop hr hw v _
      · have hw := (calm call e u (List.mem_singleton_self _)).2
        rw [hf] at hw
        exact ht ▸ .stop hr hw v _
      · have hw := (calm call e u List.mem_cons_self).2
        rw [hf] at hw
        have hrest := ih t (call + 1) fun n i r h => calm n i r (List.mem_cons_of_mem _ h)
        exact .cons hr hw v (ht ▸ hrest)

end Store

/--
A warmup whose factory only makes values adds as many of `count` entries as there is room for, none to a closed
pool: idle ones at the end of the list, with the values in the order of the calls. It counts one refused
reservation if that is fewer than it was to add, and changes nothing else. A factory may also make any calls
while it is asked for a value. As long as it does not panic, it is asked at most once more than entries are
added, and none of the entries that were reserved for it is pending after the warmup.
-/
theorem warmups_fill_the_room (s : Store α) (p : PoolId) (count : Nat) :
    (∀ (value : Nat → α) (report : Nat → EntryId → List ρ),
      let limit := (s.pool p).settings.maxEntries
      let added := if (s.pool p).closed then 0
        else if limit = 0 then count else min count (limit - (s.members p).length)
      Store.warmup p (fun n e u => (some (value n), report n e, u)) count 0 s =
        ({ added, calls := added, panicked := false },
          (List.range added).flatMap fun k => report k (s.entries.size + k),
          s.filled p ((List.range added).map value) (if added < count then 1 else 0))) ∧
    ∀ factory : Nat → EntryId → Store α → Option α × List ρ × Store α,
      let asked := (Store.warmup p (noting factory) count 0 s).2.1
      (∀ n e u, (n, e, u) ∈ asked → (factory n e u).1 ≠ none ∧ Run free u (factory n e u).2.2) →
      ∃ w reports t, Store.warmup p factory count 0 s = (w, reports, t) ∧ w.panicked = false ∧
        w.added ≤ count ∧ w.added ≤ w.calls ∧ w.calls ≤ w.added + 1 ∧ asked.length = w.calls ∧
        ∀ n e u, (n, e, u) ∈ asked →
          (∃ r, Run free s r ∧ r.reserve p = (some e, u)) ∧ e ∈ t.reservations p ∧
            t.state e ≠ .pending := by
  constructor
  · intro value report limit added
    have hwarmup := Store.warmup_of_values p value report count 0 s
    simp only [Nat.zero_add] at hwarmup
    exact hwarmup
  · intro factory asked calm
    have hwarmed := Store.warmed s count 0 calm
    obtain ⟨hsame, hstore⟩ :=
      Store.warmup_congr s p (noting factory) factory (fun _ _ _ => ⟨rfl, rfl⟩) count 0
    rw [hsame, hstore] at hwarmed
    exact ⟨_, _, _, rfl, hwarmed.calm, hwarmed.within, hwarmed.added, hwarmed.last, hwarmed.length,
      fun n e u h => ⟨hwarmed.reserved n e u h, hwarmed.settled n e u h⟩⟩

/-- A factory that fills the pool and closes it while it is asked for the second time. -/
theorem warmups_fill_the_room_closed_meanwhile :
    let s : Store Nat := [Move.create "p" { maxEntries := 3 } none].foldl Move.apply (.blank [])
    let factory : Nat → EntryId → Store Nat → Option Nat × List Unit × Store Nat := fun n _ u =>
      (some n, [], if n = 1 then [Move.reserve 0, .close 0].foldl Move.apply u else u)
    let asked := (Store.warmup 0 (noting factory) 5 0 s).2.1
    (∀ n e u, (n, e, u) ∈ asked → (factory n e u).1 ≠ none ∧ Run free u (factory n e u).2.2) ∧
      asked.map (fun x => (x.1, x.2.1)) = [(0, 0), (1, 1)] ∧
      ∃ reports t, Store.warmup 0 factory 5 0 s = ({ added := 1, calls := 2 }, reports, t) ∧
        1 ∈ t.reservations 0 ∧ t.state 1 ≠ .pending := by
  intro s factory asked
  have hcalm : ∀ n e u, (n, e, u) ∈ asked → (factory n e u).1 ≠ none ∧ Run free u (factory n e u).2.2 := by
    intro n e u _
    refine ⟨Option.some_ne_none n, ?_⟩
    change Run free u (if n = 1 then _ else u)
    split_ifs
    · exact .foldl u _ (by simp [Move.Proper])
    · exact .refl
  have hasked : asked.map (fun x => (x.1, x.2.1)) = [(0, 0), (1, 1)] := by decide +kernel
  obtain ⟨w, reports, t, hwarmup, -, -, -, -, -, hentries⟩ := (warmups_fill_the_room s 0 5).2 factory hcalm
  obtain rfl : w = { added := 1, calls := 2 } := by
    have hw : (Store.warmup 0 factory 5 0 s).1 = { added := 1, calls := 2 } := by decide +kernel
    rw [hwarmup] at hw
    exact hw
  obtain ⟨⟨n, e, u⟩, hmem, hsecond⟩ : ∃ x ∈ asked, (x.1, x.2.1) = (1, 1) :=
    List.mem_map.mp (hasked ▸ List.mem_cons_of_mem _ (List.mem_singleton_self _))
  obtain ⟨rfl, rfl⟩ := Prod.mk.inj hsecond
  exact ⟨hcalm, hasked, reports, t, hwarmup, (hentries _ _ u hmem).2⟩

end ResourcePool
