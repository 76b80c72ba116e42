import ResourcePool.Proofs.History.Change
import ResourcePool.Proofs.Membership
import ResourcePool.Proofs.Outcomes

/-! Last returns: a pool hints a caller at the entry that was returned to it last under the caller's number,
as the history of calls has it. -/
namespace ResourcePool

variable {α : Type}

/-- The entry that a call gives back to a pool under a caller's number. -/
def Call.returned? (p : PoolId) (c : CallerId) (s : Store α) : Call α → Option EntryId
  | release q d e => if q = p ∧ d = c ∧ (s.release q d e).1 = .ok true then some e else none
  | _ => none

/-- The entry given back to a pool last under a caller's number. -/
def lastReturned (calls : List (Called α)) (p : PoolId) (c : CallerId) : Option EntryId :=
  (calls.filterMap fun x => x.2.returned? p c x.1).getLast?

/-- Whether the hints of a pool, as long as it is open and gives any, are those given for each caller. -/
def Pool.Recalls (last : CallerId → Option EntryId) (x : Pool α) : Prop :=
  x.closed = false → x.settings.cached = true → ∀ c, x.hints.slots.lookup c = last c

/-- Pools hint at what was returned to them last, and nothing was returned to a pool that does not exist. -/
structure Store.Recalls (s : Store α) (calls : List (Called α)) : Prop where
  unknown : ∀ p, s.pools.size ≤ p → ∀ c, lastReturned calls p c = none
  hints : ∀ p, Pool.Recalls (lastReturned calls p) (s.pool p)

theorem lastReturned_concat (calls : List (Called α)) (s : Store α) (d : Call α) (p : PoolId)
    (c : CallerId) : lastReturned (calls ++ [(s, d)]) p c =
      (d.returned? p c s).or (lastReturned calls p c) := by
  unfold lastReturned
  rw [List.filterMap_append, List.getLast?_append]
  cases hd : d.returned? p c s <;> simp [hd]

/-- What was returned last, a release returned. -/
theorem exists_of_lastReturned {calls : List (Called α)} {p : PoolId} {c : CallerId} {e : EntryId}
    (h : lastReturned calls p c = some e) :
    ∃ u, (u, Call.release p c e) ∈ calls ∧ (u.release p c e).1 = .ok true := by
  obtain ⟨⟨u, d⟩, hd, hr⟩ := List.mem_filterMap.mp (List.mem_of_getLast? h)
  cases d with
  | release q k i =>
    dsimp only [Call.returned?] at hr
    split_ifs at hr with hq
    obtain ⟨rfl, rfl, hok⟩ := hq
    obtain rfl := Option.some.inj hr
    exact ⟨u, hd, hok⟩
  | _ => simp [Call.returned?] at hr

theorem Hints.lookup_set (h : Hints) (c k : CallerId) (e : EntryId) :
    (h.set c e).slots.lookup k = if k = c then some e else h.slots.lookup k := by
  by_cases hk : k = c
  · rw [if_pos hk, hk]
    exact List.lookup_cons_self
  · have hkc : (k == c) = false := beq_false_of_ne hk
    simp only [Hints.set, List.lookup_cons, hkc, lookup_filter, if_neg hk]

namespace Call

variable {s : Store α}

/-- Only a call on the pool gives anything back to it. -/
theorem returned?_of_ne {d : Call α} {p : PoolId} (h : d.site? s ≠ some p) (c : CallerId) :
    d.returned? p c s = none := by
  cases d with
  | release q k e => exact if_neg fun hq => h (congrArg some hq.1)
  | _ => rfl

/-- Nothing is given back to a pool that does not exist. -/
theorem returned?_of_size_le (d : Call α) {p : PoolId} (hp : s.pools.size ≤ p) (c : CallerId) :
    d.returned? p c s = none := by
  cases d with
  | release q k e =>
    refine if_neg ?_
    rintro ⟨rfl, -, hr⟩
    have hopen : (s.roster q).closed ≠ false := fun ho => Nat.not_lt.mpr hp (Store.lt_size_of_open ho)
    exact (Store.release_of_not_grants k fun ho => absurd ho hopen).1 hr
  | _ => rfl

end Call

namespace Store.Recalls

variable {s t : Store α} {calls : List (Called α)}

theorem blank (draws : List Nat) : (Store.blank draws : Store α).Recalls [] where
  unknown _ _ _ := rfl
  hints p ho := by
    have hp : p < (Store.blank draws : Store α).pools.size := lt_size_of_open ho
    exact absurd hp (Nat.not_lt_zero p)

theorem alike (hs : s.Recalls calls) (h : s.Alike t) : t.Recalls calls where
  unknown p hp := hs.unknown p (h.known ▸ hp)
  hints p := by
    have hbare : Pool.Recalls (lastReturned calls p) (t.pool p).bare :=
      (h.pool p).symm ▸ hs.hints p
    exact hbare

/-- A release that is granted is the last one now; any other leaves all as it was. -/
theorem hints_release (hs : s.Recalls calls) (p : PoolId) (c : CallerId) (e : EntryId) :
    Pool.Recalls (lastReturned (calls ++ [(s, .release p c e)]) p) ((s.release p c e).2.pool p) := by
  by_cases hg : (s.roster p).closed = false ∧ (s.entry e).Grants .release
  · have hr : (s.release p c e).1 = .ok true := (release_of_grants c hg.1 hg.2).1
    intro ho hc k
    rw [lastReturned_concat]
    rw [pool_release_of_grants c hg.1 hg.2] at ho hc ⊢
    unfold Pool.remember at ho hc ⊢
    split_ifs at ho hc ⊢ with hcached
    · rw [show ((s.pool p).count _).hints = (s.pool p).hints from rfl, Hints.lookup_set]
      by_cases hk : k = c
      · subst hk
        simp only [Call.returned?, hr, true_and, if_true, Option.some_or]
      · have hck : ¬ c = k := fun h => hk h.symm
        rw [if_neg hk, hs.hints p ho hc k]
        simp only [Call.returned?, hck, false_and, and_false, if_false, Option.none_or]
    · exact absurd hc hcached
  · obtain ⟨hr, hstore⟩ := release_of_not_grants (s := s) (p := p) (e := e) c fun hc hx => hg ⟨hc, hx⟩
    intro ho hc k
    rw [hstore] at ho hc ⊢
    rw [lastReturned_concat, hs.hints p ho hc k]
    simp only [Call.returned?, hr, and_false, if_false, Option.none_or]

theorem apply (hs : s.Recalls calls) (d : Call α) : (d.apply s).Recalls (calls ++ [(s, d)]) where
  unknown p hp c := by
    have hbefore : s.pools.size ≤ p := (d.size_apply s).trans hp
    rw [lastReturned_concat, d.returned?_of_size_le hbefore, hs.unknown p hbefore, Option.none_or]
  hints p := by
    have hlast : (∀ c, d.returned? p c s = none) →
        lastReturned (calls ++ [(s, d)]) p = lastReturned calls p := by
      intro hd
      funext c
      rw [lastReturned_concat, hd c, Option.none_or]
    by_cases hp : d.site? s = some p
    · cases d with
      | enable => simp [Call.site?] at hp
      | create name settings detector? =>
        obtain rfl := Option.some.inj hp
        change Pool.Recalls _ ((s.create name settings detector?).2.pool s.pools.size)
        rw [s.pool_create, if_pos rfl, hlast fun _ => rfl]
        intro _ _ c
        exact (hs.unknown _ le_rfl c).symm
      | release q c e =>
        obtain rfl := Option.some.inj hp
        exact hs.hints_release q c e
      | reserve q =>
        obtain rfl := Option.some.inj hp
        rw [hlast fun _ => rfl]
        have hkept := reserve_keeps (Pool.Recalls (lastReturned calls q)) (fun _ _ => rfl) (fun _ _ => rfl) s q
        exact hkept ▸ hs.hints q
      | acquire q c =>
        obtain rfl := Option.some.inj hp
        rw [hlast fun _ => rfl]
        have hkept := acquire_keeps (Pool.Recalls (lastReturned calls q)) (fun _ _ => rfl) (fun _ _ => rfl) s q c
        exact hkept ▸ hs.hints q
      | fulfil q c e v =>
        obtain rfl := Option.some.inj hp
        rw [hlast fun _ => rfl]
        have hkept := fulfil_keeps (Pool.Recalls (lastReturned calls q)) (fun _ _ => rfl) s q c e v
        exact hkept ▸ hs.hints q
      | remove q e =>
        obtain rfl := Option.some.inj hp
        rw [hlast fun _ => rfl]
        have hkept := remove_keeps (Pool.Recalls (lastReturned calls q)) (fun _ _ => rfl) (fun _ _ => rfl) s q e
        exact hkept ▸ hs.hints q
      | close q =>
        obtain rfl := Option.some.inj hp
        change Pool.Recalls _ ((s.close q).2.pool q)
        intro ho
        have hq : q < s.pools.size := s.size_close q ▸ lt_size_of_open ho
        rw [pool_close hq] at ho
        exact absurd ho (by simp)
    · rw [Call.pool_apply_of_ne hp, hlast fun c => Call.returned?_of_ne hp c]
      exact hs.hints p

end Store.Recalls

theorem History.recalls {allowed : Store α → Move α → Prop} {draws : List Nat} {s : Store α}
    {calls : List (Called α)} (h : History allowed (.blank draws) calls s) : s.Recalls calls := by
  have htrace := h.trace
  clear h
  induction htrace with
  | start => exact .blank draws
  | aside _ same ih => exact ih.alike same
  | call _ d ih => exact ih.apply d

/-! ### Hits -/

namespace Store

variable {s : Store α} {p : PoolId} {c : CallerId}

theorem counters_trackedAcquire (s : Store α) (direct : Bool) (p : PoolId) (c : CallerId) :
    ((s.trackedAcquire direct p c).2.pool p).counters = ((s.acquire p c).2.pool p).counters := by
  unfold trackedAcquire
  split
  · next e t ht =>
    rw [ht]
    cases direct with
    | true => rfl
    | false =>
      have hb : ((t.observeAcquire p e).pool p).bare = (t.pool p).bare :=
        (t.alike_observeAcquire p e).pool p
      have hcounters : ((t.observeAcquire p e).pool p).bare.counters = (t.pool p).bare.counters := by rw [hb]
      exact hcounters
  · next t ht => rw [ht]

/-- Without a hint that can be followed, only a member is found, and it is no hit. -/
theorem acquire_of_not_hinted (ho : (s.pool p).closed = false) (h : s.hinted? p c = none) :
    ((s.acquire p c).2.pool p).counters.hits = (s.pool p).counters.hits ∧
      ∀ e, (s.acquire p c).1 = some e → e ∈ s.members p := by
  have hp : p < s.pools.size := lt_size_of_open ho
  obtain ⟨-, ha⟩ | ⟨x, hx, -⟩ | ⟨-, i, t, ht, hrest⟩ := acquire_cases c ho
  · rw [ha, pool_miss hp]
    exact ⟨rfl, fun e he => absurd he (by simp)⟩
  · simp [h] at hx
  · obtain ⟨turn, hturn⟩ := pool_start hp c
    have hsize := s.size_start p c
    have hr := s.registry_start p c
    rw [ht] at hturn hsize hr
    have hmembers : t.members p = s.members p := congrArg (fun v : Registry α => (v.roster p).members) hr
    obtain ⟨x, hx, ha⟩ | ⟨-, ha⟩ := hrest
    · rw [ha, pool_handOut (hsize ▸ hp), hturn]
      refine ⟨rfl, fun e he => ?_⟩
      obtain rfl := Option.some.inj he
      exact hmembers ▸ (scan_eq_some hx).1
    · rw [ha, pool_miss (hsize ▸ hp), hturn]
      exact ⟨rfl, fun e he => absurd he (by simp)⟩

/-- Of what was returned last, the hint is what is alive and idle still. -/
theorem Recalls.hinted?_eq_some_iff {calls : List (Called α)} (hs : s.Recalls calls)
    (ho : (s.pool p).closed = false) (hc : (s.pool p).settings.cached = true) {e : EntryId} :
    s.hinted? p c = some e ↔
      lastReturned calls p c = some e ∧ s.isAlive e = true ∧ s.isIdle e = true := by
  rw [Store.hinted?_eq_some_iff, and_iff_right hc, hs.hints p ho hc c, isIdle, Entry.isIdle_iff, state]

end Store

/--
An acquire is a hit just when the entry that was returned to the pool last under the caller's number is alive
and idle still, and then it gets this entry. Any other acquire gets a member of the list, or nothing.
-/
theorem hit_iff_last_returned {allowed : Store α → Move α → Prop} {draws : List Nat} {s : Store α}
    {calls : List (Called α)} (h : History allowed (.blank draws) calls s) {p : PoolId}
    (ho : (s.pool p).closed = false) (hc : (s.pool p).settings.cached = true)
    (hm : s.members p ≠ []) (direct : Bool) (c : CallerId) :
    (((s.trackedAcquire direct p c).2.pool p).counters.hits = (s.pool p).counters.hits + 1 ↔
      ∃ e, lastReturned calls p c = some e ∧ s.isAlive e = true ∧ s.isIdle e = true) ∧
    (∀ e, lastReturned calls p c = some e → s.isAlive e = true → s.isIdle e = true →
      (s.trackedAcquire direct p c).1 = some e) ∧
    ∀ e, (s.trackedAcquire direct p c).1 = some e → e ∉ s.members p →
      lastReturned calls p c = some e ∧
      ∃ u, (u, .release p c e) ∈ calls ∧ (u.release p c e).1 = .ok true := by
  have hs := h.recalls
  have hp : p < s.pools.size := Store.lt_size_of_open ho
  have hiff : ∀ e, s.hinted? p c = some e ↔
      lastReturned calls p c = some e ∧ s.isAlive e = true ∧ s.isIdle e = true :=
    fun e => hs.hinted?_eq_some_iff ho hc
  rw [s.trackedAcquire_fst, s.counters_trackedAcquire]
  cases hh : s.hinted? p c with
  | some e =>
    have ha := Store.acquire_of_hinted ho hm hh
    have he := (hiff e).mp hh
    rw [ha]
    refine ⟨iff_of_true ?_ ⟨e, he⟩, fun x hx _ _ => ?_, fun x hx _ => ?_⟩
    · rw [Store.pool_handOut hp]
      rfl
    · exact he.1.symm.trans hx
    · obtain rfl := Option.some.inj hx
      exact ⟨he.1, exists_of_lastReturned he.1⟩
  | none =>
    obtain ⟨hhits, hmem⟩ := Store.acquire_of_not_hinted ho hh
    have hno : ∀ e, ¬ (lastReturned calls p c = some e ∧ s.isAlive e = true ∧ s.isIdle e = true) := by
      intro e he
      have hsome := (hiff e).mpr he
      simp [hh] at hsome
    refine ⟨iff_of_false ?_ fun ⟨e, he⟩ => hno e he, fun e hl ha hi => ?_, fun e he hn => ?_⟩
    · rw [hhits]
      exact Nat.ne_of_lt (Nat.lt_succ_self _)
    · exact absurd ⟨hl, ha, hi⟩ (hno e)
    · exact absurd (hmem e he) hn

/-- Who takes over a number is hinted at what was returned under it, here an entry of another pool. -/
theorem hit_iff_last_returned_foreign :
    let ms : List (Move Nat) := [.create "p" { cached := true } none, .create "q" {} none, .reserve 0,
      .enable 0 7 false, .reserve 1, .enable 1 8 false, .enter "a", .acquire true 1 1,
      .release true 0 1 1, .leave "a", .enter "b"]
    let s := ms.foldl Move.apply (.blank [])
    History free (.blank []) (Move.trail (.blank []) ms) s ∧ (s.pool 0).closed = false ∧
      (s.pool 0).settings.cached = true ∧ s.members 0 = [0] ∧ s.callers.find? "b" = some 1 ∧
      lastReturned (Move.trail (.blank []) ms) 0 1 = some 1 ∧
      (s.trackedAcquire true 0 1).1 = some 1 ∧
      ((s.trackedAcquire true 0 1).2.pool 0).counters.hits = (s.pool 0).counters.hits + 1 := by
  intro ms s
  have hh : History free (.blank []) (Move.trail (.blank []) ms) s :=
    .of_moves _ ms (by decide +kernel)
  have ho : (s.pool 0).closed = false := by decide +kernel
  have hc : (s.pool 0).settings.cached = true := by decide +kernel
  have hm : s.members 0 = [0] := by decide +kernel
  have hl : lastReturned (Move.trail (.blank []) ms) 0 1 = some 1 := by decide +kernel
  have ha : s.isAlive 1 = true := by decide +kernel
  have hi : s.isIdle 1 = true := by decide +kernel
  obtain ⟨hhit, hgot, -⟩ := hit_iff_last_returned hh ho hc (by simp [hm]) true 1
  exact ⟨hh, ho, hc, hm, by decide +kernel, hl, hgot 1 hl ha hi, hhit.mpr ⟨1, hl, ha, hi⟩⟩

end ResourcePool
