import Mathlib.Data.List.Nodup
import ResourcePool.Proofs.Orderly
import ResourcePool.Proofs.Turnover

/-! The ledger: along orderly runs, what pools count and show agrees with the calls that were made. -/
namespace ResourcePool
open Registry

variable {α : Type}

/-- How many members of a pool are in use before a call and closed after it. -/
def Call.lost (s : Store α) (p : PoolId) (c : Call α) : Nat :=
  (s.members p).countP fun e => s.state e = .active ∧ (c.apply s).state e = .closed

/-- What a call adds to the turnover of a pool. -/
def Call.turnover (s : Store α) (p : PoolId) (c : Call α) : Turnover :=
  match c with
  | reserve q => { reserved := if q = p ∧ (s.reserve q).1.isSome then 1 else 0 }
  | enable e v atOnce =>
    { enabled := if e ∈ s.reservations p ∧ atOnce ∧ (s.enable e v atOnce).1 = .ok true then 1 else 0 }
  | acquire q _ => { attempts := if q = p ∧ (s.pool q).closed = false then 1 else 0 }
  | fulfil q i e v =>
    { created := if q = p ∧ (s.settle q i e (.value v)).1 = .ok (some e) then 1 else 0 }
  | remove q e => { lost := (Call.remove q e).lost s p }
  | close q =>
    { drained := if q = p then (s.members q).length else 0, lost := (Call.close q).lost s p }
  | _ => {}

/-- The turnover of a pool along calls. -/
def turnover (p : PoolId) (calls : List (Called α)) : Turnover :=
  calls.foldl (fun b x => b.add (x.2.turnover x.1 p)) {}

namespace Store.Orderly

variable {s : Store α} {p : PoolId} {e : EntryId} {c : Call α} {b : Turnover}

theorem gauge_apply_of_ne (hs : s.Orderly) (own : c.OnOwn s) (fulfils : c.FulfilsOwn s)
    (other : c.site? s ≠ some p)
    (henable : ∀ e ∈ s.reservations p, ∀ v atOnce, c ≠ .enable e v atOnce) :
    (c.apply s).gauge p = s.gauge p ∧ c.lost s p = 0 := by
  have hpool : (c.apply s).pool p = s.pool p := Call.pool_apply_of_ne other
  have hstate : ∀ e ∈ s.members p, (c.apply s).state e = s.state e := by
    intro e he
    have hr : e ∈ s.reservations p := (hs.sound.listed p).subset he
    exact congrArg Entry.state (hs.entry_apply_of_ne own fulfils other hr (henable e hr))
  constructor
  · have htally : (c.apply s).tally p = s.tally p := by
      have hm : (c.apply s).members p = s.members p := congrArg Pool.members hpool
      unfold tally
      rw [hm, List.map_congr_left hstate]
    unfold gauge
    rw [hpool, htally]
  · refine List.countP_eq_zero.mpr fun e he hx => ?_
    obtain ⟨hactive, hclosed⟩ := of_decide_eq_true hx
    rw [hstate e he, hactive] at hclosed
    exact EntryState.noConfusion hclosed

theorem turnover_of_ne (hs : s.Orderly) (own : c.OnOwn s) (fulfils : c.FulfilsOwn s)
    (other : c.site? s ≠ some p)
    (henable : ∀ e ∈ s.reservations p, ∀ v atOnce, c ≠ .enable e v atOnce) :
    c.turnover s p = {} := by
  have hlost := (hs.gauge_apply_of_ne own fulfils other henable).2
  have hne : ∀ {q}, c.site? s = some q → q ≠ p := by
    rintro q hq rfl
    exact other hq
  cases c with
  | create | release => rfl
  | reserve q => simp [Call.turnover, hne rfl]
  | enable e v atOnce =>
    have he : e ∉ s.reservations p := fun he => henable e he v atOnce rfl
    simp [Call.turnover, he]
  | acquire q i => simp [Call.turnover, hne rfl]
  | fulfil q i e v => simp [Call.turnover, hne rfl]
  | remove q e => simp [Call.turnover, hlost]
  | close q => simp [Call.turnover, hlost, hne rfl]

/-! ### Calls on the pool itself -/

/-- A member is counted in the tally. -/
theorem exists_tally_eq_add (he : e ∈ s.members p) :
    ∃ t : Tally, (s.gauge p).tally = t.add (s.state e) :=
  ⟨_, Registry.tally_eq_add (v := s.registry) he⟩

/-- Only an open pool has members. -/
theorem open_of_mem (hs : s.Orderly) (he : e ∈ s.members p) : (s.pool p).closed = false := by
  rw [← Bool.not_eq_true]
  intro hc
  have hm : s.members p = [] := hs.sound.emptied p hc
  exact absurd (hm ▸ he) List.not_mem_nil

theorem balanced_reserve (hs : s.Orderly) (hp : p < s.pools.size) (h : (s.gauge p).Balanced b) :
    ((s.reserve p).2.gauge p).Balanced (b.add ((Call.reserve p).turnover s p)) := by
  have hr := gauge_reserve (hs.steady hp)
  have hg : (s.reserve p).2.gauge p = (s.gauge p).reserve.2 := congrArg Prod.snd hr
  have ha : (s.reserve p).1.isSome = (s.gauge p).reserve.1 := congrArg Prod.fst hr
  simp only [Call.turnover, true_and, ha, hg]
  exact h.reserve

theorem balanced_enable (hs : s.Orderly) (hp : p < s.pools.size) (he : e ∈ s.reservations p) (v : α)
    (atOnce : Bool) (h : (s.gauge p).Balanced b) : ((s.enable e v atOnce).2.gauge p).Balanced
      (b.add ((Call.enable e v atOnce).turnover s p)) := by
  by_cases hg : (s.entry e).Grants (.enable v atOnce)
  · have hx : s.state e = .pending := Entry.grants_enable_iff.mp hg
    have hm : e ∈ s.members p := hs.mem_of_own he (by simp [hx])
    have hopen := hs.open_of_mem hm
    obtain ⟨t, ht⟩ := exists_tally_eq_add hm
    rw [hx] at ht
    obtain ⟨ha, hgauge⟩ := gauge_enable (hs.steady hp) hm hx hopen v atOnce
    have hgauge : (s.enable e v atOnce).2.gauge p = ((s.gauge p).enable atOnce).2 :=
      congrArg Prod.snd hgauge
    have hclosed : (s.gauge p).closed = false := hopen
    rw [hgauge, Gauge.enable, if_neg (by simp [hclosed])]
    have hone : (Call.enable e v atOnce).turnover s p = { enabled :=
        if (if atOnce = true then EntryState.active else .idle) = .active then 1 else 0 } := by
      cases atOnce <;> simp [Call.turnover, he, ha]
    rw [hone]
    exact h.shift ht (by simp)
  · obtain ⟨ha, hsame⟩ := enable_of_not_grants hg
    have hnone : (Call.enable e v atOnce).turnover s p = {} := by simp [Call.turnover, ha]
    rw [hsame, hnone]
    exact h

theorem balanced_acquire (hs : s.Orderly) (hp : p < s.pools.size) (i : CallerId)
    (h : (s.gauge p).Balanced b) :
    ((s.acquire p i).2.gauge p).Balanced (b.add ((Call.acquire p i).turnover s p)) := by
  have hg : (s.acquire p i).2.gauge p = (s.gauge p).acquire.2 :=
    congrArg Prod.snd (gauge_acquire (hs.steady hp) i)
  have hidle : (s.gauge p).tally.idle ≠ 0 → ∃ t : Tally, (s.gauge p).tally = t.add .idle := by
    intro hi
    have hex : ¬ ∀ e ∈ s.members p, s.state e ≠ .idle := mt idle_tally_eq_zero_iff.mpr hi
    push Not at hex
    obtain ⟨e, hm, hx⟩ := hex
    exact hx ▸ exists_tally_eq_add hm
  simp only [Call.turnover, true_and, hg]
  exact h.acquire hidle

theorem balanced_fulfil (hs : s.Orderly) (hp : p < s.pools.size) (i : CallerId)
    (he : e ∈ s.reservations p) (v : α) (h : (s.gauge p).Balanced b) :
    ((s.settle p i e (.value v)).2.gauge p).Balanced (b.add ((Call.fulfil p i e v).turnover s p)) := by
  by_cases hg : (s.entry e).Grants (.enable v true)
  · have hx : s.state e = .pending := Entry.grants_enable_iff.mp hg
    have hm : e ∈ s.members p := hs.mem_of_own he (by simp [hx])
    obtain ⟨t, ht⟩ := exists_tally_eq_add hm
    rw [hx] at ht
    have hgauge : (s.settle p i e (.value v)).2.gauge p = ((s.gauge p).settle (.value v)).2 :=
      congrArg Prod.snd (gauge_settle (hs.steady hp) hm hx (hs.open_of_mem hm) i (.value v))
    have hone : (Call.fulfil p i e v).turnover s p = { created := 1 } := by
      simp [Call.turnover, (settle_of_grants (p := p) (c := i) hg).1]
    rw [hgauge, hone]
    exact h.settle ht v
  · obtain ⟨ha, hsame⟩ := settle_of_not_grants (p := p) (c := i) hg
    have hnone : (Call.fulfil p i e v).turnover s p = {} := by simp [Call.turnover, ha e]
    rw [hsame, hnone]
    exact h

theorem balanced_release (hs : s.Orderly) (hp : p < s.pools.size) (i : CallerId)
    (he : e ∈ s.reservations p) (h : (s.gauge p).Balanced b) :
    ((s.release p i e).2.gauge p).Balanced b := by
  by_cases hg : (s.roster p).closed = false ∧ (s.entry e).Grants .release
  · have hx : s.state e = .active := Entry.grants_release_iff.mp hg.2
    have hm : e ∈ s.members p := hs.mem_of_own he (by simp [hx])
    have hopen := hs.open_of_mem hm
    obtain ⟨t, ht⟩ := exists_tally_eq_add hm
    rw [hx] at ht
    have hgauge : (s.release p i e).2.gauge p = (s.gauge p).release.2 :=
      congrArg Prod.snd (gauge_release (hs.steady hp) hm hx hopen i).2
    rw [hgauge]
    exact h.release hopen ht
  · rw [(release_of_not_grants i fun hc hx => hg ⟨hc, hx⟩).2]
    exact h

/-- A member that is removed is the only one to be lost. -/
theorem lost_remove (hs : s.Orderly) (hm : e ∈ s.members p) :
    (Call.remove p e).lost s p = if s.state e = .active then 1 else 0 := by
  have hg : (s.entry e).Grants .remove := Entry.grants_remove_iff.mpr (hs.live p e hm)
  have hr := (remove_of_mem (hs.open_of_mem hm) hg hm).2
  have hafter : ∀ i, (s.remove p e).2.state i = if i = e then .closed else s.state i := by
    intro i
    change ((s.remove p e).2.registry.entry i).state = _
    rw [hr]
    change ((s.registry.grant e .remove).entry i).state = _
    by_cases hi : i = e
    · subst hi
      rw [if_pos rfl, grant_entry_self]
      exact Entry.state_answer hg
    · rw [if_neg hi, grant_entry_of_ne _ _ hi]
      rfl
  have hcount : (s.members p).count e = 1 := List.count_eq_one_of_mem (hs.sound.nodup p) hm
  have hlost : (Call.remove p e).lost s p =
      (s.members p).countP fun i => i = e ∧ s.state e = .active := by
    refine List.countP_congr fun i hi => ?_
    have hlive := hs.live p i hi
    simp only [Call.apply, hafter, decide_eq_true_eq]
    by_cases hie : i = e <;> simp [hie, hlive]
  rw [hlost]
  by_cases hx : s.state e = .active
  · rw [if_pos hx, ← hcount, List.count_eq_countP]
    exact List.countP_congr fun i _ => by simp [hx]
  · rw [if_neg hx]
    exact List.countP_eq_zero.mpr fun i _ => by simp [hx]

theorem balanced_remove (hs : s.Orderly) (hp : p < s.pools.size) (he : e ∈ s.reservations p)
    (h : (s.gauge p).Balanced b) :
    ((s.remove p e).2.gauge p).Balanced (b.add ((Call.remove p e).turnover s p)) := by
  by_cases hm : e ∈ s.members p
  · have hopen := hs.open_of_mem hm
    obtain ⟨t, ht⟩ := exists_tally_eq_add hm
    have hgauge : (s.remove p e).2.gauge p = ((s.gauge p).remove (s.state e)).2 :=
      congrArg Prod.snd (gauge_remove (hs.steady hp) hm hopen).2
    simp only [Call.turnover, hs.lost_remove hm, hgauge]
    exact h.remove hopen ht
  · -- The entry is closed, so that nothing is removed.
    have hg : ¬ (s.entry e).Grants .remove :=
      fun hg => hm (hs.mem_of_own he (Entry.grants_remove_iff.mp hg))
    have hr := (remove_of_not_grants (p := p) hg).2
    have hpool : (s.remove p e).2.pool p = s.pool p := pool_remove_of_not_grants hg
    have hgauge : (s.remove p e).2.gauge p = s.gauge p := gauge_eq hpool hr
    have hlost : (Call.remove p e).lost s p = 0 := by
      refine List.countP_eq_zero.mpr fun i hi hx => ?_
      obtain ⟨-, hclosed⟩ := of_decide_eq_true hx
      have hstate : (s.remove p e).2.state i = s.state i :=
        congrArg (fun v : Registry α => (v.entry i).state) hr
      exact hs.live p i hi (hstate ▸ hclosed)
    simp only [Call.turnover, hlost, hgauge]
    exact h

/-- All members in use are lost when the pool closes. -/
theorem lost_close (s : Store α) (p : PoolId) : (Call.close p).lost s p = (s.tally p).inUse := by
  have hafter : ∀ i ∈ s.members p, (s.close p).2.state i = .closed := by
    intro i hi
    change ((s.close p).2.registry.entry i).state = .closed
    rw [s.registry_close p]
    change (if i ∈ (s.registry.roster p).members then _ else _ : Entry α).state = .closed
    rw [if_pos (show i ∈ (s.registry.roster p).members from hi)]
    rfl
  have huse : (s.tally p).inUse = (s.members p).countP fun i => s.state i = .active := by
    change ((s.members p).map s.state).count .active = _
    rw [List.count_eq_countP, List.countP_map]
    exact List.countP_congr fun i _ => by simp
  rw [huse]
  refine List.countP_congr fun i hi => ?_
  simp [Call.apply, hafter i hi]

theorem balanced_close (hs : s.Orderly) (hp : p < s.pools.size) (h : (s.gauge p).Balanced b) :
    ((s.close p).2.gauge p).Balanced (b.add ((Call.close p).turnover s p)) := by
  have hsize : (s.members p).length = (s.gauge p).tally.size := by
    change _ = (s.tally p).size
    rw [tally, Tally.size_ofStates, List.length_map]
  rw [gauge_close (hs.steady hp), Call.turnover, if_pos rfl, hsize, lost_close]
  exact h.close

/-- Each call keeps the gauge of a pool in agreement with the turnover. -/
theorem balanced_apply (hs : s.Orderly) (own : c.OnOwn s) (fulfils : c.FulfilsOwn s)
    (hp : p < s.pools.size) (h : (s.gauge p).Balanced b) :
    ((c.apply s).gauge p).Balanced (b.add (c.turnover s p)) := by
  by_cases hc : c.site? s = some p ∨ ∃ e ∈ s.reservations p, ∃ v atOnce, c = .enable e v atOnce
  · cases c with
    | create name settings detector? =>
      obtain hq | ⟨e, -, v, atOnce, hx⟩ := hc
      · exact absurd (Option.some.inj hq) (Nat.ne_of_gt hp)
      · simp at hx
    | enable x v atOnce =>
      obtain hq | ⟨e, he, v', atOnce', hx⟩ := hc
      · simp [Call.site?] at hq
      · obtain ⟨rfl, rfl, rfl⟩ := Call.enable.inj hx
        exact hs.balanced_enable hp he v atOnce h
    | reserve q =>
      obtain rfl : q = p := by simpa [Call.site?] using hc
      exact hs.balanced_reserve hp h
    | acquire q i =>
      obtain rfl : q = p := by simpa [Call.site?] using hc
      exact hs.balanced_acquire hp i h
    | fulfil q i x v =>
      obtain rfl : q = p := by simpa [Call.site?] using hc
      exact hs.balanced_fulfil hp i fulfils v h
    | release q i x =>
      obtain rfl : q = p := by simpa [Call.site?] using hc
      exact hs.balanced_release hp i own h
    | remove q x =>
      obtain rfl : q = p := by simpa [Call.site?] using hc
      exact hs.balanced_remove hp own h
    | close q =>
      obtain rfl : q = p := by simpa [Call.site?] using hc
      exact hs.balanced_close hp h
  · rw [not_or] at hc
    have henable : ∀ e ∈ s.reservations p, ∀ v atOnce, c ≠ .enable e v atOnce :=
      fun e he v atOnce hx => hc.2 ⟨e, he, v, atOnce, hx⟩
    rw [(hs.gauge_apply_of_ne own fulfils hc.1 henable).1,
      hs.turnover_of_ne own fulfils hc.1 henable]
    exact h

end Store.Orderly

/-! ### Pools that do not exist yet -/

/-- Nothing happens on a pool that does not exist. -/
theorem Call.turnover_of_size_le {s : Store α} {c : Call α} {p : PoolId} (hs : s.Orderly)
    (fulfils : c.FulfilsOwn s) (hp : s.pools.size ≤ p) : c.turnover s p = {} := by
  have hpool : s.pool p = .absent := s.pool_of_size_le hp
  have hclosed : (s.pool p).closed = true := congrArg Pool.closed hpool
  have hmembers : s.members p = [] := congrArg Pool.members hpool
  have hnone : ∀ e, e ∉ s.reservations p := fun e he => Nat.not_le_of_lt (hs.known p e he) hp
  have hlost : c.lost s p = 0 := by rw [lost, hmembers, List.countP_nil]
  cases c with
  | create | release => rfl
  | reserve q =>
    have hr : ¬ (q = p ∧ (s.reserve q).1.isSome = true) := by
      rintro ⟨rfl, hr⟩
      simp [Store.reserve, hclosed] at hr
    rw [turnover, if_neg hr]
  | enable e v atOnce => rw [turnover, if_neg fun h => hnone e h.1]
  | acquire q i =>
    have ha : ¬ (q = p ∧ (s.pool q).closed = false) := by
      rintro ⟨rfl, ha⟩
      exact Bool.false_ne_true (ha.symm.trans hclosed)
    rw [turnover, if_neg ha]
  | fulfil q i e v =>
    have hq : q ≠ p := by
      rintro rfl
      exact hnone e fulfils
    rw [turnover, if_neg fun h => hq h.1]
  | remove q e => rw [turnover, hlost]
  | close q =>
    have hdrained : (if q = p then (s.members q).length else 0) = 0 := by
      split_ifs with hq
      · rw [hq, hmembers, List.length_nil]
      · rfl
    rw [turnover, hdrained, hlost]

namespace Store

variable {s t : Store α} {p : PoolId}

theorem balanced_of_unused (hm : s.members p = []) (hk : (s.pool p).counters = {}) :
    (s.gauge p).Balanced {} := by
  have ht : (s.gauge p).tally = {} := by
    change Tally.ofStates ((s.members p).map s.state) = {}
    rw [hm]
    rfl
  have hc : (s.gauge p).counters = {} := by
    change { (s.pool p).counters with hits := 0 } = _
    rw [hk]
  refine ⟨?_, ?_, ?_⟩
  · rw [ht, hc]
    rfl
  · rw [ht, hc]
    rfl
  · rw [hc]

theorem balanced_absent (hp : s.pools.size ≤ p) : (s.gauge p).Balanced {} := by
  have hpool : s.pool p = .absent := s.pool_of_size_le hp
  exact balanced_of_unused (congrArg Pool.members hpool) (congrArg Pool.counters hpool)

/-- A pool is created unused. -/
theorem balanced_new (c : Call α) (hp : s.pools.size ≤ p) : ((c.apply s).gauge p).Balanced {} := by
  cases c with
  | create name settings detector? =>
    have hpool := s.pool_create (q := p) name settings detector?
    by_cases hq : p = s.pools.size
    · rw [if_pos hq] at hpool
      exact balanced_of_unused (congrArg Pool.members hpool) (congrArg Pool.counters hpool)
    · rw [if_neg hq, s.pool_of_size_le hp] at hpool
      exact balanced_of_unused (congrArg Pool.members hpool) (congrArg Pool.counters hpool)
  | reserve q => exact balanced_absent (s.size_reserve q ▸ hp)
  | enable e v atOnce => exact balanced_absent (s.size_enable e v atOnce ▸ hp)
  | acquire q i => exact balanced_absent (s.size_acquire q i ▸ hp)
  | fulfil q i e v => exact balanced_absent (s.size_settle q i e _ ▸ hp)
  | release q i e => exact balanced_absent (s.size_release q i e ▸ hp)
  | remove q e => exact balanced_absent (s.size_remove q e ▸ hp)
  | close q => exact balanced_absent (s.size_close q ▸ hp)

theorem Alike.gauge (h : s.Alike t) (p : PoolId) : t.gauge p = s.gauge p := by
  have hbare : (t.pool p).bare = (s.pool p).bare := h.pool p
  have htally : t.tally p = s.tally p := congrArg (fun v : Registry α => v.tally p) h.registry
  have hgauge : (t.pool p).bare.gauge (s.tally p) = (s.pool p).bare.gauge (s.tally p) := by
    rw [hbare]
  unfold Store.gauge
  rw [htally]
  exact hgauge

end Store

theorem turnover_concat (p : PoolId) (calls : List (Called α)) (s : Store α) (c : Call α) :
    turnover p (calls ++ [(s, c)]) = (turnover p calls).add (c.turnover s p) := by
  rw [turnover, List.foldl_append]
  rfl

/-- From a blank store on, the gauge of a pool agrees with the turnover along the calls. -/
theorem Trace.balanced {draws : List Nat} {s : Store α} {calls : List (Called α)}
    (h : Trace (.blank draws) calls s) (own : ∀ x ∈ calls, x.2.OnOwn x.1)
    (fulfils : ∀ x ∈ calls, x.2.FulfilsOwn x.1) (p : PoolId) :
    (s.gauge p).Balanced (turnover p calls) ∧ (s.pools.size ≤ p → turnover p calls = {}) := by
  induction h with
  | start => exact ⟨Store.balanced_absent (Nat.zero_le p), fun _ => rfl⟩
  | aside _ same ih =>
    obtain ⟨hb, hnone⟩ := ih own fulfils
    exact ⟨same.gauge p ▸ hb, fun hp => hnone (same.known ▸ hp)⟩
  | @call calls t before c ih =>
    have hlast : (t, c) ∈ calls ++ [(t, c)] := List.mem_append_right _ (List.mem_singleton_self _)
    have hown : c.OnOwn t := own _ hlast
    have hfulfils : c.FulfilsOwn t := fulfils _ hlast
    have howns : ∀ x ∈ calls, x.2.OnOwn x.1 := fun x hx => own x (List.mem_append_left _ hx)
    have hs : t.Orderly := before.orderly howns
    obtain ⟨hb, hnone⟩ := ih howns fun x hx => fulfils x (List.mem_append_left _ hx)
    rw [turnover_concat]
    by_cases hp : p < t.pools.size
    · refine ⟨hs.balanced_apply hown hfulfils hp hb, fun hx => ?_⟩
      exact absurd (Nat.lt_of_lt_of_le hp (c.size_apply t)) (Nat.not_lt_of_le hx)
    · have hle : t.pools.size ≤ p := Nat.le_of_not_lt hp
      have hzero : (turnover p calls).add (c.turnover t p) = {} := by
        rw [hnone hle, Call.turnover_of_size_le hs hfulfils hle]
        rfl
      rw [hzero]
      exact ⟨Store.balanced_new c hle, fun _ => rfl⟩

/-! ### Hits -/

theorem Call.fair_apply {s : Store α} (c : Call α) {q : PoolId} (h : (s.pool q).Fair) :
    ((c.apply s).pool q).Fair := by
  cases c with
  | create name settings detector? =>
    have hpool := s.pool_create (q := q) name settings detector?
    change ((s.create name settings detector?).2.pool q).Fair
    rw [hpool]
    split_ifs
    · exact Nat.le_refl 0
    · exact h
  | reserve p => exact (s.frame_reserve p).fair_of_fair h
  | enable e v atOnce => exact (s.frame_enable q e v atOnce).fair h
  | acquire p i => exact (s.frame_acquire p i).fair_of_fair h
  | fulfil p i e v => exact (s.frame_settle p i e _).fair_of_fair h
  | release p i e => exact (s.frame_release p i e).fair_of_fair h
  | remove p e => exact (s.frame_remove p e).fair_of_fair h
  | close p => exact (s.frame_close p).fair_of_fair h

theorem Trace.fair {draws : List Nat} {s : Store α} {calls : List (Called α)}
    (h : Trace (.blank draws) calls s) (p : PoolId) : (s.pool p).Fair := by
  refine h.keeps (P := fun u : Store α => (u.pool p).Fair) (fun u v same hu => ?_)
    (fun _ c _ hu => c.fair_apply hu) (Nat.le_refl 0)
  have hk : (v.pool p).bare.counters = (u.pool p).bare.counters := congrArg Pool.counters (same.pool p)
  change (v.pool p).bare.counters.hits ≤ (v.pool p).bare.counters.acquired
  rw [hk]
  exact hu

/-- If entries are released and removed on the pools that reserved them, the readings of a pool, all modulo the
word size, agree with what happened on it: every entry reserved is in the list, was removed or was drained;
every entry that went out is in use, came back or was lost; every search found an entry or missed. -/
theorem readings_balance {allowed : Store α → Move α → Prop} {draws : List Nat} {s : Store α}
    {calls : List (Called α)} (h : History allowed (.blank draws) calls s)
    (own : ∀ x ∈ calls, x.2.OnOwn x.1) (p : PoolId) :
    let m := s.metrics p
    let b := turnover p calls
    m.size + m.removed + .ofNat b.drained = .ofNat b.reserved ∧
    m.acquired + .ofNat b.enabled = m.released + m.inUse + .ofNat b.lost ∧
    m.acquired + m.misses = .ofNat b.attempts + .ofNat b.created ∧
    ((s.pool p).counters.hits ≤ (s.pool p).counters.acquired ∧
      m.hits = .ofNat (s.pool p).counters.hits ∧ m.acquired = .ofNat (s.pool p).counters.acquired) ∧
    m.reserved + m.idle + m.inUse + m.closed = m.size ∧ m.size = .ofNat (s.members p).length ∧
    m.reserved = .ofNat ((s.members p).countP fun e => s.state e = .pending) ∧
    m.idle = .ofNat ((s.members p).countP fun e => s.state e = .idle) ∧
    m.inUse = .ofNat ((s.members p).countP fun e => s.state e = .active) ∧
    m.closed = .ofNat ((s.members p).countP fun e => s.state e = .closed) := by
  intro m b
  obtain ⟨hb, -⟩ := h.trace.balanced own h.fulfilsOwn p
  have hcount : ∀ st : EntryState, ((s.members p).map s.state).count st =
      (s.members p).countP fun e => s.state e = st := by
    intro st
    rw [List.count_eq_countP, List.countP_map]
    exact List.countP_congr fun e _ => by simp
  have hsize : (s.tally p).size = (s.members p).length := by
    rw [Store.tally, Tally.size_ofStates, List.length_map]
  refine ⟨?_, ?_, ?_, ⟨h.trace.fair p, rfl, rfl⟩, ?_, ?_, ?_, ?_, ?_, ?_⟩
  · have hstock := congrArg UInt64.ofNat hb.stock
    rwa [UInt64.ofNat_add, UInt64.ofNat_add] at hstock
  · have hflow := congrArg UInt64.ofNat hb.flow
    rwa [UInt64.ofNat_add, UInt64.ofNat_add, UInt64.ofNat_add] at hflow
  · have hdemand := congrArg UInt64.ofNat hb.demand
    rwa [UInt64.ofNat_add, UInt64.ofNat_add] at hdemand
  · change _ = UInt64.ofNat (s.tally p).size
    unfold Tally.size
    rw [UInt64.ofNat_add, UInt64.ofNat_add, UInt64.ofNat_add]
    rfl
  · exact congrArg UInt64.ofNat hsize
  · exact congrArg UInt64.ofNat (hcount .pending)
  · exact congrArg UInt64.ofNat (hcount .idle)
  · exact congrArg UInt64.ofNat (hcount .active)
  · exact congrArg UInt64.ofNat (hcount .closed)

/-- One entry is acquired, one created, one enabled for its caller at once and one only reserved. One is
released, one removed while in use, and the rest are drained, of which one is in use. -/
theorem readings_balance_closed :
    let ms : List (Move Nat) := [.create "p" { cached := true } none, .reserve 0, .enable 0 7 false,
      .lease true 0 1 "g", .acquire true 0 1, .reserve 0, .settle true 0 1 1 (.value 8), .reserve 0,
      .enable 2 9 true, .dropGuard 1 "g", .remove true 0 1, .acquire true 0 1, .release true 0 1 2,
      .reserve 0, .close 0, .acquire true 0 1]
    let s := ms.foldl Move.apply (.blank [])
    let calls := Move.trail (.blank []) ms
    History free (.blank []) calls s ∧ (∀ x ∈ calls, x.2.OnOwn x.1) ∧
      turnover 0 calls =
        { reserved := 4, drained := 3, enabled := 1, attempts := 3, created := 1, lost := 2 } ∧
      (s.pool 0).counters = { acquired := 3, released := 2, removed := 1, hits := 1, misses := 1 } ∧
      (s.metrics 0).size + (s.metrics 0).removed + 3 = 4 := by
  intro ms s calls
  have hh : History free (.blank []) calls s := .of_moves _ ms (by decide +kernel)
  have hown : ∀ x ∈ calls, x.2.OnOwn x.1 := by decide +kernel
  have hturnover : turnover 0 calls =
      { reserved := 4, drained := 3, enabled := 1, attempts := 3, created := 1, lost := 2 } := by
    decide +kernel
  have hstock := (readings_balance hh hown 0).1
  rw [hturnover] at hstock
  exact ⟨hh, hown, hturnover, by decide +kernel, hstock⟩

end ResourcePool
