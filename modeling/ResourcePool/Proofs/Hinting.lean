import ResourcePool.Proofs.Gauge
import ResourcePool.Proofs.History.Change
import ResourcePool.Proofs.Membership

/-! Hints are only hints: when entries are released on the pools that reserved them, whether an entry can be
had is up to the members of the list alone. -/
namespace ResourcePool
open Registry

variable {α : Type}

/-- Whether a call, if it is a release, is made on the pool that reserved the entry. -/
def Call.ReleasesOwn (s : Store α) : Call α → Prop
  | release p _ e => e ∈ s.reservations p
  | _ => True

instance (s : Store α) : (c : Call α) → Decidable (c.ReleasesOwn s)
  | .release p _ e => inferInstanceAs (Decidable (e ∈ s.reservations p))
  | .create .. | .reserve _ | .enable .. | .acquire .. | .fulfil .. | .remove .. | .close _ => isTrue trivial

/-- Pools that exist reserved all entries, and their hints are to entries of their own. -/
structure Store.Trusted (s : Store α) : Prop where
  sound : s.registry.Sound
  known : ∀ p, ∀ e ∈ s.reservations p, p < s.pools.size
  hinted : ∀ p c e, (c, e) ∈ (s.pool p).hints.slots → e ∈ s.reservations p

namespace Store

variable {s t : Store α} {p : PoolId} {e : EntryId}

theorem hints_reserve (s : Store α) (p : PoolId) :
    ((s.reserve p).2.pool p).hints = (s.pool p).hints :=
  reserve_keeps Pool.hints (fun _ _ => rfl) (fun _ _ => rfl) s p

theorem hints_acquire (s : Store α) (p : PoolId) (c : CallerId) :
    ((s.acquire p c).2.pool p).hints = (s.pool p).hints :=
  acquire_keeps Pool.hints (fun _ _ => rfl) (fun _ _ => rfl) s p c

theorem hints_fulfil (s : Store α) (p : PoolId) (c : CallerId) (e : EntryId) (v : α) :
    ((s.settle p c e (.value v)).2.pool p).hints = (s.pool p).hints :=
  fulfil_keeps Pool.hints (fun _ _ => rfl) s p c e v

theorem slots_close (s : Store α) (p : PoolId) : ((s.close p).2.pool p).hints.slots = [] := by
  by_cases hp : p < s.pools.size
  · rw [pool_close hp]
  · have hsize : (s.close p).2.pools.size ≤ p := (s.size_close p).symm ▸ Nat.le_of_not_lt hp
    rw [pool_of_size_le _ hsize]
    rfl

end Store

/-- The hints of a pool change as the pool is closed, and by releases on it while it is open. -/
theorem Call.hints_apply (s : Store α) (d : Call α) (q : PoolId) :
    (((d.apply s).pool q).hints = (s.pool q).hints ∧
      (((d.apply s).pool q).closed = true → (s.pool q).closed = true)) ∨
    (d = .close q ∧ ((d.apply s).pool q).hints.slots = []) ∨
    ∃ c e, d = .release q c e ∧ ((d.apply s).pool q).closed = false ∧
      ((d.apply s).pool q).hints = (s.pool q).hints.set c e := by
  let look (x : Pool α) : Bool × Hints := (x.closed, x.hints)
  have hkept : ∀ {t : Store α}, look (t.pool q) = look (s.pool q) →
      (t.pool q).hints = (s.pool q).hints ∧ ((t.pool q).closed = true → (s.pool q).closed = true) := by
    intro t h
    obtain ⟨hclosed, hhints⟩ := Prod.mk.inj h
    exact ⟨hhints, fun ht => hclosed.symm.trans ht⟩
  by_cases hq : d.site? s = some q
  · cases d with
    | enable => simp [site?] at hq
    | create name settings detector? =>
      obtain rfl := Option.some.inj hq
      have hpool : (s.create name settings detector?).2.pool s.pools.size =
          .ofSettings name settings detector? :=
        (s.pool_create name settings detector?).trans (if_pos rfl)
      have hbefore : s.pool s.pools.size = .absent := s.pool_of_size_le (Nat.le_refl _)
      refine .inl ⟨?_, fun _ => by rw [hbefore]; rfl⟩
      change ((s.create name settings detector?).2.pool s.pools.size).hints = _
      rw [hpool, hbefore]
      rfl
    | reserve p =>
      obtain rfl := Option.some.inj hq
      exact .inl (hkept (Store.reserve_keeps look (fun _ _ => rfl) (fun _ _ => rfl) s p))
    | acquire p c =>
      obtain rfl := Option.some.inj hq
      exact .inl (hkept (Store.acquire_keeps look (fun _ _ => rfl) (fun _ _ => rfl) s p c))
    | fulfil p c e v =>
      obtain rfl := Option.some.inj hq
      exact .inl (hkept (Store.fulfil_keeps look (fun _ _ => rfl) s p c e v))
    | remove p e =>
      obtain rfl := Option.some.inj hq
      exact .inl (hkept (Store.remove_keeps look (fun _ _ => rfl) (fun _ _ => rfl) s p e))
    | release p c e =>
      obtain rfl := Option.some.inj hq
      by_cases hg : (s.roster p).closed = false ∧ (s.entry e).Grants .release
      · have hpool := Store.pool_release_of_grants c hg.1 hg.2
        unfold Pool.remember at hpool
        split_ifs at hpool
        · exact .inr (.inr ⟨c, e, rfl, (congrArg Pool.closed hpool).trans hg.1, congrArg Pool.hints hpool⟩)
        · have hlook := congrArg look hpool
          exact .inl (hkept hlook)
      · have hstore := (Store.release_of_not_grants c fun hc hx => hg ⟨hc, hx⟩).2
        exact .inl (hkept (congrArg (fun t : Store α => look (t.pool p)) hstore))
    | close p =>
      obtain rfl := Option.some.inj hq
      exact .inr (.inl ⟨rfl, s.slots_close p⟩)
  · exact .inl (hkept (congrArg look (pool_apply_of_ne hq)))

/-- Only a release on the pool adds a hint, which is to the entry released. -/
theorem Call.mem_slots {s : Store α} {c : Call α} {p : PoolId} {k : CallerId} {e : EntryId}
    (h : (k, e) ∈ ((c.apply s).pool p).hints.slots) :
    (k, e) ∈ (s.pool p).hints.slots ∨ ∃ i, c = .release p i e := by
  rcases c.hints_apply s p with ⟨hhints, -⟩ | ⟨-, hnil⟩ | ⟨i, x, hc, -, hhints⟩
  · rw [hhints] at h
    exact .inl h
  · rw [hnil] at h
    exact absurd h List.not_mem_nil
  · rw [hhints] at h
    rcases List.mem_cons.mp h with h | h
    · obtain ⟨-, rfl⟩ := Prod.mk.inj h
      exact .inr ⟨i, hc⟩
    · exact .inl (List.mem_of_mem_filter h)

/-- Entries are reserved by pools that exist. -/
theorem Call.known_apply {s : Store α} (hs : ∀ p, ∀ e ∈ s.reservations p, p < s.pools.size)
    (c : Call α) : ∀ p, ∀ e ∈ (c.apply s).reservations p, p < (c.apply s).pools.size := by
  intro p e he
  have hc := c.change s
  have hsize := c.size_apply s
  have hold : e ∈ s.reservations p → p < (c.apply s).pools.size :=
    fun he => Nat.lt_of_lt_of_le (hs p e he) hsize
  change e ∈ (c.apply s).registry.reservations p at he
  generalize (c.apply s).registry = w at hc he
  cases hc with
  | reserve q _ opened =>
    rcases Sound.mem_reserve.mp he with he | ⟨rfl, -⟩
    · exact hold he
    · exact Nat.lt_of_lt_of_le (Store.lt_size_of_open opened) hsize
  | _ => exact hold he

namespace Store.Trusted

variable {s t : Store α} {p : PoolId} {e : EntryId}

theorem blank (draws : List Nat) : (Store.blank draws : Store α).Trusted where
  sound := sound_blank draws
  known _ _ he := absurd he List.not_mem_nil
  hinted _ _ _ he := absurd he List.not_mem_nil

theorem alike (hs : s.Trusted) (h : s.Alike t) : t.Trusted where
  sound := h.registry ▸ hs.sound
  known p e he := by
    have hr : t.reservations = s.reservations := congrArg Registry.reservations h.registry
    rw [h.known]
    exact hs.known p e (hr ▸ he)
  hinted p c e he := by
    have hr : t.reservations = s.reservations := congrArg Registry.reservations h.registry
    have hh : (t.pool p).bare.hints = (s.pool p).bare.hints := congrArg Pool.hints (h.pool p)
    rw [hr]
    exact hs.hinted p c e (hh ▸ he)

theorem apply (hs : s.Trusted) (c : Call α) (own : c.ReleasesOwn s) : (c.apply s).Trusted where
  sound := c.sound_apply hs.sound
  known := c.known_apply hs.known
  hinted p k e he := by
    refine (c.reservations_apply s p).subset ?_
    rcases Call.mem_slots he with he | ⟨i, rfl⟩
    · exact hs.hinted p k e he
    · exact own

/-- What is acquired is an idle member, also if it was hinted at. -/
theorem mem_of_acquire (hs : s.Trusted) {c : CallerId} (h : (s.acquire p c).1 = some e) :
    e ∈ s.members p ∧ s.state e = .idle := by
  have hi : s.state e = .idle := Entry.grants_acquire_iff.mp (acquire_of_some h).1
  have hx : (s.registry.entry e).state ≠ .closed := by
    change s.state e ≠ .closed
    simp [hi]
  refine ⟨?_, hi⟩
  rcases mem_or_hinted_of_acquire h with hm | hh
  · exact hm
  · exact hs.sound.kept p e (hs.hinted p c e hh) hx

/-- Nothing is acquired just when no member is idle. -/
theorem acquire_eq_none_iff (hs : s.Trusted) (hp : (s.pool p).closed = false) (c : CallerId) :
    (s.acquire p c).1 = none ↔ ∀ e ∈ s.members p, s.state e ≠ .idle := by
  constructor
  · intro h e he hi
    have hn : s.isIdle e = false := not_idle_of_acquire_eq_none hp h he
    have hy : s.isIdle e = true := Entry.isIdle_iff.mpr hi
    exact Bool.false_ne_true (hn.symm.trans hy)
  · intro h
    cases ha : (s.acquire p c).1 with
    | none => rfl
    | some e =>
      obtain ⟨he, hi⟩ := hs.mem_of_acquire ha
      exact absurd hi (h e he)

end Store.Trusted

theorem History.trusted {allowed : Store α → Move α → Prop} {draws : List Nat} {s : Store α}
    {calls : List (Called α)} (h : History allowed (.blank draws) calls s)
    (own : ∀ x ∈ calls, x.2.ReleasesOwn x.1) : s.Trusted :=
  h.trace.keeps (fun _ _ same hu => hu.alike same) (fun u c hc hu => hu.apply c (own (u, c) hc))
    (Store.Trusted.blank draws)

namespace Store

/-- Acquires in a row, by the given callers and past the tracker or not. -/
def acquireEach (s : Store α) (p : PoolId) :
    List (Bool × CallerId) → List (Option EntryId) × Store α
  | [] => ([], s)
  | (direct, c) :: cs =>
    let (found, s) := s.trackedAcquire direct p c
    let (rest, s) := s.acquireEach p cs
    (found :: rest, s)

variable {s : Store α} {p : PoolId}

theorem closed_acquire (s : Store α) (p : PoolId) (c : CallerId) :
    ((s.acquire p c).2.pool p).closed = (s.pool p).closed := by
  cases ha : (s.acquire p c).1 with
  | none => exact congrArg (fun v : Registry α => (v.roster p).closed) (acquire_of_none ha)
  | some e => exact congrArg (fun v : Registry α => (v.roster p).closed) (acquire_of_some ha).2

theorem Trusted.trackedAcquire (hs : s.Trusted) (direct : Bool) (p : PoolId) (c : CallerId) :
    (s.trackedAcquire direct p c).2.Trusted := by
  refine (s.trace_trackedAcquire direct p c).keeps (fun _ _ same hu => hu.alike same) ?_ hs
  intro u d hd hu
  obtain ⟨rfl, rfl⟩ := Prod.mk.inj (List.mem_singleton.mp hd)
  exact hu.apply (.acquire p c) trivial

/-- An entry acquired was idle and is not any more. All others are what they were. -/
theorem Trusted.idle_acquire (hs : s.Trusted) {c : CallerId} {e : EntryId}
    (h : (s.acquire p c).1 = some e) :
    ((s.acquire p c).2.tally p).idle + 1 = (s.tally p).idle ∧
      ∀ i, (s.acquire p c).2.state i = .idle → s.state i = .idle ∧ i ≠ e := by
  obtain ⟨hm, hi⟩ := hs.mem_of_acquire h
  have hr := (acquire_of_some h).2
  have hst : (s.registry.entry e).state = .idle := hi
  have hg : (s.registry.entry e).Grants .acquire := Entry.grants_acquire_iff.mpr hst
  have hentry : (s.acquire p c).2.entry = (s.registry.grant e .acquire).entry :=
    congrArg Registry.entry hr
  constructor
  · have htally : (s.acquire p c).2.tally p = ((s.tally p).drop .idle).add .active := by
      have hd := tally_grant (hs.sound.nodup p) hm hg
      rw [hst] at hd
      exact (congrArg (fun v : Registry α => v.tally p) hr).trans hd
    have hpos : (s.tally p).idle ≠ 0 := fun h0 => idle_tally_eq_zero_iff.mp h0 e hm hi
    rw [htally]
    exact Nat.sub_add_cancel (Nat.pos_of_ne_zero hpos)
  · intro i hx
    unfold state at hx
    rw [hentry] at hx
    have hne : i ≠ e := by
      rintro rfl
      rw [grant_entry_self, Entry.state_answer hg] at hx
      simp [Entry.Request.target] at hx
    rw [grant_entry_of_ne _ _ hne] at hx
    exact ⟨hx, hne⟩

/-- Callers in a row get distinct idle members, and nothing once these are used up. -/
theorem Trusted.acquireEach (hs : s.Trusted) (hp : (s.pool p).closed = false)
    (cs : List (Bool × CallerId)) : ∃ es : List EntryId, es.Nodup ∧
      es.length = min cs.length (s.tally p).idle ∧ (∀ e ∈ es, s.state e = .idle) ∧
      (s.acquireEach p cs).1 =
        es.map some ++ List.replicate (cs.length - (s.tally p).idle) none := by
  induction cs generalizing s with
  | nil => exact ⟨[], List.nodup_nil, by simp, by simp, by simp [Store.acquireEach]⟩
  | cons d cs ih =>
    obtain ⟨direct, c⟩ := d
    have hst := hs.trackedAcquire direct p c
    have hfst := s.trackedAcquire_fst direct p c
    have hreg := s.registry_trackedAcquire direct p c
    rw [Store.acquireEach]
    generalize s.trackedAcquire direct p c = a at hst hfst hreg
    obtain ⟨found, t⟩ := a
    dsimp only at hst hfst hreg ⊢
    have htally : t.tally p = (s.acquire p c).2.tally p :=
      congrArg (fun v : Registry α => v.tally p) hreg
    have hstate : t.state = (s.acquire p c).2.state :=
      congrArg (fun v : Registry α => fun e => (v.entry e).state) hreg
    have hopen : (t.pool p).closed = false := by
      have hx : (t.pool p).closed = ((s.acquire p c).2.pool p).closed :=
        congrArg (fun v : Registry α => (v.roster p).closed) hreg
      rw [hx, closed_acquire, hp]
    obtain ⟨es, hnodup, hlen, hall, hes⟩ := ih hst hopen
    rw [htally] at hlen hes
    rw [hstate] at hall
    cases ha : (s.acquire p c).1 with
    | none =>
      have hsame : (s.acquire p c).2.tally p = s.tally p :=
        congrArg (fun v : Registry α => v.tally p) (acquire_of_none ha)
      have hidle : (s.tally p).idle = 0 :=
        idle_tally_eq_zero_iff.mpr ((hs.acquire_eq_none_iff hp c).mp ha)
      rw [hsame, hidle] at hlen hes
      obtain rfl := List.eq_nil_of_length_eq_zero (hlen.trans (Nat.min_zero _))
      refine ⟨[], List.nodup_nil, by simp [hidle], by simp, ?_⟩
      rw [hes, hfst, ha, hidle]
      rfl
    | some e =>
      obtain ⟨hidle, hrest⟩ := hs.idle_acquire ha
      refine ⟨e :: es, List.nodup_cons.mpr ⟨fun he => (hrest e (hall e he)).2 rfl, hnodup⟩,
        ?_, ?_, ?_⟩
      · rw [List.length_cons, List.length_cons, hlen]
        omega
      · intro i hie
        rcases List.mem_cons.mp hie with rfl | hie
        · exact (hs.mem_of_acquire ha).2
        · exact (hrest i (hall i hie)).1
      · have hsub : cs.length + 1 - (s.tally p).idle =
            cs.length - ((s.acquire p c).2.tally p).idle := by omega
        rw [hes, hfst, ha, List.length_cons, hsub]
        rfl

end Store

/-- If every release along a run, the ends of guards included, is made on the pool that reserved the entry,
then an open pool has an entry for any caller just as long as a member of its list is idle, and only such
members. Callers in a row get as many distinct ones as there are, and nothing from then on. -/
theorem acquires_take_idle_members {allowed : Store α → Move α → Prop} {draws : List Nat}
    {s : Store α} {calls : List (Called α)} (h : History allowed (.blank draws) calls s)
    (own : ∀ x ∈ calls, x.2.ReleasesOwn x.1) (p : PoolId) (hp : (s.pool p).closed = false) :
    (∀ direct c,
      ((s.trackedAcquire direct p c).1 = none ↔ ∀ e ∈ s.members p, s.state e ≠ .idle) ∧
      ∀ e, (s.trackedAcquire direct p c).1 = some e → e ∈ s.members p ∧ s.state e = .idle) ∧
    ∀ cs : List (Bool × CallerId), ∃ es : List EntryId, es.Nodup ∧
      es.length = min cs.length (s.tally p).idle ∧
      (s.acquireEach p cs).1 =
        es.map some ++ List.replicate (cs.length - (s.tally p).idle) none := by
  have hs := h.trusted own
  refine ⟨fun direct c => ?_, fun cs => ?_⟩
  · rw [s.trackedAcquire_fst]
    exact ⟨hs.acquire_eq_none_iff hp c, fun e he => hs.mem_of_acquire he⟩
  · obtain ⟨es, hnodup, hlen, -, hes⟩ := hs.acquireEach hp cs
    exact ⟨es, hnodup, hlen, hes⟩

/-- A caller is hinted at the entry that its guard gave back, while a removal through another pool closed
one that is still in the list. -/
theorem acquires_take_idle_members_foreign_removal :
    let ms : List (Move Nat) := [.create "p" { cached := true } none, .create "q" {} none, .reserve 0,
      .reserve 0, .reserve 0, .enable 0 7 false, .enable 1 8 false, .enable 2 9 false,
      .lease true 0 1 "g", .acquire true 0 2, .dropGuard 1 "g", .remove true 1 1]
    let s := ms.foldl Move.apply (.blank [])
    History free (.blank []) (Move.trail (.blank []) ms) s ∧
      (∀ x ∈ Move.trail (.blank []) ms, x.2.ReleasesOwn x.1) ∧ (s.pool 0).closed = false ∧
      s.hinted? 0 1 = some 0 ∧ s.members 0 = [0, 1, 2] ∧ s.state 1 = .closed ∧
      ∃ es : List EntryId, es.Nodup ∧ es.length = 2 ∧
        (s.acquireEach 0 [(true, 1), (false, 2), (true, 1)]).1 = es.map some ++ [none] := by
  intro ms s
  have hh : History free (.blank []) (Move.trail (.blank []) ms) s :=
    .of_moves _ ms (by decide +kernel)
  have hown : ∀ x ∈ Move.trail (.blank []) ms, x.2.ReleasesOwn x.1 := by decide +kernel
  have hp : (s.pool 0).closed = false := by decide +kernel
  have hidle : (s.tally 0).idle = 2 := by decide +kernel
  have ha := (acquires_take_idle_members hh hown 0 hp).2 [(true, 1), (false, 2), (true, 1)]
  rw [hidle] at ha
  exact ⟨hh, hown, hp, by decide +kernel, by decide +kernel, by decide +kernel, ha⟩

end ResourcePool
