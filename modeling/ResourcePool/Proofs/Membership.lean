import Mathlib.Data.List.Perm.Subperm
import ResourcePool.Proofs.Registry.Sound
import ResourcePool.Proofs.Run
import ResourcePool.Store.Readings

/-! Lists of pools along runs: which entries are in them, how many, and how entries leave. -/
namespace ResourcePool
open Registry

variable {α : Type} {allowed : Store α → Move α → Prop} {draws : List Nat} {s : Store α}

theorem sound_blank (draws : List Nat) : (Store.blank draws : Store α).registry.Sound where
  bounded _ _ he := absurd he List.not_mem_nil
  disjoint _ _ _ he := absurd he List.not_mem_nil
  ascending _ := List.Pairwise.nil
  listed _ := List.Sublist.slnil
  emptied _ _ := rfl
  kept _ _ he := absurd he List.not_mem_nil
  capacity _ _ := Nat.zero_le _

theorem Run.sound (h : Run allowed (.blank draws) s) : s.registry.Sound :=
  h.path.keeps (fun _ _ he => he.sound) (sound_blank draws)

/-- A pool is full just when it has as many members as it takes. -/
theorem Roster.isFull_iff {r : Roster} (h : 0 < r.limit → r.members.length ≤ r.limit) :
    r.isFull = true ↔ 0 < r.limit ∧ r.members.length = r.limit := by
  simp only [isFull, Bool.and_eq_true, decide_eq_true_eq]
  constructor
  · rintro ⟨hl, hm⟩
    exact ⟨hl, Nat.le_antisymm (h hl) hm⟩
  · rintro ⟨hl, hm⟩
    exact ⟨hl, Nat.le_of_eq hm.symm⟩

/-- The entries that a pool reserved and that are not closed are all in its list. -/
theorem Registry.Sound.length_open_le {v : Registry α} (hv : v.Sound) (p : PoolId) :
    ((v.reservations p).filter fun e => (v.entry e).state ≠ .closed).length ≤
      (v.roster p).members.length := by
  have hd : ((v.reservations p).filter fun e => (v.entry e).state ≠ .closed).Nodup :=
    ((hv.ascending p).imp Nat.ne_of_lt).filter _
  refine (hd.subperm fun e he => ?_).length_le
  obtain ⟨hm, hc⟩ := List.mem_filter.mp he
  exact hv.kept p e hm (by simpa using hc)

/-- The list of a pool holds distinct entries of its own in the order of their reservation, no more
than the pool takes, and the pool takes no more just when it is closed or the list is that long. -/
theorem members_within_capacity (h : Run allowed (.blank draws) s) (p : PoolId) :
    (s.members p).Nodup ∧ (s.members p).Sublist (s.reservations p) ∧
    (∀ q, ∀ e ∈ s.members p, e ∈ s.members q ∨ e ∈ s.reservations q → q = p) ∧
    ((s.pool p).closed = true → s.members p = []) ∧
    (0 < (s.pool p).settings.maxEntries →
      (s.members p).length ≤ (s.pool p).settings.maxEntries ∧
      ((s.reservations p).filter fun e => s.state e ≠ .closed).length ≤
        (s.pool p).settings.maxEntries) ∧
    (s.reserve p).2.reservations p = s.reservations p ++ (s.reserve p).1.toList ∧
    ((s.reserve p).1 = none ↔ (s.pool p).closed = true ∨
      0 < (s.pool p).settings.maxEntries ∧
        (s.members p).length = (s.pool p).settings.maxEntries) := by
  have hv : s.registry.Sound := h.sound
  refine ⟨hv.nodup p, hv.listed p, ?_, hv.emptied p, ?_, ?_, ?_⟩
  · intro q e he hq
    rcases hq with hq | hq
    · exact hv.eq_of_mem hq he
    · exact hv.disjoint q p e hq ((hv.listed p).subset he)
  · intro hl
    have hm : (s.members p).length ≤ (s.pool p).settings.maxEntries := hv.capacity p hl
    exact ⟨hm, Nat.le_trans (hv.length_open_le p) hm⟩
  · have hr := congrArg Registry.reservations (s.registry_reserve p)
    rw [s.reserve_fst p]
    split_ifs at hr ⊢
    · exact (congrFun hr p).trans (List.append_nil _).symm
    · exact (congrFun hr p).trans (reserve_reservations_self _ p)
  · rw [s.reserve_fst p]
    have hf : (s.roster p).isFull = true ↔ 0 < (s.pool p).settings.maxEntries ∧
        (s.members p).length = (s.pool p).settings.maxEntries :=
      Roster.isFull_iff (hv.capacity p)
    change _ ↔ (s.roster p).closed = true ∨ _
    rw [← hf, ← Bool.or_eq_true]
    split_ifs with hc
    · simp [hc]
    · simp [hc]

/-- Two pools, one of them full, after an entry was removed from it and its place was taken again. -/
theorem members_within_capacity_two_pools :
    let s : Store Nat := [Move.create "p" { maxEntries := 2 } none, .create "q" {} none, .reserve 0,
      .reserve 1, .reserve 0, .remove true 0 0, .reserve 0].foldl Move.apply (.blank [])
    Run free (.blank []) s ∧ s.members 0 = [2, 3] ∧ s.reservations 0 = [0, 2, 3] ∧
      (s.members 0).Nodup := by
  intro s
  have hr : Run free (.blank []) s := Run.foldl _ _ (by simp [Move.Proper])
  exact ⟨hr, by decide, by decide, (members_within_capacity hr 0).1⟩

/-- A call that closes an entry by a removal through the open pool `q`. -/
structure Move.Closes (t : Store α) (m : Move α) (q : PoolId) (e : EntryId) : Prop where
  asked : m.removal? t = some (q, e)
  opened : (t.pool q).closed = false
  before : t.state e ≠ .closed
  after : (m.apply t).state e = .closed

/-- An entry that is closed and still listed was removed through another pool. -/
theorem Run.closed_elsewhere (h : Run allowed (.blank draws) s) {p : PoolId} {e : EntryId}
    (he : e ∈ s.members p) (hc : s.state e = .closed) :
    ∃ q t m, q ≠ p ∧ Run allowed (.blank draws) t ∧ m.Proper t ∧ allowed t m ∧ m.Closes t q e ∧
      Run allowed (m.apply t) s := by
  induction h with
  | refl => exact absurd he List.not_mem_nil
  | @step t h m proper ok ih =>
    by_cases hold : e ∈ t.members p ∧ t.state e = .closed
    · obtain ⟨q, u, n, hq, hu, hproper, hok, hn, hrest⟩ := ih hold.1 hold.2
      exact ⟨q, u, n, hq, hu, hproper, hok, hn, hrest.step m proper ok⟩
    by_cases hf : ∃ q, q ≠ p ∧ m.removal? t = some (q, e) ∧ (t.pool q).closed = false ∧
        t.state e ≠ .closed
    · obtain ⟨q, hq, hm, hopen, hx⟩ := hf
      exact ⟨q, t, m, hq, h, proper, ok, ⟨hm, hopen, hx, hc⟩, .refl⟩
    -- No removal of `e` through another pool takes place in this call, so that `e` stays open.
    have hmay : ∀ q x, m.removal? t = some (q, x) → (t.roster q).closed = false →
        t.state x ≠ .closed → x = e → q = p := by
      rintro q x hm hopen hx rfl
      by_contra hq
      exact hf ⟨q, hq, hm, hopen, hx⟩
    have hpath : Path (fun q x => x = e → q = p) t.registry (m.apply t).registry :=
      m.path t hmay
    have hkeep : (m.apply t).registry.Sound ∧
        (e ∈ (m.apply t).members p → (m.apply t).state e ≠ .closed) := by
      refine hpath.keeps (P := fun v => v.Sound ∧
        (e ∈ (v.roster p).members → (v.entry e).state ≠ .closed)) ?_ ⟨h.sound, ?_⟩
      · intro v w hs hv
        exact ⟨hs.sound hv.1, hs.listed_open hv.1 (fun q hq => hq rfl) hv.2⟩
      · intro he' hc'
        exact hold ⟨he', hc'⟩
    exact absurd hc (hkeep.2 he)

/-- An entry that its pool does not list is closed, and an entry that it lists is closed only by a
removal through another pool, which was open. -/
theorem unlisted_closed_listed_open (h : Run allowed (.blank draws) s) (p : PoolId) :
    (∀ e ∈ s.reservations p, e ∉ s.members p → s.state e = .closed) ∧
    ((s.pool p).closed = true → ∀ e ∈ s.reservations p, s.state e = .closed) ∧
    (∀ e ∈ s.members p, s.state e = .closed → ∃ q t m, q ≠ p ∧ Run allowed (.blank draws) t ∧
      m.Proper t ∧ allowed t m ∧ m.Closes t q e ∧ Run allowed (m.apply t) s) ∧
    ((∀ t m q e, allowed t m → m.removal? t = some (q, e) → e ∈ t.reservations q) →
      (s.tally p).closed = 0) := by
  have hv : s.registry.Sound := h.sound
  have hk : ∀ e ∈ s.reservations p, e ∉ s.members p → s.state e = .closed := by
    intro e he hm
    by_contra hc
    exact hm (hv.kept p e he hc)
  refine ⟨hk, ?_, fun e he hc => h.closed_elsewhere he hc, ?_⟩
  · intro hp e he
    have hm : s.members p = [] := hv.emptied p hp
    exact hk e he (hm ▸ List.not_mem_nil)
  · intro hown
    refine List.count_eq_zero.mpr fun hc => ?_
    obtain ⟨e, he, hx⟩ := List.mem_map.mp hc
    obtain ⟨q, t, m, hq, ht, proper, ok, hm, hrest⟩ := h.closed_elsewhere he hx
    have hqt : e ∈ t.reservations q := hown t m q e ok hm.asked
    have hqs : e ∈ s.reservations q := ((Run.refl.step m proper ok).trans hrest).mem_reservations hqt
    exact hq (hv.disjoint q p e hqs ((hv.listed p).subset he))

/-- A removal through another pool leaves a closed entry in a list. -/
theorem unlisted_closed_listed_open_foreign :
    let s : Store Nat := [Move.create "p" {} none, .create "q" {} none, .reserve 0, .reserve 0,
      .remove true 0 0, .remove true 1 1].foldl Move.apply (.blank [])
    Run free (.blank []) s ∧ s.members 0 = [1] ∧ s.state 1 = .closed ∧ s.state 0 = .closed := by
  intro s
  have hr : Run free (.blank []) s := Run.foldl _ _ (by simp [Move.Proper])
  exact ⟨hr, by decide, by decide, (unlisted_closed_listed_open hr 0).1 0 (by decide) (by decide)⟩

end ResourcePool
