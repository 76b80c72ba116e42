import Mathlib.Data.List.Dedup
import Mathlib.Data.List.Perm.Subperm
import ResourcePool.Proofs.Hinting
import ResourcePool.Proofs.LastReturn
import ResourcePool.Proofs.Sharing
import ResourcePool.Store.Readings

/-! Hints stay few: a pool keeps one for each number under which something was returned to it, and numbers
are used again as callers come and go. -/
namespace ResourcePool

variable {α : Type}

/-- A call is made by a caller who is there, or by one who is leaving. -/
def attended (s : Store α) (m : Move α) : Prop :=
  m.caller ∈ s.callers.numbers ∨ m.caller = .leaving

instance (s : Store α) (m : Move α) : Decidable (attended s m) :=
  inferInstanceAs (Decidable (_ ∨ _))

/-- The most callers that there were at once along a session that leads to `s`. -/
def mostCallers (log : List (Moved α)) (s : Store α) : Nat :=
  max (log.foldl (fun n x => max n x.1.callers.count) 0) s.callers.count

/-- The number under which a call gives something back to a pool. -/
def Call.returner? (p : PoolId) (s : Store α) : Call α → Option CallerId
  | release q c e => if q = p ∧ (s.release q c e).1 = .ok true then some c else none
  | _ => none

/-- The numbers under which something was given back to a pool. -/
def returners (p : PoolId) (calls : List (Called α)) : List CallerId :=
  calls.filterMap fun x => x.2.returner? p x.1

/-! ### Slots -/

namespace Hints

variable {h : Hints} {c k : CallerId} {e : EntryId}

/-- The callers who have a slot. -/
def callers (h : Hints) : List CallerId :=
  h.slots.map (·.1)

theorem length_callers (h : Hints) : h.callers.length = h.size :=
  List.length_map _

theorem callers_set (h : Hints) (c : CallerId) (e : EntryId) :
    (h.set c e).callers = c :: h.callers.filter (· != c) := by
  unfold callers set
  rw [List.map_cons, List.filter_map]
  rfl

theorem nodup_set (hn : h.callers.Nodup) : (h.set c e).callers.Nodup := by
  rw [callers_set]
  have hc : c ∉ h.callers.filter (· != c) := by simp
  exact List.nodup_cons.mpr ⟨hc, hn.filter _⟩

/-- Who has a slot keeps one. -/
theorem size_le_set (hn : h.callers.Nodup) : h.size ≤ (h.set c e).size := by
  have hsub : h.callers ⊆ (h.set c e).callers := by
    intro k hk
    rw [callers_set, List.mem_cons, List.mem_filter]
    by_cases hkc : k = c
    · exact .inl hkc
    · exact .inr ⟨hk, by simpa using hkc⟩
  have hle := (hn.subperm hsub).length_le
  rwa [length_callers, length_callers] at hle

theorem mem_callers_iff : c ∈ h.callers ↔ h.slots.lookup c ≠ none := by
  rw [Ne, List.lookup_eq_none_iff]
  unfold callers
  simp only [List.mem_map, not_forall, bne_iff_ne, ne_eq, not_not, exists_prop]
  constructor
  · rintro ⟨x, hx, rfl⟩
    exact ⟨x, hx, rfl⟩
  · rintro ⟨x, hx, rfl⟩
    exact ⟨x, hx, rfl⟩

end Hints

/-- A pool has at most one slot for each caller, and none when it is closed. -/
structure Pool.Tidy (x : Pool α) : Prop where
  nodup : x.hints.callers.Nodup
  emptied : x.closed = true → x.hints.slots = []

namespace Call

variable {s : Store α} {q : PoolId}

theorem tidy_apply (d : Call α) (h : (s.pool q).Tidy) : ((d.apply s).pool q).Tidy := by
  rcases d.hints_apply s q with ⟨hhints, hclosed⟩ | ⟨-, hnil⟩ | ⟨c, e, -, hopen, hhints⟩
  · refine ⟨hhints ▸ h.nodup, fun hc => ?_⟩
    rw [hhints]
    exact h.emptied (hclosed hc)
  · have hnone : ((d.apply s).pool q).hints.callers = [] := by
      unfold Hints.callers
      rw [hnil]
      rfl
    exact ⟨hnone ▸ List.nodup_nil, fun _ => hnil⟩
  · refine ⟨hhints ▸ Hints.nodup_set h.nodup, fun hc => ?_⟩
    rw [hopen] at hc
    exact absurd hc Bool.false_ne_true

/-- Slots are only given up as their pool is closed. -/
theorem size_hints_le {d : Call α} (h : (s.pool q).Tidy) (hd : d ≠ .close q) :
    (s.pool q).hints.size ≤ ((d.apply s).pool q).hints.size := by
  rcases d.hints_apply s q with ⟨hhints, -⟩ | ⟨hclose, -⟩ | ⟨c, e, -, -, hhints⟩
  · rw [hhints]
  · exact absurd hclose hd
  · rw [hhints]
    exact Hints.size_le_set h.nodup

end Call

namespace Trace

variable {s t : Store α} {calls : List (Called α)} {q : PoolId}

theorem tidy (h : Trace s calls t) (hs : (s.pool q).Tidy) : (t.pool q).Tidy := by
  refine h.keeps (P := fun u => (u.pool q).Tidy) ?_ (fun u c _ hu => c.tidy_apply hu) hs
  intro u v same hu
  have hbare : (v.pool q).bare.Tidy := same.pool q ▸ (⟨hu.nodup, hu.emptied⟩ : (u.pool q).bare.Tidy)
  exact ⟨hbare.nodup, hbare.emptied⟩

theorem size_hints_le (h : Trace s calls t) (hs : (s.pool q).Tidy)
    (hclose : ∀ x ∈ calls, x.2 ≠ .close q) : (s.pool q).hints.size ≤ (t.pool q).hints.size := by
  have hkeeps : (t.pool q).Tidy ∧ (s.pool q).hints.size ≤ (t.pool q).hints.size := by
    refine h.keeps (P := fun u => (u.pool q).Tidy ∧ (s.pool q).hints.size ≤ (u.pool q).hints.size) ?_ ?_
      ⟨hs, Nat.le_refl _⟩
    · intro u v same hu
      have htidy : (v.pool q).Tidy := (Trace.of_alike same).tidy hu.1
      have hbare := congrArg Pool.hints (same.pool q)
      have hhints : (v.pool q).hints = (u.pool q).hints := hbare
      exact ⟨htidy, hhints ▸ hu.2⟩
    · intro u c hc hu
      exact ⟨c.tidy_apply hu.1, hu.2.trans (c.size_hints_le hu.1 (hclose _ hc))⟩
  exact hkeeps.2

end Trace

/-! ### Who calls -/

/-- What a call on entries and pools has from the client's call that comes to it: the caller's number, and
that a pool is closed by closing it. -/
def Call.PartOf (m : Move α) : Call α → Prop
  | acquire _ c => c = m.caller
  | fulfil _ c _ _ => c = m.caller
  | release _ c _ => c = m.caller
  | close q => m = .close q
  | _ => True

namespace Move

variable {s : Store α}

theorem partOf_settleCalls {m : Move α} {p : PoolId} {c : CallerId} {e : EntryId} {creation : Creation α}
    (hc : c = m.caller) {x : Called α} (hx : x ∈ s.settleCalls p c e creation) : x.2.PartOf m := by
  cases creation with
  | value v => exact List.mem_singleton.mp hx ▸ hc
  | nothing => exact List.mem_singleton.mp hx ▸ trivial
  | refused reason => exact List.mem_singleton.mp hx ▸ trivial
  | panicked => exact absurd hx List.not_mem_nil

theorem partOf_putGuardCalls {m : Move α} {c : CallerId} {name : String} {g : Guard}
    (hc : c = m.caller) {x : Called α} (hx : x ∈ s.putGuardCalls c name g) : x.2.PartOf m := by
  unfold Store.putGuardCalls at hx
  cases hg : s.guard? name with
  | none =>
    rw [hg] at hx
    exact absurd hx List.not_mem_nil
  | some old =>
    rw [hg] at hx
    exact List.mem_singleton.mp hx ▸ hc

theorem partOf_of_mem_calls {m : Move α} {x : Called α} (hx : x ∈ m.calls s) : x.2.PartOf m := by
  cases m with
  | create | reserve | enable | remove => exact List.mem_singleton.mp hx ▸ trivial
  | acquire | release | close => exact List.mem_singleton.mp hx ▸ rfl
  | settle direct p c e creation => exact partOf_settleCalls rfl hx
  | lease direct p c name =>
    unfold calls at hx
    dsimp only at hx
    rcases List.mem_cons.mp hx with rfl | hx
    · rfl
    · split at hx
      · exact partOf_putGuardCalls rfl hx
      · exact absurd hx List.not_mem_nil
  | settleLease p c name e creation =>
    unfold calls at hx
    dsimp only at hx
    rcases List.mem_append.mp hx with hx | hx
    · exact partOf_settleCalls rfl hx
    · split at hx
      · exact partOf_putGuardCalls rfl hx
      · exact absurd hx List.not_mem_nil
  | dropGuard c name =>
    unfold calls at hx
    dsimp only at hx
    cases hg : s.guard? name with
    | none =>
      rw [hg] at hx
      exact absurd hx List.not_mem_nil
    | some g =>
      rw [hg] at hx
      exact List.mem_singleton.mp hx ▸ rfl
  | removeGuarded name =>
    unfold calls at hx
    dsimp only at hx
    cases hg : s.guard? name with
    | none =>
      rw [hg] at hx
      exact absurd hx List.not_mem_nil
    | some g =>
      rw [hg] at hx
      exact List.mem_singleton.mp hx ▸ trivial
  | _ => exact absurd hx List.not_mem_nil

end Move

/-! ### Sessions -/

theorem mostCallers_concat (log : List (Moved α)) (s u : Store α) (m : Move α) :
    mostCallers (log ++ [(s, m)]) u = max (mostCallers log s) u.callers.count := by
  unfold mostCallers
  rw [List.foldl_append]
  rfl

namespace Session

variable {allowed : Store α → Move α → Prop} {draws : List Nat} {s : Store α} {log : List (Moved α)}

/-- The numbers ever used are those below the most callers there were. -/
theorem numbered (h : Session allowed (.blank draws) log s) :
    s.callers.Numbered ∧ s.callers.fresh = mostCallers log s := by
  induction h with
  | start => exact ⟨.start, rfl⟩
  | @move log t h m proper ok ih =>
    obtain ⟨hnumbered, hfresh⟩ := Move.fresh_apply ih.1 m
    rw [mostCallers_concat, ← ih.2]
    exact ⟨hnumbered, hfresh⟩

/-- Entries are returned under numbers in use, or by who is leaving. -/
theorem returner_lt (h : Session attended (.blank draws) log s) {u : Store α} {q : PoolId} {c : CallerId}
    {e : EntryId} (hc : (u, .release q c e) ∈ callsOf log) : c < mostCallers log s ∨ c = .leaving := by
  induction h with
  | start => exact absurd hc List.not_mem_nil
  | @move log t h m proper ok ih =>
    rw [mostCallers_concat]
    rw [callsOf_concat] at hc
    rcases List.mem_append.mp hc with hc | hc
    · rcases ih hc with hlt | rfl
      · exact .inl (Nat.lt_of_lt_of_le hlt (Nat.le_max_left _ _))
      · exact .inr rfl
    · obtain rfl : c = m.caller := Move.partOf_of_mem_calls hc
      rcases ok with hlive | hleaving
      · have hlt := h.numbered.1.lt_fresh hlive
        rw [h.numbered.2] at hlt
        exact .inl (Nat.lt_of_lt_of_le hlt (Nat.le_max_left _ _))
      · exact .inr hleaving

theorem tidy (h : Session allowed (.blank draws) log s) (q : PoolId) : (s.pool q).Tidy := by
  have hblank : ((Store.blank draws : Store α).pool q).Tidy := by
    have hnone : (Store.blank draws : Store α).pool q = .absent := Store.pool_of_size_le _ (Nat.zero_le q)
    rw [hnone]
    exact ⟨List.nodup_nil, fun _ => rfl⟩
  exact h.history.trace.tidy hblank

end Session

theorem mem_returners {calls : List (Called α)} {q : PoolId} {c : CallerId} :
    c ∈ returners q calls ↔
      ∃ u e, (u, .release q c e) ∈ calls ∧ (u.release q c e).1 = .ok true := by
  unfold returners
  rw [List.mem_filterMap]
  constructor
  · rintro ⟨⟨u, d⟩, hd, hc⟩
    cases d with
    | release p k e =>
      dsimp only [Call.returner?] at hc
      split_ifs at hc with hp
      obtain ⟨rfl, hok⟩ := hp
      obtain rfl := Option.some.inj hc
      exact ⟨u, e, hd, hok⟩
    | _ => simp [Call.returner?] at hc
  · rintro ⟨u, e, hd, hok⟩
    exact ⟨(u, .release q c e), hd, if_pos ⟨rfl, hok⟩⟩

/-- Something was given back last under every number under which something was given back. -/
theorem lastReturned_ne_none_iff {calls : List (Called α)} {q : PoolId} {c : CallerId} :
    lastReturned calls q c ≠ none ↔ c ∈ returners q calls := by
  rw [mem_returners]
  constructor
  · intro h
    obtain ⟨e, he⟩ := Option.ne_none_iff_exists'.mp h
    obtain ⟨u, hu⟩ := exists_of_lastReturned he
    exact ⟨u, e, hu⟩
  · rintro ⟨u, e, hd, hok⟩ hnone
    have hmem : e ∈ calls.filterMap fun x => x.2.returned? q c x.1 :=
      List.mem_filterMap.mpr ⟨(u, .release q c e), hd, if_pos ⟨rfl, rfl, hok⟩⟩
    rw [List.getLast?_eq_none_iff.mp hnone] at hmem
    exact absurd hmem List.not_mem_nil

/-- The slots of an open pool that gives hints are those of the callers who gave something back to it. -/
theorem Session.mem_callers_iff {allowed : Store α → Move α → Prop} {draws : List Nat} {s : Store α}
    {log : List (Moved α)} (h : Session allowed (.blank draws) log s) {q : PoolId}
    (hopen : (s.pool q).closed = false) (hc : (s.pool q).settings.cached = true) {c : CallerId} :
    c ∈ (s.pool q).hints.callers ↔ c ∈ returners q (callsOf log) := by
  have hlookup := h.history.recalls.hints q hopen hc c
  rw [Hints.mem_callers_iff, hlookup]
  exact lastReturned_ne_none_iff

/-- A pool that gives hints has one slot for each number under which something was given back to it, and none
when it is closed. These are numbers below the most callers that there were at once, and that of who is
leaving. Only closing the pool takes slots away. -/
theorem slots_stay_few {draws : List Nat} {s : Store α} {log : List (Moved α)}
    (h : Session attended (.blank draws) log s) {q : PoolId} (hc : (s.pool q).settings.cached = true) :
    let size := (s.pool q).hints.size
    let numbers := returners q (callsOf log)
    (s.metrics q).cachedCallers = .ofNat size ∧
    size ≤ mostCallers log s + 1 ∧
    (.leaving ∉ numbers → size ≤ mostCallers log s) ∧
    (∀ x ∈ (s.pool q).hints.slots, x.1 < mostCallers log s ∨ x.1 = .leaving) ∧
    (∀ m : Move α, size ≤ ((m.apply s).pool q).hints.size ∨
      m = .close q ∧ ((m.apply s).pool q).hints.size = 0) ∧
    size = if (s.pool q).closed then 0 else numbers.dedup.length := by
  intro size numbers
  have htidy := h.tidy q
  have hsize : (s.pool q).hints.callers.length = size := Hints.length_callers _
  have hopen : ∀ c ∈ (s.pool q).hints.callers, (s.pool q).closed = false := by
    intro c hmem
    by_contra hclosed
    rw [Bool.not_eq_false] at hclosed
    simp [Hints.callers, htidy.emptied hclosed] at hmem
  have hreturned : ∀ c ∈ (s.pool q).hints.callers, c ∈ numbers :=
    fun c hmem => (h.mem_callers_iff (hopen c hmem) hc).mp hmem
  have hkeys : ∀ c ∈ (s.pool q).hints.callers, c < mostCallers log s ∨ c = .leaving := by
    intro c hmem
    obtain ⟨u, e, hrelease, -⟩ := mem_returners.mp (hreturned c hmem)
    exact h.returner_lt hrelease
  refine ⟨rfl, ?_, ?_, ?_, ?_, ?_⟩
  · have hsub : (s.pool q).hints.callers ⊆ .leaving :: List.range (mostCallers log s) := by
      intro c hmem
      rcases hkeys c hmem with hlt | rfl
      · exact List.mem_cons_of_mem _ (List.mem_range.mpr hlt)
      · exact List.mem_cons_self
    have hle := (htidy.nodup.subperm hsub).length_le
    rwa [hsize, List.length_cons, List.length_range] at hle
  · intro hnever
    have hsub : (s.pool q).hints.callers ⊆ List.range (mostCallers log s) := by
      intro c hmem
      rcases hkeys c hmem with hlt | rfl
      · exact List.mem_range.mpr hlt
      · exact absurd (hreturned _ hmem) hnever
    have hle := (htidy.nodup.subperm hsub).length_le
    rwa [hsize, List.length_range] at hle
  · intro x hx
    exact hkeys x.1 (List.mem_map_of_mem hx)
  · intro m
    by_cases hm : m = .close q
    · have hnil : ((m.apply s).pool q).hints.slots = [] := hm ▸ s.slots_close q
      exact .inr ⟨hm, congrArg List.length hnil⟩
    · refine .inl ((m.trace s).size_hints_le htidy fun x hx hclose => hm ?_)
      have hpart := Move.partOf_of_mem_calls hx
      rw [hclose] at hpart
      exact hpart
  · cases hclosed : (s.pool q).closed with
    | true => exact congrArg List.length (htidy.emptied hclosed)
    | false =>
      have hsame : ∀ c, c ∈ (s.pool q).hints.callers ↔ c ∈ numbers.dedup := by
        intro c
        rw [List.mem_dedup]
        exact h.mem_callers_iff hclosed hc
      have hperm := (List.perm_ext_iff_of_nodup htidy.nodup numbers.nodup_dedup).mpr hsame
      exact hsize.symm.trans hperm.length_eq

/-- A caller returns an entry and leaves, and the next one under its number gives the entry back while leaving
itself. -/
theorem slots_stay_few_leaving :
    let ms : List (Move Nat) := [.create "p" { cached := true } none, .reserve 0, .enable 0 7 false,
      .enter "a", .acquire true 0 1, .release true 0 1 0, .leave "a", .enter "b", .acquire true 0 1,
      .leave "b", .release true 0 .leaving 0]
    let log := Move.log (.blank []) ms
    let s := ms.foldl Move.apply (.blank [])
    Session attended (.blank []) log s ∧ (s.pool 0).settings.cached = true ∧ mostCallers log s = 2 ∧
      returners 0 (callsOf log) = [1, .leaving] ∧ (s.pool 0).hints.size = 2 := by
  intro ms log s
  have hsession : Session attended (.blank []) log s := .of_along _ ms (by decide +kernel)
  have hc : (s.pool 0).settings.cached = true := by decide +kernel
  have hclosed : (s.pool 0).closed = false := by decide +kernel
  have hnumbers : returners 0 (callsOf log) = [1, .leaving] := by decide +kernel
  obtain ⟨-, -, -, -, -, hsize⟩ := slots_stay_few hsession hc
  rw [hclosed, hnumbers] at hsize
  exact ⟨hsession, hc, by decide +kernel, hnumbers, hsize⟩

/-! ### Programs -/

namespace Run

/-- One caller's calls are attended while it is there, or leaving. -/
theorem attended_of_made {c : CallerId} {s t : Store α} (h : Run (made c) s t)
    (hc : c ∈ s.callers.numbers ∨ c = .leaving) : Run attended s t := by
  induction h with
  | refl => exact .refl
  | @step t h m proper ok ih =>
    have hcallers : t.callers = s.callers := h.by_made.callers
    refine ih.step m proper ?_
    have hcaller : m.caller = c ∨ m.caller = .main := by
      cases m with
      | enter | leave => exact ok.elim
      | acquire | settle | release | lease | settleLease | dropGuard => exact .inl ok
      | _ => exact .inr rfl
    rcases hcaller with hm | hm
    · rw [attended, hm, hcallers]
      exact hc
    · rw [attended, hm]
      exact .inl List.mem_cons_self

end Run

namespace Program

theorem attended_command (v : View) (s : Store String) (command : Command) :
    Run attended s (command.execute v s).2 := by
  have hmain : ∀ u : Store String, CallerId.main ∈ u.callers.numbers := fun u => List.mem_cons_self
  cases command with
  | run caller? step =>
    cases caller? with
    | none => exact (run_step v .main step s).attended_of_made (.inl (hmain s))
    | some name =>
      have henter : Run attended s { s with callers := (s.callers.enter name).2 } :=
        .one (.enter name) trivial (.inl (hmain s))
      have hlive : (s.callers.enter name).1 ∈ (s.callers.enter name).2.numbers := by
        have hfind := Callers.find?_enter_self s.callers name
        obtain ⟨before, after, hlookup, -⟩ := List.lookup_eq_some_iff.mp hfind
        refine List.mem_cons_of_mem _ (List.mem_map.mpr ⟨(name, (s.callers.enter name).1), ?_, rfl⟩)
        rw [hlookup]
        simp
      exact henter.trans ((run_step v _ step _).attended_of_made (.inl hlive))
  | leave name steps =>
    unfold Command.execute
    dsimp only
    split
    · exact .refl
    · next callers hc =>
      have hleave : Run attended s { s with callers } :=
        .of_apply_eq (.leave name) trivial (.inl (hmain s)) (by simp [Move.apply, hc])
      exact hleave.trans ((run_runAll v .leaving steps _).attended_of_made (.inr rfl))

/-- All calls of a program are made by callers who are there, or who are leaving. -/
theorem attended_execute (v : View) (commands : List Command) (s : Store String) :
    Run attended s (execute v commands s).2 := by
  induction commands generalizing s with
  | nil => exact .refl
  | cons command commands ih => exact (attended_command v s command).trans (ih _)

end Program

end ResourcePool
