import Mathlib.Data.List.Chain
import Mathlib.Tactic.Common
import ResourcePool.Entry

/-! The requests that an entry grants, and what those granted so far say of its state: it was enabled
before it was ever dealt with, and its hand-outs and returns take turns. -/
namespace ResourcePool

variable {α : Type}

namespace Entry

@[simp] theorem state_closed (v : Option α) : (closed v).state = .closed := rfl

@[simp] theorem value?_closed (v : Option α) : (closed v).value? = v := rfl

theorem closed_value? {x : Entry α} (hx : x.state = .closed) : closed x.value? = x := by
  cases x with
  | closed v => rfl
  | _ => simp [state] at hx

theorem isIdle_iff {x : Entry α} : x.isIdle = true ↔ x.state = .idle := by
  cases x <;> simp [isIdle, state]

theorem exists_of_isIdle {x : Entry α} (h : x.isIdle = true) : ∃ v, x = .idle v := by
  cases x with
  | idle v => exact ⟨v, rfl⟩
  | _ => simp [isIdle] at h

/-- Whether the entry says yes to a request. -/
def Grants (x : Entry α) (r : Request α) : Prop :=
  (x.answer r).1 = .ok true

theorem grants_enable_iff {x : Entry α} {v : α} {acquire : Bool} :
    x.Grants (.enable v acquire) ↔ x.state = .pending := by
  cases x <;> simp [Grants, answer, enable, state]

theorem grants_acquire_iff {x : Entry α} : x.Grants .acquire ↔ x.state = .idle := by
  cases x <;> simp [Grants, answer, tryAcquire, state]

theorem grants_release_iff {x : Entry α} : x.Grants .release ↔ x.state = .active := by
  cases x <;> simp [Grants, answer, tryRelease, state]

theorem grants_remove_iff {x : Entry α} : x.Grants .remove ↔ x.state ≠ .closed := by
  cases x <;> simp [Grants, answer, tryRemove, state]

theorem not_grants_of_closed {x : Entry α} (hx : x.state = .closed) (r : Request α) :
    ¬ x.Grants r := by
  cases r with
  | enable v acquire => simp [grants_enable_iff, hx]
  | acquire => simp [grants_acquire_iff, hx]
  | release => simp [grants_release_iff, hx]
  | remove => simp [grants_remove_iff, hx]

/-- An entry in use can be released or removed. -/
theorem eq_of_grants_of_active {x : Entry α} {r : Request α} (hx : x.state = .active)
    (h : x.Grants r) : r = .release ∨ r = .remove := by
  cases r with
  | enable v acquire => simp [grants_enable_iff, hx] at h
  | acquire => simp [grants_acquire_iff, hx] at h
  | release => exact .inl rfl
  | remove => exact .inr rfl

/-- A removal keeps the value. -/
theorem answer_remove {x : Entry α} (h : x.Grants .remove) :
    (x.answer .remove).2 = closed x.value? := by
  cases x with
  | closed v => simp [grants_remove_iff] at h
  | _ => rfl

/-- The state that a request leads to when it is granted. -/
def Request.target : Request α → EntryState
  | .enable _ atOnce => if atOnce then .active else .idle
  | .acquire => .active
  | .release => .idle
  | .remove => .closed

theorem state_answer {x : Entry α} {r : Request α} (h : x.Grants r) :
    (x.answer r).2.state = r.target := by
  cases r with
  | enable v acquire =>
    cases x <;> cases acquire <;> simp_all [Grants, answer, enable, state, Request.target]
  | _ =>
    cases x <;>
      simp_all [Grants, answer, tryAcquire, tryRelease, tryRemove, state, Request.target]

theorem target_ne_closed {r : Request α} (h : r ≠ .remove) : r.target ≠ .closed := by
  cases r with
  | enable v atOnce => cases atOnce <;> simp [Request.target]
  | remove => exact absurd rfl h
  | _ => simp [Request.target]

/-- The entry after it granted a list of requests, of which it refused none. -/
inductive Granted : List (Request α) → Entry α → Prop
  | reserved : Granted [] .pending
  | grant {rs : List (Request α)} {x : Entry α} {r : Request α} (h : Granted rs x)
      (hg : x.Grants r) : Granted (rs ++ [r]) (x.answer r).2

end Entry

/-- An entry goes out to a caller, or comes back. -/
inductive Dealing where
  | out
  | back
  deriving DecidableEq, Repr

/-- Enabling hands the entry out if the caller is to have it at once. -/
def Entry.Request.dealing? : Entry.Request α → Option Dealing
  | .enable _ atOnce => if atOnce then some .out else none
  | .acquire => some .out
  | .release => some .back
  | .remove => none

def dealings (rs : List (Entry.Request α)) : List Dealing :=
  rs.filterMap Entry.Request.dealing?

/-- Turns are taken, and the first one is a hand-out. -/
def Alternating (ds : List Dealing) : Prop :=
  ds.IsChain (· ≠ ·) ∧ ds.head? ≠ some .back

theorem Alternating.concat {ds : List Dealing} {d : Dealing} (h : Alternating ds)
    (hd : ds.getLast? ≠ some d) (hb : d = .back → ds ≠ []) : Alternating (ds ++ [d]) := by
  constructor
  · rw [List.isChain_append]
    refine ⟨h.1, List.isChain_singleton d, ?_⟩
    intro x hx y hy hxy
    rw [List.head?_singleton, Option.mem_some_iff] at hy
    rw [hxy, ← hy] at hx
    exact hd hx
  · cases ds with
    | nil =>
      intro h'
      exact hb (Option.some.inj h') rfl
    | cons a ds => exact h.2

namespace Entry

/-- What the dealings of an entry are like in each of its states. -/
structure Consistent (rs : List (Request α)) (st : EntryState) : Prop where
  alternating : Alternating (dealings rs)
  pending : st = .pending → rs = []
  idle : st = .idle → (dealings rs).getLast? ≠ some .out
  active : st = .active → (dealings rs).getLast? = some .out

theorem Consistent.grant {rs : List (Request α)} {x : Entry α} {r : Request α}
    (h : Consistent rs x.state) (hg : x.Grants r) : Consistent (rs ++ [r]) r.target := by
  have hc : dealings (rs ++ [r]) = dealings rs ++ r.dealing?.toList := by
    cases hr : r.dealing? <;> simp [dealings, hr]
  have ha : r.dealing? = none → Alternating (dealings (rs ++ [r])) := by
    intro hr
    rw [hc, hr, Option.toList_none, List.append_nil]
    exact h.alternating
  cases r with
  | enable v acquire =>
    obtain rfl := h.pending (grants_enable_iff.mp hg)
    cases acquire with
    | true =>
      have hd : Alternating (dealings [] ++ [.out]) :=
        h.alternating.concat (by simp [dealings]) (by simp)
      exact ⟨hc ▸ hd, by simp [Request.target], by simp [Request.target],
        by simp [dealings, Request.dealing?]⟩
    | false =>
      exact ⟨ha rfl, by simp [Request.target], by simp [dealings, Request.dealing?],
        by simp [Request.target]⟩
  | acquire =>
    have hl : (dealings rs).getLast? ≠ some .out := h.idle (grants_acquire_iff.mp hg)
    have hd : Alternating (dealings rs ++ [.out]) := h.alternating.concat hl (by simp)
    exact ⟨hc ▸ hd, by simp [Request.target], by simp [Request.target],
      by simp [hc, Request.dealing?]⟩
  | release =>
    have hl : (dealings rs).getLast? = some .out := h.active (grants_release_iff.mp hg)
    have hd : Alternating (dealings rs ++ [.back]) := by
      refine h.alternating.concat (by simp [hl]) fun _ hn => ?_
      simp [hn] at hl
    exact ⟨hc ▸ hd, by simp [Request.target], by simp [hc, Request.dealing?],
      by simp [Request.target]⟩
  | remove =>
    exact ⟨ha rfl, by simp [Request.target], by simp [Request.target], by simp [Request.target]⟩

namespace Granted

variable {rs : List (Request α)} {x : Entry α}

theorem consistent (h : Granted rs x) : Consistent rs x.state := by
  induction h with
  | reserved =>
    exact ⟨⟨List.isChain_nil, by simp [dealings]⟩, fun _ => rfl, by simp [dealings],
      by simp [state]⟩
  | grant _ hg ih =>
    rw [state_answer hg]
    exact ih.grant hg

/-- Unless it is closed, an entry is active just when it was handed out last. -/
theorem active_iff (h : Granted rs x) (hx : x.state ≠ .closed) :
    x.state = .active ↔ (dealings rs).getLast? = some .out := by
  constructor
  · exact h.consistent.active
  · intro hl
    cases hs : x.state with
    | pending =>
      rw [h.consistent.pending hs] at hl
      simp [dealings] at hl
    | idle => exact absurd hl (h.consistent.idle hs)
    | active => rfl
    | closed => exact absurd hs hx

/-- A value comes with the first request, and only an entry with a value is idle or active. -/
theorem enabled (h : Granted rs x) (hx : x.state = .idle ∨ x.state = .active) :
    ∃ v acquire, .enable v acquire ∈ rs := by
  induction h with
  | reserved => simp [state] at hx
  | @grant rs y r h hg ih =>
    have hy : (y.state = .idle ∨ y.state = .active) → ∃ v acquire, .enable v acquire ∈ rs ++ [r] := by
      intro hy
      obtain ⟨v, acquire, hv⟩ := ih hy
      exact ⟨v, acquire, List.mem_append_left _ hv⟩
    cases r with
    | enable v active => exact ⟨v, active, by simp⟩
    | acquire => exact hy (.inl (grants_acquire_iff.mp hg))
    | release => exact hy (.inr (grants_release_iff.mp hg))
    | remove => simp [state_answer hg, Request.target] at hx

/-- Each request was made to an entry that granted all the earlier ones. -/
theorem before (h : Granted rs x) {earlier later : List (Request α)} {r : Request α}
    (hrs : rs = earlier ++ r :: later) : ∃ y : Entry α, Granted earlier y ∧ y.Grants r := by
  induction h generalizing later with
  | reserved => simp at hrs
  | @grant rs y q h hg ih =>
    rcases List.eq_nil_or_concat later with rfl | ⟨later, b, rfl⟩
    · obtain ⟨rfl, hq⟩ := List.append_inj' hrs rfl
      obtain rfl := List.singleton_inj.mp hq
      exact ⟨y, h, hg⟩
    · rw [List.concat_eq_append, ← List.cons_append, ← List.append_assoc] at hrs
      exact ih (List.append_inj' hrs rfl).1

/-- Nothing is acquired or released before it was enabled. -/
theorem enabled_before (h : Granted rs x) {earlier later : List (Request α)} {r : Request α}
    (hrs : rs = earlier ++ r :: later) (hr : r = .acquire ∨ r = .release) :
    ∃ v acquire, .enable v acquire ∈ earlier := by
  obtain ⟨y, hy, hg⟩ := h.before hrs
  rcases hr with rfl | rfl
  · exact hy.enabled (.inl (grants_acquire_iff.mp hg))
  · exact hy.enabled (.inr (grants_release_iff.mp hg))

end Granted

end Entry

end ResourcePool
