import ResourcePool.Proofs.Detector
import ResourcePool.Proofs.Session

/-!
Consultations of a detector by age: requests of all three kinds at any times, and what can be read off the answers.
A resource is tracked from an acquisition that was accepted to a release that was, and reported at most once in
between.
-/
namespace ResourcePool

/-- A request to a detector, with the time at which it was made and the answer to it. -/
structure Exchange where
  time : Nat
  request : Detector.Request
  answer : Detector.Answer

namespace Exchange

/-- The resource that is tracked from an accepted acquisition on. -/
def begun? (x : Exchange) : Option Nat :=
  match x.request, x.answer with
  | .acquired r _, .done true => some r
  | _, _ => none

/-- The resource that is no longer tracked after an accepted release. -/
def ended? (x : Exchange) : Option Nat :=
  match x.request, x.answer with
  | .released r, .done true => some r
  | _, _ => none

/-- The resources that a pass reports. -/
def reported (x : Exchange) : List Nat :=
  match x.answer with
  | .leaks found => found.filterMap (·.resource?)
  | .done _ => []

section answers

variable (time r : Nat) (description : String) (found : List Leak)

@[simp] theorem begun?_acquired :
    begun? { time, request := .acquired r description, answer := .done true } = some r := rfl

@[simp] theorem ended?_acquired (answer : Detector.Answer) :
    ended? { time, request := .acquired r description, answer } = none := rfl

@[simp] theorem begun?_released (answer : Detector.Answer) :
    begun? { time, request := .released r, answer } = none := rfl

@[simp] theorem ended?_released :
    ended? { time, request := .released r, answer := .done true } = some r := rfl

@[simp] theorem begun?_sweep (answer : Detector.Answer) :
    begun? { time, request := .sweep, answer } = none := rfl

@[simp] theorem ended?_sweep (answer : Detector.Answer) :
    ended? { time, request := .sweep, answer } = none := rfl

@[simp] theorem reported_done (request : Detector.Request) (accepted : Bool) :
    reported { time, request, answer := .done accepted } = [] := rfl

@[simp] theorem reported_leaks (request : Detector.Request) :
    reported { time, request, answer := .leaks found } = found.filterMap (·.resource?) := rfl

end answers

theorem acquired_of_begun {x : Exchange} {r : Nat} (h : x.begun? = some r) :
    ∃ description, x.request = .acquired r description ∧ x.answer = .done true := by
  obtain ⟨time, request, answer⟩ := x
  unfold begun? at h
  split at h
  · next i description hrequest hanswer =>
    obtain rfl : i = r := Option.some.inj h
    exact ⟨description, hrequest, hanswer⟩
  · exact absurd h.symm (Option.some_ne_none r)

theorem reported_of_done {x : Exchange} {accepted : Bool} (h : x.answer = .done accepted) : x.reported = [] := by
  rw [reported, h]

theorem reported_of_leaks {x : Exchange} {found : List Leak} (h : x.answer = .leaks found) :
    x.reported = found.filterMap (·.resource?) := by
  rw [reported, h]

/-- A pass begins and ends nothing. -/
theorem ended?_of_reported {x : Exchange} {r : Nat} (h : r ∈ x.reported) : x.ended? = none := by
  obtain ⟨time, request, answer⟩ := x
  cases answer with
  | done accepted => exact absurd h List.not_mem_nil
  | leaks found => cases request <;> rfl

end Exchange

/-- Requests one after the other, to a detector that is `d` at first. -/
inductive Consulted (d : Detector) : List Exchange → Detector → Prop
  | start : Consulted d [] d
  | ask {log : List Exchange} {u : Detector} (h : Consulted d log u) (time : Nat)
      (request : Detector.Request) :
      Consulted d (log ++ [{ time, request, answer := (u.answer time request).1 }])
        (u.answer time request).2

/-- Every exchange was with the detector that the earlier ones had led to. -/
theorem Consulted.split {d u : Detector} {log before after : List Exchange} {x : Exchange}
    (h : Consulted d log u) (hlog : log = before ++ x :: after) :
    ∃ v, Consulted d before v ∧ x.answer = (v.answer x.time x.request).1 := by
  induction h generalizing after with
  | start => exact absurd hlog.symm (List.append_ne_nil_of_right_ne_nil before (List.cons_ne_nil x after))
  | ask h time request ih =>
    rcases List.eq_nil_or_concat after with rfl | ⟨after, y, rfl⟩
    · obtain ⟨rfl, hx⟩ := List.append_inj' hlog rfl
      obtain rfl := List.singleton_inj.mp hx
      exact ⟨_, h, rfl⟩
    · rw [List.concat_eq_append, ← List.cons_append, ← List.append_assoc] at hlog
      exact ih (List.append_inj' hlog rfl).1

/-- A resource is tracked: its acquisition was accepted, and no release since then. -/
def Tracked (log : List Exchange) (r : Nat) : Prop :=
  Since (fun x => x.begun? = some r) (fun x => x.ended? = some r) log

/-- A resource is tracked, and the acquisition that its tracking began with has a property. -/
def Held (P : Exchange → Prop) (log : List Exchange) (r : Nat) : Prop :=
  Since (fun x => x.begun? = some r ∧ P x) (fun x => x.begun? = some r ∨ x.ended? = some r) log

/-- A resource was reported, and no acquisition of it was accepted since then. -/
def Accused (log : List Exchange) (r : Nat) : Prop :=
  Since (fun x => r ∈ x.reported) (fun x => x.begun? = some r) log

theorem Held.tracked {P : Exchange → Prop} {log : List Exchange} {r : Nat} (h : Held P log r) :
    Tracked log r := by
  obtain ⟨before, x, after, hlog, hx, hafter⟩ := h
  exact ⟨before, x, after, hlog, hx.1, fun y hy he => hafter y hy (.inr he)⟩

theorem held_iff_tracked {P : Exchange → Prop} {log : List Exchange} {r : Nat} (hP : ∀ x, P x) :
    Held P log r ↔ Tracked log r := by
  unfold Held Tracked
  induction log using List.reverseRecOn with
  | nil => exact iff_of_false Since.not_nil Since.not_nil
  | append_singleton log x ih =>
    rw [Since.concat_iff, Since.concat_iff, ih]
    by_cases hx : x.begun? = some r
    · exact iff_of_true (.inl ⟨hx, hP x⟩) (.inl hx)
    · simp [hx]

theorem Since.append {β : Type} {begins ends : β → Prop} {log more : List β} (h : Since begins ends log)
    (hmore : ∀ x ∈ more, ¬ ends x) : Since begins ends (log ++ more) := by
  obtain ⟨before, x, after, rfl, hx, hafter⟩ := h
  refine ⟨before, x, after ++ more, by simp, hx, fun y hy => ?_⟩
  rcases List.mem_append.mp hy with hy | hy
  · exact hafter y hy
  · exact hmore y hy

/-- What a detector by age keeps of the exchanges so far. -/
structure Remembers (held : List (Nat × Holding)) (log : List Exchange) : Prop where
  apart : (held.map (·.1)).Nodup
  tracked : ∀ r, r ∈ held.map (·.1) ↔ Tracked log r
  origin : ∀ r k, (r, k) ∈ held → ∀ P, Held P log r ↔
    P { time := k.since, request := .acquired r k.description, answer := .done true }
  reported : ∀ r k, (r, k) ∈ held → (k.reported = true ↔ Accused log r)
  balance : held.length + (log.filterMap Exchange.ended?).length = (log.filterMap Exchange.begun?).length

namespace Remembers

variable {held : List (Nat × Holding)} {log : List Exchange} {x : Exchange} {r : Nat}

theorem nil : Remembers [] [] where
  apart := List.nodup_nil
  tracked _ := iff_of_false List.not_mem_nil Since.not_nil
  origin _ _ h := absurd h List.not_mem_nil
  reported _ _ h := absurd h List.not_mem_nil
  balance := rfl

/-- An exchange that begins, ends and reports nothing. -/
theorem idle (h : Remembers held log) (hb : x.begun? = none) (he : x.ended? = none) (hr : x.reported = []) :
    Remembers held (log ++ [x]) where
  apart := h.apart
  tracked r := by simp [Tracked, Since.concat_iff, hb, he, h.tracked r]
  origin r k hk P := by
    rw [← h.origin r k hk P]
    simp [Held, Since.concat_iff, hb, he]
  reported r k hk := by
    rw [h.reported r k hk]
    simp [Accused, Since.concat_iff, hb, hr]
  balance := by simpa [hb, he] using h.balance

/-- An acquisition of what is not tracked. -/
theorem acquired (h : Remembers held log) (hr : r ∉ held.map (·.1)) (now : Nat) (description : String) :
    Remembers (held ++ [(r, { since := now, description })])
      (log ++ [{ time := now, request := .acquired r description, answer := .done true }]) where
  apart := Detector.nodup_concat h.apart hr _
  tracked i := by
    rw [List.map_append, List.mem_append, h.tracked i, or_comm]
    simp [Tracked, Since.concat_iff, eq_comm]
  origin i k hk P := by
    rcases List.mem_append.mp hk with hk | hk
    · have hne : r ≠ i := fun hri => hr (hri ▸ List.mem_map_of_mem hk)
      rw [← h.origin i k hk P]
      simp [Held, Since.concat_iff, hne]
    · obtain ⟨rfl, rfl⟩ := Prod.mk.inj (List.mem_singleton.mp hk)
      simp [Held, Since.concat_iff]
  reported i k hk := by
    rcases List.mem_append.mp hk with hk | hk
    · have hne : r ≠ i := fun hri => hr (hri ▸ List.mem_map_of_mem hk)
      rw [h.reported i k hk]
      simp [Accused, Since.concat_iff, hne]
    · obtain ⟨rfl, rfl⟩ := Prod.mk.inj (List.mem_singleton.mp hk)
      simp [Accused, Since.concat_iff]
  balance := by
    have hb := h.balance
    simp only [List.filterMap_append, List.filterMap_cons, List.filterMap_nil, Exchange.begun?_acquired,
      Exchange.ended?_acquired, List.length_append, List.length_cons, List.length_nil]
    omega

/-- A release of what is tracked. -/
theorem released (h : Remembers held log) (hr : r ∈ held.map (·.1)) (now : Nat) :
    Remembers (held.filter (·.1 != r))
      (log ++ [{ time := now, request := .released r, answer := .done true }]) where
  apart := h.apart.sublist (List.filter_sublist.map _)
  tracked i := by
    rw [Detector.map_fst_filter, List.mem_filter, h.tracked i]
    simp [Tracked, Since.concat_iff, ne_comm]
  origin i k hk P := by
    obtain ⟨hk, hne⟩ := List.mem_filter.mp hk
    have hne : r ≠ i := fun hri => (bne_iff_ne.mp hne) hri.symm
    rw [← h.origin i k hk P]
    simp [Held, Since.concat_iff, hne]
  reported i k hk := by
    rw [h.reported i k (List.mem_of_mem_filter hk)]
    simp [Accused, Since.concat_iff]
  balance := by
    have hb := h.balance
    have hlen : (held.filter (·.1 != r)).length + 1 = held.length := by
      have hkeys : ((held.filter (·.1 != r)).map (·.1)).length = ((held.map (·.1)).erase r).length := by
        rw [h.apart.erase_eq_filter, Detector.map_fst_filter]
      rw [List.length_map, List.length_erase_of_mem hr, List.length_map] at hkeys
      have hpos : 0 < held.length := by simpa using List.length_pos_of_mem hr
      omega
    simp only [List.filterMap_append, List.filterMap_cons, List.filterMap_nil, Exchange.begun?_released,
      Exchange.ended?_released, List.length_append, List.length_cons, List.length_nil]
    omega

/-- A pass. -/
theorem swept (h : Remembers held log) (maxAge now : Nat) :
    Remembers (held.map fun (r, k) => (r, { k with reported := k.reported || Detector.isDue maxAge now k }))
      (log ++ [{ time := now, request := .sweep, answer := .leaks ((Detector.expiry maxAge held).sweep now).1 }])
    where
  apart := by
    rw [List.map_map]
    exact h.apart
  tracked i := by
    rw [List.map_map]
    refine (h.tracked i).trans ?_
    simp [Tracked, Since.concat_iff]
  origin i k hk P := by
    obtain ⟨⟨j, l⟩, hl, hjl⟩ := List.mem_map.mp hk
    obtain ⟨rfl, rfl⟩ := Prod.mk.inj hjl
    rw [← h.origin j l hl P]
    simp [Held, Since.concat_iff]
  reported i k hk := by
    obtain ⟨⟨j, l⟩, hl, hjl⟩ := List.mem_map.mp hk
    obtain ⟨rfl, rfl⟩ := Prod.mk.inj hjl
    rw [Bool.or_eq_true, h.reported j l hl, ← Detector.exists_mem_sweep_iff h.apart hl]
    simp [Accused, Since.concat_iff, or_comm]
  balance := by
    have hb := h.balance
    simpa [List.filterMap_cons] using hb

end Remembers

namespace Consulted

variable {maxAge : Nat} {log before between after : List Exchange} {d : Detector} {x y : Exchange} {r : Nat}

theorem remembers (h : Consulted (.expiry maxAge []) log d) :
    ∃ held, d = .expiry maxAge held ∧ Remembers held log := by
  induction h with
  | start => exact ⟨[], rfl, .nil⟩
  | ask _ time request ih =>
    obtain ⟨held, rfl, hr⟩ := ih
    cases request with
    | acquired r description =>
      unfold Detector.answer
      dsimp only
      by_cases hm : r ∈ held.map (·.1)
      · rw [Detector.acquired_of_mem hm]
        exact ⟨held, rfl, hr.idle rfl rfl rfl⟩
      · rw [Detector.acquired_of_not_mem hm]
        exact ⟨_, rfl, hr.acquired hm time description⟩
    | released r =>
      unfold Detector.answer
      dsimp only
      by_cases hm : r ∈ held.map (·.1)
      · rw [Detector.released_of_mem hm]
        exact ⟨_, rfl, hr.released hm time⟩
      · rw [Detector.released_of_not_mem hm]
        exact ⟨held, rfl, hr.idle rfl rfl rfl⟩
    | sweep => exact ⟨_, rfl, hr.swept maxAge time⟩

/-- What is tracked, by how often tracking began and ended. -/
theorem tracked? (h : Consulted (.expiry maxAge []) log d) : ∃ n, d.tracked? = some n ∧
    n + (log.filterMap Exchange.ended?).length = (log.filterMap Exchange.begun?).length := by
  obtain ⟨held, rfl, hr⟩ := h.remembers
  exact ⟨held.length, rfl, hr.balance⟩

/-- Every exchange was with a detector that remembered the earlier ones. -/
theorem exists_remembers (h : Consulted (.expiry maxAge []) log d) (hlog : log = before ++ x :: after) :
    ∃ held, Remembers held before ∧
      x.answer = ((Detector.expiry maxAge held).answer x.time x.request).1 := by
  obtain ⟨v, hv, ha⟩ := h.split hlog
  obtain ⟨held, rfl, hr⟩ := hv.remembers
  exact ⟨held, hr, ha⟩

/-- An acquisition is accepted of what is not tracked. -/
theorem answer_acquired (h : Consulted (.expiry maxAge []) log d) (hlog : log = before ++ x :: after)
    {description : String} (hx : x.request = .acquired r description) :
    ∃ accepted, x.answer = .done accepted ∧ (accepted = true ↔ ¬ Tracked before r) := by
  obtain ⟨held, hr, ha⟩ := h.exists_remembers hlog
  rw [hx] at ha
  refine ⟨((Detector.expiry maxAge held).acquired x.time r description).1, ha, ?_⟩
  rw [← hr.tracked r]
  by_cases hm : r ∈ held.map (·.1)
  · rw [Detector.acquired_of_mem hm]
    exact iff_of_false Bool.false_ne_true (not_not_intro hm)
  · rw [Detector.acquired_of_not_mem hm]
    exact iff_of_true rfl hm

/-- A release is accepted of what is tracked. -/
theorem answer_released (h : Consulted (.expiry maxAge []) log d) (hlog : log = before ++ x :: after)
    (hx : x.request = .released r) :
    ∃ accepted, x.answer = .done accepted ∧ (accepted = true ↔ Tracked before r) := by
  obtain ⟨held, hr, ha⟩ := h.exists_remembers hlog
  rw [hx] at ha
  refine ⟨((Detector.expiry maxAge held).released r).1, ha, ?_⟩
  rw [← hr.tracked r]
  exact Detector.isSome_lookup_iff

/-- A pass reports each resource once, and as it was described when it was acquired. -/
theorem answer_sweep (h : Consulted (.expiry maxAge []) log d) (hlog : log = before ++ x :: after)
    (hx : x.request = .sweep) : ∃ found, x.answer = .leaks found ∧ (found.map (·.resource?)).Nodup ∧
      ∀ leak ∈ found, ∃ r, leak.resource? = some r ∧ Tracked before r ∧
        Held (fun y => y.request = .acquired r leak.description ∧ leak.heldFor = x.time - y.time)
          before r := by
  obtain ⟨held, hr, ha⟩ := h.exists_remembers hlog
  rw [hx] at ha
  refine ⟨((Detector.expiry maxAge held).sweep x.time).1, ha, ?_, ?_⟩
  · have hkeys : ((Detector.expiry maxAge held).sweep x.time).1.map (·.resource?) =
        ((held.filter fun k => Detector.isDue maxAge x.time k.2).map (·.1)).map some := by
      rw [Detector.sweep, List.map_map, List.map_map]
      rfl
    rw [hkeys]
    exact (hr.apart.sublist (List.filter_sublist.map _)).map (fun _ _ => Option.some.inj)
  · intro leak hleak
    obtain ⟨⟨r, k⟩, hk, rfl⟩ := List.mem_map.mp hleak
    have hmem : (r, k) ∈ held := List.mem_of_mem_filter hk
    exact ⟨r, rfl, (hr.tracked r).mp (List.mem_map_of_mem hmem), (hr.origin r k hmem _).mpr ⟨rfl, rfl⟩⟩

/-- What an exchange reports, by the exchanges before it. -/
theorem mem_reported_iff (h : Consulted (.expiry maxAge []) log d) (hlog : log = before ++ x :: after) :
    r ∈ x.reported ↔
      x.request = .sweep ∧ Held (fun y => maxAge ≤ x.time - y.time) before r ∧ ¬ Accused before r := by
  obtain ⟨held, hr, ha⟩ := h.exists_remembers hlog
  cases hx : x.request with
  | acquired i description =>
    rw [hx] at ha
    have hdone : x.answer = .done ((Detector.expiry maxAge held).acquired x.time i description).1 := ha
    simp [Exchange.reported_of_done hdone]
  | released i =>
    rw [hx] at ha
    have hdone : x.answer = .done ((Detector.expiry maxAge held).released i).1 := ha
    simp [Exchange.reported_of_done hdone]
  | sweep =>
    rw [hx] at ha
    have hleaks : x.answer = .leaks ((Detector.expiry maxAge held).sweep x.time).1 := ha
    rw [Exchange.reported_of_leaks hleaks, List.mem_filterMap, eq_self, true_and]
    by_cases hm : r ∈ held.map (·.1)
    · obtain ⟨⟨i, k⟩, hk, rfl⟩ := List.mem_map.mp hm
      rw [Detector.exists_mem_sweep_iff hr.apart hk, hr.origin i k hk, ← hr.reported i k hk]
      simp [Detector.isDue, and_comm]
    · refine iff_of_false (fun hf => hm ?_) fun hf => hm ((hr.tracked r).mpr hf.1.tracked)
      obtain ⟨leak, hleak, hi⟩ := hf
      obtain ⟨k, hk, rfl⟩ := List.mem_map.mp hleak
      exact Option.some.inj hi ▸ List.mem_map_of_mem (List.mem_of_mem_filter hk)

/-- Between two reports of a resource, its release and after that its acquisition were accepted. -/
theorem released_acquired_between (h : Consulted (.expiry maxAge []) log d)
    (hlog : log = before ++ x :: between ++ y :: after) (hx : r ∈ x.reported) (hy : r ∈ y.reported) :
    ∃ (b₁ b₂ b₃ : List Exchange) (z w : Exchange), between = b₁ ++ z :: b₂ ++ w :: b₃ ∧
      z.ended? = some r ∧ w.begun? = some r := by
  obtain ⟨-, -, hclear⟩ := (h.mem_reported_iff hlog).mp hy
  have hlogx : log = before ++ x :: (between ++ y :: after) := by rw [hlog, List.append_assoc, List.cons_append]
  obtain ⟨-, hheld, -⟩ := (h.mem_reported_iff hlogx).mp hx
  -- Had it not been acquired anew, it would have stayed reported.
  have hbegun : ∃ w ∈ between, w.begun? = some r := by
    by_contra hnone
    exact hclear ⟨before, x, between, rfl, hx, fun w hw hb => hnone ⟨w, hw, hb⟩⟩
  obtain ⟨w, hw, hb⟩ := hbegun
  obtain ⟨b, b₃, rfl⟩ := List.append_of_mem hw
  -- Had it not been released before that, it would have been tracked, and not acquired.
  have htracked : Tracked (before ++ [x]) r := by
    refine hheld.tracked.append fun z hz => ?_
    rw [List.mem_singleton.mp hz, Exchange.ended?_of_reported hx]
    exact (Option.some_ne_none r).symm
  have hended : ∃ z ∈ b, z.ended? = some r := by
    by_contra hnone
    have hstill : Tracked (before ++ [x] ++ b) r := htracked.append fun z hz he => hnone ⟨z, hz, he⟩
    have hlogw : log = before ++ [x] ++ b ++ w :: (b₃ ++ y :: after) := by simp [hlog]
    obtain ⟨description, hrequest, hanswer⟩ := Exchange.acquired_of_begun hb
    obtain ⟨accepted, ha, haccepted⟩ := h.answer_acquired hlogw hrequest
    obtain rfl : true = accepted := Detector.Answer.done.inj (hanswer.symm.trans ha)
    exact haccepted.mp rfl hstill
  obtain ⟨z, hz, he⟩ := hended
  obtain ⟨b₁, b₂, rfl⟩ := List.append_of_mem hz
  exact ⟨b₁, b₂, b₃, z, w, rfl, he, hb⟩

end Consulted

end ResourcePool
