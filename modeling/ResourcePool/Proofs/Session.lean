import ResourcePool.Proofs.History

/-! Sessions: the calls that clients themselves make along a run, each with the store that it finds, and what
can be said of a session from the calls since some other call. -/
namespace ResourcePool

variable {α : Type}

/-- A client's call, after the store that it is made on. -/
abbrev Moved (α : Type) := Store α × Move α

instance (s : Store α) (m : Move α) : Decidable (free s m) :=
  isTrue trivial

/-- The calls of clients from `s` on, each being one that `allowed` admits, and where they lead. -/
inductive Session (allowed : Store α → Move α → Prop) (s : Store α) : List (Moved α) → Store α → Prop
  | start : Session allowed s [] s
  | move {log : List (Moved α)} {t : Store α} (h : Session allowed s log t) (m : Move α)
      (proper : m.Proper t) (ok : allowed t m) : Session allowed s (log ++ [(t, m)]) (m.apply t)

/-- The session of calls in a row. -/
def Move.log (s : Store α) : List (Move α) → List (Moved α)
  | [] => []
  | m :: ms => (s, m) :: Move.log (m.apply s) ms

theorem Move.map_snd_log (s : Store α) (ms : List (Move α)) : (Move.log s ms).map (·.2) = ms := by
  induction ms generalizing s with
  | nil => rfl
  | cons m ms ih => exact congrArg (m :: ·) (ih _)

/-- The calls on entries and pools that a session comes to. -/
def callsOf (log : List (Moved α)) : List (Called α) :=
  log.flatMap fun x => x.2.calls x.1

theorem callsOf_concat (log : List (Moved α)) (s : Store α) (m : Move α) :
    callsOf (log ++ [(s, m)]) = callsOf log ++ m.calls s := by
  simp [callsOf]

namespace Session

variable {allowed : Store α → Move α → Prop} {s t u : Store α} {log : List (Moved α)}

theorem history (h : Session allowed s log t) : History allowed s (callsOf log) t := by
  induction h with
  | start => exact .start
  | move _ m proper ok ih =>
    rw [callsOf_concat]
    exact ih.move m proper ok

theorem append {log' : List (Moved α)} (h : Session allowed s log t) (h' : Session allowed t log' u) :
    Session allowed s (log ++ log') u := by
  induction h' with
  | start => exact (List.append_nil log).symm ▸ h
  | move _ m proper ok ih =>
    rw [← List.append_assoc]
    exact ih.move m proper ok

/-- Calls in a row, all of them allowed. -/
theorem of_along (s : Store α) (ms : List (Move α))
    (h : Move.Along (fun t m => m.Proper t ∧ allowed t m) s ms) :
    Session allowed s (Move.log s ms) (ms.foldl Move.apply s) := by
  induction ms generalizing s with
  | nil => exact .start
  | cons m ms ih =>
    have hm : Session allowed s ([] ++ [(s, m)]) (m.apply s) := start.move m h.1.1 h.1.2
    exact hm.append (ih (m.apply s) h.2)

end Session

theorem Run.exists_session {allowed : Store α → Move α → Prop} {s t : Store α} (h : Run allowed s t) :
    ∃ log, Session allowed s log t := by
  induction h with
  | refl => exact ⟨[], .start⟩
  | step _ m proper ok ih =>
    obtain ⟨log, hlog⟩ := ih
    exact ⟨_, hlog.move m proper ok⟩

/-- Whether something of the first kind happened, and nothing of the second since then. -/
def Since {β : Type} (begins ends : β → Prop) (log : List β) : Prop :=
  ∃ before x after, log = before ++ x :: after ∧ begins x ∧ ∀ y ∈ after, ¬ ends y

namespace Since

variable {β : Type} {begins ends : β → Prop} {log : List β}

theorem not_nil : ¬ Since begins ends [] := by
  rintro ⟨before, x, after, h, -⟩
  exact List.append_ne_nil_of_right_ne_nil before (List.cons_ne_nil x after) h.symm

theorem concat_iff {x : β} :
    Since begins ends (log ++ [x]) ↔ begins x ∨ (Since begins ends log ∧ ¬ ends x) := by
  constructor
  · rintro ⟨before, y, after, hlog, hy, hafter⟩
    rcases List.eq_nil_or_concat after with rfl | ⟨after, z, rfl⟩
    · obtain ⟨-, hx⟩ := List.append_inj' hlog rfl
      exact .inl (List.singleton_inj.mp hx ▸ hy)
    · rw [List.concat_eq_append, ← List.cons_append, ← List.append_assoc] at hlog
      obtain ⟨hlog, hx⟩ := List.append_inj' hlog rfl
      have hz : ¬ ends z := hafter z (by simp)
      have hrest : ∀ i ∈ after, ¬ ends i := fun i hi => hafter i (by simp [hi])
      exact .inr ⟨⟨before, y, after, hlog, hy, hrest⟩, List.singleton_inj.mp hx ▸ hz⟩
  · rintro (hx | ⟨⟨before, y, after, rfl, hy, hafter⟩, hx⟩)
    · exact ⟨log, x, [], rfl, hx, fun _ hi => absurd hi List.not_mem_nil⟩
    · refine ⟨before, y, after ++ [x], by simp, hy, fun i hi => ?_⟩
      rcases List.mem_append.mp hi with hi | hi
      · exact hafter i hi
      · exact List.mem_singleton.mp hi ▸ hx

end Since

end ResourcePool
