import ResourcePool.Program.Run
import ResourcePool.Proofs.Lookup
import ResourcePool.Proofs.Run.Calls

/-! Programs make runs: whatever is executed, with creators and factories nested to any depth, the
store passes through the calls of a run. -/
namespace ResourcePool

variable {α ρ : Type}

namespace Program

variable {c : CallerId} {s : Store String}

theorem run_onPool {name : String} {f : PoolId → Answer × Store String}
    (h : ∀ p, Run (made c) s (f p).2) : Run (made c) s (Action.onPool s name f).2 :=
  Action.related_onPool s s (g := f) (P := fun x _ => Run (made c) s x.2) (fun _ => .refl) rfl h

theorem run_onHeld {e : EntryId} {f : Entry String → Answer × Store String}
    (h : Run (made c) s (f (s.entry e)).2) : Run (made c) s (Action.onHeld s e f).2 :=
  Action.related_onHeld s s (g := f) (P := fun x _ => Run (made c) s x.2) (fun _ => .refl) rfl h

theorem run_onGuard {name : String} {f : Guard → Answer × Store String}
    (h : ∀ g, s.guard? name = some g → Run (made c) s (f g).2) :
    Run (made c) s (Action.onGuard s name f).2 :=
  Action.related_onGuard s s (g := f) (P := fun x _ => Run (made c) s x.2) (fun _ => .refl) rfl h

theorem run_onTracked {name : String} {f : PoolId → Tracker → Answer × Store String}
    (h : ∀ p t, (s.pool p).tracker? = some t → Run (made c) s (f p t).2) :
    Run (made c) s (Action.onTracked s name f).2 :=
  Action.related_onTracked s s (g := f) (P := fun x _ => Run (made c) s x.2) (fun _ => .refl) rfl
    (fun _ => rfl) fun p x _ hx _ => h p x hx

theorem run_obtained (s : Store String) (e? : Option EntryId) :
    Run (made c) s (Action.obtained s e?).2 := by
  cases e? with
  | none => exact .refl
  | some e => exact .one (.hold e) trivial trivial

/-- An action is a few calls one after the other. -/
theorem run_perform (c : CallerId) (a : Action) (s : Store String) :
    Run (made c) s (a.perform c s).2 := by
  cases a with
  | create name settings detector? => exact .one (.create name settings detector?) trivial trivial
  | dropPool name =>
    unfold Action.perform
    dsimp only
    split_ifs
    · exact .refl
    · exact .one (.forget name) trivial trivial
  | reserve name =>
    refine run_onPool fun p => ?_
    exact .trans (.one (.reserve p) trivial trivial) (run_obtained _ _)
  | enable e value active => exact run_onHeld (.one (.enable e value active) trivial trivial)
  | acquire name direct =>
    refine run_onPool fun p => ?_
    exact .trans (.one (.acquire direct p c) trivial rfl) (run_obtained _ _)
  | drain name direct =>
    refine run_onPool fun p => ?_
    exact (Run.drain direct p c _ s).trans (.holdAll _ _)
  | release name e direct =>
    refine run_onHeld (run_onPool fun p => ?_)
    exact .one (.release direct p c e) trivial rfl
  | remove name e direct =>
    refine run_onHeld (run_onPool fun p => ?_)
    exact .one (.remove direct p e) trivial trivial
  | close name => exact run_onPool fun p => .one (.close p) trivial trivial
  | entry e => exact run_onHeld .refl
  | entries name => exact run_onPool fun p => .holdAll _ s
  | dropHandle e => exact .one (.unhold e) trivial trivial
  | dropHandles => exact .one .unholdAll trivial trivial
  | lease name guard direct => exact run_onPool fun p => .one (.lease direct p c guard) trivial rfl
  | guarded name => exact run_onGuard fun g _ => .one (.hold g.entry) trivial trivial
  | dropGuard name =>
    refine run_onGuard fun g hg => .of_apply_eq (.dropGuard c name) trivial rfl ?_
    simp [Move.apply, hg]
  | removeGuarded name =>
    refine run_onGuard fun g hg => .of_apply_eq (.removeGuarded name) trivial trivial ?_
    simp [Move.apply, hg]
  | detach name =>
    refine run_onGuard fun g hg => .of_apply_eq (.detach name) trivial trivial ?_
    simp [Move.apply, hg]
  | checkLeaks name =>
    refine run_onTracked fun p t ht => .of_apply_eq (.checkLeaks p) trivial trivial ?_
    simp [Move.apply, ht]
  | clearTracking name =>
    refine run_onTracked fun p t ht => .of_apply_eq (.clearTracking p) trivial trivial ?_
    simp [Move.apply, ht]
  | sweep name =>
    refine run_onTracked fun p t ht => .of_apply_eq (.sweep p) trivial trivial ?_
    simp [Move.apply, ht]
  | tracking name => exact run_onTracked fun _ _ _ => .refl
  | invalid held? pool? field =>
    have hp : ∀ refused : Answer × Store String, Run (made c) s refused.2 →
        Run (made c) s (held?.elim refused fun e => Action.onHeld s e fun _ => refused).2 := by
      intro refused hr
      cases held? with
      | none => exact hr
      | some e => exact run_onHeld (f := fun _ => refused) hr
    refine hp _ ?_
    cases pool? with
    | none => exact .refl
    | some name => exact run_onPool fun _ => .refl
  | _ => exact run_onPool fun _ => .refl

theorem run_report (v : View) (a : Answer) (inner? : Option (List Report)) (s : Store String) :
    Run (made c) s (v.report a inner? s).2 := by
  unfold View.report
  cases v.log with
  | false => exact .refl
  | true => exact .one .readLog trivial trivial

theorem run_holdCreated (s : Store String) (result : Except CreationError (Option EntryId)) :
    Run (made c) s (holdCreated s result).2 := by
  cases result with
  | ok e? => exact run_obtained s e?
  | error e => exact .refl

theorem guardCreated_snd (s : Store String) (p : PoolId) (c : CallerId) (name : String)
    (result : Except CreationError (Option EntryId)) :
    (guardCreated s p c name result).2 = s.guardResult p c name result := by
  cases result with
  | error e => rfl
  | ok e? => cases e? <;> rfl

theorem trackedAcquireWith_eq (s : Store α) (direct : Bool) (p : PoolId) (c : CallerId)
    (creator : EntryId → Store α → Creation α × List ρ × Store α) :
    s.trackedAcquireWith direct p c creator =
      ((s.acquireWith p c creator).1, (s.acquireWith p c creator).2.1,
        (s.acquireWith p c creator).2.2.observeResult direct p (s.acquireWith p c creator).1) := by
  unfold Store.trackedAcquireWith
  obtain ⟨r, reports, u⟩ := s.acquireWith p c creator
  cases r with
  | error e => rfl
  | ok e? => cases e? <;> rfl

/-- A creator that runs steps and then answers. -/
def nested (v : View) (c : CallerId) (steps : List Step) (creation : Creation String) (e : EntryId)
    (s : Store String) : Creation String × List Report × Store String :=
  let (reports, s) := runAll v c steps (s.hold e)
  (creation, .reserved e :: reports, s)

theorem run_created (v : View) (direct : Bool) (p : PoolId) (c : CallerId)
    {creator : EntryId → Store String → Creation String × List Report × Store String}
    (hc : ∀ e u, Run (made c) u (creator e u).2.2) :
    Run (made c) s (
      let (result, inner, u) := s.trackedAcquireWith direct p c creator
      let (answer, u) := holdCreated u result
      v.report answer (some inner) u).2 := by
  have ha := Run.acquireWith (s := s) direct p c hc
  rw [trackedAcquireWith_eq]
  exact (ha.trans (run_holdCreated _ _)).trans (run_report v _ _ _)

theorem run_leased (v : View) (p : PoolId) (c : CallerId) (name : String)
    (ht : (s.pool p).tracker? = none)
    {creator : EntryId → Store String → Creation String × List Report × Store String}
    (hc : ∀ e u, Run (made c) u (creator e u).2.2) :
    Run (made c) s (
      let (result, inner, u) := s.acquireWith p c creator
      let (answer, u) := guardCreated u p c name result
      v.report answer (some inner) u).2 := by
  have ha := Run.leaseWith (s := s) p c name ht hc
  rw [← guardCreated_snd] at ha
  exact ha.trans (run_report v _ _ _)

/-- What a creator or a factory does before it answers. -/
theorem run_nested {v : View} {c : CallerId} {steps : List Step} {s : Store String} {e : EntryId}
    (h : Run (made c) (s.hold e) (runAll v c steps (s.hold e)).2) :
    Run (made c) s (runAll v c steps (s.hold e)).2 :=
  .trans (.one (.hold e) trivial trivial) h

mutual

theorem run_step (v : View) (c : CallerId) (step : Step) (s : Store String) :
    Run (made c) s (step.run v c s).2 := by
  cases step with
  | act a =>
    rw [Step.run]
    exact (run_perform c a s).trans (run_report v _ _ _)
  | acquireWith name direct steps creation =>
    have hn : ∀ e u, Run (made c) u (nested v c steps creation e u).2.2 :=
      fun e u => run_nested (run_runAll v c steps (u.hold e))
    rw [Step.run]
    split
    · exact run_report v _ _ s
    · next p _ => exact run_created v direct p c hn
  | leaseWith name guard steps creation =>
    have hn : ∀ e u, Run (made c) u (nested v c steps creation e u).2.2 :=
      fun e u => run_nested (run_runAll v c steps (u.hold e))
    rw [Step.run]
    split
    · exact run_report v _ _ s
    · next p _ =>
      split_ifs with ht
      · exact run_report v _ _ s
      · exact run_leased v p c guard (by simpa using ht) hn
  | warmup name count value at? steps panics =>
    rw [Step.run]
    split
    · exact run_report v _ _ s
    · next p _ =>
      refine Run.trans (.warmup p (fun n e u => ?_) count 0 s) (run_report v _ _ _)
      by_cases hn : at? = some n
      · rw [if_pos hn]
        exact run_nested (run_runAll v c steps (u.hold e))
      · rw [if_neg hn]
        exact .refl

theorem run_runAll (v : View) (c : CallerId) (steps : List Step) (s : Store String) :
    Run (made c) s (runAll v c steps s).2 := by
  cases steps with
  | nil => exact .refl
  | cons step steps =>
    rw [runAll]
    exact (run_step v c step s).trans (run_runAll v c steps (step.run v c s).2)

end

theorem run_command (v : View) (s : Store String) (command : Command) :
    Run free s (command.execute v s).2 := by
  cases command with
  | run caller? step =>
    cases caller? with
    | none => exact (run_step v .main step s).toFree
    | some name => exact .trans (.one (.enter name) trivial trivial) (run_step v _ step _).toFree
  | leave name steps =>
    unfold Command.execute
    dsimp only
    split
    · exact .refl
    · next callers hc =>
      have hl : Run free s { s with callers } :=
        .of_apply_eq (.leave name) trivial trivial (by simp [Move.apply, hc])
      exact hl.trans (run_runAll v .leaving steps _).toFree

/-- Whatever a program does, it runs. -/
theorem run_execute (v : View) (commands : List Command) (s : Store String) :
    Run free s (execute v commands s).2 := by
  induction commands generalizing s with
  | nil => exact .refl
  | cons command commands ih => exact (run_command v s command).trans (ih _)

end Program

end ResourcePool
