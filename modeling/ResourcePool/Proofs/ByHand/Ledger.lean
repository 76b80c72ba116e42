import ResourcePool.Proofs.Blur
import ResourcePool.Proofs.ByHand.Endings
import ResourcePool.Proofs.ByHand.Program
import ResourcePool.Proofs.Run.Program

/-! The ledger of a program: the calls by which it stores guards and ends them, in order, with nested steps to
any depth. The account that it gives is complete. -/
namespace ResourcePool

variable {α ρ : Type}

/-! ### What leaves the guards alone -/

namespace Store

theorem guards_holdAll (es : List EntryId) (s : Store α) : (s.holdAll es).guards = s.guards := by
  induction es generalizing s with
  | nil => rfl
  | cons e es ih => exact (ih (s.hold e)).trans (s.guards_hold e)

theorem guards_drain (direct : Bool) (p : PoolId) (c : CallerId) (fuel : Nat) (s : Store α) :
    (drain direct p c fuel s).2.guards = s.guards := by
  induction fuel generalizing s with
  | zero => rfl
  | succ fuel ih =>
    have ha := (s.frame_trackedAcquire p direct c).guards
    unfold drain
    split
    · next t ht =>
      rw [ht] at ha
      exact ha
    · next e t ht =>
      rw [ht] at ha
      exact (ih t).trans ha

end Store

namespace Program

variable {c : CallerId} {s t : Store String}

section Actions
open Program.Action

theorem guards_onPool {name : String} {f : PoolId → Answer × Store String}
    (h : ∀ p, (f p).2.guards = s.guards) : (onPool s name f).2.guards = s.guards :=
  related_onPool s s (g := f) (P := fun x _ => x.2.guards = s.guards) (fun _ => rfl) rfl h

theorem guards_onHeld {e : EntryId} {f : Entry String → Answer × Store String}
    (h : (f (s.entry e)).2.guards = s.guards) : (onHeld s e f).2.guards = s.guards :=
  related_onHeld s s (g := f) (P := fun x _ => x.2.guards = s.guards) (fun _ => rfl) rfl h

theorem guards_onTracked {name : String} {f : PoolId → Tracker → Answer × Store String}
    (h : ∀ p x, (f p x).2.guards = s.guards) : (onTracked s name f).2.guards = s.guards :=
  related_onTracked s s (g := f) (P := fun x _ => x.2.guards = s.guards) (fun _ => rfl) rfl
    (fun _ => rfl) fun p x _ _ _ => h p x

theorem guards_obtained (s : Store String) (e? : Option EntryId) : (obtained s e?).2.guards = s.guards := by
  cases e? with
  | none => rfl
  | some e => exact s.guards_hold e

/-- Actions that concern no guard, and looking at one. -/
theorem guards_perform (c : CallerId) {a : Action} (ha : a.handling? = none) (s : Store String) :
    (a.perform c s).2.guards = s.guards := by
  cases a with
  | create | dropHandle | dropHandles => rfl
  | dropPool name =>
    unfold perform
    dsimp only
    split_ifs <;> rfl
  | reserve name =>
    refine guards_onPool fun p => ?_
    exact (guards_obtained _ _).trans (s.frame_reserve p).guards
  | enable e v active => exact guards_onHeld (s.frame_enable 0 e v active).guards
  | acquire name direct =>
    refine guards_onPool fun p => ?_
    exact (guards_obtained _ _).trans (s.frame_trackedAcquire p direct c).guards
  | drain name direct =>
    refine guards_onPool fun p => ?_
    exact (Store.guards_holdAll _ _).trans (Store.guards_drain direct p c _ s)
  | release name e direct =>
    exact guards_onHeld <| guards_onPool fun p => (s.frame_trackedRelease p direct c e).guards
  | remove name e direct =>
    exact guards_onHeld <| guards_onPool fun p => (s.frame_trackedRemove p direct e).guards
  | close name => exact guards_onPool fun p => (s.frame_close p).guards
  | entry e => exact guards_onHeld rfl
  | entries name => exact guards_onPool fun p => Store.guards_holdAll (s.members p) s
  | overview name | metrics name | texts name | exposition name | health name =>
    exact guards_onPool fun _ => rfl
  | checkLeaks name => exact guards_onTracked fun p x => (s.frame_checkLeaks p x).guards
  | clearTracking name | sweep name | tracking name => exact guards_onTracked fun _ _ => rfl
  | invalid held? pool? field =>
    have hpool : ∀ name, (onPool s name fun _ => (.failed (.badInput field), s)).2.guards = s.guards :=
      fun name => guards_onPool fun _ => rfl
    cases held? with
    | none =>
      cases pool? with
      | none => rfl
      | some name => exact hpool name
    | some e =>
      cases pool? with
      | none => exact guards_onHeld (f := fun _ => (.failed (.badInput field), s)) rfl
      | some name => exact guards_onHeld (f := fun _ => onPool s name _) (hpool name)
  | lease | guarded | dropGuard | removeGuarded | detach => simp [handling?] at ha

end Actions

/-- The call by which an action stores a guard or ends one. -/
def Action.guardMove? (c : CallerId) (s : Store String) : Action → Option (Move String)
  | .lease pool guard direct => (s.find? pool).map fun p => .lease direct p c guard
  | .dropGuard guard => some (.dropGuard c guard)
  | .removeGuarded guard => some (.removeGuarded guard)
  | .detach guard => some (.detach guard)
  | _ => none

/-- A creator or factory that runs steps before it answers, and reports what these log. -/
def logging {β : Type} (log : Store String → List (Moved String))
    (run : Store String → List Report × Store String) (answer : β) (e : EntryId) (s : Store String) :
    β × List (Moved String) × Store String :=
  (answer, log (s.hold e), (run (s.hold e)).2)

/-- What a creation for a guard logs: the lease of an entry that is acquired, or else what the creator logs
and then the end of the creation. -/
def leaseLog (log : Store String → List (Moved String)) (run : Store String → List Report × Store String)
    (p : PoolId) (c : CallerId) (guard : String) (creation : Creation String) (s : Store String) :
    List (Moved String) :=
  match s.acquire p c with
  | (some _, _) => [(s, .lease false p c guard)]
  | (none, t) =>
    match t.reserve p with
    | (none, _) => []
    | (some e, u) => log (u.hold e) ++ [((run (u.hold e)).2, .settleLease p c guard e creation)]

mutual

/-- The calls by which a step stores and ends guards, those nested in it first. -/
def Step.guardLog (v : View) (c : CallerId) : Step → Store String → List (Moved String)
  | .act a, s => (a.guardMove? c s).toList.map fun m => (s, m)
  | .acquireWith name _ steps creation, s =>
    (s.find? name).elim [] fun p =>
      (s.acquireWith p c (logging (guardLogAll v c steps) (runAll v c steps) creation)).2.1
  | .leaseWith name guard steps creation, s =>
    (s.find? name).elim [] fun p =>
      if (s.pool p).tracker?.isSome then []
      else leaseLog (guardLogAll v c steps) (runAll v c steps) p c guard creation s
  | .warmup name count value at? steps panics, s =>
    (s.find? name).elim [] fun p =>
      (Store.warmup p (fun n e s =>
        if at? = some n then
          logging (guardLogAll v c steps) (runAll v c steps) (if panics then none else some (value n)) e s
        else (some (value n), [], s)) count 0 s).2.1

def guardLogAll (v : View) (c : CallerId) : List Step → Store String → List (Moved String)
  | [], _ => []
  | step :: steps, s => step.guardLog v c s ++ guardLogAll v c steps (step.run v c s).2

end

def Command.guardLog (v : View) (s : Store String) : Command → List (Moved String)
  | .run none step => step.guardLog v .main s
  | .run (some name) step =>
    let (c, callers) := s.callers.enter name
    step.guardLog v c { s with callers }
  | .leave name steps =>
    (s.callers.leave? name).elim [] fun callers => guardLogAll v .leaving steps { s with callers }

/-- The calls by which a program stores guards and ends them. -/
def guardLog (v : View) : List Command → Store String → List (Moved String)
  | [], _ => []
  | command :: commands, s => command.guardLog v s ++ guardLog v commands (command.execute v s).2

/-! ### The account is complete -/

/-- An action on a guard is one call, and other actions leave the guards alone. -/
theorem accounts_perform (c : CallerId) (a : Action) (s : Store String) :
    Accounts s ((a.guardMove? c s).toList.map fun m => (s, m)) (a.perform c s).2 := by
  have hmade : ∀ (m : Move String) (t : Store String), m.apply s = t → Accounts s [(s, m)] t :=
    fun m t h => h ▸ .of_apply s m
  cases a with
  | lease name guard direct =>
    unfold Action.guardMove? Action.perform Action.onPool
    dsimp only
    cases s.find? name with
    | none => exact .refl s
    | some p => exact .of_apply s (.lease direct p c guard)
  | guarded guard =>
    unfold Action.perform Action.onGuard
    dsimp only
    cases s.guard? guard with
    | none => exact .refl s
    | some g => exact .of_guards_eq (s.guards_hold g.entry)
  | dropGuard guard =>
    refine hmade (.dropGuard c guard) _ ?_
    unfold Move.apply Action.perform Action.onGuard
    dsimp only
    cases s.guard? guard <;> rfl
  | removeGuarded guard =>
    refine hmade (.removeGuarded guard) _ ?_
    unfold Move.apply Action.perform Action.onGuard
    dsimp only
    cases s.guard? guard <;> rfl
  | detach guard =>
    refine hmade (.detach guard) _ ?_
    unfold Move.apply Action.perform Action.onGuard
    dsimp only
    cases s.guard? guard <;> rfl
  | _ => exact .of_guards_eq (guards_perform c rfl s)

theorem guards_report (v : View) (answer : Answer) (inner? : Option (List Report)) (s : Store String) :
    (v.report answer inner? s).2.guards = s.guards := by
  unfold View.report
  dsimp only
  split_ifs <;> rfl

theorem guards_holdCreated (s : Store String) (result : Except CreationError (Option EntryId)) :
    (holdCreated s result).2.guards = s.guards := by
  cases result with
  | error e => rfl
  | ok e? => exact guards_obtained s e?

/-- A creation accounts for what its creator does. -/
theorem accounts_acquireWith (p : PoolId) (c : CallerId) (s : Store α)
    {make : EntryId → Store α → Creation α × List (Moved α) × Store α}
    (hmake : ∀ e u, Accounts u (make e u).2.1 (make e u).2.2) :
    Accounts s (s.acquireWith p c make).2.1 (s.acquireWith p c make).2.2 := by
  have ha := (s.frame_acquire p c).guards
  obtain ⟨e, t, ht, hw⟩ | ⟨t, ht, hrest⟩ := s.acquireWith_cases p c make
  · rw [ht] at ha
    rw [hw]
    exact .of_guards_eq ha
  · have hr := (t.frame_reserve p).guards
    rw [ht] at ha
    obtain ⟨u, hu, hw⟩ | ⟨e, u, hu, hw⟩ := hrest
    · rw [hu] at hr
      rw [hw]
      exact .of_guards_eq (hr.trans ha)
    · have hs := ((make e u).2.2.frame_settle p c e (make e u).1).guards
      rw [hu] at hr
      rw [hw]
      exact ((hmake e u).after_eq (hr.trans ha)).then_eq hs

/-- So does a warmup for what its factory does. -/
theorem accounts_warmup (p : PoolId) {make : Nat → EntryId → Store α → Option α × List (Moved α) × Store α}
    (hmake : ∀ n e u, Accounts u (make n e u).2.1 (make n e u).2.2) (count call : Nat) (s : Store α) :
    Accounts s (Store.warmup p make count call s).2.1 (Store.warmup p make count call s).2.2 := by
  induction count generalizing call s with
  | zero => exact .refl s
  | succ count ih =>
    have hr := (s.frame_reserve p).guards
    unfold Store.warmup
    cases hs : s.reserve p with
    | mk x t =>
      rw [hs] at hr
      cases x with
      | none => exact .of_guards_eq hr
      | some e =>
        have hn := (hmake call e t).after_eq hr
        dsimp only
        cases ht : make call e t with
        | mk y rest =>
          obtain ⟨made, u⟩ := rest
          rw [ht] at hn
          cases y with
          | none => exact hn
          | some v =>
            have he := (u.frame_enable p e v false).guards
            dsimp only at hn ⊢
            split
            · next w hw =>
              rw [hw] at he
              exact (hn.then_eq he).trans (ih (call + 1) w)
            · next y w _ hw =>
              rw [hw] at he
              exact hn.then_eq he

/-- A creation for a guard accounts for what its creator does, and then for the guard. -/
theorem accounts_leaseWith (p : PoolId) (c : CallerId) (guard : String) {s : Store String}
    (htracker : (s.pool p).tracker? = none) (v : View) (steps : List Step) (creation : Creation String)
    (hsteps : ∀ u, Accounts u (guardLogAll v c steps u) (runAll v c steps u).2) :
    Accounts s (leaseLog (guardLogAll v c steps) (runAll v c steps) p c guard creation s)
      ((s.acquireWith p c (nested v c steps creation)).2.2.guardResult p c guard
        (s.acquireWith p c (nested v c steps creation)).1) := by
  have ha := (s.frame_acquire p c).guards
  unfold leaseLog
  obtain ⟨e, t, ht, hw⟩ | ⟨t, ht, hrest⟩ := s.acquireWith_cases p c (nested v c steps creation)
  · have hp := Run.tracker?_acquire s p c
    have hl : Accounts s [(s, .lease false p c guard)] (s.lease false p c guard).2 :=
      .of_apply s (.lease false p c guard)
    have ho : t.observeAcquire p e = t := by
      rw [ht] at hp
      unfold Store.observeAcquire
      rw [hp, htracker]
    unfold Store.lease Store.trackedAcquire at hl
    rw [ht] at hl ⊢
    rw [hw]
    dsimp only at hl ⊢
    rw [if_neg Bool.false_ne_true, ho] at hl
    exact hl
  · have hr := (t.frame_reserve p).guards
    rw [ht] at ha ⊢
    obtain ⟨u, hu, hw⟩ | ⟨e, u, hu, hw⟩ := hrest
    · rw [hu] at hr
      rw [hw]
      dsimp only
      rw [hu]
      exact .of_guards_eq (hr.trans ha)
    · rw [hu] at hr
      rw [hw]
      dsimp only
      rw [hu]
      have hheld := (hsteps (u.hold e)).after_eq ((u.guards_hold e).trans (hr.trans ha))
      exact hheld.trans (.of_apply _ (.settleLease p c guard e creation))

theorem accounts_logging {β : Type} {v : View} {c : CallerId} {steps : List Step}
    (hsteps : ∀ u, Accounts u (guardLogAll v c steps u) (runAll v c steps u).2) (answer : β) (e : EntryId)
    (u : Store String) :
    Accounts u (logging (guardLogAll v c steps) (runAll v c steps) answer e u).2.1
      (logging (guardLogAll v c steps) (runAll v c steps) answer e u).2.2 :=
  (hsteps (u.hold e)).after_eq (u.guards_hold e)

mutual

theorem accounts_step (v : View) (c : CallerId) (step : Step) (s : Store String) :
    Accounts s (step.guardLog v c s) (step.run v c s).2 := by
  cases step with
  | act a =>
    rw [Step.guardLog, Step.run]
    exact (accounts_perform c a s).then_eq (guards_report v _ _ _)
  | acquireWith name direct steps creation =>
    rw [Step.guardLog, Step.run]
    cases s.find? name with
    | none => exact .of_guards_eq (guards_report v _ _ s)
    | some p =>
      let logged := logging (guardLogAll v c steps) (runAll v c steps) creation
      have hsame := s.acquireWith_congr p c (nested v c steps creation) logged fun _ _ => ⟨rfl, rfl⟩
      have hw := accounts_acquireWith p c s (accounts_logging (accounts_runAll v c steps) creation)
      have ho := (Store.frame_observeResult (s.acquireWith p c (nested v c steps creation)).2.2 direct p
        (s.acquireWith p c (nested v c steps creation)).1).guards
      rw [← hsame.2] at hw
      unfold nested at hw ho
      dsimp only [Option.elim]
      rw [trackedAcquireWith_eq]
      exact ((hw.then_eq ho).then_eq (guards_holdCreated _ _)).then_eq (guards_report v _ _ _)
  | leaseWith name guard steps creation =>
    rw [Step.guardLog, Step.run]
    cases s.find? name with
    | none => exact .of_guards_eq (guards_report v _ _ s)
    | some p =>
      dsimp only [Option.elim]
      split_ifs with ht
      · exact .of_guards_eq (guards_report v _ _ s)
      · have htracker : (s.pool p).tracker? = none := by simpa using ht
        have hl := accounts_leaseWith p c guard htracker v steps creation (accounts_runAll v c steps)
        rw [← guardCreated_snd] at hl
        exact hl.then_eq (guards_report v _ _ _)
  | warmup name count value at? steps panics =>
    rw [Step.guardLog, Step.run]
    cases s.find? name with
    | none => exact .of_guards_eq (guards_report v _ _ s)
    | some p =>
      let made := fun n e (u : Store String) =>
        if at? = some n then
          let (reports, u) := runAll v c steps (u.hold e)
          (if panics then none else some (value n), Report.reserved e :: reports, u)
        else (some (value n), [], u)
      let logged := fun n e (u : Store String) =>
        if at? = some n then
          logging (guardLogAll v c steps) (runAll v c steps) (if panics then none else some (value n)) e u
        else (some (value n), [], u)
      have hlogged : ∀ n e u, Accounts u (logged n e u).2.1 (logged n e u).2.2 := by
        intro n e u
        dsimp only [logged]
        split_ifs
        · exact accounts_logging (accounts_runAll v c steps) _ e u
        · exact accounts_logging (accounts_runAll v c steps) _ e u
        · exact .refl u
      have hsame := s.warmup_congr p made logged (fun n e u => by
        dsimp only [made, logged]
        split_ifs <;> exact ⟨rfl, rfl⟩) count 0
      have hw := accounts_warmup p hlogged count 0 s
      rw [← hsame.2] at hw
      exact hw.then_eq (guards_report v _ _ _)

theorem accounts_runAll (v : View) (c : CallerId) (steps : List Step) (s : Store String) :
    Accounts s (guardLogAll v c steps s) (runAll v c steps s).2 := by
  cases steps with
  | nil => exact .refl s
  | cons step steps =>
    rw [guardLogAll, runAll]
    exact (accounts_step v c step s).trans (accounts_runAll v c steps (step.run v c s).2)

end

end Program

end ResourcePool
