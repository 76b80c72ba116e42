import ResourcePool.Proofs.ByHand.Hush
import ResourcePool.Proofs.ByHand.Ledger
import ResourcePool.Proofs.Transparency

/-! Guards and references kept by hand: a program does the same with either, with nested steps to any depth. The
only difference is the line that a guard writes to the log when its release is refused. -/
namespace ResourcePool

namespace Store

variable {α : Type} {s t : Store α}

/-- The end of a guard is a release whose answer goes to the log. -/
theorem Echoes.giveBack (h : s.Echoes t) (c : CallerId) (x : Guard) :
    (s.giveBack c x).Echoes (t.bringBack c x) := by
  obtain ⟨answer, u, w, hs, ht, hstores⟩ := (h.trackedRelease x.direct x.pool c x.entry).exists_eq
  unfold Store.giveBack bringBack
  rw [hs, ht]
  cases answer with
  | ok done => exact hstores
  | error fault => exact (u.hushed_note_failure x.pool fault).trans hstores

theorem Echoes.endGuard (h : s.Echoes t) (name : String) : (s.endGuard name).Echoes (t.endGuard name) :=
  h.map (f := fun u => u.endGuard name) fun _ => rfl

theorem Echoes.putGuard (h : s.Echoes t) (c : CallerId) (name : String) (x : Guard) :
    (s.putGuard c name x).Echoes (t.keep c name x) := by
  let stored := fun u : Store α =>
    { u.endGuard name with guards := (name, x) :: (u.endGuard name).guards }
  have hstored : (stored s).Echoes (stored t) := h.map (f := stored) fun _ => rfl
  unfold Store.putGuard keep
  rw [h.guard? name]
  cases t.guard? name with
  | none => exact hstored
  | some old => exact hstored.giveBack c old

theorem Echoes.lease (h : s.Echoes t) (direct : Bool) (p : PoolId) (c : CallerId) (name : String) :
    Blurred hushed (s.lease direct p c name) (t.take direct p c name) := by
  obtain ⟨found, u, w, hs, ht, hstores⟩ := (h.trackedAcquire direct p c).exists_eq
  unfold Store.lease take
  rw [hs, ht]
  cases found with
  | none => exact ⟨rfl, hstores⟩
  | some e => exact ⟨rfl, Echoes.putGuard hstores c name _⟩

end Store

namespace Program

/-- A moment of a program, and a turn with references kept by hand, after which the stores are the same but
for the log. -/
structure Moment.Meets (m : Moment) (n : Turn) : Prop where
  answer : m.answer? = n.1
  entries : m.store.entries = n.2.entries
  /-- Lists, hints, counters and trackers. -/
  pools : m.store.pools = n.2.pools
  metrics : ∀ p, m.store.metrics p = n.2.metrics p
  echoes : m.store.Echoes n.2

open Store

variable {s t : Store String}

theorem Moment.Meets.of_echoes {m : Moment} {n : Turn} (hanswer : m.answer? = n.1)
    (h : m.store.Echoes n.2) : m.Meets n where
  answer := hanswer
  entries := h.read (f := Store.entries) fun _ => rfl
  pools := h.read (f := Store.pools) fun _ => rfl
  metrics p := h.read (f := fun u => u.metrics p) fun _ => rfl
  echoes := h

/-! ### Actions -/

section Actions
open Program.Action

theorem onPool_hushed (s : Store String) (name : String) {f g : PoolId → Answer × Store String}
    (hf : ∀ p, g p = ((f p).1, (f p).2.hushed)) :
    onPool s.hushed name g = ((onPool s name f).1, (onPool s name f).2.hushed) :=
  related_onPool s s.hushed (P := fun x y => y = (x.1, x.2.hushed)) (fun _ => rfl) rfl hf

theorem onHeld_hushed (s : Store String) (e : EntryId) {f g : Entry String → Answer × Store String}
    (hf : ∀ x, g x = ((f x).1, (f x).2.hushed)) :
    onHeld s.hushed e g = ((onHeld s e f).1, (onHeld s e f).2.hushed) :=
  related_onHeld s s.hushed (P := fun x y => y = (x.1, x.2.hushed)) (fun _ => rfl) rfl (hf (s.entry e))

theorem onTracked_hushed (s : Store String) (name : String)
    {f g : PoolId → Tracker → Answer × Store String}
    (hf : ∀ p x, g p x = ((f p x).1, (f p x).2.hushed)) :
    onTracked s.hushed name g = ((onTracked s name f).1, (onTracked s name f).2.hushed) := by
  refine related_onTracked s s.hushed (P := fun x y => y = (x.1, x.2.hushed)) (fun _ => rfl) rfl (fun _ => rfl)
    fun p x y hx hy => ?_
  have hpool : s.hushed.pool p = s.pool p := rfl
  rw [hpool, hx] at hy
  rw [← Option.some.inj hy]
  exact hf p x

theorem obtained_hushed (s : Store String) (e? : Option EntryId) :
    obtained s.hushed e? = ((obtained s e?).1, (obtained s e?).2.hushed) := by
  cases e? with
  | none => rfl
  | some e =>
    have hheld := s.hushed_hold e
    unfold obtained
    dsimp only
    rw [hheld]
    rfl

/-- Actions that concern no guard do the same to a hushed store. -/
theorem perform_hushed (c : CallerId) {a : Action} (ha : a.handling? = none) (s : Store String) :
    a.perform c s.hushed = ((a.perform c s).1, (a.perform c s).2.hushed) := by
  cases a with
  | create | dropHandle | dropHandles => rfl
  | dropPool name =>
    have hleased : isLeased s.hushed name = isLeased s name := rfl
    unfold perform
    dsimp only
    rw [hleased]
    split_ifs <;> rfl
  | reserve name =>
    refine onPool_hushed s name fun p => ?_
    rw [blurs_hushed.reserve]
    exact obtained_hushed _ _
  | enable e v active =>
    unfold perform
    dsimp only
    refine onHeld_hushed s e fun _ => ?_
    rw [blurs_hushed.enable]
  | acquire name direct =>
    refine onPool_hushed s name fun p => ?_
    rw [trackedAcquire_hushed]
    exact obtained_hushed _ _
  | drain name direct =>
    refine onPool_hushed s name fun p => ?_
    have hdrain : s.hushed.acquireAll direct p c =
        ((s.acquireAll direct p c).1, (s.acquireAll direct p c).2.hushed) :=
      drain_hushed p c direct (s.entries.size + 1) s
    rw [hdrain]
    generalize s.acquireAll direct p c = drained
    obtain ⟨es, u⟩ := drained
    have hheld := hushed_holdAll es u
    dsimp only
    rw [← hheld]
    rfl
  | release name e direct =>
    refine onHeld_hushed s e fun _ => onPool_hushed s name fun p => ?_
    rw [trackedRelease_hushed]
  | remove name e direct =>
    refine onHeld_hushed s e fun _ => onPool_hushed s name fun p => ?_
    rw [trackedRemove_hushed]
  | close name =>
    refine onPool_hushed s name fun p => ?_
    rw [blurs_hushed.close]
  | entry e =>
    unfold perform
    dsimp only
    exact onHeld_hushed s e fun _ => rfl
  | entries name =>
    refine onPool_hushed s name fun p => ?_
    have hheld := hushed_holdAll (s.members p) s
    dsimp only
    rw [hheld]
    rfl
  | overview name | metrics name | texts name | exposition name | health name =>
    exact onPool_hushed s name fun _ => rfl
  | checkLeaks name =>
    refine onTracked_hushed s name fun p x => ?_
    rw [checkLeaks_hushed]
  | clearTracking name | sweep name | tracking name => exact onTracked_hushed s name fun _ _ => rfl
  | invalid held? pool? field =>
    let refused : Store String → Answer × Store String := fun u => (.failed (.badInput field), u)
    have hpool : ∀ name, onPool s.hushed name (fun _ => refused s.hushed) =
        ((onPool s name fun _ => refused s).1, (onPool s name fun _ => refused s).2.hushed) :=
      fun name => onPool_hushed s name fun _ => rfl
    cases held? with
    | none =>
      cases pool? with
      | none => rfl
      | some name => exact hpool name
    | some e =>
      unfold perform
      dsimp only [Option.elim]
      cases pool? with
      | none => exact onHeld_hushed s e fun _ => rfl
      | some name => exact onHeld_hushed s e fun _ => hpool name
  | lease | guarded | dropGuard | removeGuarded | detach => simp [handling?] at ha

theorem echoed_onPool (h : s.Echoes t) (name : String) {f g : PoolId → Answer × Store String}
    (hf : ∀ p, Blurred hushed (f p) (g p)) : Blurred hushed (onPool s name f) (onPool t name g) :=
  related_onPool s t (P := Blurred hushed) (fun _ => ⟨rfl, h⟩) (h.find? name) hf

theorem echoed_onGuard (h : s.Echoes t) (name : String) {f g : Guard → Answer × Store String}
    (hf : ∀ x, Blurred hushed (f x) (g x)) : Blurred hushed (onGuard s name f) (onGuard t name g) :=
  related_onGuard s t (P := Blurred hushed) (fun _ => ⟨rfl, h⟩) (h.guard? name) fun x _ => hf x

/-- An action on a guard is answered as what is done by hand in its place. -/
theorem echoed_handling (h : s.Echoes t) (c : CallerId) {a : Action} {x : Handling}
    (ha : a.handling? = some x) : Blurred hushed (a.perform c s) (x.perform c t) := by
  cases a with
  | lease name guard direct =>
    obtain rfl : Handling.take name guard direct = x := Option.some.inj ha
    refine echoed_onPool h name fun p => ?_
    obtain ⟨e?, u, w, hs, ht, hstores⟩ := (h.lease direct p c guard).exists_eq
    have hvalue : u.value? = w.value? := funext (Echoes.value? hstores)
    rw [hs, ht]
    refine ⟨?_, hstores⟩
    dsimp only
    rw [hvalue]
  | guarded guard =>
    obtain rfl : Handling.look guard = x := Option.some.inj ha
    refine echoed_onGuard h guard fun x => ⟨?_, h.hold x.entry⟩
    dsimp only
    rw [h.value?]
  | dropGuard guard =>
    obtain rfl : Handling.bringBack guard = x := Option.some.inj ha
    exact echoed_onGuard h guard fun x => ⟨rfl, (h.endGuard guard).giveBack c x⟩
  | removeGuarded guard =>
    obtain rfl : Handling.retire guard = x := Option.some.inj ha
    refine echoed_onGuard h guard fun x => ?_
    obtain ⟨hanswer, hstores⟩ := (h.endGuard guard).trackedRemove x.direct x.pool x.entry
    exact ⟨congrArg Answer.done hanswer, hstores⟩
  | detach guard =>
    obtain rfl : Handling.letGo guard = x := Option.some.inj ha
    exact echoed_onGuard h guard fun x => ⟨rfl, (h.hold x.entry).endGuard guard⟩
  | _ => simp [handling?] at ha

end Actions

/-! ### Steps -/

/-- Showing the log only notes how far it was read. -/
theorem echoes_report (v : View) (answer : Answer) (inner? : Option (List Report)) (s : Store String) :
    (v.report answer inner? s).2.Echoes s := by
  unfold View.report
  dsimp only
  split_ifs <;> rfl

/-- The report of an answer that is given by hand as well. -/
theorem report_meets (v : View) {x y : Answer × Store String} (h : Blurred hushed x y)
    (inner? : Option (List Report)) :
    (v.report x.1 inner? x.2).1.answer? = some y.1 ∧ (v.report x.1 inner? x.2).2.Echoes y.2 := by
  constructor
  · rw [answer?_report, h.1]
  · exact (echoes_report v _ _ x.2).trans h.2

theorem echoed_holdCreated (h : s.Echoes t) (result : Except CreationError (Option EntryId)) :
    Blurred hushed (holdCreated s result) (holdCreated t result) := by
  cases result with
  | error e => exact ⟨rfl, h⟩
  | ok e? => exact blurred_of_commutes (g := fun u => Action.obtained u e?) (fun u => obtained_hushed u e?) h

theorem echoed_guardCreated (h : s.Echoes t) (p : PoolId) (c : CallerId) (name : String)
    (result : Except CreationError (Option EntryId)) :
    Blurred hushed (guardCreated s p c name result) (keepCreated t p c name result) := by
  cases result with
  | error e => exact ⟨rfl, h⟩
  | ok e? =>
    cases e? with
    | none => exact ⟨rfl, h⟩
    | some e => exact ⟨congrArg (Answer.got (some e)) (h.value? e), h.putGuard c name _⟩

section Creations

variable {ρ ρ' : Type} {R : List ρ → List ρ' → Prop} (hnil : R [] []) (h : s.Echoes t)

include hnil h

theorem echoed_trackedAcquireWith (direct : Bool) (p : PoolId) (c : CallerId)
    {f : EntryId → Store String → Creation String × List ρ × Store String}
    {g : EntryId → Store String → Creation String × List ρ' × Store String}
    (hc : ∀ e u w, u.Echoes w → BlurredWith hushed R (f e u) (g e w)) :
    BlurredWith hushed R (s.trackedAcquireWith direct p c f) (t.trackedAcquireWith direct p c g) := by
  obtain ⟨result, reports, turns, u, w, hs, ht, hreports, hstores⟩ :=
    (blurs_hushed.acquireWith hnil h p c hc).exists_eq
  rw [trackedAcquireWith_eq, trackedAcquireWith_eq, hs, ht]
  refine ⟨rfl, hreports, Echoes.map (f := fun u => u.observeResult direct p result) (fun u => ?_) hstores⟩
  unfold observeResult
  split
  · split_ifs
    · rfl
    · exact u.hushed_observeAcquire p _
  · rfl

end Creations

theorem Step.byHand_of_none {a : Action} (ha : a.handling? = none) : (Step.act a).byHand = .act a ha := by
  rw [Step.byHand]
  split
  · rfl
  · next x hx => exact absurd (ha.symm.trans hx) (Option.some_ne_none x).symm

theorem Step.byHand_of_some {a : Action} {x : Handling} (ha : a.handling? = some x) :
    (Step.act a).byHand = .hand x := by
  rw [Step.byHand]
  split
  · next hx => exact absurd (hx.symm.trans ha) (Option.some_ne_none x).symm
  · next y hy => rw [Option.some.inj (hy.symm.trans ha)]

/-- What a step does in a creation is done by hand in the same creation. -/
theorem echoed_nested {v : View} {c : CallerId} {steps : List Step}
    (hsteps : ∀ {u w : Store String}, u.Echoes w →
      (runAll v c steps u).2.Echoes (Manual.runAll c (byHandAll steps) w).2)
    (creation : Creation String) (e : EntryId) (u w : Store String) (h : u.Echoes w) :
    BlurredWith hushed (fun _ _ => True) (nested v c steps creation e u)
      (recounting (Manual.runAll c (byHandAll steps)) creation e w) :=
  ⟨rfl, trivial, hsteps (h.hold e)⟩

mutual

/-- A step goes the same way with references kept by hand. -/
theorem step_meets (v : View) (c : CallerId) (step : Step) {s t : Store String} (h : s.Echoes t) :
    (step.run v c s).1.answer? = some (step.byHand.run c t).1 ∧
      (step.run v c s).2.Echoes (step.byHand.run c t).2.2 := by
  have hsame : ∀ answer : Answer, Blurred hushed (answer, s) (answer, t) := fun _ => ⟨rfl, h⟩
  cases step with
  | act a =>
    cases ha : a.handling? with
    | none =>
      have hp := blurred_of_commutes (g := fun u => a.perform c u) (perform_hushed c ha) h
      rw [Step.byHand_of_none ha, Step.run, Manual.run]
      exact report_meets v hp none
    | some x =>
      rw [Step.byHand_of_some ha, Step.run, Manual.run]
      exact report_meets v (echoed_handling h c ha) none
  | acquireWith name direct steps creation =>
    have hc := echoed_nested (fun h => echoes_runAll v c steps h) creation
    rw [Step.byHand, Step.run, Manual.run, h.find? name]
    cases t.find? name with
    | none => exact report_meets v (hsame _) none
    | some p =>
      obtain ⟨result, inner, turns, u, w, hs, ht, -, hstores⟩ :=
        (echoed_trackedAcquireWith trivial h direct p c hc).exists_eq
      unfold nested at hs
      dsimp only
      rw [hs, ht]
      exact report_meets v (echoed_holdCreated hstores result) _
  | leaseWith name guard steps creation =>
    have hc := echoed_nested (fun h => echoes_runAll v c steps h) creation
    rw [Step.byHand, Step.run, Manual.run, h.find? name]
    cases t.find? name with
    | none => exact report_meets v (hsame _) none
    | some p =>
      dsimp only
      rw [h.pool p]
      split_ifs
      · exact report_meets v (hsame _) _
      · obtain ⟨result, inner, turns, u, w, hs, ht, -, hstores⟩ :=
          (blurs_hushed.acquireWith trivial h p c hc).exists_eq
        unfold nested at hs
        dsimp only
        rw [hs, ht]
        exact report_meets v (echoed_guardCreated hstores p c guard result) _
  | warmup name count value at? steps panics =>
    rw [Step.byHand, Step.run, Manual.run, h.find? name]
    cases t.find? name with
    | none => exact report_meets v (hsame _) none
    | some p =>
      have hf : ∀ n e u w, u.Echoes w → BlurredWith hushed (fun _ _ => True)
          (if at? = some n then
            let (reports, u) := runAll v c steps (u.hold e)
            (if panics then none else some (value n), Report.reserved e :: reports, u)
          else (some (value n), [], u))
          (if at? = some n then
            recounting (Manual.runAll c (byHandAll steps)) (if panics then none else some (value n)) e w
          else (some (value n), [], w)) := by
        intro n e u w huw
        by_cases hn : at? = some n
        · rw [if_pos hn, if_pos hn]
          exact ⟨rfl, trivial, echoes_runAll v c steps (huw.hold e)⟩
        · rw [if_neg hn, if_neg hn]
          exact ⟨rfl, trivial, huw⟩
      obtain ⟨x, inner, turns, u, w, hs, ht, -, hstores⟩ :=
        (blurs_hushed.warmup trivial h (fun _ _ => trivial) p hf count 0).exists_eq
      dsimp only at hs ht ⊢
      rw [hs, ht]
      exact report_meets v (x := (.warmed x, u)) (y := (.warmed x, w)) ⟨rfl, hstores⟩ _

theorem echoes_runAll (v : View) (c : CallerId) (steps : List Step) {s t : Store String}
    (h : s.Echoes t) : (runAll v c steps s).2.Echoes (Manual.runAll c (byHandAll steps) t).2 := by
  cases steps with
  | nil => exact h
  | cons step steps =>
    rw [byHandAll, runAll, Manual.runAll]
    exact echoes_runAll v c steps (step_meets v c step h).2

end

/-! ### Moments -/

theorem moment_meets (v : View) (c : CallerId) (step : Step) (h : s.Echoes t) :
    (step.moment v c s).Meets (some (step.byHand.run c t).1, (step.byHand.run c t).2.2) := by
  obtain ⟨hanswer, hstores⟩ := step_meets v c step h
  exact .of_echoes hanswer hstores

/-- The moments of nested steps meet their turns before that of the step itself. -/
theorem meets_concat {ms : List Moment} {ns : List Turn} {m : Moment} {n : Turn}
    (h : List.Forall₂ Moment.Meets ms ns) (hm : m.Meets n) :
    List.Forall₂ Moment.Meets (ms ++ [m]) (ns ++ [n]) :=
  List.rel_append h (.cons hm .nil)

theorem meets_recording {β : Type} {ms : Store String → List Moment}
    {run : Store String → List Report × Store String} {run' : Store String → List Turn × Store String}
    (hm : ∀ {u w}, u.Echoes w → List.Forall₂ Moment.Meets (ms u) (run' w).1)
    (hr : ∀ {u w}, u.Echoes w → (run u).2.Echoes (run' w).2) (answer : β) (e : EntryId)
    (u w : Store String) (h : u.Echoes w) :
    BlurredWith hushed (List.Forall₂ Moment.Meets) (recording ms run answer e u)
      (recounting run' answer e w) :=
  ⟨rfl, hm (h.hold e), hr (h.hold e)⟩

mutual

theorem moments_meet (v : View) (c : CallerId) (step : Step) {s t : Store String} (h : s.Echoes t) :
    List.Forall₂ Moment.Meets (step.moments v c s)
      ((step.byHand.run c t).2.1 ++ [(some (step.byHand.run c t).1, (step.byHand.run c t).2.2)]) := by
  have hlast := moment_meets v c step h
  cases step with
  | act a =>
    have hnone : ((Step.act a).byHand.run c t).2.1 = [] := by
      cases ha : a.handling? with
      | none => rw [Step.byHand_of_none ha, Manual.run]
      | some x => rw [Step.byHand_of_some ha, Manual.run]
    rw [Step.moments, hnone]
    exact .cons hlast .nil
  | acquireWith name direct steps creation =>
    have hc := meets_recording (fun h => momentsAll_meet v c steps h)
      (fun h => echoes_runAll v c steps h) creation
    rw [Step.moments]
    refine meets_concat ?_ hlast
    rw [Step.byHand, Manual.run, h.find? name]
    cases t.find? name with
    | none => exact .nil
    | some p =>
      dsimp only [Option.elim]
      rw [trackedAcquireWith_eq]
      exact (blurs_hushed.acquireWith .nil h p c hc).2.1
  | leaseWith name guard steps creation =>
    have hc := meets_recording (fun h => momentsAll_meet v c steps h)
      (fun h => echoes_runAll v c steps h) creation
    rw [Step.moments]
    refine meets_concat ?_ hlast
    rw [Step.byHand, Manual.run, h.find? name]
    cases t.find? name with
    | none => exact .nil
    | some p =>
      dsimp only [Option.elim]
      rw [h.pool p]
      split_ifs
      · exact .nil
      · exact (blurs_hushed.acquireWith .nil h p c hc).2.1
  | warmup name count value at? steps panics =>
    have hc : ∀ answer : Option String, _ := meets_recording (fun h => momentsAll_meet v c steps h)
      (fun h => echoes_runAll v c steps h)
    rw [Step.moments]
    refine meets_concat ?_ hlast
    rw [Step.byHand, Manual.run, h.find? name]
    cases t.find? name with
    | none => exact .nil
    | some p =>
      refine (blurs_hushed.warmup (R := List.Forall₂ Moment.Meets) .nil h
        (fun h h' => List.rel_append h h') p (fun n e u w huw => ?_) count 0).2.1
      by_cases hn : at? = some n
      · rw [if_pos hn, if_pos hn]
        exact hc _ e u w huw
      · rw [if_neg hn, if_neg hn]
        exact ⟨rfl, .nil, huw⟩

theorem momentsAll_meet (v : View) (c : CallerId) (steps : List Step) {s t : Store String}
    (h : s.Echoes t) :
    List.Forall₂ Moment.Meets (momentsAll v c steps s) (Manual.runAll c (byHandAll steps) t).1 := by
  cases steps with
  | nil => exact .nil
  | cons step steps =>
    have hrest := momentsAll_meet v c steps (step_meets v c step h).2
    have happend := List.rel_append (moments_meet v c step h) hrest
    simp only [List.append_assoc, List.singleton_append] at happend
    rw [byHandAll, momentsAll, Manual.runAll]
    exact happend

end

/-! ### Programs -/

end Program

end ResourcePool
