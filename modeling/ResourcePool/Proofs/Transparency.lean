import ResourcePool.Proofs.Run.Program
import ResourcePool.Proofs.Veil.Mirrors

/-! Transparency: a program does the same whether its calls go through leak trackers or past them, with
nested steps to any depth. Only what is asked of the trackers themselves tells the difference. -/
namespace ResourcePool

namespace Program

/-- The same action past the leak tracker. -/
def Action.direct : Action → Action
  | acquire pool _ => acquire pool true
  | drain pool _ => drain pool true
  | release pool e _ => release pool e true
  | remove pool e _ => remove pool e true
  | lease pool guard _ => lease pool guard true
  | a => a

/-- Whether an action asks a leak tracker what it found. -/
def Action.asksLeaks : Action → Bool
  | checkLeaks _ | sweep _ | tracking _ => true
  | _ => false

mutual

/-- The same step past the leak trackers, with all that is nested in it. -/
def Step.direct : Step → Step
  | .act a => .act a.direct
  | .acquireWith pool _ steps creation => .acquireWith pool true (directAll steps) creation
  | .leaseWith pool guard steps creation => .leaseWith pool guard (directAll steps) creation
  | .warmup pool count value at? steps panics =>
    .warmup pool count value at? (directAll steps) panics

def directAll : List Step → List Step
  | [] => []
  | step :: steps => step.direct :: directAll steps

end

def Command.direct : Command → Command
  | .run caller? step => .run caller? step.direct
  | .leave caller steps => .leave caller (directAll steps)

/-- The point of a program at which a step is done. -/
structure Moment where
  /-- Whether the step asked a leak tracker what it found. -/
  asksLeaks : Bool
  answer? : Option Answer
  store : Store String

def Report.answer? : Report → Option Answer
  | .step answer .. => some answer
  | _ => none

def Step.asksLeaks : Step → Bool
  | .act a => a.asksLeaks
  | _ => false

def Step.moment (v : View) (c : CallerId) (step : Step) (s : Store String) : Moment where
  asksLeaks := step.asksLeaks
  answer? := (step.run v c s).1.answer?
  store := (step.run v c s).2

/-- A creator or factory that runs steps before it answers, and reports their moments. -/
def recording {β : Type} (moments : Store String → List Moment)
    (run : Store String → List Report × Store String) (answer : β) (e : EntryId) (s : Store String) :
    β × List Moment × Store String :=
  (answer, moments (s.hold e), (run (s.hold e)).2)

mutual

/-- The moments of a step, those of the steps nested in it first. -/
def Step.moments (v : View) (c : CallerId) : Step → Store String → List Moment
  | .act a, s => [(Step.act a).moment v c s]
  | .acquireWith name direct steps creation, s =>
    let nested := (s.find? name).elim [] fun p =>
      (s.acquireWith p c (recording (momentsAll v c steps) (runAll v c steps) creation)).2.1
    nested ++ [(Step.acquireWith name direct steps creation).moment v c s]
  | .leaseWith name guard steps creation, s =>
    let nested := (s.find? name).elim [] fun p =>
      if (s.pool p).tracker?.isSome then []
      else (s.acquireWith p c (recording (momentsAll v c steps) (runAll v c steps) creation)).2.1
    nested ++ [(Step.leaseWith name guard steps creation).moment v c s]
  | .warmup name count value at? steps panics, s =>
    let nested := (s.find? name).elim [] fun p =>
      (Store.warmup p (fun n e s =>
        if at? = some n then
          recording (momentsAll v c steps) (runAll v c steps)
            (if panics then none else some (value n)) e s
        else (some (value n), [], s)) count 0 s).2.1
    nested ++ [(Step.warmup name count value at? steps panics).moment v c s]

def momentsAll (v : View) (c : CallerId) : List Step → Store String → List Moment
  | [], _ => []
  | step :: steps, s => step.moments v c s ++ momentsAll v c steps (step.run v c s).2

end

def Command.moments (v : View) (s : Store String) : Command → List Moment
  | .run none step => step.moments v .main s
  | .run (some name) step =>
    let (c, callers) := s.callers.enter name
    step.moments v c { s with callers }
  | .leave name steps =>
    let nested := (s.callers.leave? name).elim [] fun callers =>
      momentsAll v .leaving steps { s with callers }
    nested ++ [{
      asksLeaks := false
      answer? := ((Command.leave name steps).execute v s).1.answer?
      store := ((Command.leave name steps).execute v s).2 }]

/-- The moments of a program, nested steps included. -/
def moments (v : View) : List Command → Store String → List Moment
  | [], _ => []
  | command :: commands, s => command.moments v s ++ moments v commands (command.execute v s).2

/-- Moments of which only the leak trackers and the log can tell the difference. -/
structure Moment.Agrees (m n : Moment) : Prop where
  asksLeaks : m.asksLeaks = n.asksLeaks
  answer : m.asksLeaks = false → m.answer? = n.answer?
  entries : m.store.entries = n.store.entries
  pool : ∀ p, (m.store.pool p).bare = (n.store.pool p).bare
  metrics : ∀ p, m.store.metrics p = n.store.metrics p
  mirrors : m.store.Mirrors n.store

/-! ### Actions -/

section Actions
open Program.Action Store

variable {s t : Store String}

theorem Moment.Agrees.of_mirrors {m n : Moment} (hasks : m.asksLeaks = n.asksLeaks)
    (hanswer : m.asksLeaks = false → m.answer? = n.answer?) (h : m.store.Mirrors n.store) :
    m.Agrees n where
  asksLeaks := hasks
  answer := hanswer
  entries := h.entries
  pool p := h.bare p
  metrics p := h.metrics p
  mirrors := h

theorem mirrored_onPool (h : s.Mirrors t) (name : String) {f g : PoolId → Answer × Store String}
    (hf : ∀ p, Mirrored (f p) (g p)) : Mirrored (onPool s name f) (onPool t name g) :=
  related_onPool s t (P := Mirrored) (fun _ => ⟨rfl, h⟩) (h.find? name) hf

theorem mirrored_onHeld (h : s.Mirrors t) (e : EntryId) {f g : Entry String → Answer × Store String}
    (hf : ∀ x, Mirrored (f x) (g x)) : Mirrored (onHeld s e f) (onHeld t e g) := by
  refine related_onHeld s t (P := Mirrored) (fun _ => ⟨rfl, h⟩) h.handles ?_
  rw [h.entry e]
  exact hf _

theorem mirrored_onGuard (h : s.Mirrors t) (name : String) {f g : Guard → Answer × Store String}
    (hf : ∀ x y, x.veiled = y.veiled → Mirrored (f x) (g y)) :
    Mirrored (onGuard s name f) (onGuard t name g) := by
  have hguard := h.guard? name
  unfold onGuard
  cases hs : s.guard? name with
  | none =>
    rw [hs] at hguard
    rw [Option.map_eq_none_iff.mp hguard.symm]
    exact ⟨rfl, h⟩
  | some x =>
    rw [hs] at hguard
    obtain ⟨y, hy, hveiled⟩ := Option.map_eq_some_iff.mp hguard.symm
    rw [hy]
    exact hf x y hveiled.symm

theorem mirrored_obtained (h : s.Mirrors t) (e? : Option EntryId) :
    Mirrored (obtained s e?) (obtained t e?) := by
  cases e? with
  | none => exact ⟨rfl, h⟩
  | some e =>
    exact ⟨congrArg (Answer.got (some e)) (h.value? e), h.map fun u => u.veiled_hold e⟩

theorem isLeased_eq (h : s.Mirrors t) (name : String) : isLeased s name = isLeased t name := by
  refine h.read (f := fun u => isLeased u name) fun u => ?_
  have hname : ∀ p, (u.veiled.pool p).name = (u.pool p).name := fun p => by rw [u.pool_veiled]; rfl
  unfold isLeased
  simp only [hname]
  exact List.any_map

theorem overview_eq (h : s.Mirrors t) (p : PoolId) : Overview.of s p = Overview.of t p := by
  refine h.read (f := fun u => Overview.of u p) fun u => ?_
  have htally : u.veiled.tally p = u.tally p := u.tally_veiled p
  unfold Overview.of summary describePool
  rw [htally, u.members_veiled, u.pool_veiled]
  rfl

/-- All actions but those that ask a leak tracker are answered the same past the trackers. -/
theorem mirrored_perform (h : s.Mirrors t) (c : CallerId) {a : Action} (ha : a.asksLeaks = false) :
    Mirrored (a.perform c s) (a.direct.perform c t) := by
  cases a with
  | create name settings detector? =>
    obtain ⟨p, u, v, hs, ht, hstores⟩ := (h.create name settings detector?).exists_eq
    unfold Action.direct perform
    dsimp only
    rw [hs, ht]
    exact ⟨congrArg Answer.created (hstores.describePool p), hstores⟩
  | dropPool name =>
    unfold Action.direct perform
    dsimp only
    rw [isLeased_eq h, h.find? name]
    split_ifs
    · exact ⟨rfl, h⟩
    · exact ⟨rfl, h.map (f := fun u => u.forget name) fun _ => rfl⟩
  | reserve name =>
    refine mirrored_onPool h name fun p => ?_
    obtain ⟨e?, u, v, hs, ht, hstores⟩ := (h.reserve p).exists_eq
    rw [hs, ht]
    exact mirrored_obtained hstores e?
  | enable e v active =>
    refine mirrored_onHeld h e fun _ => ?_
    obtain ⟨hanswer, hstores⟩ := h.enable e v active
    exact ⟨congrArg ofResult hanswer, hstores⟩
  | acquire name direct =>
    refine mirrored_onPool h name fun p => ?_
    obtain ⟨e?, u, v, hs, ht, hstores⟩ := (h.trackedAcquire direct true p c).exists_eq
    rw [hs, ht]
    exact mirrored_obtained hstores e?
  | drain name direct =>
    refine mirrored_onPool h name fun p => ?_
    have hdrain := h.drain direct true p c (t.entries.size + 1)
    unfold acquireAll
    rw [h.entries]
    obtain ⟨es, u, v, hs, ht, hstores⟩ := hdrain.exists_eq
    rw [hs, ht]
    have hshown : shown u p es = shown v p es := by
      have hsettings := congrArg Pool.settings (hstores.bare p)
      change (u.pool p).settings = (v.pool p).settings at hsettings
      unfold shown
      rw [hsettings]
    exact ⟨congrArg Answer.entries hshown, hstores.holdAll es⟩
  | release name e direct =>
    refine mirrored_onHeld h e fun _ => mirrored_onPool h name fun p => ?_
    obtain ⟨hanswer, hstores⟩ := h.trackedRelease direct true p c e
    exact ⟨congrArg ofResult hanswer, hstores⟩
  | remove name e direct =>
    refine mirrored_onHeld h e fun _ => mirrored_onPool h name fun p => ?_
    obtain ⟨hanswer, hstores⟩ := h.trackedRemove direct true p e
    exact ⟨congrArg Answer.done hanswer, hstores⟩
  | close name =>
    refine mirrored_onPool h name fun p => ?_
    obtain ⟨hanswer, hstores⟩ := h.close p
    exact ⟨congrArg Answer.disposed hanswer, hstores⟩
  | entry e => exact mirrored_onHeld h e fun _ => ⟨rfl, h⟩
  | entries name =>
    refine mirrored_onPool h name fun p => ?_
    rw [h.members p]
    exact ⟨rfl, h.holdAll _⟩
  | dropHandle e =>
    unfold Action.direct perform
    rw [h.handles]
    exact ⟨rfl, h.map (f := fun u => u.unhold e) fun _ => rfl⟩
  | dropHandles =>
    unfold Action.direct perform
    rw [h.handles]
    exact ⟨rfl, h.map (f := fun u => { u with handles := [] }) fun _ => rfl⟩
  | overview name =>
    exact mirrored_onPool h name fun p => ⟨congrArg Answer.overview (overview_eq h p), h⟩
  | metrics name =>
    exact mirrored_onPool h name fun p => ⟨congrArg Answer.metrics (h.metrics p), h⟩
  | texts name =>
    exact mirrored_onPool h name fun p => ⟨congrArg Answer.texts (h.metrics p), h⟩
  | exposition name title tags =>
    exact mirrored_onPool h name fun p => ⟨congrArg (fun m : Metrics =>
      Answer.exposition (m.exposition title tags)) (h.metrics p), h⟩
  | health name =>
    exact mirrored_onPool h name fun p => ⟨congrArg Answer.health (h.health p), h⟩
  | lease name guard direct =>
    refine mirrored_onPool h name fun p => ?_
    obtain ⟨e?, u, v, hs, ht, hstores⟩ := (h.lease direct true p c guard).exists_eq
    rw [hs, ht]
    have hvalue : e?.bind u.value? = e?.bind v.value? := by
      rw [show u.value? = v.value? from funext hstores.value?]
    exact ⟨congrArg (Answer.got e?) hvalue, hstores⟩
  | guarded name =>
    refine mirrored_onGuard h name fun x y hxy => ?_
    have hentry := (Guard.veiled_eq_iff.mp hxy).2
    rw [hentry, h.value?]
    exact ⟨rfl, h.map fun u => u.veiled_hold _⟩
  | dropGuard name =>
    refine mirrored_onGuard h name fun x y hxy => ⟨rfl, ?_⟩
    exact (h.map fun u => u.veiled_endGuard name).giveBack c hxy
  | removeGuarded name =>
    refine mirrored_onGuard h name fun x y hxy => ?_
    obtain ⟨hanswer, hstores⟩ := h.removeGuarded name hxy
    exact ⟨congrArg Answer.done hanswer, hstores⟩
  | detach name =>
    refine mirrored_onGuard h name fun x y hxy => ?_
    have hentry := (Guard.veiled_eq_iff.mp hxy).2
    refine ⟨congrArg Answer.handle hentry, ?_⟩
    unfold Store.detach
    rw [hentry]
    exact (h.map fun u => u.veiled_hold _).map fun u => u.veiled_endGuard name
  | clearTracking name =>
    refine related_onTracked s t (P := Mirrored) (fun _ => ⟨rfl, h⟩) (h.find? name) h.isSome_tracker?
      fun p x y hx hy => ⟨rfl, ?_⟩
    exact (mirrors_setTracker hx _).symm.trans (h.trans (mirrors_setTracker hy _))
  | checkLeaks | sweep | tracking => simp [asksLeaks] at ha
  | invalid held? pool? field =>
    have hrefused : Mirrored (Answer.failed (.badInput field), s) (Answer.failed (.badInput field), t) :=
      ⟨rfl, h⟩
    unfold Action.direct perform
    cases pool? with
    | none =>
      cases held? with
      | none => exact hrefused
      | some e => exact mirrored_onHeld h e fun _ => hrefused
    | some name =>
      have hpool := mirrored_onPool h name fun _ => hrefused
      cases held? with
      | none => exact hpool
      | some e => exact mirrored_onHeld h e fun _ => hpool

/-- Asking a leak tracker leaves traces in the tracker and the log only. -/
theorem mirrors_perform (h : s.Mirrors t) (c : CallerId) (a : Action) :
    (a.perform c s).2.Mirrors (a.direct.perform c t).2 := by
  cases ha : a.asksLeaks with
  | false => exact (mirrored_perform h c ha).2
  | true =>
    cases a with
    | checkLeaks name =>
      refine related_onTracked s t (P := fun x y => x.2.Mirrors y.2) (fun _ => h) (h.find? name)
        h.isSome_tracker? fun p x y hx hy => ?_
      exact (mirrors_checkLeaks hx).symm.trans (h.trans (mirrors_checkLeaks hy))
    | sweep name =>
      refine related_onTracked s t (P := fun x y => x.2.Mirrors y.2) (fun _ => h) (h.find? name)
        h.isSome_tracker? fun p x y hx hy => ?_
      exact (mirrors_setTracker hx _).symm.trans (h.trans (mirrors_setTracker hy _))
    | tracking name =>
      exact related_onTracked s t (P := fun x y => x.2.Mirrors y.2) (fun _ => h) (h.find? name)
        h.isSome_tracker? fun _ _ _ _ _ => h
    | _ => simp [asksLeaks] at ha

end Actions

/-! ### Steps -/

section Steps
open Store

variable {s t : Store String}

theorem answer?_report (v : View) (answer : Answer) (inner? : Option (List Report)) (s : Store String) :
    (v.report answer inner? s).1.answer? = some answer := by
  unfold View.report
  dsimp only
  split_ifs <;> rfl

/-- Showing the log only notes how far it was read. -/
theorem mirrors_report (v : View) (answer : Answer) (inner? : Option (List Report)) (s : Store String) :
    s.Mirrors (v.report answer inner? s).2 := by
  unfold View.report
  dsimp only
  split_ifs <;> rfl

/-- Reports on equal answers and stores that mirror each other. -/
theorem report_agrees (v : View) {x y : Answer × Store String} (h : Mirrored x y)
    (inner? inner?' : Option (List Report)) :
    (v.report x.1 inner? x.2).1.answer? = (v.report y.1 inner?' y.2).1.answer? ∧
      (v.report x.1 inner? x.2).2.Mirrors (v.report y.1 inner?' y.2).2 := by
  refine ⟨?_, ?_⟩
  · rw [answer?_report, answer?_report, h.1]
  · exact (mirrors_report v _ _ x.2).symm.trans (h.2.trans (mirrors_report v _ _ y.2))

theorem mirrored_holdCreated (h : s.Mirrors t) (result : Except CreationError (Option EntryId)) :
    Mirrored (holdCreated s result) (holdCreated t result) := by
  cases result with
  | error e => exact ⟨rfl, h⟩
  | ok e? => exact mirrored_obtained h e?

theorem mirrored_guardCreated (h : s.Mirrors t) (p : PoolId) (c : CallerId) (name : String)
    (result : Except CreationError (Option EntryId)) :
    Mirrored (guardCreated s p c name result) (guardCreated t p c name result) := by
  cases result with
  | error e => exact ⟨rfl, h⟩
  | ok e? =>
    cases e? with
    | none => exact ⟨rfl, h⟩
    | some e => exact ⟨congrArg (Answer.got (some e)) (h.value? e), h.putGuard c name rfl⟩

theorem created_agrees (v : View) (direct direct' : Bool) (p : PoolId) (c : CallerId) (h : s.Mirrors t)
    {f g : EntryId → Store String → Creation String × List Report × Store String}
    (hc : ∀ e u w, u.Mirrors w → MirroredWith (fun _ _ => True) (f e u) (g e w)) :
    let (result, inner, u) := s.trackedAcquireWith direct p c f
    let (result', inner', w) := t.trackedAcquireWith direct' p c g
    let x := holdCreated u result
    let y := holdCreated w result'
    (v.report x.1 (some inner) x.2).1.answer? = (v.report y.1 (some inner') y.2).1.answer? ∧
      (v.report x.1 (some inner) x.2).2.Mirrors (v.report y.1 (some inner') y.2).2 := by
  obtain ⟨result, inner, inner', u, w, hs, ht, -, hstores⟩ :=
    (h.trackedAcquireWith trivial direct direct' p c hc).exists_eq
  rw [hs, ht]
  exact report_agrees v (mirrored_holdCreated hstores result) _ _

theorem leased_agrees (v : View) (p : PoolId) (c : CallerId) (name : String) (h : s.Mirrors t)
    {f g : EntryId → Store String → Creation String × List Report × Store String}
    (hc : ∀ e u w, u.Mirrors w → MirroredWith (fun _ _ => True) (f e u) (g e w)) :
    let (result, inner, u) := s.acquireWith p c f
    let (result', inner', w) := t.acquireWith p c g
    let x := guardCreated u p c name result
    let y := guardCreated w p c name result'
    (v.report x.1 (some inner) x.2).1.answer? = (v.report y.1 (some inner') y.2).1.answer? ∧
      (v.report x.1 (some inner) x.2).2.Mirrors (v.report y.1 (some inner') y.2).2 := by
  obtain ⟨result, inner, inner', u, w, hs, ht, -, hstores⟩ :=
    (h.acquireWith trivial p c hc).exists_eq
  rw [hs, ht]
  exact report_agrees v (mirrored_guardCreated hstores p c name result) _ _

theorem warmed_agrees (v : View) (p : PoolId) (count : Nat) (at? : Option Nat) (h : s.Mirrors t)
    {f g : Nat → EntryId → Store String → Option String × List Report × Store String}
    (hf : ∀ n e u w, u.Mirrors w → MirroredWith (fun _ _ => True) (f n e u) (g n e w)) :
    let (x, inner, u) := Store.warmup p f count 0 s
    let (y, inner', w) := Store.warmup p g count 0 t
    (v.report (.warmed x) (if at?.isSome then some inner else none) u).1.answer? =
      (v.report (.warmed y) (if at?.isSome then some inner' else none) w).1.answer? ∧
    (v.report (.warmed x) (if at?.isSome then some inner else none) u).2.Mirrors
      (v.report (.warmed y) (if at?.isSome then some inner' else none) w).2 := by
  obtain ⟨x, inner, inner', u, w, hs, ht, -, hstores⟩ :=
    (h.warmup trivial (fun _ _ => trivial) p hf count 0).exists_eq
  rw [hs, ht]
  exact report_agrees v (x := (.warmed x, u)) (y := (.warmed x, w)) ⟨rfl, hstores⟩ _ _

theorem mirrored_nested {v : View} {c : CallerId} {steps steps' : List Step}
    (hsteps : ∀ {u w : Store String}, u.Mirrors w → (runAll v c steps u).2.Mirrors (runAll v c steps' w).2)
    (creation : Creation String) (e : EntryId) (u w : Store String) (h : u.Mirrors w) :
    MirroredWith (fun _ _ => True) (nested v c steps creation e u) (nested v c steps' creation e w) :=
  ⟨rfl, trivial, hsteps (h.map fun u => u.veiled_hold e)⟩

mutual

/-- A step goes the same way past the trackers. -/
theorem step_agrees (v : View) (c : CallerId) (step : Step) {s t : Store String} (h : s.Mirrors t) :
    (step.asksLeaks = false →
      (step.run v c s).1.answer? = (step.direct.run v c t).1.answer?) ∧
    (step.run v c s).2.Mirrors (step.direct.run v c t).2 := by
  have hsame : ∀ answer : Answer, Mirrored (answer, s) (answer, t) := fun _ => ⟨rfl, h⟩
  cases step with
  | act a =>
    rw [Step.direct, Step.run, Step.run]
    dsimp only
    refine ⟨fun ha => (report_agrees v (mirrored_perform h c ha) none none).1, ?_⟩
    have hp := mirrors_perform h c a
    exact (mirrors_report v _ _ _).symm.trans (hp.trans (mirrors_report v _ _ _))
  | acquireWith name direct steps creation =>
    have hc := mirrored_nested (fun h => mirrors_runAll v c steps h) creation
    rw [Step.direct, Step.run, Step.run, h.find? name]
    cases t.find? name with
    | none => exact (report_agrees v (hsame _) none none).imp_left fun h _ => h
    | some p => exact (created_agrees v direct true p c h hc).imp_left fun h _ => h
  | leaseWith name guard steps creation =>
    have hc := mirrored_nested (fun h => mirrors_runAll v c steps h) creation
    rw [Step.direct, Step.run, Step.run, h.find? name]
    cases t.find? name with
    | none => exact (report_agrees v (hsame _) none none).imp_left fun h _ => h
    | some p =>
      dsimp only
      rw [h.isSome_tracker? p]
      split_ifs
      · exact (report_agrees v (hsame _) _ _).imp_left fun h _ => h
      · exact (leased_agrees v p c guard h hc).imp_left fun h _ => h
  | warmup name count value at? steps panics =>
    rw [Step.direct, Step.run, Step.run, h.find? name]
    cases t.find? name with
    | none => exact (report_agrees v (hsame _) none none).imp_left fun h _ => h
    | some p =>
      refine (warmed_agrees v p count at? h fun n e u w huw => ?_).imp_left fun h _ => h
      by_cases hn : at? = some n
      · rw [if_pos hn, if_pos hn]
        exact ⟨rfl, trivial, mirrors_runAll v c steps (huw.map fun u => u.veiled_hold e)⟩
      · rw [if_neg hn, if_neg hn]
        exact ⟨rfl, trivial, huw⟩

theorem mirrors_runAll (v : View) (c : CallerId) (steps : List Step) {s t : Store String}
    (h : s.Mirrors t) : (runAll v c steps s).2.Mirrors (runAll v c (directAll steps) t).2 := by
  cases steps with
  | nil => exact h
  | cons step steps =>
    rw [directAll, runAll, runAll]
    exact mirrors_runAll v c steps (step_agrees v c step h).2

end

theorem Step.asksLeaks_direct (step : Step) : step.direct.asksLeaks = step.asksLeaks := by
  cases step with
  | act a => cases a <;> rfl
  | _ => rfl

theorem moment_agrees (v : View) (c : CallerId) (step : Step) (h : s.Mirrors t) :
    (step.moment v c s).Agrees (step.direct.moment v c t) := by
  obtain ⟨hanswer, hstores⟩ := step_agrees v c step h
  exact .of_mirrors step.asksLeaks_direct.symm hanswer hstores

/-- The moments of nested steps agree before that of the step itself. -/
theorem agrees_concat {ms ns : List Moment} {m n : Moment} (h : List.Forall₂ Moment.Agrees ms ns)
    (hm : m.Agrees n) : List.Forall₂ Moment.Agrees (ms ++ [m]) (ns ++ [n]) :=
  List.rel_append h (.cons hm .nil)

theorem agrees_recording {β : Type} {ms ms' : Store String → List Moment}
    {run run' : Store String → List Report × Store String}
    (hm : ∀ {u w}, u.Mirrors w → List.Forall₂ Moment.Agrees (ms u) (ms' w))
    (hr : ∀ {u w}, u.Mirrors w → (run u).2.Mirrors (run' w).2) (answer : β) (e : EntryId)
    (u w : Store String) (h : u.Mirrors w) :
    MirroredWith (List.Forall₂ Moment.Agrees) (recording ms run answer e u)
      (recording ms' run' answer e w) :=
  have hheld := h.map fun u => u.veiled_hold e
  ⟨rfl, hm hheld, hr hheld⟩

mutual

theorem agrees_moments (v : View) (c : CallerId) (step : Step) {s t : Store String}
    (h : s.Mirrors t) :
    List.Forall₂ Moment.Agrees (step.moments v c s) (step.direct.moments v c t) := by
  have hlast := moment_agrees v c step h
  cases step with
  | act a =>
    rw [Step.direct, Step.moments, Step.moments]
    exact .cons hlast .nil
  | acquireWith name direct steps creation =>
    have hc := agrees_recording (fun h => agrees_momentsAll v c steps h)
      (fun h => mirrors_runAll v c steps h) creation
    rw [Step.direct] at hlast ⊢
    rw [Step.moments, Step.moments, h.find? name]
    refine agrees_concat ?_ hlast
    cases t.find? name with
    | none => exact .nil
    | some p => exact (h.acquireWith .nil p c hc).2.1
  | leaseWith name guard steps creation =>
    have hc := agrees_recording (fun h => agrees_momentsAll v c steps h)
      (fun h => mirrors_runAll v c steps h) creation
    rw [Step.direct] at hlast ⊢
    rw [Step.moments, Step.moments, h.find? name]
    refine agrees_concat ?_ hlast
    cases t.find? name with
    | none => exact .nil
    | some p =>
      dsimp only [Option.elim]
      rw [h.isSome_tracker? p]
      split_ifs
      · exact .nil
      · exact (h.acquireWith .nil p c hc).2.1
  | warmup name count value at? steps panics =>
    have hc : ∀ answer : Option String, _ := agrees_recording (fun h => agrees_momentsAll v c steps h)
      (fun h => mirrors_runAll v c steps h)
    rw [Step.direct] at hlast ⊢
    rw [Step.moments, Step.moments, h.find? name]
    refine agrees_concat ?_ hlast
    cases t.find? name with
    | none => exact .nil
    | some p =>
      refine (h.warmup (R := List.Forall₂ Moment.Agrees) .nil (fun h h' => List.rel_append h h') p
        (fun n e u w huw => ?_) count 0).2.1
      by_cases hn : at? = some n
      · rw [if_pos hn, if_pos hn]
        exact hc _ e u w huw
      · rw [if_neg hn, if_neg hn]
        exact ⟨rfl, .nil, huw⟩

theorem agrees_momentsAll (v : View) (c : CallerId) (steps : List Step) {s t : Store String}
    (h : s.Mirrors t) :
    List.Forall₂ Moment.Agrees (momentsAll v c steps s) (momentsAll v c (directAll steps) t) := by
  cases steps with
  | nil => exact .nil
  | cons step steps =>
    rw [directAll, momentsAll, momentsAll]
    exact List.rel_append (agrees_moments v c step h)
      (agrees_momentsAll v c steps (step_agrees v c step h).2)

end

/-! ### Programs -/

theorem command_agrees (v : View) (command : Command) (h : s.Mirrors t) :
    List.Forall₂ Moment.Agrees (command.moments v s) (command.direct.moments v t) ∧
    (command.execute v s).2.Mirrors (command.direct.execute v t).2 := by
  cases command with
  | run caller? step =>
    cases caller? with
    | none => exact ⟨agrees_moments v .main step h, (step_agrees v .main step h).2⟩
    | some name =>
      have henter : { s with callers := (s.callers.enter name).2 }.Mirrors
          { t with callers := (s.callers.enter name).2 } :=
        h.map (f := fun u => { u with callers := (s.callers.enter name).2 }) fun _ => rfl
      unfold Command.moments Command.direct Command.execute
      rw [← h.callers]
      exact ⟨agrees_moments v _ step henter, (step_agrees v _ step henter).2⟩
  | leave name steps =>
    have hleave : ∀ callers, { s with callers }.Mirrors { t with callers } :=
      fun callers => h.map (f := fun u => { u with callers }) fun _ => rfl
    unfold Command.moments Command.direct Command.execute
    dsimp only
    rw [← h.callers]
    cases s.callers.leave? name with
    | none =>
      refine ⟨?_, h⟩
      exact .cons (.of_mirrors rfl (fun _ => rfl) h) .nil
    | some callers =>
      have hstores := mirrors_runAll v .leaving steps (hleave callers)
      refine ⟨agrees_concat (agrees_momentsAll v .leaving steps (hleave callers)) ?_, hstores⟩
      exact .of_mirrors rfl (fun _ => rfl) hstores

end Steps

/-- Whether a program's calls go through leak trackers or straight to the pools, its steps are answered the
same, but for what they ask the trackers, at every one of its moments. Entries and pools are the same
then, and so are all readings of metrics. -/
theorem same_past_trackers (v : View) (commands : List Command) (s : Store String) :
    List.Forall₂ Moment.Agrees (moments v commands s) (moments v (commands.map Command.direct) s) ∧
    (execute v commands s).2.Mirrors (execute v (commands.map Command.direct) s).2 := by
  have hall : ∀ (cs : List Command) (s t : Store String), s.Mirrors t →
      List.Forall₂ Moment.Agrees (moments v cs s) (moments v (cs.map Command.direct) t) ∧
      (execute v cs s).2.Mirrors (execute v (cs.map Command.direct) t).2 := by
    intro cs
    induction cs with
    | nil => exact fun _ _ h => ⟨.nil, h⟩
    | cons command cs ih =>
      intro s t h
      obtain ⟨hmoments, hstores⟩ := command_agrees v command h
      obtain ⟨hmore, hlast⟩ := ih _ _ hstores
      exact ⟨List.rel_append hmoments hmore, hlast⟩
  exact hall commands s s (.refl s)

end Program
end ResourcePool
