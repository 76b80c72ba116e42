import ResourcePool.Proofs.Realm.Calls

/-! Programs within a realm: a step that names the pool, the entries and the guards of a realm only, with all
that is nested in it, does the same on stores that are linked. -/
namespace ResourcePool.Program

/-! ### Steps and reports on entries of other numbers -/

section Renumber

variable (π : EntryId → EntryId)

def Action.renumber : Action → Action
  | enable e value active => enable (π e) value active
  | release pool e direct => release pool (π e) direct
  | remove pool e direct => remove pool (π e) direct
  | entry e => entry (π e)
  | dropHandle e => dropHandle (π e)
  | invalid held? pool? field => invalid (held?.map π) pool? field
  | a => a

def Answer.renumber : Answer → Answer
  | got id? value? => got (id?.map π) value?
  | handle e => handle (π e)
  | entries es => entries (es.map π)
  | tracking t => tracking (t.renumber π)
  | a => a

mutual

/-- The same step, with all that is nested in it, on entries of other numbers. -/
def Step.renumber : Step → Step
  | .act a => .act (a.renumber π)
  | .acquireWith pool direct steps creation => .acquireWith pool direct (renumberSteps steps) creation
  | .leaseWith pool guard steps creation => .leaseWith pool guard (renumberSteps steps) creation
  | .warmup pool count value at? steps panics =>
    .warmup pool count value at? (renumberSteps steps) panics

def renumberSteps : List Step → List Step
  | [] => []
  | step :: steps => step.renumber :: renumberSteps steps

end

mutual

/-- The same report about entries of other numbers. Listings and logs are texts and stay as they are. -/
def Report.renumber : Report → Report
  | .reserved e => .reserved (π e)
  | .step answer none listing? log? => .step (answer.renumber π) none listing? log?
  | .step answer (some inner) listing? log? =>
    .step (answer.renumber π) (some (renumberReports inner)) listing? log?
  | .left inner => .left (renumberReports inner)

def renumberReports : List Report → List Report
  | [] => []
  | r :: rs => r.renumber :: renumberReports rs

end

end Renumber

mutual

/-- What a report says but for listings and logs, which show all pools. -/
def Report.bare : Report → Report
  | .reserved e => .reserved e
  | .step answer none _ _ => .step answer none none none
  | .step answer (some inner) _ _ => .step answer (some (bareReports inner)) none none
  | .left inner => .left (bareReports inner)

def bareReports : List Report → List Report
  | [] => []
  | r :: rs => r.bare :: bareReports rs

end

/-- An action on the pool of a name, on entries in `mine` and on guards in `guards`. -/
def Action.On (name : String) (mine : EntryId → Prop) (guards : String → Prop) : Action → Prop
  | create .. | dropPool _ | dropHandles => False
  | reserve pool | acquire pool _ | drain pool _ | close pool | entries pool | overview pool
  | metrics pool | texts pool | exposition pool _ _ | health pool | checkLeaks pool
  | clearTracking pool | sweep pool | tracking pool => pool = name
  | enable e _ _ | entry e | dropHandle e => mine e
  | release pool e _ | remove pool e _ => pool = name ∧ mine e
  | lease pool guard _ => pool = name ∧ guards guard
  | guarded guard | dropGuard guard | removeGuarded guard | detach guard => guards guard
  | invalid held? pool? _ => (∀ e, held? = some e → mine e) ∧ ∀ pool, pool? = some pool → pool = name

section On

variable (name : String) (mine : EntryId → Prop) (guards : String → Prop)

mutual

/-- A step all of whose actions are on one pool, those of nested steps included. -/
def Step.On : Step → Prop
  | .act a => a.On name mine guards
  | .acquireWith pool _ steps _ => pool = name ∧ AllOn steps
  | .leaseWith pool guard steps _ => pool = name ∧ guards guard ∧ AllOn steps
  | .warmup pool _ _ _ steps _ => pool = name ∧ AllOn steps

def AllOn : List Step → Prop
  | [] => True
  | step :: steps => step.On ∧ AllOn steps

end

end On

/-! ### Actions -/

section Actions
open Program.Action Store Realm

variable {R : Realm} {rest t u : Store String} {e : EntryId}

/-- An answer about the same entries, under their numbers elsewhere. -/
def Answers (R : Realm) (_ : Nat) (x y : Answer) : Prop :=
  y = x.renumber R.shift

theorem matched_onPool (h : R.InStep rest t u) {f g : PoolId → Answer × Store String}
    (hfg : R.Matched rest (Answers R) (f R.pool) (g R.pool)) :
    R.Matched rest (Answers R) (onPool t R.name f) (onPool u R.name g) := by
  unfold onPool
  rw [h.named, h.found]
  exact hfg

theorem matched_onHeld (h : R.InStep rest t u) (he : R.mine e) {f g : Entry String → Answer × Store String}
    (hfg : R.Matched rest (Answers R) (f (t.entry e)) (g (t.entry e))) :
    R.Matched rest (Answers R) (onHeld t e f) (onHeld u (R.shift e) g) := by
  have hheld : u.handles.contains (R.shift e) = t.handles.contains e := by
    rw [Bool.eq_iff_iff, List.contains_iff_mem, List.contains_iff_mem]
    exact h.handle e he
  unfold onHeld
  rw [hheld, h.entry e he]
  split_ifs
  · exact hfg
  · exact ⟨rfl, h⟩

theorem matched_onGuard (h : R.InStep rest t u) {name : String} (hname : R.guards name)
    {f g : Guard → Answer × Store String}
    (hfg : ∀ e direct, R.Has t.entries.size e → R.Matched rest (Answers R)
      (f { pool := R.pool, entry := e, direct }) (g { pool := R.pool, entry := R.shift e, direct })) :
    R.Matched rest (Answers R) (onGuard t name f) (onGuard u name g) := by
  unfold onGuard
  obtain ⟨ht, hu⟩ | ⟨e, direct, he, ht, hu⟩ := h.guard?_cases hname
  · rw [ht, hu]
    exact ⟨rfl, h⟩
  · rw [ht, hu]
    exact hfg e direct he

theorem matched_onTracked (h : R.InStep rest t u) {f g : PoolId → Tracker → Answer × Store String}
    (hfg : ∀ x, (t.pool R.pool).tracker? = some x → R.Matched rest (Answers R)
      (f R.pool x) (g R.pool (x.renumber R.shift))) :
    R.Matched rest (Answers R) (onTracked t R.name f) (onTracked u R.name g) := by
  refine matched_onPool h ?_
  rw [h.tracker?]
  cases hx : (t.pool R.pool).tracker? with
  | none => exact ⟨rfl, h⟩
  | some x => exact hfg x hx

theorem matched_obtained (h : R.InStep rest t u) {x y : Option EntryId} (hxy : R.Got t.entries.size x y) :
    R.Matched rest (Answers R) (obtained t x) (obtained u y) := by
  obtain rfl := hxy.1
  cases x with
  | none => exact ⟨rfl, h⟩
  | some e =>
    have he : R.Has t.entries.size e := hxy.2 e rfl
    exact ⟨congrArg (Answer.got (some (R.shift e))) (h.value? he.1), h.hold he⟩

theorem shown_renumber (h : R.InStep rest t u) (es : List EntryId) :
    shown u R.pool (es.map R.shift) = (shown t R.pool es).map R.shift := by
  unfold shown
  rw [h.pool, Pool.renumber_settings]
  split_ifs
  · refine (List.map_mergeSort fun a _ b _ => ?_).symm
    exact decide_eq_decide.mpr shift_le_shift_iff.symm
  · rfl

theorem overview_eq_of_linked (h : R.InStep rest t u) : Overview.of u R.pool = Overview.of t R.pool := by
  unfold Overview.of
  rw [h.tally, h.summary, h.describePool, h.members, h.pool, List.length_map]
  rfl

theorem renumber_ofResult (π : EntryId → EntryId) (x : Except Fault Bool) :
    (ofResult x).renumber π = ofResult x := by
  cases x <;> rfl

/-- The leaks that a pass shows are of the same entries, and in the same order. -/
theorem sorted_leaks (R : Realm) (d : Detector) (now : Nat) :
    (Leak.sorted ((d.sweep now).1.map (Leak.renumber R.shift))).filterMap (·.resource?) =
      ((Leak.sorted (d.sweep now).1).filterMap (·.resource?)).map R.shift := by
  obtain ⟨numbered, hl⟩ := d.isSome_of_mem_sweep now
  rw [Leak.sorted_renumber (fun _ _ => shift_le_shift_iff) hl, List.filterMap_map, List.map_filterMap]
  exact List.filterMap_congr fun leak _ => leak.resource?_renumber R.shift

theorem matched_perform (h : R.InStep rest t u) (c : CallerId) {a : Action}
    (ha : a.On R.name R.mine R.guards) :
    R.Matched rest (Answers R) (a.perform c t) ((a.renumber R.shift).perform c u) := by
  cases a with
  | create | dropPool | dropHandles => exact ha.elim
  | reserve name =>
    obtain rfl := ha
    refine matched_onPool h ?_
    obtain ⟨x, y, t', u', ht, hu, hgot, hstores⟩ := h.reserve.exists_eq
    rw [ht, hu]
    exact matched_obtained hstores hgot
  | enable e value active =>
    refine matched_onHeld h ha ?_
    obtain ⟨hanswer, hstores⟩ := h.enable ha value active
    exact ⟨(congrArg ofResult hanswer.symm).trans (renumber_ofResult _ _).symm, hstores⟩
  | acquire name direct =>
    obtain rfl := ha
    refine matched_onPool h ?_
    obtain ⟨x, y, t', u', ht, hu, hgot, hstores⟩ := (h.trackedAcquire direct c).exists_eq
    rw [ht, hu]
    exact matched_obtained hstores hgot
  | drain name direct =>
    obtain rfl := ha
    refine matched_onPool h ?_
    obtain ⟨es, _, t', u', ht, hu, hall, hstores⟩ := (h.acquireAll direct c).exists_eq
    obtain rfl := hall.1
    rw [ht, hu]
    exact ⟨congrArg Answer.entries (shown_renumber hstores es), hstores.holdAll hall.2⟩
  | release name e direct =>
    obtain ⟨rfl, he⟩ := ha
    refine matched_onHeld h he (matched_onPool h ?_)
    obtain ⟨hanswer, hstores⟩ := h.trackedRelease he direct c
    exact ⟨(congrArg ofResult hanswer.symm).trans (renumber_ofResult _ _).symm, hstores⟩
  | remove name e direct =>
    obtain ⟨rfl, he⟩ := ha
    refine matched_onHeld h he (matched_onPool h ?_)
    obtain ⟨hanswer, hstores⟩ := h.trackedRemove he direct
    exact ⟨congrArg Answer.done hanswer.symm, hstores⟩
  | close name =>
    obtain rfl := ha
    refine matched_onPool h ?_
    obtain ⟨hanswer, hstores⟩ := h.close
    exact ⟨congrArg Answer.disposed hanswer.symm, hstores⟩
  | entry e => exact matched_onHeld h ha ⟨rfl, h⟩
  | entries name =>
    obtain rfl := ha
    refine matched_onPool h ?_
    rw [h.members]
    exact ⟨rfl, h.holdAll fun e he => h.has_of_mem he⟩
  | dropHandle e =>
    have hheld : u.handles.contains (R.shift e) = t.handles.contains e := by
      rw [Bool.eq_iff_iff, List.contains_iff_mem, List.contains_iff_mem]
      exact h.handle e ha
    exact ⟨congrArg Answer.done hheld, h.unhold ha⟩
  | overview name =>
    obtain rfl := ha
    exact matched_onPool h ⟨congrArg Answer.overview (overview_eq_of_linked h), h⟩
  | metrics name =>
    obtain rfl := ha
    exact matched_onPool h ⟨congrArg Answer.metrics h.metrics, h⟩
  | texts name =>
    obtain rfl := ha
    exact matched_onPool h ⟨congrArg Answer.texts h.metrics, h⟩
  | exposition name title tags =>
    obtain rfl := ha
    exact matched_onPool h
      ⟨congrArg (fun m : Metrics => Answer.exposition (m.exposition title tags)) h.metrics, h⟩
  | health name =>
    obtain rfl := ha
    exact matched_onPool h ⟨congrArg Answer.health h.health, h⟩
  | lease name guard direct =>
    obtain ⟨rfl, hguard⟩ := ha
    refine matched_onPool h ?_
    obtain ⟨x, _, t', u', ht, hu, hgot, hstores⟩ := (h.lease hguard direct c).exists_eq
    obtain rfl := hgot.1
    rw [ht, hu]
    have hvalue : (x.map R.shift).bind u'.value? = x.bind t'.value? := by
      cases x with
      | none => rfl
      | some e => exact hstores.value? (hgot.2 e rfl).1
    exact ⟨congrArg (Answer.got _) hvalue, hstores⟩
  | guarded guard =>
    refine matched_onGuard h ha fun e direct he => ?_
    exact ⟨congrArg (Answer.got (some (R.shift e))) (h.value? he.1), h.hold he⟩
  | dropGuard guard =>
    exact matched_onGuard h ha fun e direct he => ⟨rfl, h.dropGuard ha he.1 c direct⟩
  | removeGuarded guard =>
    refine matched_onGuard h ha fun e direct he => ?_
    obtain ⟨hanswer, hstores⟩ := h.removeGuarded ha he.1 direct
    exact ⟨congrArg Answer.done hanswer.symm, hstores⟩
  | detach guard =>
    exact matched_onGuard h ha fun e direct he => ⟨rfl, h.detach ha he direct⟩
  | checkLeaks name =>
    obtain rfl := ha
    refine matched_onTracked h fun x hx => ?_
    obtain ⟨hanswer, hstores⟩ := h.checkLeaks hx
    exact ⟨congrArg Answer.found hanswer.symm, hstores⟩
  | clearTracking name =>
    obtain rfl := ha
    exact matched_onTracked h fun x hx =>
      ⟨rfl, h.setTracker (x := x.clear) (h.refers.tracked x hx)⟩
  | sweep name =>
    obtain rfl := ha
    refine matched_onTracked h fun x hx => ?_
    obtain ⟨hanswer, hstores⟩ := h.sweep hx
    refine ⟨congrArg Answer.entries ?_, hstores⟩
    rw [hanswer]
    exact sorted_leaks R x.detector t.now
  | tracking name =>
    obtain rfl := ha
    exact matched_onTracked h fun x hx => ⟨rfl, h⟩
  | invalid held? pool? field =>
    let refused (w : Store String) : Answer × Store String := (.failed (.badInput field), w)
    have hrefused : R.Matched rest (Answers R) (refused t) (refused u) := ⟨rfl, h⟩
    obtain ⟨hheld, hpool⟩ := ha
    have hinner : R.Matched rest (Answers R)
        (pool?.elim (refused t) fun name => onPool t name fun _ => refused t)
        (pool?.elim (refused u) fun name => onPool u name fun _ => refused u) := by
      cases pool? with
      | none => exact hrefused
      | some name =>
        obtain rfl := hpool name rfl
        exact matched_onPool h hrefused
    cases held? with
    | none => exact hinner
    | some e => exact matched_onHeld (f := fun _ => _) (g := fun _ => _) h (hheld e rfl) hinner

end Actions

/-! ### Steps -/

section Steps
open Store Realm

variable {R : Realm} {rest t u : Store String}

/-- Reports about the same entries, under their numbers elsewhere, and stores in step. -/
def Follows (R : Realm) (rest : Store String) (x y : Report × Store String) : Prop :=
  y.1.bare = (x.1.renumber R.shift).bare ∧ R.InStep rest x.2 y.2

/-- Lists of such reports. -/
def Retold (R : Realm) (rs rs' : List Report) : Prop :=
  bareReports rs' = bareReports (renumberReports R.shift rs)

theorem bareReports_eq_map (rs : List Report) : bareReports rs = rs.map Report.bare := by
  induction rs with
  | nil => rfl
  | cons r rs ih => rw [bareReports, ih, List.map_cons]

theorem renumberReports_eq_map (π : EntryId → EntryId) (rs : List Report) :
    renumberReports π rs = rs.map (Report.renumber π) := by
  induction rs with
  | nil => rfl
  | cons r rs ih => rw [renumberReports, ih, List.map_cons]

theorem Retold.append {rs rs' more more' : List Report} (h : Retold R rs rs') (h' : Retold R more more') :
    Retold R (rs ++ more) (rs' ++ more') := by
  unfold Retold at *
  simp only [bareReports_eq_map, renumberReports_eq_map, List.map_append] at *
  rw [h, h']

/-- An answer is reported with what nested steps reported, if there are any. -/
theorem follows_report (v : View) {x y : Answer × Store String} (h : R.Matched rest (Answers R) x y)
    {inner? inner?' : Option (List Report)} (hinner : Option.Rel (Retold R) inner? inner?') :
    Follows R rest (v.report x.1 inner? x.2) (v.report y.1 inner?' y.2) := by
  obtain ⟨answer, _, t, u, rfl, rfl, rfl, hstores⟩ := h.exists_eq
  have hbare : ∀ listing? listing?' log? log?',
      (Report.step (answer.renumber R.shift) inner?' listing?' log?').bare =
        ((Report.step answer inner? listing? log?).renumber R.shift).bare := by
    intro _ _ _ _
    cases hinner with
    | none => rfl
    | some hinner => exact congrArg (fun rs => Report.step _ (some rs) none none) hinner
  unfold View.report
  cases v.log with
  | false => exact ⟨hbare _ _ _ _, hstores⟩
  | true => exact ⟨hbare _ _ _ _, hstores.readLog⟩

theorem matched_holdCreated (h : R.InStep rest t u) {x y : Except CreationError (Option EntryId)}
    (hxy : R.Ended t.entries.size x y) :
    R.Matched rest (Answers R) (holdCreated t x) (holdCreated u y) := by
  cases hxy with
  | ok hgot => exact matched_obtained h hgot
  | error x => exact ⟨rfl, h⟩

theorem matched_guardCreated (h : R.InStep rest t u) {x y : Except CreationError (Option EntryId)}
    (hxy : R.Ended t.entries.size x y) (c : CallerId) {guard : String} (hguard : R.guards guard) :
    R.Matched rest (Answers R) (guardCreated t R.pool c guard x) (guardCreated u R.pool c guard y) := by
  have hstores := h.guardResult hxy c hguard
  rw [← guardCreated_snd, ← guardCreated_snd] at hstores
  refine ⟨?_, hstores⟩
  cases hxy with
  | error x => rfl
  | @ok x y hgot =>
    obtain rfl := hgot.1
    cases x with
    | none => rfl
    | some e => exact congrArg (Answer.got (some (R.shift e))) (h.value? (hgot.2 e rfl).1)

theorem follows_created (v : View) (direct : Bool) (c : CallerId) (h : R.InStep rest t u)
    {f g : EntryId → Store String → Creation String × List Report × Store String}
    (hc : ∀ e {a b : Store String}, R.InStep rest a b → R.Has a.entries.size e →
      R.MatchedWith rest Same (Retold R) (f e a) (g (R.shift e) b)) :
    Follows R rest
      (let (result, inner, w) := t.trackedAcquireWith direct R.pool c f
       let (answer, w) := holdCreated w result
       v.report answer (some inner) w)
      (let (result, inner, w) := u.trackedAcquireWith direct R.pool c g
       let (answer, w) := holdCreated w result
       v.report answer (some inner) w) := by
  obtain ⟨x, y, rs, rs', t', u', ht, hu, hended, hreports, hstores⟩ :=
    (h.acquireWith (Q := Retold R) rfl c hc).exists_eq
  rw [trackedAcquireWith_eq, trackedAcquireWith_eq, ht, hu]
  have htold := hstores.observeResult hended direct
  have hsize : (t'.observeResult direct R.pool x).entries.size = t'.entries.size :=
    congrArg Registry.size (t'.registry_observeResult direct R.pool x)
  exact follows_report v (matched_holdCreated htold (hsize.symm ▸ hended)) (.some hreports)

theorem follows_leased (v : View) (c : CallerId) {guard : String} (hguard : R.guards guard)
    (h : R.InStep rest t u) {f g : EntryId → Store String → Creation String × List Report × Store String}
    (hc : ∀ e {a b : Store String}, R.InStep rest a b → R.Has a.entries.size e →
      R.MatchedWith rest Same (Retold R) (f e a) (g (R.shift e) b)) :
    Follows R rest
      (let (result, inner, w) := t.acquireWith R.pool c f
       let (answer, w) := guardCreated w R.pool c guard result
       v.report answer (some inner) w)
      (let (result, inner, w) := u.acquireWith R.pool c g
       let (answer, w) := guardCreated w R.pool c guard result
       v.report answer (some inner) w) := by
  obtain ⟨x, y, rs, rs', t', u', ht, hu, hended, hreports, hstores⟩ :=
    (h.acquireWith (Q := Retold R) rfl c hc).exists_eq
  rw [ht, hu]
  exact follows_report v (matched_guardCreated hstores hended c hguard) (.some hreports)

theorem follows_warmed (v : View) (at? : Option Nat) (count : Nat) (h : R.InStep rest t u)
    {f g : Nat → EntryId → Store String → Option String × List Report × Store String}
    (hf : ∀ n e {a b : Store String}, R.InStep rest a b → R.Has a.entries.size e →
      R.MatchedWith rest Same (Retold R) (f n e a) (g n (R.shift e) b)) :
    Follows R rest
      (let (w, inner, s) := Store.warmup R.pool f count 0 t
       v.report (.warmed w) (if at?.isSome then some inner else none) s)
      (let (w, inner, s) := Store.warmup R.pool g count 0 u
       v.report (.warmed w) (if at?.isSome then some inner else none) s) := by
  obtain ⟨w, _, rs, rs', t', u', ht, hu, rfl, hreports, hstores⟩ :=
    (h.warmup (Q := Retold R) rfl Retold.append hf count 0).exists_eq
  have hinner : Option.Rel (Retold R) (if at?.isSome then some rs else none)
      (if at?.isSome then some rs' else none) := by
    split_ifs
    · exact .some hreports
    · exact .none
  rw [ht, hu]
  exact follows_report v (x := (.warmed w, t')) (y := (.warmed w, u')) ⟨rfl, hstores⟩ hinner

/-- What a creator runs before it answers. -/
theorem matched_nested {v : View} {c : CallerId} {steps steps' : List Step}
    (hrun : ∀ {a b : Store String}, R.InStep rest a b →
      Retold R (runAll v c steps a).1 (runAll v c steps' b).1 ∧
      R.InStep rest (runAll v c steps a).2 (runAll v c steps' b).2)
    (creation : Creation String) (e : EntryId) {a b : Store String} (h : R.InStep rest a b)
    (he : R.Has a.entries.size e) :
    R.MatchedWith rest Same (Retold R) (nested v c steps creation e a)
      (nested v c steps' creation (R.shift e) b) := by
  obtain ⟨hreports, hstores⟩ := hrun (h.hold he)
  exact ⟨rfl, congrArg (Report.reserved (R.shift e) :: ·) hreports, hstores⟩

mutual

/-- A step within a realm goes the same way on linked stores. -/
theorem step_follows (v : View) (c : CallerId) (step : Step) (on : step.On R.name R.mine R.guards)
    {t u : Store String} (h : R.InStep rest t u) :
    Follows R rest (step.run v c t) ((step.renumber R.shift).run v c u) := by
  cases step with
  | act a =>
    rw [Step.renumber, Step.run, Step.run]
    exact follows_report v (matched_perform h c on) .none
  | acquireWith name direct steps creation =>
    obtain ⟨rfl, on⟩ := on
    rw [Step.renumber, Step.run, Step.run, h.named, h.found]
    exact follows_created v direct c h
      (matched_nested (fun hab => all_follow v c steps on hab) creation)
  | leaseWith name guard steps creation =>
    obtain ⟨rfl, hguard, on⟩ := on
    have htracked : (u.pool R.pool).tracker?.isSome = (t.pool R.pool).tracker?.isSome := by
      rw [h.tracker?, Option.isSome_map]
    rw [Step.renumber, Step.run, Step.run, h.named, h.found]
    dsimp only
    rw [htracked]
    split_ifs
    · exact follows_report v (x := (_, t)) (y := (_, u)) ⟨rfl, h⟩ (.some rfl)
    · exact follows_leased v c hguard h
        (matched_nested (fun hab => all_follow v c steps on hab) creation)
  | warmup name count value at? steps panics =>
    obtain ⟨rfl, on⟩ := on
    rw [Step.renumber, Step.run, Step.run, h.named, h.found]
    refine follows_warmed v at? count h fun n e a b hab he => ?_
    by_cases hn : at? = some n
    · rw [if_pos hn, if_pos hn]
      obtain ⟨hreports, hstores⟩ := all_follow v c steps on (hab.hold he)
      exact ⟨rfl, congrArg (Report.reserved (R.shift e) :: ·) hreports, hstores⟩
    · rw [if_neg hn, if_neg hn]
      exact ⟨rfl, rfl, hab⟩

theorem all_follow (v : View) (c : CallerId) (steps : List Step) (on : AllOn R.name R.mine R.guards steps)
    {t u : Store String} (h : R.InStep rest t u) :
    Retold R (runAll v c steps t).1 (runAll v c (renumberSteps R.shift steps) u).1 ∧
      R.InStep rest (runAll v c steps t).2 (runAll v c (renumberSteps R.shift steps) u).2 := by
  cases steps with
  | nil => exact ⟨rfl, h⟩
  | cons step steps =>
    rw [renumberSteps, runAll, runAll]
    obtain ⟨hfirst, hstores⟩ := step_follows v c step on.1 h
    obtain ⟨hrest, hlast⟩ := all_follow v c steps on.2 hstores
    exact ⟨congrArg₂ List.cons hfirst hrest, hlast⟩

end

end Steps

end ResourcePool.Program
