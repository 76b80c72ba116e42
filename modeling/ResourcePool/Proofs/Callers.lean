import ResourcePool.Proofs.Numbering
import ResourcePool.Proofs.Run.Program

/-! Callers: the callers there are change only as one enters or leaves between commands, and whatever a
command does is done under the one number of its caller. -/
namespace ResourcePool

variable {α : Type}

/-- The caller that an event tells of. -/
def Event.caller? : Event α → Option CallerId
  | .acquired _ c _ _ | .created _ c _ _ | .released _ c _ => some c
  | _ => none

/-- What one caller does to a store: who is there stays, and the events it notes tell of no other caller. -/
structure Store.By (c : CallerId) (s t : Store α) : Prop where
  callers : t.callers = s.callers
  events : ∃ xs, t.events = s.events ++ xs ∧ ∀ x ∈ xs, ∀ d ∈ x.caller?, d = c

namespace Store

variable {c : CallerId}

namespace By

variable {s t u : Store α}

theorem refl (s : Store α) : By c s s :=
  ⟨rfl, [], (List.append_nil _).symm, fun _ hx => absurd hx List.not_mem_nil⟩

theorem trans (h : By c s t) (h' : By c t u) : By c s u where
  callers := h'.callers.trans h.callers
  events := by
    obtain ⟨xs, hxs, hcaller⟩ := h.events
    obtain ⟨ys, hys, hcaller'⟩ := h'.events
    refine ⟨xs ++ ys, by rw [hys, hxs, List.append_assoc], fun x hx => ?_⟩
    rcases List.mem_append.mp hx with hx | hx
    · exact hcaller x hx
    · exact hcaller' x hx

/-- Anything but callers and events. -/
theorem of_eq (hc : t.callers = s.callers) (hj : t.journal = s.journal) : By c s t where
  callers := hc
  events := by
    refine ⟨[], ?_, fun _ hx => absurd hx List.not_mem_nil⟩
    rw [Store.events, hj, List.append_nil, Store.events]

theorem note (h : By c s t) {x : Event α} (hx : ∀ d ∈ x.caller?, d = c) : By c s (t.note x) where
  callers := h.callers
  events := by
    obtain ⟨xs, hxs, hcaller⟩ := h.events
    refine ⟨xs ++ [x], by rw [events_note, hxs, List.append_assoc], fun y hy => ?_⟩
    rcases List.mem_append.mp hy with hy | hy
    · exact hcaller y hy
    · exact List.mem_singleton.mp hy ▸ hx

/-- An event that tells of nobody. -/
theorem remark (h : By c s t) {x : Event α} (hx : x.caller? = none) : By c s (t.note x) := by
  refine h.note fun d hd => ?_
  rw [hx] at hd
  exact absurd hd (Option.not_mem_none d)

/-- An event that tells of the caller. -/
theorem attest (h : By c s t) {x : Event α} (hx : x.caller? = some c) : By c s (t.note x) := by
  refine h.note fun d hd => ?_
  rw [hx] at hd
  exact (Option.mem_some_iff.mp hd).symm

end By

variable (s : Store α) (p : PoolId)

theorem by_reserve : By c s (s.reserve p).2 := by
  unfold reserve
  split_ifs
  · refine .remark ?_ rfl
    exact .of_eq rfl rfl
  · refine .remark ?_ rfl
    exact .of_eq rfl rfl

theorem by_enable (e : EntryId) (v : α) (atOnce : Bool) : By c s (s.enable e v atOnce).2 := by
  unfold enable
  split
  · refine .remark ?_ rfl
    exact .of_eq rfl rfl
  · exact .refl s

theorem by_handOut (e : EntryId) (hinted : Bool) : By c s (s.handOut p c e hinted) := by
  refine .attest ?_ rfl
  exact .of_eq rfl rfl

theorem by_miss : By c s (s.miss p) := by
  refine .remark ?_ rfl
  exact .of_eq rfl rfl

theorem by_acquire : By c s (s.acquire p c).2 := by
  cases hc : (s.roster p).closed with
  | true =>
    rw [acquire_of_closed c hc]
    exact .refl s
  | false =>
    have hb : By c s (s.start p c).2 := .of_eq rfl rfl
    obtain ⟨-, ha⟩ | ⟨x, -, ha⟩ | ⟨-, i, t, ht, ⟨x, -, ha⟩ | ⟨-, ha⟩⟩ := acquire_cases c hc
    · exact ha ▸ s.by_miss p
    · exact ha ▸ s.by_handOut p x true
    · rw [ht] at hb
      exact ha ▸ hb.trans (t.by_handOut p x false)
    · rw [ht] at hb
      exact ha ▸ hb.trans (t.by_miss p)

theorem by_release (e : EntryId) : By c s (s.release p c e).2 := by
  unfold release
  split_ifs
  · exact .refl s
  split
  · refine .attest ?_ rfl
    exact .of_eq rfl rfl
  · exact .refl s

theorem by_remove (e : EntryId) : By c s (s.remove p e).2 := by
  unfold remove
  split_ifs
  · exact .refl s
  split
  · exact .remark (.refl s) rfl
  · dsimp only
    split_ifs
    · refine .remark ?_ rfl
      exact .of_eq rfl rfl
    · refine .remark ?_ rfl
      exact .of_eq rfl rfl

theorem by_settle (e : EntryId) (creation : Creation α) : By c s (s.settle p c e creation).2 := by
  cases creation with
  | value v =>
    unfold settle
    dsimp only
    split
    · refine .attest ?_ rfl
      exact .of_eq rfl rfl
    · exact .refl s
    · exact .refl s
  | nothing => exact s.by_remove p e
  | refused reason => exact s.by_remove p e
  | panicked => exact .refl s

theorem by_dispose (e : EntryId) : By c s (s.dispose p e).2 := by
  unfold dispose
  split
  · dsimp only
    split
    · exact .remark (.remark (.refl s) rfl) rfl
    · exact .remark (.refl s) rfl
  · exact .refl s

theorem by_reclaim (es : List EntryId) (s : Store α) : By c s (reclaim p es s).2.2 := by
  induction es generalizing s with
  | nil => exact .refl s
  | cons e es ih =>
    unfold reclaim
    split
    · have hx : By c s (s.note (.skipped p e)) := .remark (.refl s) rfl
      exact hx.trans (ih _)
    · next x _ =>
      have hx : By c s ((s.setEntry e x).note (.reclaimed p e)) := by
        refine .remark ?_ rfl
        exact .of_eq rfl rfl
      exact (hx.trans (by_dispose _ p e)).trans (ih _)

theorem by_close : By c s (s.close p).2 := by
  let u := s.modifyPool p fun pool => { pool with closed := true, members := [], hints := {} }
  have hu : By c s u := .of_eq rfl rfl
  unfold close
  dsimp only
  split_ifs
  · exact hu
  · exact .remark (hu.trans (by_reclaim p _ u)) rfl

/-! ### Trackers, guards and handles -/

theorem by_observeAcquire (e : EntryId) : By c s (s.observeAcquire p e) := by
  unfold observeAcquire
  split
  · exact .refl s
  · split
    · exact .of_eq rfl rfl
    · refine .remark ?_ rfl
      exact .of_eq rfl rfl

theorem by_observeRelease (e : EntryId) : By c s (s.observeRelease p e) := by
  unfold observeRelease
  split
  · exact .refl s
  · split
    · exact .of_eq rfl rfl
    · refine .remark ?_ rfl
      exact .of_eq rfl rfl

theorem by_observeRemoval (e : EntryId) : By c s (s.observeRemoval p e) := by
  unfold observeRemoval
  split
  · exact .refl s
  · split
    · exact .of_eq rfl rfl
    · refine .remark ?_ rfl
      exact .of_eq rfl rfl

theorem by_trackedAcquire (direct : Bool) : By c s (s.trackedAcquire direct p c).2 := by
  have ha : By c s (s.acquire p c).2 := s.by_acquire p
  unfold trackedAcquire
  split
  · next e t ht =>
    rw [ht] at ha
    cases direct with
    | true => exact ha
    | false => exact ha.trans (t.by_observeAcquire p e)
  · next t ht =>
    rw [ht] at ha
    exact ha

theorem by_trackedRelease (direct : Bool) (e : EntryId) :
    By c s (s.trackedRelease direct p c e).2 := by
  cases direct with
  | true => exact s.by_release p e
  | false => exact (s.by_observeRelease p e).trans (by_release _ p e)

theorem by_trackedRemove (direct : Bool) (e : EntryId) : By c s (s.trackedRemove direct p e).2 := by
  cases direct with
  | true => exact s.by_remove p e
  | false => exact (s.by_observeRemoval p e).trans (by_remove _ p e)

theorem by_giveBack (g : Guard) : By c s (s.giveBack c g) := by
  have hr : By c s (s.trackedRelease g.direct g.pool c g.entry).2 :=
    s.by_trackedRelease g.pool g.direct g.entry
  unfold giveBack
  split
  · next t ht =>
    rw [ht] at hr
    exact hr
  · next t ht =>
    rw [ht] at hr
    exact hr.remark rfl

theorem by_putGuard (name : String) (g : Guard) : By c s (s.putGuard c name g) := by
  have hs : By c s { s.endGuard name with guards := (name, g) :: (s.endGuard name).guards } :=
    .of_eq rfl rfl
  unfold putGuard
  dsimp only
  split
  · exact hs.trans (by_giveBack _ _)
  · exact hs

theorem by_lease (direct : Bool) (name : String) : By c s (s.lease direct p c name).2 := by
  have ha : By c s (s.trackedAcquire direct p c).2 := s.by_trackedAcquire p direct
  unfold lease
  split
  · next e t ht =>
    rw [ht] at ha
    exact ha.trans (t.by_putGuard name _)
  · next t ht =>
    rw [ht] at ha
    exact ha

theorem by_observeResult (direct : Bool) (result : Except CreationError (Option EntryId)) :
    By c s (s.observeResult direct p result) := by
  unfold observeResult
  split
  · split_ifs
    · exact .refl s
    · exact s.by_observeAcquire p _
  · exact .refl s

theorem by_guardResult (name : String) (result : Except CreationError (Option EntryId)) :
    By c s (s.guardResult p c name result) := by
  unfold guardResult
  split
  · exact s.by_putGuard name _
  · exact .refl s

theorem by_checkLeaks (x : Tracker) : By c s (s.checkLeaks p x).2 := by
  have hf : ∀ (leaks : List Leak) (u : Store α), By c s u →
      By c s (leaks.foldl (fun u leak => u.note (.leaked p leak)) u) := by
    intro leaks
    induction leaks with
    | nil => exact fun _ hu => hu
    | cons leak leaks ih => exact fun u hu => ih _ (hu.remark rfl)
  exact hf _ _ (.of_eq rfl rfl)

theorem by_hold (e : EntryId) : By c s (s.hold e) := by
  unfold hold
  split_ifs
  · exact .refl s
  · exact .of_eq rfl rfl

end Store

open Store in
/-- Every call that one caller makes is made by this caller. -/
theorem Move.by_apply {c : CallerId} {s : Store α} {m : Move α} (h : made c s m) :
    s.By c (m.apply s) := by
  cases m with
  | create name settings detector? => exact .of_eq rfl rfl
  | enter caller => exact h.elim
  | leave caller => exact h.elim
  | reserve p => exact s.by_reserve p
  | enable e v atOnce => exact s.by_enable e v atOnce
  | acquire direct p d =>
    obtain rfl : d = c := h
    exact s.by_trackedAcquire p direct
  | settle direct p d e creation =>
    obtain rfl : d = c := h
    exact (s.by_settle p e creation).trans (by_observeResult _ p direct _)
  | release direct p d e =>
    obtain rfl : d = c := h
    exact s.by_trackedRelease p direct e
  | remove direct p e => exact s.by_trackedRemove p direct e
  | close p => exact s.by_close p
  | lease direct p d name =>
    obtain rfl : d = c := h
    exact s.by_lease p direct name
  | settleLease p d name e creation =>
    obtain rfl : d = c := h
    exact (s.by_settle p e creation).trans (by_guardResult _ p name _)
  | dropGuard d name =>
    obtain rfl : d = c := h
    unfold apply
    dsimp only
    cases s.guard? name with
    | none => exact .refl s
    | some g =>
      have hs : s.By d (s.endGuard name) := .of_eq rfl rfl
      exact hs.trans (by_giveBack _ g)
  | removeGuarded name =>
    unfold apply
    dsimp only
    cases s.guard? name with
    | none => exact .refl s
    | some g =>
      have hs : s.By c (s.endGuard name) := .of_eq rfl rfl
      exact hs.trans (by_trackedRemove _ g.pool g.direct g.entry)
  | detach name =>
    unfold apply
    dsimp only
    cases s.guard? name with
    | none => exact .refl s
    | some g => exact (s.by_hold g.entry).trans (.of_eq rfl rfl)
  | hold e => exact s.by_hold e
  | sweep p =>
    unfold apply
    dsimp only
    cases (s.pool p).tracker? with
    | none => exact .refl s
    | some t => exact .of_eq rfl rfl
  | checkLeaks p =>
    unfold apply
    dsimp only
    cases (s.pool p).tracker? with
    | none => exact .refl s
    | some t => exact s.by_checkLeaks p t
  | clearTracking p =>
    unfold apply
    dsimp only
    cases (s.pool p).tracker? with
    | none => exact .refl s
    | some t => exact .of_eq rfl rfl
  | readLog => exact ⟨rfl, [], (List.append_nil _).symm, fun _ hx => absurd hx List.not_mem_nil⟩
  | forget | unhold | unholdAll | wait => exact .of_eq rfl rfl

theorem Run.by_made {c : CallerId} {s t : Store α} (h : Run (made c) s t) : s.By c t := by
  induction h with
  | refl => exact .refl s
  | step _ m _ ok ih => exact ih.trans (Move.by_apply ok)

/-! ### Programs -/

namespace Program

/-- The number that a command's caller has while it runs. -/
def Command.number (s : Store String) : Command → CallerId
  | .run none _ => .main
  | .run (some name) _ => (s.callers.enter name).1
  | .leave _ _ => .leaving

/-- The name that a command takes from its caller. -/
def Command.dismissed? : Command → Option String
  | .run _ _ => none
  | .leave name _ => some name

/-- The callers while a command runs. -/
def Command.callers (s : Store String) : Command → Callers
  | .run none _ => s.callers
  | .run (some name) _ => (s.callers.enter name).2
  | .leave name _ => (s.callers.leave? name).getD s.callers

/-- The most callers there ever are at once as commands run one after the other. -/
def peak (v : View) : List Command → Store String → Nat
  | [], s => s.callers.count
  | command :: commands, s => max s.callers.count (peak v commands (command.execute v s).2)

/-- Before a command does anything, its caller enters or leaves; all the rest is done under its number. -/
theorem by_command (v : View) (s : Store String) (command : Command) :
    { s with callers := command.callers s }.By (command.number s) (command.execute v s).2 := by
  cases command with
  | run caller? step =>
    cases caller? with
    | none => exact (run_step v .main step s).by_made
    | some name => exact (run_step v _ step { s with callers := (s.callers.enter name).2 }).by_made
  | leave name steps =>
    unfold Command.execute Command.callers
    dsimp only
    cases s.callers.leave? name with
    | none => exact .refl s
    | some callers => exact (run_runAll v .leaving steps { s with callers }).by_made

theorem callers_command (v : View) (s : Store String) (command : Command) :
    (command.execute v s).2.callers = command.callers s :=
  (by_command v s command).callers

section Numbers

variable {s : Store String}

theorem numbered_command (h : s.callers.Numbered) (command : Command) :
    (command.callers s).Numbered ∧
      (command.callers s).fresh = max s.callers.fresh (command.callers s).count := by
  have hstay : s.callers.fresh = max s.callers.fresh s.callers.count :=
    (Nat.max_eq_left (Nat.le.intro h.count_add)).symm
  cases command with
  | run caller? step =>
    cases caller? with
    | none => exact ⟨h, hstay⟩
    | some name => exact ⟨h.enter name, h.fresh_enter name⟩
  | leave name steps =>
    unfold Command.callers
    dsimp only
    cases hl : s.callers.leave? name with
    | none => exact ⟨h, hstay⟩
    | some callers =>
      obtain ⟨hc, hf⟩ := h.leave hl
      have hcount : callers.count ≤ s.callers.fresh := hf ▸ Nat.le.intro hc.count_add
      exact ⟨hc, hf.trans (Nat.max_eq_left hcount).symm⟩

theorem count_le_peak (v : View) (commands : List Command) (s : Store String) :
    s.callers.count ≤ peak v commands s := by
  cases commands with
  | nil => exact le_rfl
  | cons command commands => exact Nat.le_max_left _ _

/-- Numbers are never used beyond the most callers there ever were. -/
theorem numbered_execute (v : View) (commands : List Command) (h : s.callers.Numbered) :
    (execute v commands s).2.callers.Numbered ∧
      (execute v commands s).2.callers.fresh = max s.callers.fresh (peak v commands s) := by
  induction commands generalizing s with
  | nil => exact ⟨h, (Nat.max_eq_left (Nat.le.intro h.count_add)).symm⟩
  | cons command commands ih =>
    obtain ⟨hc, hf⟩ := numbered_command h command
    rw [← callers_command v] at hc hf
    obtain ⟨hr, hpeak⟩ := ih hc
    have hcount := count_le_peak v commands (command.execute v s).2
    have hbefore := Nat.le.intro h.count_add
    refine ⟨hr, hpeak.trans ?_⟩
    rw [hf, peak, Nat.max_assoc, Nat.max_eq_right hcount, ← Nat.max_assoc, Nat.max_eq_left hbefore]

theorem find?_command {name : String} {c : CallerId} (h : s.callers.find? name = some c)
    {command : Command} (hd : command.dismissed? ≠ some name) :
    (command.callers s).find? name = some c := by
  cases command with
  | run caller? step =>
    cases caller? with
    | none => exact h
    | some other => exact Callers.find?_enter h other
  | leave other steps =>
    have hne : name ≠ other := fun hn => hd (congrArg some hn.symm)
    unfold Command.callers
    dsimp only
    cases hl : s.callers.leave? other with
    | none => exact h
    | some callers => exact Callers.find?_leave h hne hl

theorem find?_execute {name : String} {c : CallerId} (v : View) {commands : List Command}
    (h : s.callers.find? name = some c)
    (hd : ∀ command ∈ commands, command.dismissed? ≠ some name) :
    (execute v commands s).2.callers.find? name = some c := by
  induction commands generalizing s with
  | nil => exact h
  | cons command commands ih =>
    have hc : (command.execute v s).2.callers.find? name = some c := by
      rw [callers_command]
      exact find?_command h (hd command (by simp))
    exact ih hc fun other ho => hd other (by simp [ho])

end Numbers

/--
Callers' numbers are all different, and together with those given back they are the numbers below the most
callers there ever were at once. Every caller keeps its number until it leaves, and what a command does
is done under the number of its caller; one that is leaving has none of its own any more.
-/
theorem callers_numbered (v : View) (commands : List Command) (draws : List Nat) :
    let s := (execute v commands (.blank draws)).2
    s.callers.numbers.Nodup ∧ s.callers.freed.Nodup ∧
    s.callers.numbers.Disjoint s.callers.freed ∧
    (∀ c, c ∈ s.callers.numbers ∨ c ∈ s.callers.freed ↔ c < peak v commands (.blank draws)) ∧
    (∀ name c more, s.callers.find? name = some c →
      (∀ command ∈ more, command.dismissed? ≠ some name) →
      (execute v more s).2.callers.find? name = some c ∧
      ∀ step, (Command.run (some name) step).number (execute v more s).2 = c) ∧
    ∀ command : Command, ∃ xs, (command.execute v s).2.events = s.events ++ xs ∧
      ∀ x ∈ xs, ∀ c ∈ x.caller?, c = command.number s := by
  intro s
  obtain ⟨hn, hf⟩ := numbered_execute v commands (s := .blank draws) .start
  have hnodup := List.nodup_append.mp hn.nodup
  have hpeak : s.callers.fresh = peak v commands (.blank draws) :=
    hf.trans (Nat.max_eq_right (count_le_peak v commands (.blank draws)))
  refine ⟨hnodup.1, hnodup.2.1, fun c hc hd => hnodup.2.2 c hc c hd rfl, ?_, ?_, ?_⟩
  · intro c
    rw [← hpeak]
    exact hn.mem_iff c
  · intro name c more hc hd
    have hmore := find?_execute v hc hd
    refine ⟨hmore, fun step => ?_⟩
    simp only [Command.number, Callers.enter, hmore]
  · intro command
    exact (by_command v s command).events

/-- A number that was given back goes to the next who enters, who keeps it as others come and go. -/
theorem callers_numbered_reentry :
    let look : Step := .act (.entries "p")
    let commands : List Command :=
      [.run (some "a") look, .run (some "b") look, .leave "a" [look], .run (some "c") look]
    let more : List Command := [.leave "b" [look], .run (some "a") look]
    let s := (execute {} commands (.blank [])).2
    s.callers.numbers = [0, 2, 1] ∧ s.callers.find? "c" = some 1 ∧
    (∀ c, c ∈ s.callers.numbers ∨ c ∈ s.callers.freed ↔ c < 3) ∧
    (execute {} more s).2.callers.find? "c" = some 1 := by
  intro look commands more s
  have hnumbers : s.callers.numbers = [0, 2, 1] := by decide +kernel
  have hfind : s.callers.find? "c" = some 1 := by decide +kernel
  have hpeak : peak {} commands (.blank []) = 3 := by decide +kernel
  obtain ⟨-, -, -, hall, hkeep, -⟩ := callers_numbered {} commands []
  rw [hpeak] at hall
  exact ⟨hnumbers, hfind, hall, (hkeep "c" 1 more hfind (by decide)).1⟩

end Program

end ResourcePool
