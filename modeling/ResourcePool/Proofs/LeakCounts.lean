import Mathlib.Algebra.GroupWithZero.Nat
import ResourcePool.Proofs.Consultation
import ResourcePool.Proofs.Tracker

/-! Leak counts: what a pool counts and what the log tells of leaks, both come from the passes that were asked
for through the pool, and from nothing else. -/
namespace ResourcePool

variable {α : Type}

/-- The leak that an event tells of, with the pool. -/
def Event.leak? : Event α → Option (PoolId × Leak)
  | .leaked p leak => some (p, leak)
  | _ => none

/-- The leaks that a pool counted. -/
def Pool.leaked (x : Pool α) : Nat :=
  x.tracker?.elim 0 (·.resources)

/-- A text that begins differently is another. -/
theorem append_ne_of_head {u w : String} {a : Char} (hu : u.toList.head? = some a)
    (hw : w.toList.head? ≠ some a) (v : String) : u ++ v ≠ w := by
  rintro rfl
  rw [String.toList_append, List.head?_append, hu] at hw
  exact hw rfl

/-- Leaks are all that the log warns of. -/
theorem Event.line?_eq_leaked_iff {x : Event α} :
    x.line? = some "WARN entry leaked" ↔ x.leak?.isSome = true := by
  have hwarn : "WARN entry leaked".toList.head? = some 'W' := by decide +kernel
  have hother : ∀ (a : Char) {u : String}, u.toList.head? = some a → a ≠ 'W' →
      ∀ v, ¬ some (u ++ v) = some "WARN entry leaked" := by
    intro a u hu ha v hx
    refine append_ne_of_head hu ?_ v (Option.some.inj hx)
    exact hwarn ▸ fun h => ha (Option.some.inj h).symm
  cases x with
  | leaked p leak => exact iff_of_true rfl rfl
  | removedAgain => exact iff_of_false (hother 'D' (by decide +kernel) (by decide) _) Bool.false_ne_true
  | disposalFailed reason =>
    exact iff_of_false (hother 'T' (by decide +kernel) (by decide) _) Bool.false_ne_true
  | guardFailed p fault =>
    exact iff_of_false (hother 'E' (by decide +kernel) (by decide) _) Bool.false_ne_true
  | closed p n m =>
    have hline : (closed p n m : Event α).line? =
        some ("DEBUG pool closed entries=" ++ (toString n ++ " reclaimed=" ++ toString m)) := by
      simp only [line?, String.append_assoc]
    rw [hline]
    exact iff_of_false (hother 'D' (by decide +kernel) (by decide) _) Bool.false_ne_true
  | _ => simp [line?, leak?]

namespace Store

/-- The leaks that events tell of, in order. -/
def leaks (s : Store α) : List (PoolId × Leak) :=
  s.events.filterMap Event.leak?

/-- The leaks of one pool that events tell of. -/
def leaksOf (s : Store α) (p : PoolId) : List (PoolId × Leak) :=
  s.leaks.filter (·.1 == p)

theorem leaks_note (s : Store α) (x : Event α) : (s.note x).leaks = s.leaks ++ x.leak?.toList := by
  simp only [leaks, events_note, List.filterMap_append, List.append_cancel_left_eq]
  cases hx : x.leak? <;> simp [hx]

/-- Each leak that events tell of is one line of the log. -/
theorem count_lines (s : Store α) :
    (s.events.filterMap Event.line?).count "WARN entry leaked" = s.leaks.length := by
  unfold leaks
  induction s.events with
  | nil => rfl
  | cons x xs ih =>
    rw [List.filterMap_cons, List.filterMap_cons]
    cases hleak : x.leak? with
    | some y =>
      have hline : x.line? = some "WARN entry leaked" := Event.line?_eq_leaked_iff.mpr (by rw [hleak]; rfl)
      rw [hline, List.count_cons_self, ih, List.length_cons]
    | none =>
      have hline : x.line? ≠ some "WARN entry leaked" := by
        rw [Ne, Event.line?_eq_leaked_iff, hleak]
        exact Bool.false_ne_true
      cases hx : x.line? with
      | none => exact ih
      | some line => exact (List.count_cons_of_ne fun h => hline (hx.trans (congrArg some h))).trans ih

/-- Stores between which no leak is counted or told of. -/
structure Tight (s t : Store α) : Prop where
  leaked : ∀ p, (t.pool p).leaked = (s.pool p).leaked
  leaks : t.leaks = s.leaks

namespace Tight

variable {s t u : Store α} {p : PoolId}

theorem refl (s : Store α) : Tight s s :=
  ⟨fun _ => rfl, rfl⟩

theorem trans (h : Tight s t) (h' : Tight t u) : Tight s u :=
  ⟨fun p => (h'.leaked p).trans (h.leaked p), h'.leaks.trans h.leaks⟩

/-- The same pools and events. -/
theorem of_eq (hp : t.pools = s.pools) (he : t.events = s.events) : Tight s t where
  leaked p := by rw [pool, hp, pool]
  leaks := by rw [Store.leaks, he, Store.leaks]

theorem setEntry (h : Tight s t) (e : EntryId) (x : Entry α) : Tight s (t.setEntry e x) :=
  h.trans (.of_eq rfl rfl)

theorem modify (h : Tight s t) {f : Pool α → Pool α} (hf : (f (t.pool p)).leaked = (t.pool p).leaked) :
    Tight s (t.modifyPool p f) where
  leaked q := by
    rw [← h.leaked q, pool_modifyPool]
    split_ifs with hq
    · rw [hq.1, hf]
    · rfl
  leaks := h.leaks

theorem count (h : Tight s t) (f : Counters → Counters) : Tight s (t.count p f) :=
  h.modify rfl

theorem setTracker (h : Tight s t) {x y : Tracker} (hx : (t.pool p).tracker? = some x)
    (hy : y.resources = x.resources) : Tight s (t.setTracker p y) := by
  refine h.modify ?_
  simp [Pool.leaked, hx, hy]

theorem note (h : Tight s t) {x : Event α} (hx : x.leak? = none) : Tight s (t.note x) where
  leaked := h.leaked
  leaks := by rw [leaks_note, hx, Option.toList_none, List.append_nil, h.leaks]

end Tight

variable (s : Store α) (p : PoolId)

theorem tight_create (name : String) (settings : Settings α) (detector? : Option Detector) :
    Tight s (s.create name settings detector?).2 where
  leaked q := by
    rw [pool_create]
    split_ifs with hq
    · rw [hq, s.pool_of_size_le (Nat.le_refl _)]
      cases detector? <;> rfl
    · rfl
  leaks := rfl

theorem tight_reserve : Tight s (s.reserve p).2 := by
  unfold reserve
  split_ifs
  · exact .note (.count (.refl s) _) rfl
  · refine .note (.modify ?_ rfl) rfl
    exact .of_eq rfl rfl

theorem tight_enable (e : EntryId) (v : α) (atOnce : Bool) : Tight s (s.enable e v atOnce).2 := by
  unfold enable
  split
  · exact .note (.setEntry (.refl s) e _) rfl
  · exact .refl s

theorem tight_handOut (c : CallerId) (e : EntryId) (hinted : Bool) : Tight s (s.handOut p c e hinted) :=
  .note (.count (.setEntry (.refl s) e _) _) rfl

theorem tight_miss : Tight s (s.miss p) :=
  .note (.count (.refl s) _) rfl

theorem tight_start (c : CallerId) : Tight s (s.start p c).2 := by
  refine .modify ?_ rfl
  exact .of_eq rfl rfl

theorem tight_acquire (c : CallerId) : Tight s (s.acquire p c).2 := by
  cases hc : (s.roster p).closed with
  | true =>
    rw [acquire_of_closed c hc]
    exact .refl s
  | false =>
    have hb := s.tight_start p c
    obtain ⟨-, ha⟩ | ⟨x, -, ha⟩ | ⟨-, i, t, ht, ⟨x, -, ha⟩ | ⟨-, ha⟩⟩ := acquire_cases c hc
    · exact ha ▸ s.tight_miss p
    · exact ha ▸ s.tight_handOut p c x true
    · rw [ht] at hb
      exact ha ▸ hb.trans (t.tight_handOut p c x false)
    · rw [ht] at hb
      exact ha ▸ hb.trans (t.tight_miss p)

theorem tight_release (c : CallerId) (e : EntryId) : Tight s (s.release p c e).2 := by
  have hremember : ∀ x : Pool α, (x.remember c e).leaked = x.leaked := by
    intro x
    unfold Pool.remember
    split_ifs <;> rfl
  unfold release
  split_ifs
  · exact .refl s
  split
  · refine .note ?_ rfl
    exact .modify (.count (.setEntry (.refl s) e _) _) (hremember _)
  · exact .refl s

theorem tight_remove (e : EntryId) : Tight s (s.remove p e).2 := by
  unfold remove
  split_ifs
  · exact .refl s
  split
  · exact .note (.refl s) rfl
  · dsimp only
    split_ifs
    · exact .note (.count (.modify (.setEntry (.refl s) e _) rfl) _) rfl
    · exact .note (.setEntry (.refl s) e _) rfl

theorem tight_settle (c : CallerId) (e : EntryId) (creation : Creation α) :
    Tight s (s.settle p c e creation).2 := by
  cases creation with
  | value v =>
    unfold settle
    dsimp only
    split
    · exact .note (.count (.setEntry (.refl s) e _) _) rfl
    · exact .refl s
    · exact .refl s
  | nothing => exact s.tight_remove p e
  | refused reason => exact s.tight_remove p e
  | panicked => exact .refl s

theorem tight_dispose (e : EntryId) : Tight s (s.dispose p e).2 := by
  unfold dispose
  split
  · dsimp only
    split
    · exact .note (.note (.refl s) rfl) rfl
    · exact .note (.refl s) rfl
  · exact .refl s

theorem tight_reclaim (es : List EntryId) (s : Store α) : Tight s (reclaim p es s).2.2 := by
  induction es generalizing s with
  | nil => exact .refl s
  | cons e es ih =>
    unfold reclaim
    split
    · have hx : Tight s (s.note (.skipped p e)) := .note (.refl s) rfl
      exact hx.trans (ih _)
    · next x _ =>
      have hx : Tight s ((s.setEntry e x).note (.reclaimed p e)) := .note (.setEntry (.refl s) e x) rfl
      exact (hx.trans (tight_dispose _ p e)).trans (ih _)

theorem tight_close : Tight s (s.close p).2 := by
  let u := s.modifyPool p fun pool => { pool with closed := true, members := [], hints := {} }
  have hu : Tight s u := .modify (.refl s) rfl
  unfold close
  dsimp only
  split_ifs
  · exact hu
  · exact .note (hu.trans (tight_reclaim p _ u)) rfl

/-! ### Trackers and guards -/

theorem tight_observeAcquire (e : EntryId) : Tight s (s.observeAcquire p e) := by
  unfold observeAcquire
  split
  · exact .refl s
  · next x hx =>
    split
    · exact .setTracker (.refl s) hx rfl
    · refine .note ?_ rfl
      exact .setTracker (.refl s) hx rfl

theorem tight_observeRelease (e : EntryId) : Tight s (s.observeRelease p e) := by
  unfold observeRelease
  split
  · exact .refl s
  · next x hx =>
    split
    · exact .setTracker (.refl s) hx rfl
    · refine .note ?_ rfl
      exact .setTracker (.refl s) hx rfl

theorem tight_observeRemoval (e : EntryId) : Tight s (s.observeRemoval p e) := by
  unfold observeRemoval
  split
  · exact .refl s
  · next x hx =>
    split
    · exact .setTracker (.refl s) hx rfl
    · refine .note ?_ rfl
      exact .setTracker (.refl s) hx rfl

theorem tight_trackedAcquire (direct : Bool) (c : CallerId) :
    Tight s (s.trackedAcquire direct p c).2 := by
  have ha := s.tight_acquire p c
  unfold trackedAcquire
  split
  · next e t ht =>
    rw [ht] at ha
    cases direct with
    | true => exact ha
    | false => exact ha.trans (t.tight_observeAcquire p e)
  · next t ht =>
    rw [ht] at ha
    exact ha

theorem tight_trackedRelease (direct : Bool) (c : CallerId) (e : EntryId) :
    Tight s (s.trackedRelease direct p c e).2 := by
  cases direct with
  | true => exact s.tight_release p c e
  | false => exact (s.tight_observeRelease p e).trans (tight_release _ p c e)

theorem tight_trackedRemove (direct : Bool) (e : EntryId) :
    Tight s (s.trackedRemove direct p e).2 := by
  cases direct with
  | true => exact s.tight_remove p e
  | false => exact (s.tight_observeRemoval p e).trans (tight_remove _ p e)

theorem tight_giveBack (c : CallerId) (g : Guard) : Tight s (s.giveBack c g) := by
  have hr := s.tight_trackedRelease g.pool g.direct c g.entry
  unfold giveBack
  split
  · next t ht =>
    rw [ht] at hr
    exact hr
  · next t ht =>
    rw [ht] at hr
    exact .note hr rfl

theorem tight_putGuard (c : CallerId) (name : String) (g : Guard) : Tight s (s.putGuard c name g) := by
  let u : Store α := { s.endGuard name with guards := (name, g) :: (s.endGuard name).guards }
  have hu : Tight s u := .of_eq rfl rfl
  unfold putGuard
  dsimp only
  cases s.guard? name with
  | none => exact hu
  | some old => exact hu.trans (u.tight_giveBack c old)

theorem tight_observeResult (direct : Bool) (result : Except CreationError (Option EntryId)) :
    Tight s (s.observeResult direct p result) := by
  unfold observeResult
  split
  · split_ifs
    · exact .refl s
    · exact s.tight_observeAcquire p _
  · exact .refl s

theorem tight_guardResult (c : CallerId) (name : String) (result : Except CreationError (Option EntryId)) :
    Tight s (s.guardResult p c name result) := by
  unfold guardResult
  split
  · exact s.tight_putGuard c name _
  · exact .refl s

theorem tight_lease (direct : Bool) (c : CallerId) (name : String) :
    Tight s (s.lease direct p c name).2 := by
  have ha := s.tight_trackedAcquire p direct c
  unfold lease
  split
  · next e t ht =>
    rw [ht] at ha
    exact ha.trans (t.tight_putGuard c name _)
  · next t ht =>
    rw [ht] at ha
    exact ha

theorem tight_hold (e : EntryId) : Tight s (s.hold e) := by
  unfold hold
  split_ifs
  · exact .refl s
  · exact .of_eq rfl rfl

end Store

namespace Move

/-- Whether a call is a pass that is asked for through a pool. -/
def isPass : Move α → Bool
  | checkLeaks _ => true
  | _ => false

/-- How many leaks the pass that a call asks for through a pool finds. -/
def found (p : PoolId) (s : Store α) : Move α → Nat
  | checkLeaks q => if q = p then (s.pool q).tracker?.elim 0 fun x => (s.checkLeaks q x).1 else 0
  | _ => 0

theorem tight_apply (s : Store α) {m : Move α} (hm : m.isPass = false) : s.Tight (m.apply s) := by
  cases m with
  | create name settings detector? => exact s.tight_create name settings detector?
  | reserve p => exact s.tight_reserve p
  | enable e v atOnce => exact s.tight_enable e v atOnce
  | acquire direct p c => exact s.tight_trackedAcquire p direct c
  | settle direct p c e creation =>
    exact (s.tight_settle p c e creation).trans (Store.tight_observeResult _ p direct _)
  | release direct p c e => exact s.tight_trackedRelease p direct c e
  | remove direct p e => exact s.tight_trackedRemove p direct e
  | close p => exact s.tight_close p
  | lease direct p c name => exact s.tight_lease p direct c name
  | settleLease p c name e creation =>
    exact (s.tight_settle p c e creation).trans (Store.tight_guardResult _ p c name _)
  | dropGuard c name =>
    unfold apply
    dsimp only
    cases s.guard? name with
    | none => exact .refl s
    | some g =>
      have hend : s.Tight (s.endGuard name) := .of_eq rfl rfl
      exact hend.trans ((s.endGuard name).tight_giveBack c g)
  | removeGuarded name =>
    unfold apply
    dsimp only
    cases s.guard? name with
    | none => exact .refl s
    | some g =>
      have hend : s.Tight (s.endGuard name) := .of_eq rfl rfl
      exact hend.trans ((s.endGuard name).tight_trackedRemove g.pool g.direct g.entry)
  | detach name =>
    unfold apply
    dsimp only
    cases s.guard? name with
    | none => exact .refl s
    | some g => exact (s.tight_hold g.entry).trans (.of_eq rfl rfl)
  | leave caller =>
    unfold apply
    dsimp only
    cases s.callers.leave? caller with
    | none => exact .refl s
    | some callers => exact .of_eq rfl rfl
  | hold e => exact s.tight_hold e
  | sweep p =>
    unfold apply
    dsimp only
    cases hx : (s.pool p).tracker? with
    | none => exact .refl s
    | some x => exact .setTracker (.refl s) hx rfl
  | clearTracking p =>
    unfold apply
    dsimp only
    cases hx : (s.pool p).tracker? with
    | none => exact .refl s
    | some x => exact .setTracker (.refl s) hx rfl
  | checkLeaks p => exact Bool.noConfusion hm
  | forget | enter | unhold | unholdAll | wait | readLog => exact .of_eq rfl rfl

end Move

/-! ### Passes -/

namespace Store

/-- A pass tells of each leak that it finds. -/
theorem leaks_checkLeaks (s : Store α) (p : PoolId) (x : Tracker) :
    (s.checkLeaks p x).2.leaks = s.leaks ++ (x.detector.sweep s.now).1.map (p, ·) := by
  have hf : ∀ (found : List Leak) (u : Store α),
      (found.foldl (fun u leak => u.note (.leaked p leak)) u).leaks = u.leaks ++ found.map (p, ·) := by
    intro found
    induction found with
    | nil => exact fun u => (List.append_nil _).symm
    | cons leak found ih =>
      intro u
      rw [List.foldl_cons, ih, leaks_note, List.append_assoc]
      rfl
  exact hf _ _

/-- The leaks that a pass finds, its own pool counts. -/
theorem leaked_checkLeaks {s : Store α} {q : PoolId} (p : PoolId) {x : Tracker}
    (hx : (s.pool q).tracker? = some x) :
    ((s.checkLeaks q x).2.pool p).leaked =
        (s.pool p).leaked + (if q = p then (s.checkLeaks q x).1 else 0) ∧
      ((s.checkLeaks q x).2.leaksOf p).length =
        (s.leaksOf p).length + (if q = p then (s.checkLeaks q x).1 else 0) := by
  have hlen : (s.checkLeaks q x).1 = (x.detector.sweep s.now).1.length := rfl
  by_cases hq : q = p
  · subst hq
    have hsize : q < s.pools.size := by
      by_contra hp
      rw [s.pool_of_size_le (Nat.le_of_not_lt hp)] at hx
      exact absurd hx.symm (Option.some_ne_none x)
    constructor
    · rw [Pool.leaked, tracker?_checkLeaks hsize, Pool.leaked, hx, if_pos rfl, hlen]
      rfl
    · rw [leaksOf, leaks_checkLeaks, List.filter_append, List.length_append, if_pos rfl, hlen]
      simp [leaksOf, List.filter_map, Function.comp_def]
  · constructor
    · rw [(s.frame_checkLeaks q x).other p (Ne.symm hq), if_neg hq, Nat.add_zero]
    · rw [leaksOf, leaks_checkLeaks, List.filter_append, List.length_append, if_neg hq]
      simp [leaksOf, List.filter_map, Function.comp_def, hq]

end Store

/-- A call adds the leaks that it finds, if it is a pass asked for through the pool, to what the pool counts and
to what the log tells. -/
theorem Move.leaked_apply (s : Store α) (m : Move α) (p : PoolId) :
    ((m.apply s).pool p).leaked = (s.pool p).leaked + m.found p s ∧
      ((m.apply s).leaksOf p).length = (s.leaksOf p).length + m.found p s := by
  cases hm : m.isPass with
  | false =>
    have hnone : m.found p s = 0 := by
      cases m with
      | checkLeaks => exact Bool.noConfusion hm
      | _ => rfl
    have ht := m.tight_apply s hm
    unfold Store.leaksOf
    rw [hnone, ht.leaked p, ht.leaks]
    exact ⟨rfl, rfl⟩
  | true =>
    cases m with
    | checkLeaks q =>
      have hfound : found p s (.checkLeaks q) =
          if q = p then (s.pool q).tracker?.elim 0 fun x => (s.checkLeaks q x).1 else 0 := rfl
      unfold apply
      dsimp only
      cases hx : (s.pool q).tracker? with
      | none =>
        simp only [hfound, hx, Option.elim_none, ite_self]
        exact ⟨rfl, rfl⟩
      | some x =>
        simp only [hfound, hx, Option.elim_some]
        exact Store.leaked_checkLeaks p hx
    | _ => exact Bool.noConfusion hm

theorem Session.leaked {allowed : Store α → Move α → Prop} {s t : Store α} {log : List (Moved α)}
    (h : Session allowed s log t) (p : PoolId) :
    (t.pool p).leaked = (s.pool p).leaked + (log.map fun x => x.2.found p x.1).sum ∧
      (t.leaksOf p).length = (s.leaksOf p).length + (log.map fun x => x.2.found p x.1).sum := by
  induction h with
  | start => exact ⟨rfl, rfl⟩
  | @move log t _ m _ _ ih =>
    obtain ⟨hcounted, htold⟩ := m.leaked_apply t p
    simp only [List.map_append, List.sum_append, List.map_singleton, List.sum_singleton]
    omega

/-- A detector by age accepts the acquisitions of what it does not track and the releases of what it does, and a
refused acquisition changes nothing. Its passes report only what is tracked, each resource once and as it was
described when its tracking began, and none again before a release and then an acquisition of it were accepted. If
there is no age to wait for, a pass reports all that is tracked and was not reported since it was acquired. Along
any calls a pool counts as leaked what the passes asked for through it found, which is as much as the log warns of;
clearing, and passes told to nobody, change neither. -/
theorem leaks_reported_once_per_acquisition :
    (∀ (maxAge : Nat) (log : List Exchange) (d : Detector), Consulted (.expiry maxAge []) log d →
      (∀ (before between after : List Exchange) (x y : Exchange) (r : Nat),
        log = before ++ x :: between ++ y :: after → r ∈ x.reported → r ∈ y.reported →
          ∃ (b₁ b₂ b₃ : List Exchange) (z w : Exchange), between = b₁ ++ z :: b₂ ++ w :: b₃ ∧
            z.ended? = some r ∧ w.begun? = some r) ∧
      (∀ (before after : List Exchange) (x : Exchange), log = before ++ x :: after →
        (∀ r description, x.request = .acquired r description →
          ∃ accepted, x.answer = .done accepted ∧ (accepted = true ↔ ¬ Tracked before r)) ∧
        (∀ r, x.request = .released r →
          ∃ accepted, x.answer = .done accepted ∧ (accepted = true ↔ Tracked before r)) ∧
        (x.request = .sweep → ∃ found, x.answer = .leaks found ∧ (found.map (·.resource?)).Nodup ∧
          ∀ leak ∈ found, ∃ r, leak.resource? = some r ∧ Tracked before r ∧
            Held (fun y => y.request = .acquired r leak.description ∧ leak.heldFor = x.time - y.time)
              before r) ∧
        (x.request = .sweep → maxAge = 0 →
          ∀ r, r ∈ x.reported ↔ Tracked before r ∧ ¬ Accused before r)) ∧
      (∀ now r description, (d.acquired now r description).1 = false →
        (d.acquired now r description).2 = d) ∧
      ∃ n, d.tracked? = some n ∧
        n + (log.filterMap Exchange.ended?).length = (log.filterMap Exchange.begun?).length) ∧
    ∀ (draws : List Nat) (log : List (Moved α)) (s : Store α), Session free (.blank draws) log s →
      (s.events.filterMap Event.line?).count "WARN entry leaked" = s.leaks.length ∧
      ∀ p t, (s.pool p).tracker? = some t →
        t.resources = (log.map fun x => x.2.found p x.1).sum ∧ t.resources = (s.leaksOf p).length ∧
        s.Tight (Move.apply s (.clearTracking p)) ∧ s.Tight (Move.apply s (.sweep p)) := by
  refine ⟨fun maxAge log d h => ⟨?_, ?_, ?_, h.tracked?⟩, fun draws log s h => ⟨s.count_lines, ?_⟩⟩
  · exact fun before between after x y r hlog hx hy => h.released_acquired_between hlog hx hy
  · intro before after x hlog
    refine ⟨fun r description hx => h.answer_acquired hlog hx, fun r hx => h.answer_released hlog hx,
      fun hx => h.answer_sweep hlog hx, fun hx hage r => ?_⟩
    subst hage
    rw [h.mem_reported_iff hlog, hx, eq_self, true_and, held_iff_tracked fun y => Nat.zero_le _]
  · exact fun now r description hrefused => Detector.acquired_of_refused hrefused
  · intro p t ht
    obtain ⟨hcounted, htold⟩ := h.leaked p
    have hblank : ((Store.blank draws : Store α).pool p).leaked = 0 := rfl
    have hleaked : (s.pool p).leaked = t.resources := by rw [Pool.leaked, ht, Option.elim_some]
    rw [hleaked, hblank, Nat.zero_add] at hcounted
    rw [htold]
    exact ⟨hcounted, hcounted.trans (Nat.zero_add _).symm, Move.tight_apply s rfl, Move.tight_apply s rfl⟩

/-- A resource is acquired twice, found by the first of two passes, released, acquired anew and found again. On a
pool two entries leak, of which one is found past the pool, and nothing of it is forgotten. -/
theorem leaks_reported_once_reacquired :
    let first : Leak := { resource? := some 7, description := "first", heldFor := 2 }
    let second : Leak := { resource? := some 7, description := "second", heldFor := 1 }
    let log : List Exchange := [⟨0, .acquired 7 "first", .done true⟩, ⟨1, .acquired 7 "other", .done false⟩,
      ⟨2, .sweep, .leaks [first]⟩, ⟨3, .sweep, .leaks []⟩, ⟨4, .released 7, .done true⟩,
      ⟨5, .acquired 7 "second", .done true⟩, ⟨6, .sweep, .leaks [second]⟩]
    let ms : List (Move Nat) := [.create "p" {} (some (.expiry 0 [])), .reserve 0, .reserve 0, .enable 0 7 false,
      .enable 1 8 false, .acquire false 0 0, .checkLeaks 0, .acquire false 0 0, .sweep 0, .checkLeaks 0,
      .clearTracking 0]
    let s := ms.foldl Move.apply (.blank [])
    Consulted (.expiry 0 []) log (.expiry 0 [(7, { since := 5, description := "second", reported := true })]) ∧
      (∃ (b₁ b₂ b₃ : List Exchange) (z w : Exchange), (log.drop 3).take 3 = b₁ ++ z :: b₂ ++ w :: b₃ ∧
        z.ended? = some 7 ∧ w.begun? = some 7) ∧
      Session free (.blank []) (Move.log (.blank []) ms) s ∧
      ∃ t, (s.pool 0).tracker? = some t ∧ t.resources = 1 ∧ (s.leaksOf 0).length = 1 ∧
        t.resources = ((Move.log (.blank []) ms).map fun x => x.2.found 0 x.1).sum := by
  intro first second log ms s
  have hlog : Consulted (.expiry 0 []) log
      (.expiry 0 [(7, { since := 5, description := "second", reported := true })]) :=
    ((((((Consulted.start.ask 0 (.acquired 7 "first")).ask 1 (.acquired 7 "other")).ask 2 .sweep).ask 3
      .sweep).ask 4 (.released 7)).ask 5 (.acquired 7 "second")).ask 6 .sweep
  have hs : Session free (.blank []) (Move.log (.blank []) ms) s := .of_along _ ms (by decide +kernel)
  obtain ⟨hdetector, hpool⟩ := leaks_reported_once_per_acquisition (α := Nat)
  have hbetween := (hdetector 0 log _ hlog).1 (log.take 2) ((log.drop 3).take 3) []
    ⟨2, .sweep, .leaks [first]⟩ ⟨6, .sweep, .leaks [second]⟩ 7 rfl (List.mem_singleton_self 7)
    (List.mem_singleton_self 7)
  obtain ⟨t, ht⟩ : ∃ t, (s.pool 0).tracker? = some t := Option.isSome_iff_exists.mp (by decide +kernel)
  obtain ⟨hsum, htold, -⟩ := (hpool [] _ s hs).2 0 t ht
  have hone : (s.leaksOf 0).length = 1 := by decide +kernel
  exact ⟨hlog, hbetween, hs, t, ht, htold.trans hone, hone, hsum⟩

end ResourcePool
