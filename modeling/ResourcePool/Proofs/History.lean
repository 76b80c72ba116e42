import ResourcePool.Proofs.Frame
import ResourcePool.Proofs.Run

/-! Histories: the calls on entries and pools that a run comes down to, through whatever guards, trackers
and creators they are made, each with the store that it finds. -/
namespace ResourcePool

variable {α : Type}

/-- A call on an entry or on a pool itself. -/
inductive Call (α : Type) where
  | create (name : String) (settings : Settings α) (detector? : Option Detector)
  | reserve (p : PoolId)
  | enable (e : EntryId) (value : α) (atOnce : Bool)
  | acquire (p : PoolId) (c : CallerId)
  /-- The entry that `acquireWith` reserved is given the value of its creator. -/
  | fulfil (p : PoolId) (c : CallerId) (e : EntryId) (value : α)
  | release (p : PoolId) (c : CallerId) (e : EntryId)
  | remove (p : PoolId) (e : EntryId)
  | close (p : PoolId)

def Call.apply (s : Store α) : Call α → Store α
  | create name settings detector? => (s.create name settings detector?).2
  | reserve p => (s.reserve p).2
  | enable e v atOnce => (s.enable e v atOnce).2
  | acquire p c => (s.acquire p c).2
  | fulfil p c e v => (s.settle p c e (.value v)).2
  | release p c e => (s.release p c e).2
  | remove p e => (s.remove p e).2
  | close p => (s.close p).2

/-- A call, after the store that it is made on. -/
abbrev Called (α : Type) := Store α × Call α

namespace Store

/-- The release that `trackedRelease` comes to. -/
def releaseCall (s : Store α) (direct : Bool) (p : PoolId) (c : CallerId) (e : EntryId) : Called α :=
  (if direct then s else s.observeRelease p e, .release p c e)

/-- The removal that `trackedRemove` comes to. -/
def removeCall (s : Store α) (direct : Bool) (p : PoolId) (e : EntryId) : Called α :=
  (if direct then s else s.observeRemoval p e, .remove p e)

/-- The release that the end of a guard comes to. -/
def giveBackCall (s : Store α) (c : CallerId) (g : Guard) : Called α :=
  s.releaseCall g.direct g.pool c g.entry

/-- The release of a guard of the same name, when another is stored. -/
def putGuardCalls (s : Store α) (c : CallerId) (name : String) (g : Guard) : List (Called α) :=
  match s.guard? name with
  | some old =>
    [{ s.endGuard name with guards := (name, g) :: (s.endGuard name).guards }.giveBackCall c old]
  | none => []

/-- A creation either fulfils its entry or removes it, or it panicked. -/
def settleCalls (s : Store α) (p : PoolId) (c : CallerId) (e : EntryId) :
    Creation α → List (Called α)
  | .value v => [(s, .fulfil p c e v)]
  | .nothing => [(s, .remove p e)]
  | .refused _ => [(s, .remove p e)]
  | .panicked => []

end Store

/-- The calls on entries and pools that a client's call comes to. -/
def Move.calls (s : Store α) : Move α → List (Called α)
  | create name settings detector? => [(s, .create name settings detector?)]
  | reserve p => [(s, .reserve p)]
  | enable e v atOnce => [(s, .enable e v atOnce)]
  | acquire _ p c => [(s, .acquire p c)]
  | settle _ p c e creation => s.settleCalls p c e creation
  | release direct p c e => [s.releaseCall direct p c e]
  | remove direct p e => [s.removeCall direct p e]
  | close p => [(s, .close p)]
  | lease direct p c name =>
    (s, .acquire p c) ::
      match s.trackedAcquire direct p c with
      | (some e, t) => t.putGuardCalls c name { pool := p, entry := e, direct }
      | (none, _) => []
  | settleLease p c name e creation =>
    s.settleCalls p c e creation ++
      match s.settle p c e creation with
      | (.ok (some x), t) => t.putGuardCalls c name { pool := p, entry := x }
      | _ => []
  | dropGuard c name => (s.guard? name).elim [] fun g => [(s.endGuard name).giveBackCall c g]
  | removeGuarded name =>
    (s.guard? name).elim [] fun g => [(s.endGuard name).removeCall g.direct g.pool g.entry]
  | _ => []

/-- The calls that a run from `s` makes, and where it leads. -/
inductive History (allowed : Store α → Move α → Prop) (s : Store α) :
    List (Called α) → Store α → Prop
  | start : History allowed s [] s
  | move {calls : List (Called α)} {t : Store α} (h : History allowed s calls t) (m : Move α)
      (proper : m.Proper t) (ok : allowed t m) :
      History allowed s (calls ++ m.calls t) (m.apply t)

/-- The calls that clients' calls in a row come to. -/
def Move.trail (s : Store α) : List (Move α) → List (Called α)
  | [] => []
  | m :: ms => m.calls s ++ Move.trail (m.apply s) ms

/-- Whether all creations end on the pool that reserved the entry, as clients call in a row. -/
def Move.AllProper (s : Store α) : List (Move α) → Prop
  | [] => True
  | m :: ms => m.Proper s ∧ Move.AllProper (m.apply s) ms

instance (s : Store α) : (m : Move α) → Decidable (m.Proper s)
  | .settle _ p _ e _ => inferInstanceAs (Decidable (e ∈ s.reservations p))
  | .settleLease p _ _ e _ => inferInstanceAs (Decidable (e ∈ s.reservations p))
  | .create .. | .forget _ | .enter _ | .leave _ | .reserve _ | .enable .. | .acquire .. | .release ..
  | .remove .. | .close _ | .lease .. | .dropGuard .. | .removeGuarded _ | .detach _ | .hold _ | .unhold _
  | .unholdAll | .sweep _ | .checkLeaks _ | .clearTracking _ | .wait _ | .readLog => isTrue trivial

instance decidableAllProper : (s : Store α) → (ms : List (Move α)) → Decidable (Move.AllProper s ms)
  | _, [] => isTrue trivial
  | s, m :: ms =>
    have : Decidable (Move.AllProper (m.apply s) ms) := decidableAllProper (m.apply s) ms
    inferInstanceAs (Decidable (m.Proper s ∧ Move.AllProper (m.apply s) ms))

/-- Whether what a property says of each call, and of the store that it finds, holds as clients call in a
row. -/
def Move.Along (P : Store α → Move α → Prop) (s : Store α) : List (Move α) → Prop
  | [] => True
  | m :: ms => P s m ∧ Move.Along P (m.apply s) ms

instance decidableAlong {P : Store α → Move α → Prop} [∀ s m, Decidable (P s m)] :
    (s : Store α) → (ms : List (Move α)) → Decidable (Move.Along P s ms)
  | _, [] => isTrue trivial
  | s, m :: ms =>
    have : Decidable (Move.Along P (m.apply s) ms) := decidableAlong (m.apply s) ms
    inferInstanceAs (Decidable (P s m ∧ Move.Along P (m.apply s) ms))

/-- A pool past its tracker. -/
def Pool.bare (x : Pool α) : Pool α :=
  { x with tracker? := none }

/-- The values passed to disposers, in order. -/
def Store.disposed (s : Store α) : List (PoolId × EntryId × α) :=
  s.events.filterMap Event.disposal?

/-- The entries handed out, in order, with the callers who got them. -/
def Store.takings (s : Store α) : List (EntryId × CallerId) :=
  s.events.filterMap Event.taking?

/-- Stores alike in their entries and, past the trackers, in their pools. -/
structure Store.Alike (s t : Store α) : Prop where
  registry : t.registry = s.registry
  known : t.pools.size = s.pools.size
  pool : ∀ p, (t.pool p).bare = (s.pool p).bare
  disposed : t.disposed = s.disposed
  takings : t.takings = s.takings

/-- What calls lead to, when only stores alike come between them. -/
inductive Trace (s : Store α) : List (Called α) → Store α → Prop
  | start : Trace s [] s
  | aside {calls : List (Called α)} {t u : Store α} (h : Trace s calls t) (same : t.Alike u) :
      Trace s calls u
  | call {calls : List (Called α)} {t : Store α} (h : Trace s calls t) (c : Call α) :
      Trace s (calls ++ [(t, c)]) (c.apply t)

/-! ### Stores alike -/

namespace Store

variable {s t u : Store α}

namespace Alike

theorem refl (s : Store α) : s.Alike s :=
  ⟨rfl, rfl, fun _ => rfl, rfl, rfl⟩

theorem trans (h : s.Alike t) (h' : t.Alike u) : s.Alike u where
  registry := h'.registry.trans h.registry
  known := h'.known.trans h.known
  pool p := (h'.pool p).trans (h.pool p)
  disposed := h'.disposed.trans h.disposed
  takings := h'.takings.trans h.takings

/-- The same entries, pools and journal. -/
theorem of_eq (he : t.entries = s.entries) (hp : t.pools = s.pools) (hj : t.journal = s.journal) :
    s.Alike t := by
  have hpool : t.pool = s.pool := by
    funext p
    simp only [Store.pool, hp]
  have hevents : t.events = s.events := by
    simp only [events, hj]
  refine ⟨?_, by rw [hp], fun p => by rw [hpool], by simp only [Store.disposed, hevents],
    by simp only [Store.takings, hevents]⟩
  ext1
  · simp only [Store.registry, he]
  · funext e
    simp only [Store.registry, entry, he]
  · funext p
    simp only [Store.registry, roster, hpool]
  · funext e
    simp only [Store.registry, requests, hevents]
  · funext p
    simp only [Store.registry, reservations, hevents]

end Alike

theorem disposed_note (s : Store α) (x : Event α) :
    (s.note x).disposed = s.disposed ++ x.disposal?.toList := by
  simp only [disposed, events_note, List.filterMap_append, List.append_cancel_left_eq]
  cases hx : x.disposal? <;> simp [hx]

theorem takings_note (s : Store α) (x : Event α) :
    (s.note x).takings = s.takings ++ x.taking?.toList := by
  simp only [takings, events_note, List.filterMap_append, List.append_cancel_left_eq]
  cases hx : x.taking? <;> simp [hx]

/-- Events that grant, reserve, dispose of and hand out nothing. -/
theorem alike_note (s : Store α) {x : Event α} (hg : x.granted? = none) (hr : x.reservation? = none)
    (hd : x.disposal? = none) (ht : x.taking? = none) : s.Alike (s.note x) where
  registry := registry_note s hg hr
  known := rfl
  pool _ := rfl
  disposed := by rw [disposed_note, hd, Option.toList_none, List.append_nil]
  takings := by rw [takings_note, ht, Option.toList_none, List.append_nil]

theorem alike_setTracker (s : Store α) (p : PoolId) (x : Tracker) : s.Alike (s.setTracker p x) where
  registry := registry_setTracker s p x
  known := Array.size_modify
  pool q := s.modifyPool_keeps Pool.bare p q fun _ => rfl
  disposed := rfl
  takings := rfl

theorem alike_observeAcquire (s : Store α) (p : PoolId) (e : EntryId) :
    s.Alike (s.observeAcquire p e) := by
  unfold observeAcquire
  split
  · exact .refl s
  · split
    · exact s.alike_setTracker p _
    · exact (s.alike_setTracker p _).trans (alike_note _ rfl rfl rfl rfl)

theorem alike_observeRelease (s : Store α) (p : PoolId) (e : EntryId) :
    s.Alike (s.observeRelease p e) := by
  unfold observeRelease
  split
  · exact .refl s
  · split
    · exact s.alike_setTracker p _
    · exact (s.alike_setTracker p _).trans (alike_note _ rfl rfl rfl rfl)

theorem alike_observeRemoval (s : Store α) (p : PoolId) (e : EntryId) :
    s.Alike (s.observeRemoval p e) := by
  unfold observeRemoval
  split
  · exact .refl s
  · split
    · exact s.alike_setTracker p _
    · exact (s.alike_setTracker p _).trans (alike_note _ rfl rfl rfl rfl)

theorem alike_hold (s : Store α) (e : EntryId) : s.Alike (s.hold e) := by
  unfold hold
  split_ifs
  · exact .refl s
  · exact .of_eq rfl rfl rfl

theorem alike_checkLeaks (s : Store α) (p : PoolId) (x : Tracker) :
    s.Alike (s.checkLeaks p x).2 := by
  have hf : ∀ (leaks : List Leak) (u : Store α),
      u.Alike (leaks.foldl (fun u leak => u.note (.leaked p leak)) u) := by
    intro leaks
    induction leaks with
    | nil => exact fun u => .refl u
    | cons leak leaks ih =>
      intro u
      exact (alike_note u rfl rfl rfl rfl).trans (ih _)
  exact (s.alike_setTracker p _).trans (hf _ _)

theorem alike_observeResult (s : Store α) (direct : Bool) (p : PoolId)
    (result : Except CreationError (Option EntryId)) :
    s.Alike (s.observeResult direct p result) := by
  unfold observeResult
  split
  · split_ifs
    · exact .refl s
    · exact s.alike_observeAcquire p _
  · exact .refl s

end Store

/-- Calls about names, handles, trackers, callers, time and the log concern no entry and no pool. -/
theorem Move.alike_of_inert (s : Store α) (m : Move α) (h : m.isInert = true) :
    s.Alike (m.apply s) := by
  cases m with
  | leave caller =>
    unfold apply
    dsimp only
    cases s.callers.leave? caller with
    | none => exact .refl s
    | some callers => exact .of_eq rfl rfl rfl
  | detach name =>
    unfold apply
    dsimp only
    cases s.guard? name with
    | none => exact .refl s
    | some g => exact (s.alike_hold g.entry).trans (.of_eq rfl rfl rfl)
  | hold e => exact s.alike_hold e
  | sweep p =>
    unfold apply
    dsimp only
    cases (s.pool p).tracker? with
    | none => exact .refl s
    | some t => exact s.alike_setTracker p _
  | checkLeaks p =>
    unfold apply
    dsimp only
    cases (s.pool p).tracker? with
    | none => exact .refl s
    | some t => exact s.alike_checkLeaks p t
  | clearTracking p =>
    unfold apply
    dsimp only
    cases (s.pool p).tracker? with
    | none => exact .refl s
    | some t => exact s.alike_setTracker p t.clear
  | readLog =>
    refine ⟨?_, rfl, fun _ => rfl, rfl, rfl⟩
    exact registry_apply_of_inert s .readLog rfl
  | forget | enter | unhold | unholdAll | wait => exact .of_eq rfl rfl rfl
  | _ => simp [isInert] at h

/-! ### Traces -/

namespace Trace

variable {s t u : Store α} {calls calls' : List (Called α)}

theorem of_alike (h : s.Alike t) : Trace s [] t :=
  start.aside h

theorem one (s : Store α) (c : Call α) : Trace s [(s, c)] (c.apply s) :=
  start.call c

theorem append (h : Trace s calls t) (h' : Trace t calls' u) : Trace s (calls ++ calls') u := by
  induction h' with
  | start => exact (List.append_nil calls).symm ▸ h
  | aside _ same ih => exact ih.aside same
  | call _ c ih =>
    rw [← List.append_assoc]
    exact ih.call c

/-- What stores alike share and every call keeps holds to the end. -/
theorem keeps {P : Store α → Prop} (h : Trace s calls t)
    (aside : ∀ u v, Store.Alike u v → P u → P v)
    (call : ∀ u c, (u, c) ∈ calls → P u → P (c.apply u)) (hs : P s) : P t := by
  induction h with
  | start => exact hs
  | aside _ same ih => exact aside _ _ same (ih call)
  | @call calls u _ c ih =>
    have hu : P u := ih fun v d hd => call v d (List.mem_append_left _ hd)
    exact call u c (List.mem_append_right _ (List.mem_singleton_self _)) hu

/-- What stores alike share and every call keeps holds wherever a call was made. -/
theorem holds_of_mem {P : Store α → Prop} {c : Call α} (h : Trace s calls t)
    (aside : ∀ u v, Store.Alike u v → P u → P v)
    (call : ∀ u c, (u, c) ∈ calls → P u → P (c.apply u)) (hs : P s) (hc : (u, c) ∈ calls) : P u := by
  induction h with
  | start => exact absurd hc List.not_mem_nil
  | aside _ same ih => exact ih call hc
  | @call calls v h d ih =>
    have hcalls : ∀ w x, (w, x) ∈ calls → P w → P (x.apply w) :=
      fun w x hx => call w x (List.mem_append_left _ hx)
    rcases List.mem_append.mp hc with hc | hc
    · exact ih hcalls hc
    · obtain ⟨rfl, rfl⟩ := Prod.mk.inj (List.mem_singleton.mp hc)
      exact h.keeps aside hcalls hs

end Trace

namespace Store

theorem trace_trackedAcquire (s : Store α) (direct : Bool) (p : PoolId) (c : CallerId) :
    Trace s [(s, .acquire p c)] (s.trackedAcquire direct p c).2 := by
  have ha : Trace s [(s, .acquire p c)] (s.acquire p c).2 := .one s (.acquire p c)
  unfold trackedAcquire
  split
  · next e t ht =>
    rw [ht] at ha
    cases direct with
    | true => exact ha
    | false => exact ha.aside (t.alike_observeAcquire p e)
  · next t ht =>
    rw [ht] at ha
    exact ha

theorem trace_trackedRelease (s : Store α) (direct : Bool) (p : PoolId) (c : CallerId)
    (e : EntryId) : Trace s [s.releaseCall direct p c e] (s.trackedRelease direct p c e).2 := by
  cases direct with
  | true => exact .one s (.release p c e)
  | false => exact (Trace.of_alike (s.alike_observeRelease p e)).call (.release p c e)

theorem trace_trackedRemove (s : Store α) (direct : Bool) (p : PoolId) (e : EntryId) :
    Trace s [s.removeCall direct p e] (s.trackedRemove direct p e).2 := by
  cases direct with
  | true => exact .one s (.remove p e)
  | false => exact (Trace.of_alike (s.alike_observeRemoval p e)).call (.remove p e)

theorem trace_giveBack (s : Store α) (c : CallerId) (g : Guard) :
    Trace s [s.giveBackCall c g] (s.giveBack c g) := by
  have hr := s.trace_trackedRelease g.direct g.pool c g.entry
  unfold giveBack
  split
  · next t ht =>
    rw [ht] at hr
    exact hr
  · next t ht =>
    rw [ht] at hr
    exact hr.aside (alike_note t rfl rfl rfl rfl)

theorem trace_putGuard (s : Store α) (c : CallerId) (name : String) (g : Guard) :
    Trace s (s.putGuardCalls c name g) (s.putGuard c name g) := by
  let u : Store α := { s.endGuard name with guards := (name, g) :: (s.endGuard name).guards }
  have hu : s.Alike u := .of_eq rfl rfl rfl
  unfold putGuard putGuardCalls
  dsimp only
  cases s.guard? name with
  | none => exact .of_alike hu
  | some old => exact (Trace.of_alike hu).append (u.trace_giveBack c old)

theorem trace_settle (s : Store α) (p : PoolId) (c : CallerId) (e : EntryId)
    (creation : Creation α) :
    Trace s (s.settleCalls p c e creation) (s.settle p c e creation).2 := by
  cases creation with
  | value v => exact .one s (.fulfil p c e v)
  | nothing => exact .one s (.remove p e)
  | refused reason => exact .one s (.remove p e)
  | panicked => exact .start

end Store

/-- A client's call comes to its calls on entries and pools, and to nothing else that concerns them. -/
theorem Move.trace (s : Store α) (m : Move α) : Trace s (m.calls s) (m.apply s) := by
  cases m with
  | create name settings detector? => exact .one s (.create name settings detector?)
  | reserve p => exact .one s (.reserve p)
  | enable e v atOnce => exact .one s (.enable e v atOnce)
  | acquire direct p c => exact s.trace_trackedAcquire direct p c
  | settle direct p c e creation =>
    exact (s.trace_settle p c e creation).aside (Store.alike_observeResult _ direct p _)
  | release direct p c e => exact s.trace_trackedRelease direct p c e
  | remove direct p e => exact s.trace_trackedRemove direct p e
  | close p => exact .one s (.close p)
  | lease direct p c name =>
    have ha := s.trace_trackedAcquire direct p c
    unfold calls apply Store.lease
    dsimp only
    cases ht : s.trackedAcquire direct p c with
    | mk found t =>
      rw [ht] at ha
      cases found with
      | none => exact ha
      | some e => exact ha.append (t.trace_putGuard c name _)
  | settleLease p c name e creation =>
    have hs := s.trace_settle p c e creation
    unfold calls apply Store.guardResult
    dsimp only
    cases ht : s.settle p c e creation with
    | mk result t =>
      rw [ht] at hs
      dsimp only
      cases result with
      | error f => exact (List.append_nil _).symm ▸ hs
      | ok created? =>
        cases created? with
        | none => exact (List.append_nil _).symm ▸ hs
        | some x => exact hs.append (t.trace_putGuard c name _)
  | dropGuard c name =>
    unfold calls apply
    dsimp only
    cases s.guard? name with
    | none => exact .start
    | some g =>
      have hu : s.Alike (s.endGuard name) := .of_eq rfl rfl rfl
      exact (Trace.of_alike hu).append ((s.endGuard name).trace_giveBack c g)
  | removeGuarded name =>
    unfold calls apply
    dsimp only
    cases s.guard? name with
    | none => exact .start
    | some g =>
      have hu : s.Alike (s.endGuard name) := .of_eq rfl rfl rfl
      exact (Trace.of_alike hu).append
        ((s.endGuard name).trace_trackedRemove g.direct g.pool g.entry)
  | _ => exact .of_alike (alike_of_inert s _ rfl)

/-! ### Histories -/

namespace History

variable {allowed : Store α → Move α → Prop} {s t : Store α} {calls : List (Called α)}

theorem trace (h : History allowed s calls t) : Trace s calls t := by
  induction h with
  | start => exact .start
  | move _ m _ _ ih => exact ih.append (m.trace _)

theorem run (h : History allowed s calls t) : Run allowed s t := by
  induction h with
  | start => exact .refl
  | move _ m proper ok ih => exact ih.step m proper ok

theorem append {calls' : List (Called α)} {u : Store α} (h : History allowed s calls t)
    (h' : History allowed t calls' u) : History allowed s (calls ++ calls') u := by
  induction h' with
  | start => exact (List.append_nil calls).symm ▸ h
  | move _ m proper ok ih =>
    rw [← List.append_assoc]
    exact ih.move m proper ok

/-- Calls in a row. -/
theorem of_moves (s : Store α) (ms : List (Move α)) (h : Move.AllProper s ms) :
    History free s (Move.trail s ms) (ms.foldl Move.apply s) := by
  induction ms generalizing s with
  | nil => exact .start
  | cons m ms ih =>
    have hm : History free s ([] ++ m.calls s) (m.apply s) := start.move m h.1 trivial
    exact hm.append (ih (m.apply s) h.2)

/-- Calls in a row, all of them allowed. -/
theorem of_along (s : Store α) (ms : List (Move α))
    (h : Move.Along (fun t m => m.Proper t ∧ allowed t m) s ms) :
    History allowed s (Move.trail s ms) (ms.foldl Move.apply s) := by
  induction ms generalizing s with
  | nil => exact .start
  | cons m ms ih =>
    have hm : History allowed s ([] ++ m.calls s) (m.apply s) := start.move m h.1.1 h.1.2
    exact hm.append (ih (m.apply s) h.2)

end History

theorem Run.exists_history {allowed : Store α → Move α → Prop} {s t : Store α}
    (h : Run allowed s t) : ∃ calls, History allowed s calls t := by
  induction h with
  | refl => exact ⟨[], .start⟩
  | step _ m proper ok ih =>
    obtain ⟨calls, hc⟩ := ih
    exact ⟨_, hc.move m proper ok⟩

end ResourcePool
