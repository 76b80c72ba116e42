import Mathlib.Data.List.Perm.Subperm
import ResourcePool.Proofs.Closing

/-! Custody: when entries come back by the ends of guards only, no two guards hold the same entry, and what
a guard holds stays in use until a removal or its pool closes it. So no guard fails to give it back. -/
namespace ResourcePool
open Registry

variable {α : Type}

/-- Any call of a client but a release. Guards may give their entries back. -/
def unreleased (_ : Store α) : Move α → Prop
  | .release .. => False
  | _ => True

instance (s : Store α) : (m : Move α) → Decidable (unreleased s m)
  | .release .. => isFalse id
  | .create .. | .forget _ | .enter _ | .leave _ | .reserve _ | .enable .. | .acquire .. | .settle ..
  | .remove .. | .close _ | .lease .. | .settleLease .. | .dropGuard .. | .removeGuarded _ | .detach _
  | .hold _ | .unhold _ | .unholdAll | .sweep _ | .checkLeaks _ | .clearTracking _ | .wait _
  | .readLog => isTrue trivial

namespace Call

/-- Whether a call is a release of an entry. -/
def Returns (e : EntryId) : Call α → Prop
  | release _ _ x => x = e
  | _ => False

/-- Whether a call, if it is a release, is answered without a fault: yes if the entry is in use and the pool
open, and else no. -/
def TakesBack (s : Store α) : Call α → Prop
  | release p c e =>
    (s.release p c e).1 = .ok (decide (s.state e = .active ∧ (s.pool p).closed = false))
  | _ => True

variable {s : Store α} {d : Call α} {e : EntryId}

theorem returns_of_granted? (h : d.granted? s = some (e, .release)) : d.Returns e := by
  cases d with
  | enable x v atOnce =>
    obtain ⟨-, hx⟩ := Option.ite_none_right_eq_some.mp h
    simp at hx
  | acquire p c =>
    obtain ⟨x, -, hx⟩ := Option.map_eq_some_iff.mp h
    simp at hx
  | fulfil p c x v =>
    obtain ⟨-, hx⟩ := Option.ite_none_right_eq_some.mp h
    simp at hx
  | release p c x =>
    obtain ⟨-, hx⟩ := Option.ite_none_right_eq_some.mp h
    exact congrArg Prod.fst (Option.some.inj hx)
  | _ => simp [granted?] at h

/-- An entry in use stays so until it is released, or else it is closed. -/
theorem state_apply_of_active (h : s.state e = .active) (hd : ¬ d.Returns e) :
    (d.apply s).state e = .active ∨ (d.apply s).state e = .closed := by
  have hc := d.change s
  have hstate : (s.registry.entry e).state = .active := h
  change ((d.apply s).registry.entry e).state = .active ∨
    ((d.apply s).registry.entry e).state = .closed
  generalize (d.apply s).registry = w at hc
  have hremove : ∀ x, ((s.registry.grant x .remove).entry e).state = .active ∨
      ((s.registry.grant x .remove).entry e).state = .closed := by
    intro x
    by_cases hx : e = x
    · subst hx
      have hg : (s.registry.entry e).Grants .remove := by
        simp [Entry.grants_remove_iff, hstate]
      rw [grant_entry_self]
      exact .inr (Entry.state_answer hg)
    · rw [grant_entry_of_ne _ _ hx]
      exact .inl hstate
  cases hc with
  | create | refuse => exact .inl hstate
  | reserve p =>
    have hne : e ≠ s.registry.size := by
      rintro rfl
      have hn : s.entry s.entries.size = .closed none := s.entry_of_size_le (Nat.le_refl _)
      change (s.entry s.entries.size).state = .active at hstate
      simp [hn, Entry.state] at hstate
    rw [reserve_entry_of_ne _ p hne]
    exact .inl hstate
  | @serve _ x r answer grants keeps =>
    have hne : e ≠ x := by
      rintro rfl
      rcases Entry.eq_of_grants_of_active hstate grants with rfl | rfl
      · exact hd (returns_of_granted? answer)
      · exact keeps rfl
    rw [grant_entry_of_ne _ r hne]
    exact .inl hstate
  | evict p x => exact hremove x
  | disown p x => exact hremove x
  | close p =>
    simp only [Registry.close, Registry.closeAll]
    split_ifs
    · exact .inr rfl
    · exact .inl hstate

end Call

namespace Store

variable {s t : Store α} {direct : Bool} {p : PoolId} {c : CallerId} {e : EntryId}
  {es fs : List EntryId}

/-- The faults that guards met with at their ends. -/
def failures (s : Store α) : List Fault :=
  s.events.filterMap Event.failure?

/-- Entries handed out, each of them once and in use until it is closed. -/
structure Custody (s : Store α) (es : List EntryId) : Prop where
  apart : es.Nodup
  held : ∀ e ∈ es, s.state e = .active ∨ s.Gone e

/-- The entries of all guards are in custody. -/
def Guarded (s : Store α) : Prop :=
  s.Custody (s.guards.map (·.2.entry))

/-- Only the release of an idle entry is a fault. -/
theorem release_fst (h : s.state e ≠ .idle) :
    (s.release p c e).1 = .ok (decide (s.state e = .active ∧ (s.pool p).closed = false)) := by
  cases hp : (s.pool p).closed with
  | true =>
    have hr := release_of_closed (s := s) c e hp
    simp [hr]
  | false =>
    unfold state at h ⊢
    cases hx : s.entry e <;> simp_all [release, Entry.tryRelease, Entry.state]

namespace Custody

theorem subperm (h : s.Custody es) (hf : fs.Subperm es) : s.Custody fs where
  apart := by
    obtain ⟨gs, hperm, hsub⟩ := hf
    exact hperm.nodup_iff.mp (h.apart.sublist hsub)
  held e he := h.held e (hf.subset he)

theorem of_registry (h : s.Custody es) (hr : t.registry = s.registry) : t.Custody es where
  apart := h.apart
  held e he := by
    have hv : (s.registry.entry e).state = .active ∨
        (e < s.registry.size ∧ (s.registry.entry e).state = .closed) := h.held e he
    rw [← hr] at hv
    exact hv

theorem call (h : s.Custody es) (d : Call α) (hd : ∀ e ∈ es, ¬ d.Returns e) :
    (d.apply s).Custody es where
  apart := h.apart
  held e he := by
    rcases h.held e he with hactive | hgone
    · have hsize : e < s.entries.size := lt_size_of_ne_closed (by simp [hactive])
      rcases Call.state_apply_of_active hactive (hd e he) with ha | hc
      · exact .inl ha
      · exact .inr ⟨Nat.lt_of_lt_of_le hsize (d.extends s).size, hc⟩
    · exact .inr ((d.gone_apply_iff s e).mpr (.inl hgone))

/-- What is not released along a trace stays in custody. -/
theorem trace {calls : List (Called α)} (h : s.Custody es) (ht : Trace s calls t)
    (hd : ∀ x ∈ calls, ∀ e ∈ es, ¬ x.2.Returns e) : t.Custody es :=
  ht.keeps (P := fun u => u.Custody es) (fun _ _ same hu => hu.of_registry same.registry)
    (fun u d hx hu => hu.call d (hd (u, d) hx)) h

/-- An entry that is handed out is in no custody before. -/
theorem handOut {r : Entry.Request α} (h : s.Custody es) (hg : (s.entry e).Grants r)
    (hr : t.registry = s.registry.grant e r) (ha : r.target = .active) : t.Custody (e :: es) := by
  have hentry : t.entry = (s.registry.grant e r).entry := congrArg Registry.entry hr
  have hsize : t.entries.size = s.entries.size := congrArg Registry.size hr
  have hnew : e ∉ es := by
    intro he
    rcases h.held e he with hactive | ⟨-, hclosed⟩
    · rcases Entry.eq_of_grants_of_active hactive hg with rfl | rfl <;> simp [Entry.Request.target] at ha
    · exact Entry.not_grants_of_closed hclosed r hg
  refine ⟨List.nodup_cons.mpr ⟨hnew, h.apart⟩, fun x hx => ?_⟩
  rcases List.mem_cons.mp hx with rfl | hx
  · have hx : (t.entry x).state = r.target := by
      rw [hentry, grant_entry_self]
      exact Entry.state_answer hg
    exact .inl (hx.trans ha)
  · have hne : x ≠ e := fun he => hnew (he ▸ hx)
    have hx' : t.entry x = s.entry x := by
      rw [hentry, grant_entry_of_ne _ r hne]
      rfl
    unfold Gone state
    rw [hx', hsize]
    exact h.held x hx

/-- The end of a guard gives its entry back without a fault. -/
theorem giveBack {g : Guard} (h : s.Custody (g.entry :: es)) (c : CallerId) :
    (s.giveBack c g).Custody es ∧ (s.giveBackCall c g).2.TakesBack (s.giveBackCall c g).1 := by
  have hnew : g.entry ∉ es := (List.nodup_cons.mp h.apart).1
  have hes : s.Custody es := h.subperm (List.sublist_cons_self _ _).subperm
  refine ⟨hes.trace (s.trace_giveBack c g) fun x hx e he hd => ?_, ?_⟩
  · rw [List.mem_singleton.mp hx] at hd
    obtain rfl : g.entry = e := hd
    exact hnew he
  · have hu : (s.giveBackCall c g).1.registry = s.registry := by
      unfold giveBackCall releaseCall
      dsimp only
      split_ifs
      · rfl
      · exact registry_observeRelease s g.pool g.entry
    have hheld := (h.of_registry hu).held g.entry List.mem_cons_self
    refine release_fst fun hidle => ?_
    rcases hheld with hactive | ⟨-, hclosed⟩
    · simp [hactive] at hidle
    · simp [hclosed] at hidle

end Custody

/-- A guard that ends leaves its entry to nobody else. -/
theorem subperm_endGuard {name : String} {g : Guard} (h : s.guard? name = some g) :
    (g.entry :: (s.endGuard name).guards.map (·.2.entry)).Subperm (s.guards.map (·.2.entry)) := by
  obtain ⟨before, after, hs, hname⟩ := List.lookup_eq_some_iff.mp h
  have hrest : (s.endGuard name).guards.Sublist (before ++ after) := by
    simp only [endGuard, hs, List.filter_append, List.filter_cons, bne_self_eq_false]
    exact List.filter_sublist.append List.filter_sublist
  have hperm : (g.entry :: (before ++ after).map (·.2.entry)).Perm (s.guards.map (·.2.entry)) := by
    rw [hs]
    simpa using (List.perm_middle (a := g.entry)).symm
  exact ((hrest.map _).cons_cons g.entry).subperm.trans hperm.subperm

namespace Guarded

theorem putGuard {g : Guard} (h : s.Custody (g.entry :: s.guards.map (·.2.entry))) (c : CallerId)
    (name : String) : (s.putGuard c name g).Guarded ∧
      ∀ x ∈ s.putGuardCalls c name g, x.2.TakesBack x.1 := by
  let u : Store α := { s.endGuard name with guards := (name, g) :: (s.endGuard name).guards }
  have hu : u.registry = s.registry := rfl
  unfold Guarded
  rw [guards_putGuard]
  unfold Store.putGuard putGuardCalls
  dsimp only
  cases hold : s.guard? name with
  | none =>
    have hsub : (s.endGuard name).guards.Sublist s.guards := List.filter_sublist
    have hcons := (hsub.map (·.2.entry)).cons_cons g.entry
    exact ⟨(h.subperm hcons.subperm).of_registry hu, fun x hx => absurd hx List.not_mem_nil⟩
  | some old =>
    have hsub := (List.subperm_cons g.entry).mpr (subperm_endGuard hold)
    have hswap := (List.Perm.swap g.entry old.entry _).subperm.trans hsub
    obtain ⟨hrest, htakes⟩ := ((h.subperm hswap).of_registry hu).giveBack c
    exact ⟨hrest, fun x hx => List.mem_singleton.mp hx ▸ htakes⟩

/-- What neither releases nor stores a guard keeps guarded what guards hold. -/
theorem trace {calls : List (Called α)} (h : s.Guarded) (ht : Trace s calls t)
    (hg : t.guards.Sublist s.guards) (hd : ∀ x ∈ calls, ∀ e, ¬ x.2.Returns e) : t.Guarded :=
  (Custody.trace h ht fun x hx e _ => hd x hx e).subperm (hg.map _).subperm

/-- An entry that is handed out is guarded by nobody before. -/
theorem handOut {r : Entry.Request α} (h : s.Guarded) (hg : (s.entry e).Grants r)
    (hr : t.registry = s.registry.grant e r) (ha : r.target = .active) (hs : t.guards = s.guards) :
    t.Custody (e :: t.guards.map (·.2.entry)) := by
  rw [hs]
  exact Custody.handOut h hg hr ha

end Guarded

theorem trackedAcquire_grants (h : s.trackedAcquire direct p c = (some e, t)) :
    (s.entry e).Grants .acquire ∧ t.registry = s.registry.grant e .acquire := by
  have hfst : (s.acquire p c).1 = some e := by rw [← s.trackedAcquire_fst direct, h]
  obtain ⟨hg, hr⟩ := acquire_of_some hfst
  have ht := s.registry_trackedAcquire direct p c
  rw [h] at ht
  exact ⟨hg, ht.trans hr⟩

/-- What a creation hands out was pending. -/
theorem settle_grants {creation : Creation α} {x : EntryId}
    (h : s.settle p c e creation = (.ok (some x), t)) : ∃ v,
      (s.entry x).Grants (.enable v true) ∧ t.registry = s.registry.grant x (.enable v true) := by
  obtain ⟨v, rfl, -⟩ := granted?_of_settle (congrArg Prod.fst h)
  by_cases hg : (s.entry e).Grants (.enable v true)
  · obtain ⟨ha, hr⟩ := settle_of_grants (p := p) (c := c) hg
    rw [h] at ha hr
    obtain rfl : x = e := by simpa using ha
    exact ⟨v, hg, hr⟩
  · exact absurd (congrArg Prod.fst h) ((settle_of_not_grants hg).1 x)

end Store

namespace Move

variable {s : Store α} {m : Move α}

/-- Whether a call of a client may come to a release. -/
def mayRelease : Move α → Bool
  | release .. | lease .. | settleLease .. | dropGuard .. => true
  | _ => false

theorem not_returns_of_settle {p : PoolId} {c : CallerId} {e : EntryId} {creation : Creation α}
    {x : Called α} (hx : x ∈ s.settleCalls p c e creation) (i : EntryId) : ¬ x.2.Returns i := by
  cases creation with
  | panicked => exact absurd hx List.not_mem_nil
  | _ => exact List.mem_singleton.mp hx ▸ id

theorem not_returns (hm : m.mayRelease = false) {x : Called α} (hx : x ∈ m.calls s) (e : EntryId) :
    ¬ x.2.Returns e := by
  cases m with
  | settle direct p c i creation => exact not_returns_of_settle hx e
  | removeGuarded name =>
    change x ∈ (s.guard? name).elim [] fun g =>
      [(s.endGuard name).removeCall g.direct g.pool g.entry] at hx
    cases hg : s.guard? name with
    | none =>
      rw [hg] at hx
      exact absurd hx List.not_mem_nil
    | some g =>
      rw [hg] at hx
      exact List.mem_singleton.mp hx ▸ id
  | create | reserve | enable | acquire | remove | close => exact List.mem_singleton.mp hx ▸ id
  | release | lease | settleLease | dropGuard => simp [mayRelease] at hm
  | _ => exact absurd hx List.not_mem_nil

theorem takesBack_of_not_returns {x : Called α} (h : ∀ e, ¬ x.2.Returns e) : x.2.TakesBack x.1 := by
  obtain ⟨u, d⟩ := x
  cases d with
  | release p c e => exact absurd rfl (h e)
  | _ => trivial

end Move

namespace Store.Guarded

variable {s : Store α} {p : PoolId} {c : CallerId} {name : String}

theorem lease (h : s.Guarded) (direct : Bool) :
    (Move.apply s (.lease direct p c name)).Guarded ∧
      ∀ x ∈ Move.calls s (.lease direct p c name), x.2.TakesBack x.1 := by
  have hg := (s.frame_trackedAcquire p direct c).guards
  have htrace := s.trace_trackedAcquire direct p c
  unfold Move.apply Move.calls Store.lease
  dsimp only
  cases ht : s.trackedAcquire direct p c with
  | mk found t =>
    rw [ht] at hg htrace
    cases found with
    | none =>
      refine ⟨h.trace htrace (hg ▸ .refl _) ?_, ?_⟩
      · exact fun x hx e => List.mem_singleton.mp hx ▸ id
      · exact fun x hx => List.mem_singleton.mp hx ▸ trivial
    | some e =>
      obtain ⟨hgrants, hreg⟩ := trackedAcquire_grants ht
      have hout := h.handOut hgrants hreg rfl hg
      obtain ⟨hguarded, htakes⟩ := putGuard (g := { pool := p, entry := e, direct }) hout c name
      refine ⟨hguarded, fun x hx => ?_⟩
      rcases List.mem_cons.mp hx with rfl | hx
      · trivial
      · exact htakes x hx

theorem settleLease (h : s.Guarded) (e : EntryId) (creation : Creation α) :
    (Move.apply s (.settleLease p c name e creation)).Guarded ∧
      ∀ x ∈ Move.calls s (.settleLease p c name e creation), x.2.TakesBack x.1 := by
  have hg := (s.frame_settle p c e creation).guards
  have htrace := s.trace_settle p c e creation
  have hcalls : ∀ x ∈ s.settleCalls p c e creation, ∀ i, ¬ x.2.Returns i :=
    fun x hx => Move.not_returns_of_settle hx
  have htakes : ∀ x ∈ s.settleCalls p c e creation, x.2.TakesBack x.1 :=
    fun x hx => Move.takesBack_of_not_returns (hcalls x hx)
  unfold Move.apply Move.calls Store.guardResult
  dsimp only
  cases ht : s.settle p c e creation with
  | mk result t =>
    rw [ht] at hg htrace
    have hnone : t.Guarded ∧ ∀ x ∈ s.settleCalls p c e creation ++ [], x.2.TakesBack x.1 :=
      ⟨h.trace htrace (hg ▸ .refl _) hcalls, (List.append_nil _).symm ▸ htakes⟩
    cases result with
    | error f => exact hnone
    | ok created? =>
      cases created? with
      | none => exact hnone
      | some i =>
        obtain ⟨v, hgrants, hreg⟩ := settle_grants ht
        have hout := h.handOut hgrants hreg rfl hg
        obtain ⟨hguarded, hput⟩ := putGuard (g := { pool := p, entry := i }) hout c name
        refine ⟨hguarded, fun x hx => ?_⟩
        rcases List.mem_append.mp hx with hx | hx
        · exact htakes x hx
        · exact hput x hx

theorem dropGuard (h : s.Guarded) : (Move.apply s (.dropGuard c name)).Guarded ∧
    ∀ x ∈ Move.calls s (.dropGuard c name), x.2.TakesBack x.1 := by
  unfold Move.apply Move.calls
  dsimp only
  cases hg : s.guard? name with
  | none => exact ⟨h, fun x hx => absurd hx List.not_mem_nil⟩
  | some g =>
    have hu : (s.endGuard name).registry = s.registry := rfl
    obtain ⟨hrest, htakes⟩ := ((h.subperm (subperm_endGuard hg)).of_registry hu).giveBack c
    have hguards : (s.dropGuard c name g).guards = (s.endGuard name).guards :=
      ((s.endGuard name).frame_giveBack c g).guards
    refine ⟨?_, fun x hx => List.mem_singleton.mp hx ▸ htakes⟩
    change (s.dropGuard c name g).Guarded
    unfold Guarded
    rw [hguards]
    exact hrest

/-- Every call but a release keeps guarded what guards hold, and the guards that it ends give their entries
back without a fault. -/
theorem apply (h : s.Guarded) (m : Move α) (hm : unreleased s m) :
    (m.apply s).Guarded ∧ ∀ x ∈ m.calls s, x.2.TakesBack x.1 := by
  have hother : m.mayRelease = false → m.isLeasing = false →
      (m.apply s).Guarded ∧ ∀ x ∈ m.calls s, x.2.TakesBack x.1 := by
    intro hr hl
    have hc : ∀ x ∈ m.calls s, ∀ e, ¬ x.2.Returns e := fun x hx => Move.not_returns hr hx
    exact ⟨h.trace (m.trace s) (Move.guards_sublist hl) hc,
      fun x hx => Move.takesBack_of_not_returns (hc x hx)⟩
  cases m with
  | release => exact hm.elim
  | lease direct p c name => exact h.lease direct
  | settleLease p c name e creation => exact h.settleLease e creation
  | dropGuard c name => exact h.dropGuard
  | _ => exact hother rfl rfl

end Store.Guarded

/-! ### Nothing fails -/

namespace Store

variable {s t : Store α} {p : PoolId}

theorem Frame.failures {noted : Event α → Prop} (h : Frame noted p s t)
    (hn : ∀ x, noted x → x.Faultless) : t.failures = s.failures := by
  obtain ⟨xs, hxs, hnoted⟩ := h.events
  have hnone : xs.filterMap Event.failure? = [] :=
    List.filterMap_eq_nil_iff.mpr fun x hx => hn x (hnoted x hx)
  rw [Store.failures, hxs, List.filterMap_append, hnone, List.append_nil, Store.failures]

theorem Frame.failures_of_quiet (h : Frame Event.Quiet p s t) : t.failures = s.failures :=
  h.failures fun _ hx => hx.2

theorem failures_giveBack {c : CallerId} {g : Guard}
    (h : (s.giveBackCall c g).2.TakesBack (s.giveBackCall c g).1) :
    (s.giveBack c g).failures = s.failures := by
  have hanswer : ∀ f, (s.trackedRelease g.direct g.pool c g.entry).1 ≠ .error f := by
    intro f hf
    exact absurd (hf.symm.trans h) (by simp)
  have hr := (s.frame_trackedRelease g.pool g.direct c g.entry).failures_of_quiet
  unfold giveBack
  split
  · next t ht =>
    rw [ht] at hr
    exact hr
  · next f t ht => exact absurd (congrArg Prod.fst ht) (hanswer f)

theorem failures_putGuard {c : CallerId} {name : String} {g : Guard}
    (h : ∀ x ∈ s.putGuardCalls c name g, x.2.TakesBack x.1) :
    (s.putGuard c name g).failures = s.failures := by
  unfold putGuardCalls at h
  unfold putGuard
  dsimp only
  cases hold : s.guard? name with
  | none => rfl
  | some old =>
    rw [hold] at h
    exact failures_giveBack (h _ (List.mem_singleton_self _))

end Store

namespace Move

variable {s : Store α} {m : Move α}

theorem failures_of_inert (hm : m.isInert = true) : (m.apply s).failures = s.failures := by
  have hhold : ∀ e, (s.hold e).failures = s.failures := by
    intro e
    unfold Store.hold
    split_ifs <;> rfl
  cases m with
  | forget | enter | unhold | unholdAll | wait | readLog => rfl
  | hold e => exact hhold e
  | leave caller =>
    unfold apply
    dsimp only
    cases s.callers.leave? caller <;> rfl
  | detach name =>
    unfold apply
    dsimp only
    cases s.guard? name with
    | none => rfl
    | some g => exact hhold g.entry
  | sweep p =>
    unfold apply
    dsimp only
    cases (s.pool p).tracker? <;> rfl
  | clearTracking p =>
    unfold apply
    dsimp only
    cases (s.pool p).tracker? <;> rfl
  | checkLeaks p =>
    unfold apply
    dsimp only
    cases (s.pool p).tracker? with
    | none => rfl
    | some x => exact (s.frame_checkLeaks p x).failures_of_quiet
  | _ => simp [isInert] at hm

/-- No fault is met with where all releases are answered without one. -/
theorem failures_apply (h : ∀ x ∈ m.calls s, x.2.TakesBack x.1) :
    (m.apply s).failures = s.failures := by
  cases m with
  | create => rfl
  | reserve p => exact (s.frame_reserve p).failures_of_quiet
  | enable e v atOnce => exact (s.frame_enable 0 e v atOnce).failures_of_quiet
  | acquire direct p c => exact (s.frame_trackedAcquire p direct c).failures_of_quiet
  | settle direct p c e creation =>
    have hs := (s.frame_settle p c e creation).failures_of_quiet
    exact (Store.frame_observeResult _ direct p _).failures_of_quiet.trans hs
  | release direct p c e => exact (s.frame_trackedRelease p direct c e).failures_of_quiet
  | remove direct p e => exact (s.frame_trackedRemove p direct e).failures_of_quiet
  | close p => exact (s.frame_close p).failures fun _ hx => hx
  | lease direct p c name =>
    have ha := (s.frame_trackedAcquire p direct c).failures_of_quiet
    unfold calls at h
    unfold apply Store.lease
    dsimp only at h ⊢
    cases ht : s.trackedAcquire direct p c with
    | mk found t =>
      rw [ht] at h ha
      cases found with
      | none => exact ha
      | some e => exact (Store.failures_putGuard fun x hx => h x (List.mem_cons_of_mem _ hx)).trans ha
  | settleLease p c name e creation =>
    have hs := (s.frame_settle p c e creation).failures_of_quiet
    unfold calls at h
    unfold apply Store.guardResult
    dsimp only at h ⊢
    cases ht : s.settle p c e creation with
    | mk result t =>
      rw [ht] at h hs
      dsimp only
      split
      · exact (Store.failures_putGuard fun x hx => h x (List.mem_append_right _ hx)).trans hs
      · exact hs
  | dropGuard c name =>
    unfold calls at h
    unfold apply
    dsimp only at h ⊢
    cases hg : s.guard? name with
    | none => rfl
    | some g =>
      rw [hg] at h
      exact Store.failures_giveBack (s := s.endGuard name) (h _ (List.mem_singleton_self _))
  | removeGuarded name =>
    unfold apply
    dsimp only
    cases s.guard? name with
    | none => rfl
    | some g => exact ((s.endGuard name).frame_trackedRemove g.pool g.direct g.entry).failures_of_quiet
  | _ => exact failures_of_inert rfl

end Move

theorem History.guarded {draws : List Nat} {s : Store α} {calls : List (Called α)}
    (h : History unreleased (.blank draws) calls s) :
    s.Guarded ∧ (∀ x ∈ calls, x.2.TakesBack x.1) ∧ s.failures = [] := by
  induction h with
  | start =>
    exact ⟨⟨List.nodup_nil, fun _ he => absurd he List.not_mem_nil⟩,
      fun _ hx => absurd hx List.not_mem_nil, rfl⟩
  | move _ m _ ok ih =>
    obtain ⟨hguarded, htakes, hnone⟩ := ih
    obtain ⟨hguarded', htakes'⟩ := hguarded.apply m ok
    refine ⟨hguarded', fun x hx => ?_, (Move.failures_apply htakes').trans hnone⟩
    rcases List.mem_append.mp hx with hx | hx
    · exact htakes x hx
    · exact htakes' x hx

/-- As long as clients make any calls but releases, and entries come back by the ends of guards alone, guards
hold distinct entries, each in use or closed. A guard's end is answered yes if its entry is in use and its
pool open, and else no, so no guard ever fails to give its entry back. -/
theorem guards_give_back {draws : List Nat} {s : Store α} {calls : List (Called α)}
    (h : History unreleased (.blank draws) calls s) :
    (s.guards.map (·.2.entry)).Nodup ∧
    (∀ x ∈ s.guards, s.state x.2.entry = .active ∨ s.Gone x.2.entry) ∧
    (∀ u p c e, (u, .release p c e) ∈ calls →
      (u.release p c e).1 = .ok (decide (u.state e = .active ∧ (u.pool p).closed = false))) ∧
    ∀ p fault, .guardFailed p fault ∉ s.events := by
  obtain ⟨hguarded, htakes, hnone⟩ := h.guarded
  refine ⟨hguarded.apart, fun x hx => ?_, fun u p c e hx => htakes _ hx, fun p fault hx => ?_⟩
  · exact hguarded.held x.2.entry (List.mem_map_of_mem hx)
  · have hfault : fault ∈ s.failures := List.mem_filterMap.mpr ⟨_, hx, rfl⟩
    rw [hnone] at hfault
    exact absurd hfault List.not_mem_nil

/-- Two guards lose their entries, to a removal through the other pool and to the closing of their own. The
third gives its entry back, which goes to a guard of another caller. -/
theorem guards_give_back_closed_meanwhile :
    let ms : List (Move Nat) := [.create "p" { cached := true } none, .create "q" {} (some .default),
      .reserve 0, .reserve 0, .reserve 1, .enable 0 7 false, .enable 1 8 false, .enable 2 9 false,
      .lease true 0 0 "a", .lease true 0 0 "b", .lease false 1 0 "c", .remove true 1 0, .close 1,
      .dropGuard 0 "a", .dropGuard 0 "b", .dropGuard 0 "c", .lease true 0 1 "d", .lease true 0 1 "e"]
    let s := ms.foldl Move.apply (.blank [])
    let calls := Move.trail (.blank []) ms
    History unreleased (.blank []) calls s ∧
      calls.filterMap (fun x => match x with
        | (u, .release p _ e) => some (e, u.state e, (u.pool p).closed)
        | _ => none) = [(0, .closed, false), (1, .active, false), (2, .closed, true)] ∧
      (∀ u p c e, (u, .release p c e) ∈ calls →
        (u.release p c e).1 = .ok (decide (u.state e = .active ∧ (u.pool p).closed = false))) ∧
      s.guards.map (fun x => (x.1, x.2.entry)) = [("d", 1)] ∧
      (∀ x ∈ s.guards, s.state x.2.entry = .active ∨ s.Gone x.2.entry) ∧
      ∀ p fault, .guardFailed p fault ∉ s.events := by
  intro ms s calls
  have hh : History unreleased (.blank []) calls s := .of_along _ ms (by decide +kernel)
  obtain ⟨-, hheld, htakes, hnone⟩ := guards_give_back hh
  exact ⟨hh, by decide +kernel, htakes, by decide +kernel, hheld, hnone⟩

end ResourcePool
