import ResourcePool.Proofs.Guards
import ResourcePool.Proofs.Renumbering
import ResourcePool.Proofs.Values

/-! Extant entries: handles, guards and trackers are of entries that were reserved, if nobody takes a handle on
one that was not and no detector comes with one. -/
namespace ResourcePool
open Registry

variable {α : Type}

/-- Calls about entries that exist: a handle is taken on one, and a detector comes with no other. -/
def tidy (s : Store α) : Move α → Prop
  | .create _ _ detector? => ∀ d, detector? = some d → d.Apt s.entries.size
  | .hold e => e < s.entries.size
  | _ => True

instance (s : Store α) : (m : Move α) → Decidable (tidy s m)
  | .create _ _ detector? => inferInstanceAs (Decidable (∀ d ∈ detector?, d.Apt s.entries.size))
  | .hold e => inferInstanceAs (Decidable (e < s.entries.size))
  | .forget _ | .enter _ | .leave _ | .reserve _ | .enable .. | .acquire .. | .settle .. | .release ..
  | .remove .. | .close _ | .lease .. | .settleLease .. | .dropGuard .. | .removeGuarded _ | .detach _
  | .unhold _ | .unholdAll | .sweep _ | .checkLeaks _ | .clearTracking _ | .wait _ | .readLog =>
    isTrue trivial

/-- What is granted something exists. -/
theorem Call.lt_size_of_granted? {s : Store α} {d : Call α} {e : EntryId} {r : Entry.Request α}
    (h : d.granted? s = some (e, r)) : e < s.entries.size := by
  have hc := d.change s
  generalize (d.apply s).registry = w at hc
  cases hc with
  | serve answer grants _ =>
    obtain ⟨rfl, rfl⟩ := Prod.mk.inj (Option.some.inj (answer.symm.trans h))
    exact Store.lt_size_of_grants grants
  | refuse refused =>
    rw [refused.granted?] at h
    exact nomatch h
  | _ => exact nomatch h

/-! ### Handles -/

namespace Store

theorem hold_eq (s : Store α) (e : EntryId) : s.hold e = { s with handles := (s.hold e).handles } := by
  unfold hold
  split_ifs <;> rfl

theorem mem_hold (s : Store α) (e i : EntryId) : i ∈ (s.hold e).handles ↔ i ∈ s.handles ∨ i = e := by
  unfold hold
  split_ifs with he
  · have hmem : e ∈ s.handles := List.contains_iff_mem.mp he
    refine (or_iff_left_of_imp ?_).symm
    rintro rfl
    exact hmem
  · exact List.mem_append.trans (or_congr_right List.mem_singleton)

theorem mem_unhold (s : Store α) (e i : EntryId) : i ∈ (s.unhold e).handles ↔ i ∈ s.handles ∧ i ≠ e := by
  unfold unhold
  simp [List.mem_filter]

theorem handles_putGuard (s : Store α) (c : CallerId) (name : String) (g : Guard) :
    (s.putGuard c name g).handles = s.handles := by
  unfold putGuard
  dsimp only
  split
  · exact (frame_giveBack _ c _).handles
  · rfl

end Store

/-- A handle that is there after a call was there before, or the call took it, on an entry or for a guard. -/
theorem Move.mem_handles {s : Store α} {m : Move α} {e : EntryId} (h : e ∈ (m.apply s).handles) :
    e ∈ s.handles ∨ m = .hold e ∨ ∃ name g, s.guard? name = some g ∧ g.entry = e := by
  have hsame : ∀ {t : Store α}, t.handles = s.handles → e ∈ t.handles → e ∈ s.handles :=
    fun ht he => ht ▸ he
  cases m with
  | create | forget | enter | wait | readLog => exact .inl h
  | reserve p => exact .inl (hsame (s.frame_reserve p).handles h)
  | enable i v atOnce => exact .inl (hsame (s.frame_enable 0 i v atOnce).handles h)
  | acquire direct p c => exact .inl (hsame (s.frame_trackedAcquire p direct c).handles h)
  | settle direct p c i creation =>
    have hs := (s.frame_settle p c i creation).handles
    exact .inl (hsame ((Store.frame_observeResult _ direct p _).handles.trans hs) h)
  | release direct p c i => exact .inl (hsame (s.frame_trackedRelease p direct c i).handles h)
  | remove direct p i => exact .inl (hsame (s.frame_trackedRemove p direct i).handles h)
  | close p => exact .inl (hsame (s.frame_close p).handles h)
  | lease direct p c name =>
    have ha := (s.frame_trackedAcquire p direct c).handles
    change e ∈ (s.lease direct p c name).2.handles at h
    unfold Store.lease at h
    split at h
    · next t ht =>
      rw [ht] at ha
      exact .inl (hsame ((t.handles_putGuard c name _).trans ha) h)
    · next t ht =>
      rw [ht] at ha
      exact .inl (hsame ha h)
  | settleLease p c name i creation =>
    have hs := (s.frame_settle p c i creation).handles
    change e ∈ (Store.guardResult (s.settle p c i creation).2 p c name _).handles at h
    unfold Store.guardResult at h
    split at h
    · exact .inl (hsame ((Store.handles_putGuard _ c name _).trans hs) h)
    · exact .inl (hsame hs h)
  | dropGuard c name =>
    change e ∈ ((s.guard? name).elim s (s.dropGuard c name)).handles at h
    cases hg : s.guard? name with
    | none =>
      rw [hg] at h
      exact .inl h
    | some g =>
      rw [hg] at h
      exact .inl (hsame ((s.endGuard name).frame_giveBack c g).handles h)
  | removeGuarded name =>
    change e ∈ ((s.guard? name).elim s fun g => (s.removeGuarded name g).2).handles at h
    cases hg : s.guard? name with
    | none =>
      rw [hg] at h
      exact .inl h
    | some g =>
      rw [hg] at h
      exact .inl (hsame ((s.endGuard name).frame_trackedRemove g.pool g.direct g.entry).handles h)
  | hold i =>
    rcases (s.mem_hold i e).mp h with h | rfl
    · exact .inl h
    · exact .inr (.inl rfl)
  | unhold i => exact .inl ((s.mem_unhold i e).mp h).1
  | unholdAll => exact absurd h List.not_mem_nil
  | detach name =>
    change e ∈ ((s.guard? name).elim s (s.detach name)).handles at h
    cases hg : s.guard? name with
    | none =>
      rw [hg] at h
      exact .inl h
    | some g =>
      rw [hg] at h
      rcases (s.mem_hold g.entry e).mp h with h | rfl
      · exact .inl h
      · exact .inr (.inr ⟨name, g, hg, rfl⟩)
  | leave caller =>
    unfold apply at h
    dsimp only at h
    cases hc : s.callers.leave? caller <;> rw [hc] at h <;> exact .inl h
  | sweep p =>
    unfold apply at h
    dsimp only at h
    cases hx : (s.pool p).tracker? <;> rw [hx] at h <;> exact .inl h
  | clearTracking p =>
    unfold apply at h
    dsimp only at h
    cases hx : (s.pool p).tracker? <;> rw [hx] at h <;> exact .inl h
  | checkLeaks p =>
    unfold apply at h
    dsimp only at h
    cases hx : (s.pool p).tracker? with
    | none =>
      rw [hx] at h
      exact .inl h
    | some x =>
      rw [hx] at h
      exact .inl (hsame (s.frame_checkLeaks p x).handles h)

/-! ### Trackers -/

namespace Store

/-- Trackers are of entries that exist. -/
def Apt (s : Store α) : Prop :=
  ∀ p x, (s.pool p).tracker? = some x → x.detector.Apt s.entries.size

namespace Apt

variable {s : Store α} {p : PoolId} {e : EntryId}

theorem setTracker (h : s.Apt) {x : Tracker} (hx : x.detector.Apt s.entries.size) :
    (s.setTracker p x).Apt := by
  intro q y hy
  unfold Store.setTracker at hy
  rw [pool_modifyPool] at hy
  split_ifs at hy
  · exact Option.some.inj hy ▸ hx
  · exact h q y hy

/-- A call keeps what trackers know, if a pool that it creates comes with a detector of entries that exist. -/
theorem apply (h : s.Apt) (d : Call α)
    (hd : ∀ name settings x, d = .create name settings (some x) → x.Apt s.entries.size) : (d.apply s).Apt := by
  intro q y hy
  refine Detector.Apt.mono ?_ (d.extends s).size
  by_cases hnew : ∃ name settings detector?, d = .create name settings detector? ∧ q = s.pools.size
  · obtain ⟨name, settings, detector?, rfl, rfl⟩ := hnew
    change ((s.create name settings detector?).2.pool _).tracker? = some y at hy
    rw [s.pool_create, if_pos rfl] at hy
    obtain ⟨x, rfl, rfl⟩ := Option.map_eq_some_iff.mp hy
    exact hd name settings x rfl
  · refine h q y ?_
    rw [← hy]
    exact (d.pool_keeps (fun x : Pool α => x.tracker?) (fun _ _ => rfl) (fun _ _ => rfl) (fun _ _ => rfl)
      (fun _ _ => rfl) (fun _ _ _ _ => rfl) fun name settings detector? hc hq =>
        hnew ⟨name, settings, detector?, hc, hq⟩).symm

theorem observeAcquire (h : s.Apt) (he : e < s.entries.size) : (s.observeAcquire p e).Apt := by
  unfold Store.observeAcquire
  cases hx : (s.pool p).tracker? with
  | none => exact h
  | some x =>
    have hapt := (h p x hx).acquired he s.now
    dsimp only
    split
    · next d hd =>
      rw [hd] at hapt
      exact h.setTracker hapt
    · next d hd =>
      rw [hd] at hapt
      exact h.setTracker (p := p) (x := { x with detector := d, acquires := x.acquires + 1 }) hapt

theorem observeRelease (h : s.Apt) (e : EntryId) : (s.observeRelease p e).Apt := by
  unfold Store.observeRelease
  cases hx : (s.pool p).tracker? with
  | none => exact h
  | some x =>
    have hapt := (h p x hx).released e
    dsimp only
    split
    · next d hd =>
      rw [hd] at hapt
      exact h.setTracker hapt
    · next d hd =>
      rw [hd] at hapt
      exact h.setTracker (p := p) (x := { x with detector := d, releases := x.releases + 1 }) hapt

theorem observeRemoval (h : s.Apt) (e : EntryId) : (s.observeRemoval p e).Apt := by
  unfold Store.observeRemoval
  cases hx : (s.pool p).tracker? with
  | none => exact h
  | some x =>
    have hapt := (h p x hx).released e
    dsimp only
    split
    · next d hd =>
      rw [hd] at hapt
      exact h.setTracker hapt
    · next d hd =>
      rw [hd] at hapt
      exact h.setTracker (p := p) (x := { x with detector := d, removes := x.removes + 1 }) hapt

theorem trackedAcquire (h : s.Apt) (direct : Bool) (c : CallerId) : (s.trackedAcquire direct p c).2.Apt := by
  have ha : (s.acquire p c).2.Apt := h.apply (.acquire p c) fun _ _ _ hc => nomatch hc
  unfold Store.trackedAcquire
  cases ht : s.acquire p c with
  | mk found t =>
    have hsize := ((Call.acquire p c).extends s).size
    change s.entries.size ≤ (s.acquire p c).2.entries.size at hsize
    rw [ht] at ha hsize
    cases found with
    | none => exact ha
    | some e =>
      have hg := acquire_of_some (congrArg Prod.fst ht)
      have he : e < t.entries.size := Nat.lt_of_lt_of_le (lt_size_of_grants hg.1) hsize
      cases direct with
      | true => exact ha
      | false => exact ha.observeAcquire he

theorem trackedRelease (h : s.Apt) (direct : Bool) (c : CallerId) (e : EntryId) :
    (s.trackedRelease direct p c e).2.Apt := by
  have htold : (if direct then s else s.observeRelease p e).Apt := by
    split_ifs
    · exact h
    · exact h.observeRelease e
  exact htold.apply (.release p c e) fun _ _ _ hc => nomatch hc

theorem trackedRemove (h : s.Apt) (direct : Bool) (e : EntryId) : (s.trackedRemove direct p e).2.Apt := by
  have htold : (if direct then s else s.observeRemoval p e).Apt := by
    split_ifs
    · exact h
    · exact h.observeRemoval e
  exact htold.apply (.remove p e) fun _ _ _ hc => nomatch hc

theorem giveBack (h : s.Apt) (c : CallerId) (g : Guard) : (s.giveBack c g).Apt := by
  have hr := h.trackedRelease (p := g.pool) g.direct c g.entry
  unfold Store.giveBack
  split
  · next t ht =>
    rw [ht] at hr
    exact hr
  · next t ht =>
    rw [ht] at hr
    exact hr

theorem putGuard {g : Guard} (h : s.Apt) (c : CallerId) (name : String) : (s.putGuard c name g).Apt := by
  have hstored : { s.endGuard name with guards := (name, g) :: (s.endGuard name).guards }.Apt := h
  unfold Store.putGuard
  dsimp only
  split
  · exact hstored.giveBack c _
  · exact hstored

theorem lease (h : s.Apt) (direct : Bool) (c : CallerId) (name : String) : (s.lease direct p c name).2.Apt := by
  have ha := h.trackedAcquire (p := p) direct c
  unfold Store.lease
  split
  · next e t ht =>
    rw [ht] at ha
    exact ha.putGuard c name
  · next t ht =>
    rw [ht] at ha
    exact ha

theorem settle (h : s.Apt) (c : CallerId) (e : EntryId) (creation : Creation α) :
    (s.settle p c e creation).2.Apt := by
  have hremove : (s.remove p e).2.Apt := h.apply (.remove p e) fun _ _ _ hc => nomatch hc
  cases creation with
  | value v => exact h.apply (.fulfil p c e v) fun _ _ _ hc => nomatch hc
  | nothing => exact hremove
  | refused reason => exact hremove
  | panicked => exact h

/-- What a creation ends with exists. -/
theorem observeResult (h : s.Apt) (direct : Bool) (c : CallerId) (e : EntryId) (creation : Creation α) :
    ((s.settle p c e creation).2.observeResult direct p (s.settle p c e creation).1).Apt := by
  have hs := h.settle (p := p) c e creation
  have hpath : Path (fun _ _ => True) s.registry (s.settle p c e creation).2.registry :=
    s.settle_path p c e creation fun _ _ _ => trivial
  have hext := hpath.extends.size
  unfold Store.observeResult
  split
  · next x hx =>
    obtain ⟨v, -, hg⟩ := granted?_of_settle hx
    have hlt := Nat.lt_of_lt_of_le (Call.lt_size_of_granted? hg) hext
    split_ifs
    · exact hs
    · exact hs.observeAcquire hlt
  · exact hs

theorem checkLeaks (h : s.Apt) {x : Tracker} (hx : (s.pool p).tracker? = some x) :
    (s.checkLeaks p x).2.Apt := by
  have hapt := (h p x hx).sweep s.now
  have hset := h.setTracker (p := p) (x := { x with
    detector := (x.detector.sweep s.now).2
    resources := x.resources + (x.detector.sweep s.now).1.length }) hapt
  have hsize := congrArg Registry.size (s.registry_checkLeaks p x)
  intro q y hy
  rw [pool, pools_checkLeaks] at hy
  exact (hset q y hy).mono hsize.ge

end Apt

/-- Handles, guards and trackers are of entries that exist. -/
structure Extant (s : Store α) : Prop where
  held : ∀ e ∈ s.handles, e < s.entries.size
  leased : ∀ x ∈ s.guards, x.2.entry < s.entries.size
  tracked : s.Apt

end Store

/-- Entries stay. -/
theorem Move.size_le (s : Store α) (m : Move α) : s.entries.size ≤ (m.apply s).entries.size := by
  have hpath : Path (fun _ _ => True) s.registry (m.apply s).registry := m.path s fun _ _ _ _ _ => trivial
  exact hpath.extends.size

/-- What trackers know is of entries that exist after every call about such entries. -/
theorem Move.apt_apply {s : Store α} (h : s.Apt) (m : Move α) (ok : tidy s m) : (m.apply s).Apt := by
  have hcall : ∀ d : Call α, (∀ name settings x, d ≠ .create name settings (some x)) → (d.apply s).Apt :=
    fun d hd => h.apply d fun name settings x hx => absurd hx (hd name settings x)
  cases m with
  | create name settings detector? =>
    refine h.apply (.create name settings detector?) fun _ _ x hx => ?_
    obtain ⟨-, -, rfl⟩ := Call.create.inj hx
    exact ok x rfl
  | reserve p => exact hcall (.reserve p) fun _ _ _ hx => nomatch hx
  | enable e v atOnce => exact hcall (.enable e v atOnce) fun _ _ _ hx => nomatch hx
  | close p => exact hcall (.close p) fun _ _ _ hx => nomatch hx
  | acquire direct p c => exact h.trackedAcquire direct c
  | settle direct p c e creation => exact h.observeResult direct c e creation
  | release direct p c e => exact h.trackedRelease direct c e
  | remove direct p e => exact h.trackedRemove direct e
  | lease direct p c name => exact h.lease direct c name
  | settleLease p c name e creation =>
    have hs := h.settle (p := p) c e creation
    unfold apply Store.guardResult
    dsimp only
    split
    · exact hs.putGuard c name
    · exact hs
  | dropGuard c name =>
    unfold apply
    dsimp only
    cases s.guard? name with
    | none => exact h
    | some g => exact Store.Apt.giveBack (s := s.endGuard name) h c g
  | removeGuarded name =>
    unfold apply
    dsimp only
    cases s.guard? name with
    | none => exact h
    | some g => exact Store.Apt.trackedRemove (s := s.endGuard name) h g.direct g.entry
  | detach name =>
    unfold apply
    dsimp only
    cases s.guard? name with
    | none => exact h
    | some g =>
      change ((s.hold g.entry).endGuard name).Apt
      rw [s.hold_eq]
      exact h
  | hold e =>
    change (s.hold e).Apt
    rw [s.hold_eq]
    exact h
  | forget | enter | unhold | unholdAll | wait | readLog => exact h
  | leave caller =>
    unfold apply
    dsimp only
    cases s.callers.leave? caller <;> exact h
  | sweep p =>
    unfold apply
    dsimp only
    cases hx : (s.pool p).tracker? with
    | none => exact h
    | some x => exact h.setTracker (x := { x with detector := _ }) ((h p x hx).sweep s.now)
  | clearTracking p =>
    unfold apply
    dsimp only
    cases hx : (s.pool p).tracker? with
    | none => exact h
    | some x => exact h.setTracker (x := x.clear) (h p x hx)
  | checkLeaks p =>
    unfold apply
    dsimp only
    cases hx : (s.pool p).tracker? with
    | none => exact h
    | some x => exact h.checkLeaks hx

namespace Store.Extant

variable {s : Store α}

theorem blank (draws : List Nat) : (Store.blank draws : Store α).Extant where
  held _ he := absurd he List.not_mem_nil
  leased _ hx := absurd hx List.not_mem_nil
  tracked _ _ hx := nomatch hx

theorem apply (h : s.Extant) (m : Move α) (ok : tidy s m) : (m.apply s).Extant where
  held e he := by
    refine Nat.lt_of_lt_of_le ?_ (m.size_le s)
    rcases Move.mem_handles he with he | rfl | ⟨name, g, hg, rfl⟩
    · exact h.held e he
    · exact ok
    · exact h.leased (name, g) (mem_guards_of_guard? hg)
  leased x hx := by
    refine Nat.lt_of_lt_of_le ?_ (m.size_le s)
    rcases Move.mem_guards hx with hx | ⟨d, r, -, -, hg, -⟩
    · exact h.leased x hx
    · exact Call.lt_size_of_granted? hg
  tracked := Move.apt_apply h.tracked m ok

end Store.Extant

theorem Run.extant {draws : List Nat} {s : Store α} (h : Run tidy (.blank draws) s) : s.Extant := by
  induction h with
  | refl => exact .blank draws
  | step _ m _ ok ih => exact ih.apply m ok

end ResourcePool
