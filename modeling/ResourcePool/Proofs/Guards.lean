import ResourcePool.Proofs.History.Change

/-! Guards: calls on entries and pools leave them alone, and one is stored only over an entry that the same
call of the client handed out. -/
namespace ResourcePool

variable {α : Type}

namespace Store

variable {s t : Store α}

theorem frame_observeResult (s : Store α) (direct : Bool) (p : PoolId)
    (result : Except CreationError (Option EntryId)) :
    Frame Event.Quiet p s (s.observeResult direct p result) := by
  unfold observeResult
  split
  · split_ifs
    · exact .refl s
    · exact s.frame_observeAcquire p _
  · exact .refl s

theorem mem_guards_of_guard? {name : String} {g : Guard} (h : s.guard? name = some g) :
    (name, g) ∈ s.guards := by
  obtain ⟨before, after, hs, -⟩ := List.lookup_eq_some_iff.mp h
  rw [hs]
  simp

theorem guards_putGuard (s : Store α) (c : CallerId) (name : String) (g : Guard) :
    (s.putGuard c name g).guards = (name, g) :: s.guards.filter (·.1 != name) := by
  unfold putGuard
  dsimp only
  split
  · exact (frame_giveBack _ c _).guards
  · rfl

theorem mem_guards_putGuard {c : CallerId} {name : String} {g : Guard} {x : String × Guard}
    (h : x ∈ (s.putGuard c name g).guards) : x.2 = g ∨ x ∈ s.guards := by
  rw [guards_putGuard] at h
  rcases List.mem_cons.mp h with rfl | h
  · exact .inl rfl
  · exact .inr (List.mem_of_mem_filter h)

/-- What a creation hands out, it hands out by fulfilling. -/
theorem granted?_of_settle {p : PoolId} {c : CallerId} {e x : EntryId} {creation : Creation α}
    (h : (s.settle p c e creation).1 = .ok (some x)) : ∃ v, creation = .value v ∧
      (Call.fulfil p c e v).granted? s = some (x, .enable v true) := by
  cases creation with
  | value v =>
    by_cases hg : (s.entry e).Grants (.enable v true)
    · have ha := (settle_of_grants (p := p) (c := c) hg).1
      obtain rfl : e = x := by simpa using ha.symm.trans h
      exact ⟨v, rfl, if_pos ha⟩
    · exact absurd h ((settle_of_not_grants hg).1 x)
  | nothing => simp [settle] at h
  | refused reason => simp [settle] at h
  | panicked => simp [settle] at h

end Store

theorem Store.guards_hold (s : Store α) (e : EntryId) : (s.hold e).guards = s.guards := by
  unfold Store.hold
  split_ifs <;> rfl

theorem Store.filter_of_guard?_none {s : Store α} {name : String} (h : s.guard? name = none) :
    s.guards.filter (·.1 != name) = s.guards := by
  refine List.filter_eq_self.mpr fun x hx => ?_
  have hname := List.lookup_eq_none_iff.mp h x hx
  rwa [bne_comm]

/-- Whether a call stores a guard over what it hands out. -/
def Move.isLeasing : Move α → Bool
  | lease .. | settleLease .. => true
  | _ => false

/-- The name of the guard that a call ends without storing another. -/
def Move.ended? : Move α → Option String
  | dropGuard _ name | removeGuarded name | detach name => some name
  | _ => none

/-- All other calls leave the guards alone. -/
theorem Move.guards_apply {s : Store α} {m : Move α} (hl : m.isLeasing = false)
    (he : m.ended? = none) : (m.apply s).guards = s.guards := by
  cases m with
  | create | forget | enter | unhold | unholdAll | wait | readLog => rfl
  | reserve p => exact (s.frame_reserve p).guards
  | enable e v atOnce => exact (s.frame_enable 0 e v atOnce).guards
  | acquire direct p c => exact (s.frame_trackedAcquire p direct c).guards
  | settle direct p c e creation =>
    have hs := (s.frame_settle p c e creation).guards
    exact (Store.frame_observeResult _ direct p _).guards.trans hs
  | release direct p c e => exact (s.frame_trackedRelease p direct c e).guards
  | remove direct p e => exact (s.frame_trackedRemove p direct e).guards
  | close p => exact (s.frame_close p).guards
  | hold e => exact s.guards_hold e
  | leave caller =>
    unfold apply
    dsimp only
    cases s.callers.leave? caller <;> rfl
  | sweep p =>
    unfold apply
    dsimp only
    cases (s.pool p).tracker? <;> rfl
  | clearTracking p =>
    unfold apply
    dsimp only
    cases (s.pool p).tracker? <;> rfl
  | checkLeaks p =>
    unfold apply
    dsimp only
    cases (s.pool p).tracker? with
    | none => rfl
    | some x => exact (s.frame_checkLeaks p x).guards
  | lease | settleLease => simp [isLeasing] at hl
  | dropGuard | removeGuarded | detach => simp [ended?] at he

theorem Move.guards_of_ended {s : Store α} {m : Move α} {name : String} (hm : m.ended? = some name) :
    (m.apply s).guards = s.guards.filter (·.1 != name) := by
  have hnone : s.guard? name = none → s.guards = s.guards.filter (·.1 != name) :=
    fun h => (Store.filter_of_guard?_none h).symm
  cases m with
  | dropGuard c guard =>
    obtain rfl : guard = name := Option.some.inj hm
    change ((s.guard? guard).elim s (s.dropGuard c guard)).guards = _
    cases hg : s.guard? guard with
    | none => exact hnone hg
    | some g => exact ((s.endGuard guard).frame_giveBack c g).guards
  | removeGuarded guard =>
    obtain rfl : guard = name := Option.some.inj hm
    change ((s.guard? guard).elim s fun g => (s.removeGuarded guard g).2).guards = _
    cases hg : s.guard? guard with
    | none => exact hnone hg
    | some g => exact ((s.endGuard guard).frame_trackedRemove g.pool g.direct g.entry).guards
  | detach guard =>
    obtain rfl : guard = name := Option.some.inj hm
    change ((s.guard? guard).elim s (s.detach guard)).guards = _
    cases hg : s.guard? guard with
    | none => exact hnone hg
    | some g =>
      change ((s.hold g.entry).guards.filter (·.1 != guard)) = _
      rw [s.guards_hold]
  | _ => simp [ended?] at hm

/-- Calls that store no guard. -/
theorem Move.guards_sublist {s : Store α} {m : Move α} (hm : m.isLeasing = false) :
    (m.apply s).guards.Sublist s.guards := by
  cases he : m.ended? with
  | none => rw [guards_apply hm he]
  | some name =>
    rw [guards_of_ended he]
    exact List.filter_sublist

/-- A guard that is there after a call was there before, or this call stored it over an entry that it
handed out. -/
theorem Move.mem_guards {s : Store α} {m : Move α} {x : String × Guard}
    (h : x ∈ (m.apply s).guards) : x ∈ s.guards ∨ ∃ c r, (s, c) ∈ m.calls s ∧
      c.site? s = some x.2.pool ∧ c.granted? s = some (x.2.entry, r) ∧ r.target = .active := by
  cases m with
  | lease direct p c name =>
    have ha := (s.frame_trackedAcquire p direct c).guards
    have hfst := s.trackedAcquire_fst direct p c
    change x ∈ (s.lease direct p c name).2.guards at h
    unfold Store.lease at h
    cases ht : s.trackedAcquire direct p c with
    | mk found t =>
      rw [ht] at ha hfst h
      cases found with
      | none => exact .inl (ha ▸ h)
      | some e =>
        rcases Store.mem_guards_putGuard h with hx | hx
        · have hg : (Call.acquire p c).granted? s = some (e, .acquire) := by
            simp [Call.granted?, ← hfst]
          rw [hx]
          exact .inr ⟨.acquire p c, .acquire, List.mem_cons_self, rfl, hg, rfl⟩
        · exact .inl (ha ▸ hx)
  | settleLease p c name e creation =>
    have hs := (s.frame_settle p c e creation).guards
    change x ∈ (Store.guardResult (s.settle p c e creation).2 p c name _).guards at h
    unfold Store.guardResult at h
    split at h
    · next y hy =>
      rcases Store.mem_guards_putGuard h with hx | hx
      · obtain ⟨v, rfl, hg⟩ := Store.granted?_of_settle hy
        rw [hx]
        exact .inr ⟨.fulfil p c e v, .enable v true, List.mem_cons_self, rfl, hg, rfl⟩
      · exact .inl (hs ▸ hx)
    · exact .inl (hs ▸ h)
  | _ => exact .inl ((guards_sublist rfl).subset h)

end ResourcePool
