import ResourcePool.Proofs.Run

/-! Services: what a call's answer says that an entry was asked for and granted, removals aside. The
services of an entry along a run are the sum of what its calls answered. -/
namespace ResourcePool

variable {α : Type}

def Entry.Request.isService : Entry.Request α → Bool
  | .remove => false
  | _ => true

namespace Store

def services (s : Store α) (e : EntryId) : List (Entry.Request α) :=
  (s.requests e).filter Entry.Request.isService

/-- The services that a search granted by what it found. -/
def found (e : EntryId) (answer : Option EntryId) : List (Entry.Request α) :=
  if answer = some e then [.acquire] else []

/-- The services that a creation of entry `x` granted. -/
def made (e : EntryId) (creation : Creation α) :
    Except CreationError (Option EntryId) → List (Entry.Request α)
  | .ok (some x) =>
    match creation with
    | .value v => if x = e then [.enable v true] else []
    | _ => []
  | _ => []

/-- The services that the release of entry `x` granted. -/
def returned (e x : EntryId) (answer : Except Fault Bool) : List (Entry.Request α) :=
  if x = e ∧ answer = .ok true then [.release] else []

/-- The services that the end of a guard granted. -/
def givenBack (s : Store α) (c : CallerId) (g : Guard) (e : EntryId) : List (Entry.Request α) :=
  returned e g.entry (s.trackedRelease g.direct g.pool c g.entry).1

/-- The services that storing a guard granted, which ends a guard of the same name. -/
def replaced (s : Store α) (c : CallerId) (name : String) (g : Guard) (e : EntryId) :
    List (Entry.Request α) :=
  match s.guard? name with
  | some old =>
    { s.endGuard name with guards := (name, g) :: (s.endGuard name).guards }.givenBack c old e
  | none => []

end Store

namespace Move

/-- The services that an entry was granted by a call, as its answer tells. -/
def services (s : Store α) (e : EntryId) : Move α → List (Entry.Request α)
  | enable x v atOnce =>
    if x = e ∧ (s.enable x v atOnce).1 = .ok true then [.enable v atOnce] else []
  | acquire direct p c => Store.found e (s.trackedAcquire direct p c).1
  | settle _ p c x creation => Store.made e creation (s.settle p c x creation).1
  | release direct p c x => Store.returned e x (s.trackedRelease direct p c x).1
  | lease direct p c name =>
    match s.trackedAcquire direct p c with
    | (some x, t) =>
      Store.found e (some x) ++ t.replaced c name { pool := p, entry := x, direct } e
    | (none, _) => []
  | settleLease p c name x creation =>
    match s.settle p c x creation with
    | (.ok (some y), t) =>
      Store.made e creation (.ok (some y)) ++ t.replaced c name { pool := p, entry := y } e
    | _ => []
  | dropGuard c name => (s.guard? name).elim [] fun g => (s.endGuard name).givenBack c g e
  | _ => []

end Move

namespace Store

variable {s t : Store α} {e : EntryId}

theorem services_congr (h : t.requests = s.requests) : t.services e = s.services e :=
  congrArg (fun q => (q e).filter Entry.Request.isService) h

/-- A request granted is a service granted, if it is one. -/
theorem services_of_grant {x : EntryId} {r : Entry.Request α}
    (h : t.requests = (s.registry.grant x r).requests) :
    t.services e = s.services e ++ if x = e ∧ r.isService then [r] else [] := by
  unfold services
  rw [h]
  by_cases hx : x = e
  · subst hx
    cases hr : r.isService <;> simp [Registry.grant, Store.registry, hr]
  · simp [Registry.grant, Store.registry, hx, Ne.symm hx]

theorem services_enable (s : Store α) (e x : EntryId) (v : α) (acquire : Bool) :
    (s.enable x v acquire).2.services e = s.services e ++
      if x = e ∧ (s.enable x v acquire).1 = .ok true then [.enable v acquire] else [] := by
  by_cases hg : (s.entry x).Grants (.enable v acquire)
  · obtain ⟨ha, hr⟩ := enable_of_grants hg
    rw [services_of_grant (congrArg Registry.requests hr), ha]
    simp [Entry.Request.isService]
  · obtain ⟨ha, hr⟩ := enable_of_not_grants hg
    rw [hr, if_neg fun h => ha h.2, List.append_nil]

theorem services_acquire (s : Store α) (e : EntryId) (p : PoolId) (c : CallerId) :
    (s.acquire p c).2.services e = s.services e ++ found e (s.acquire p c).1 := by
  cases ha : (s.acquire p c).1 with
  | none =>
    rw [services_congr (congrArg Registry.requests (acquire_of_none ha))]
    simp [found]
  | some x =>
    rw [services_of_grant (congrArg Registry.requests (acquire_of_some ha).2)]
    simp [found, Entry.Request.isService]

theorem services_release (s : Store α) (e x : EntryId) (p : PoolId) (c : CallerId) :
    (s.release p c x).2.services e = s.services e ++ returned e x (s.release p c x).1 := by
  by_cases h : (s.roster p).closed = false ∧ (s.entry x).Grants .release
  · obtain ⟨ha, hr⟩ := release_of_grants c h.1 h.2
    rw [services_of_grant (congrArg Registry.requests hr), ha]
    simp [returned, Entry.Request.isService]
  · obtain ⟨ha, hr⟩ := release_of_not_grants c fun hp hg => h ⟨hp, hg⟩
    rw [hr, returned, if_neg fun h => ha h.2, List.append_nil]

theorem services_remove (s : Store α) (e x : EntryId) (p : PoolId) :
    (s.remove p x).2.services e = s.services e := by
  by_cases hp : (s.roster p).closed = true
  · rw [remove_of_closed x hp]
  rw [Bool.not_eq_true] at hp
  by_cases hg : (s.entry x).Grants .remove
  · have hr : (s.remove p x).2.requests = (s.registry.grant x .remove).requests := by
      by_cases hm : x ∈ (s.roster p).members
      · exact congrArg Registry.requests (remove_of_mem hp hg hm).2
      · exact congrArg Registry.requests (remove_of_not_mem hp hg hm).2
    rw [services_of_grant hr]
    simp [Entry.Request.isService]
  · exact services_congr (congrArg Registry.requests (remove_of_not_grants hg).2)

theorem services_settle (s : Store α) (e x : EntryId) (p : PoolId) (c : CallerId)
    (creation : Creation α) : (s.settle p c x creation).2.services e =
      s.services e ++ made e creation (s.settle p c x creation).1 := by
  cases creation with
  | value v =>
    by_cases hg : (s.entry x).Grants (.enable v true)
    · obtain ⟨ha, hr⟩ := settle_of_grants (p := p) (c := c) hg
      rw [services_of_grant (congrArg Registry.requests hr), ha]
      simp [made, Entry.Request.isService]
    · obtain ⟨ha, hr⟩ := settle_of_not_grants (p := p) (c := c) hg
      have hn : made e (.value v) (s.settle p c x (.value v)).1 = [] := by
        unfold made
        split
        · next y hy => exact absurd hy (ha y)
        · rfl
      rw [hr, hn, List.append_nil]
  | nothing => simp [settle, made, services_remove]
  | refused reason => simp [settle, made, services_remove]
  | panicked => simp [settle, made]

theorem services_close (s : Store α) (e : EntryId) (p : PoolId) :
    (s.close p).2.services e = s.services e := by
  have hr : (s.close p).2.requests = (s.registry.close p).requests :=
    congrArg Registry.requests (s.registry_close p)
  unfold services
  rw [hr]
  simp only [Registry.close, Registry.closeAll]
  split_ifs
  · simp [Store.registry, Entry.Request.isService]
  · rfl

theorem services_reserve (s : Store α) (e : EntryId) (p : PoolId) :
    (s.reserve p).2.services e = s.services e := by
  have hr := s.registry_reserve p
  split_ifs at hr
  · exact services_congr (congrArg Registry.requests hr)
  · exact services_congr (congrArg Registry.requests hr)

theorem services_trackedAcquire (s : Store α) (e : EntryId) (direct : Bool) (p : PoolId)
    (c : CallerId) : (s.trackedAcquire direct p c).2.services e =
      s.services e ++ found e (s.trackedAcquire direct p c).1 := by
  have ha := s.services_acquire e p c
  unfold trackedAcquire
  split
  · next x t ht =>
    rw [ht] at ha
    cases direct with
    | true => exact ha
    | false =>
      rw [← ha]
      exact services_congr (congrArg Registry.requests (registry_observeAcquire t p x))
  · next t ht =>
    rw [ht] at ha
    exact ha

theorem services_trackedRelease (s : Store α) (e x : EntryId) (direct : Bool) (p : PoolId)
    (c : CallerId) : (s.trackedRelease direct p c x).2.services e =
      s.services e ++ returned e x (s.trackedRelease direct p c x).1 := by
  cases direct with
  | true => exact s.services_release e x p c
  | false =>
    have hr := (s.observeRelease p x).services_release e x p c
    rw [services_congr (congrArg Registry.requests (registry_observeRelease s p x))] at hr
    exact hr

theorem services_trackedRemove (s : Store α) (e x : EntryId) (direct : Bool) (p : PoolId) :
    (s.trackedRemove direct p x).2.services e = s.services e := by
  cases direct with
  | true => exact s.services_remove e x p
  | false =>
    have hr := (s.observeRemoval p x).services_remove e x p
    rw [services_congr (congrArg Registry.requests (registry_observeRemoval s p x))] at hr
    exact hr

theorem services_giveBack (s : Store α) (e : EntryId) (c : CallerId) (g : Guard) :
    (s.giveBack c g).services e = s.services e ++ s.givenBack c g e := by
  have hr := s.services_trackedRelease e g.entry g.direct g.pool c
  unfold giveBack givenBack
  split
  · next t ht =>
    rw [ht] at hr ⊢
    exact hr
  · next t ht =>
    rw [ht] at hr ⊢
    rw [← hr]
    exact services_congr (congrArg Registry.requests (registry_note t rfl rfl))

theorem services_putGuard (s : Store α) (e : EntryId) (c : CallerId) (name : String) (g : Guard) :
    (s.putGuard c name g).services e = s.services e ++ s.replaced c name g e := by
  unfold putGuard replaced
  dsimp only
  cases s.guard? name with
  | none => exact (List.append_nil _).symm
  | some old => exact services_giveBack _ e c old

end Store

/-- What a call answers is what it adds to the services of each entry. -/
theorem Move.services_apply (s : Store α) (m : Move α) (e : EntryId) :
    (m.apply s).services e = s.services e ++ m.services s e := by
  cases m with
  | reserve p => exact (s.services_reserve e p).trans (List.append_nil _).symm
  | enable x v atOnce => exact s.services_enable e x v atOnce
  | acquire direct p c => exact s.services_trackedAcquire e direct p c
  | settle direct p c x creation =>
    have hs := s.services_settle e x p c creation
    have ho := Store.registry_observeResult (s.settle p c x creation).2 direct p
      (s.settle p c x creation).1
    exact (Store.services_congr (congrArg Registry.requests ho)).trans hs
  | release direct p c x => exact s.services_trackedRelease e x direct p c
  | remove direct p x =>
    exact (s.services_trackedRemove e x direct p).trans (List.append_nil _).symm
  | close p => exact (s.services_close e p).trans (List.append_nil _).symm
  | lease direct p c name =>
    have ha := s.services_trackedAcquire e direct p c
    cases ht : s.trackedAcquire direct p c with
    | mk found? t =>
      rw [ht] at ha
      cases found? with
      | none =>
        simp only [apply, services, Store.lease, ht]
        simpa [Store.found] using ha
      | some x =>
        simp only [apply, services, Store.lease, ht]
        rw [Store.services_putGuard, ha, List.append_assoc]
  | settleLease p c name x creation =>
    have hs := s.services_settle e x p c creation
    cases ht : s.settle p c x creation with
    | mk result t =>
      rw [ht] at hs
      simp only [apply, services, ht]
      cases result with
      | error f => exact hs
      | ok created? =>
        cases created? with
        | none => exact hs
        | some y =>
          unfold Store.guardResult
          dsimp only
          rw [Store.services_putGuard, hs, List.append_assoc]
  | dropGuard c name =>
    unfold apply services
    dsimp only
    cases s.guard? name with
    | none => exact (List.append_nil _).symm
    | some g => exact Store.services_giveBack (s.endGuard name) e c g
  | removeGuarded name =>
    unfold apply services
    dsimp only
    rw [List.append_nil]
    cases s.guard? name with
    | none => rfl
    | some g => exact (s.endGuard name).services_trackedRemove e g.entry g.direct g.pool
  | create name settings detector? => exact (List.append_nil _).symm
  | _ =>
    rw [Store.services_congr (congrArg Registry.requests (registry_apply_of_inert s _ rfl))]
    exact (List.append_nil _).symm

end ResourcePool
