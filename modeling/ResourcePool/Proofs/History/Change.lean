import ResourcePool.Proofs.History
import ResourcePool.Proofs.Steady

/-! What a call changes, by what it answers: entries and lists, and of the pools only the one that it is
made on. -/
namespace ResourcePool
open Registry

variable {α : Type}

namespace Call

/-- The request, no removal, that a call grants an entry, as its answer tells. -/
def granted? (s : Store α) : Call α → Option (EntryId × Entry.Request α)
  | enable e v atOnce =>
    if (s.enable e v atOnce).1 = .ok true then some (e, .enable v atOnce) else none
  | acquire p c => (s.acquire p c).1.map fun e => (e, .acquire)
  | fulfil p c e v =>
    if (s.settle p c e (.value v)).1 = .ok (some e) then some (e, .enable v true) else none
  | release p c e => if (s.release p c e).1 = .ok true then some (e, .release) else none
  | _ => none

/-- Whether a call answers no. Creating and closing a pool is never refused. -/
def Refused (s : Store α) : Call α → Prop
  | create .. => False
  | close _ => False
  | reserve p => (s.reserve p).1 = none
  | remove p e => (s.remove p e).1 = false
  | c => c.granted? s = none

/-- The pool that a call is made on. -/
def site? (s : Store α) : Call α → Option PoolId
  | create .. => some s.pools.size
  | reserve p => some p
  | enable .. => none
  | acquire p _ => some p
  | fulfil p _ _ _ => some p
  | release p _ _ => some p
  | remove p _ => some p
  | close p => some p

/-- The registry after a call. -/
inductive Change (s : Store α) : Call α → Registry α → Prop
  | create (name : String) (settings : Settings α) (detector? : Option Detector) :
      Change s (.create name settings detector?)
        (s.registry.create s.pools.size settings.maxEntries)
  | reserve (p : PoolId) (answer : (s.reserve p).1 = some s.entries.size)
      (opened : (s.roster p).closed = false) (room : (s.roster p).isFull = false) :
      Change s (.reserve p) (s.registry.reserve p)
  | serve {c : Call α} {e : EntryId} {r : Entry.Request α} (answer : c.granted? s = some (e, r))
      (grants : (s.entry e).Grants r) (keeps : r ≠ .remove) : Change s c (s.registry.grant e r)
  | evict (p : PoolId) (e : EntryId) (answer : (s.remove p e).1 = true)
      (opened : (s.roster p).closed = false) (grants : (s.entry e).Grants .remove)
      (listed : e ∈ s.members p) :
      Change s (.remove p e) ((s.registry.grant e .remove).strike p e)
  | disown (p : PoolId) (e : EntryId) (answer : (s.remove p e).1 = false)
      (opened : (s.roster p).closed = false) (grants : (s.entry e).Grants .remove)
      (unlisted : e ∉ s.members p) : Change s (.remove p e) (s.registry.grant e .remove)
  | close (p : PoolId) : Change s (.close p) (s.registry.close p)
  | refuse {c : Call α} (answer : c.Refused s) : Change s c s.registry

theorem change_reserve (s : Store α) (p : PoolId) :
    Change s (.reserve p) (s.reserve p).2.registry := by
  have hf := s.reserve_fst p
  have hr := s.registry_reserve p
  by_cases hc : ((s.roster p).closed || (s.roster p).isFull) = true
  · rw [if_pos hc] at hf hr
    rw [hr]
    exact .refuse hf
  · rw [if_neg hc] at hf hr
    rw [Bool.or_eq_true, not_or, Bool.not_eq_true, Bool.not_eq_true] at hc
    rw [hr]
    exact .reserve p hf hc.1 hc.2

theorem change_enable (s : Store α) (e : EntryId) (v : α) (atOnce : Bool) :
    Change s (.enable e v atOnce) (s.enable e v atOnce).2.registry := by
  by_cases hg : (s.entry e).Grants (.enable v atOnce)
  · obtain ⟨ha, hr⟩ := Store.enable_of_grants hg
    rw [hr]
    exact .serve (if_pos ha) hg (by simp)
  · obtain ⟨ha, hs⟩ := Store.enable_of_not_grants hg
    rw [hs]
    exact .refuse (if_neg ha)

theorem change_acquire (s : Store α) (p : PoolId) (c : CallerId) :
    Change s (.acquire p c) (s.acquire p c).2.registry := by
  cases ha : (s.acquire p c).1 with
  | none =>
    have hn : (Call.acquire p c).granted? s = none := by simp [granted?, ha]
    rw [Store.acquire_of_none ha]
    exact .refuse hn
  | some e =>
    obtain ⟨hg, hr⟩ := Store.acquire_of_some ha
    have hy : (Call.acquire p c).granted? s = some (e, .acquire) := by simp [granted?, ha]
    rw [hr]
    exact .serve hy hg (by simp)

theorem change_fulfil (s : Store α) (p : PoolId) (c : CallerId) (e : EntryId) (v : α) :
    Change s (.fulfil p c e v) (s.settle p c e (.value v)).2.registry := by
  by_cases hg : (s.entry e).Grants (.enable v true)
  · obtain ⟨ha, hr⟩ := Store.settle_of_grants (p := p) (c := c) hg
    rw [hr]
    exact .serve (if_pos ha) hg (by simp)
  · obtain ⟨ha, hs⟩ := Store.settle_of_not_grants (p := p) (c := c) hg
    rw [hs]
    exact .refuse (if_neg (ha e))

theorem change_release (s : Store α) (p : PoolId) (c : CallerId) (e : EntryId) :
    Change s (.release p c e) (s.release p c e).2.registry := by
  by_cases h : (s.roster p).closed = false ∧ (s.entry e).Grants .release
  · obtain ⟨ha, hr⟩ := Store.release_of_grants c h.1 h.2
    rw [hr]
    exact .serve (if_pos ha) h.2 (by simp)
  · obtain ⟨ha, hs⟩ := Store.release_of_not_grants c fun hp hg => h ⟨hp, hg⟩
    rw [hs]
    exact .refuse (if_neg ha)

theorem change_remove (s : Store α) (p : PoolId) (e : EntryId) :
    Change s (.remove p e) (s.remove p e).2.registry := by
  cases hp : (s.roster p).closed with
  | true =>
    rw [Store.remove_of_closed e hp]
    exact .refuse (congrArg Prod.fst (Store.remove_of_closed e hp))
  | false =>
    by_cases hg : (s.entry e).Grants .remove
    · by_cases hm : e ∈ (s.roster p).members
      · obtain ⟨ha, hr⟩ := Store.remove_of_mem hp hg hm
        rw [hr]
        exact .evict p e ha hp hg hm
      · obtain ⟨ha, hr⟩ := Store.remove_of_not_mem hp hg hm
        rw [hr]
        exact .disown p e ha hp hg hm
    · obtain ⟨ha, hr⟩ := Store.remove_of_not_grants (p := p) hg
      rw [hr]
      exact .refuse ha

/-- A call changes the registry as its answer says. -/
theorem change (s : Store α) (c : Call α) : c.Change s (c.apply s).registry := by
  cases c with
  | create name settings detector? =>
    have hr := s.registry_create name settings detector?
    change Change s _ (s.create name settings detector?).2.registry
    rw [hr]
    exact .create name settings detector?
  | reserve p => exact change_reserve s p
  | enable e v atOnce => exact change_enable s e v atOnce
  | acquire p c => exact change_acquire s p c
  | fulfil p c e v => exact change_fulfil s p c e v
  | release p c e => exact change_release s p c e
  | remove p e => exact change_remove s p e
  | close p =>
    have hr := s.registry_close p
    change Change s _ (s.close p).2.registry
    rw [hr]
    exact .close p

/-- What is refused grants nothing. -/
theorem Refused.granted? {s : Store α} {c : Call α} (h : c.Refused s) : c.granted? s = none := by
  cases c with
  | reserve | remove => rfl
  | create | close => exact h.elim
  | _ => exact h

/-- Changes are effects. An entry of another list is closed by a removal through an open pool only. -/
theorem Change.path {may : PoolId → EntryId → Prop} {s : Store α} {c : Call α} {w : Registry α}
    (h : c.Change s w) (hmay : ∀ p e, c = .remove p e → (s.entry e).Grants .remove →
      e ∉ s.members p → may p e) : Path may s.registry w := by
  cases h with
  | create name settings detector? =>
    have hm : (s.roster s.pools.size).members = [] := by
      simp [Store.roster, s.pool_of_size_le (Nat.le_refl _), Pool.absent, Pool.roster]
    exact .of_effect (.create _ _ hm)
  | reserve p _ opened room => exact .of_effect (.reserve p opened room)
  | serve _ grants keeps => exact .of_effect (.grant _ _ grants keeps)
  | evict p e _ _ grants listed => exact .of_effect (.evict p e grants listed)
  | disown p e _ _ grants unlisted =>
    exact .of_effect (.disown p e grants unlisted (hmay p e rfl grants unlisted))
  | close p => exact .of_effect (.close p)
  | refuse => exact .refl

theorem sound_apply {s : Store α} (hs : s.registry.Sound) (c : Call α) :
    (c.apply s).registry.Sound := by
  have hp : Path (fun _ _ => True) s.registry (c.apply s).registry :=
    (c.change s).path fun _ _ _ _ _ => trivial
  exact hp.sound hs

theorem reservations_apply (s : Store α) (c : Call α) (p : PoolId) :
    s.reservations p <+: (c.apply s).reservations p := by
  have hp : Path (fun _ _ => True) s.registry (c.apply s).registry :=
    (c.change s).path fun _ _ _ _ _ => trivial
  exact hp.reservations_prefix p

end Call

namespace Store

variable {q : PoolId}

theorem pool_create (s : Store α) (name : String) (settings : Settings α)
    (detector? : Option Detector) : (s.create name settings detector?).2.pool q =
      if q = s.pools.size then .ofSettings name settings detector? else s.pool q :=
  pool_push s _ q

end Store

namespace Call

/-- A call leaves all pools alone but the one that it is made on. -/
theorem pool_apply_of_ne {s : Store α} {c : Call α} {q : PoolId} (h : c.site? s ≠ some q) :
    (c.apply s).pool q = s.pool q := by
  cases c with
  | create name settings detector? =>
    have hq : q ≠ s.pools.size := fun hq => h (congrArg some hq.symm)
    exact (s.pool_create name settings detector?).trans (if_neg hq)
  | reserve p => exact (s.frame_reserve p).other q fun hq => h (congrArg some hq.symm)
  | enable e v atOnce => exact s.pool_enable q e v atOnce
  | acquire p c => exact (s.frame_acquire p c).other q fun hq => h (congrArg some hq.symm)
  | fulfil p c e v => exact (s.frame_settle p c e _).other q fun hq => h (congrArg some hq.symm)
  | release p c e => exact (s.frame_release p c e).other q fun hq => h (congrArg some hq.symm)
  | remove p e => exact (s.frame_remove p e).other q fun hq => h (congrArg some hq.symm)
  | close p => exact (s.frame_close p).other q fun hq => h (congrArg some hq.symm)

/-- What a pool is created with, it keeps: later calls change its list, turn, hints and counters, and close
it. -/
theorem pool_keeps {β : Type} (g : Pool α → β) (hm : ∀ x members, g { x with members } = g x)
    (ht : ∀ x turn, g { x with turn } = g x) (hh : ∀ x hints, g { x with hints } = g x)
    (hc : ∀ x counters, g { x with counters } = g x)
    (hk : ∀ x closed members hints, g { x with closed, members, hints } = g x) {s : Store α}
    {p : PoolId} (d : Call α)
    (hp : ∀ name settings detector?, d = .create name settings detector? → p ≠ s.pools.size) :
    g ((d.apply s).pool p) = g (s.pool p) := by
  by_cases hsite : d.site? s = some p
  · cases d with
    | enable => simp [site?] at hsite
    | create name settings detector? =>
      exact absurd (Option.some.inj hsite).symm (hp name settings detector? rfl)
    | reserve q => exact Option.some.inj hsite ▸ Store.reserve_keeps g hm hc s q
    | acquire q c => exact Option.some.inj hsite ▸ Store.acquire_keeps g ht hc s q c
    | fulfil q c e v => exact Option.some.inj hsite ▸ Store.fulfil_keeps g hc s q c e v
    | release q c e => exact Option.some.inj hsite ▸ Store.release_keeps g hc hh s q c e
    | remove q e => exact Option.some.inj hsite ▸ Store.remove_keeps g hm hc s q e
    | close q => exact Option.some.inj hsite ▸ Store.close_keeps g hk s q
  · rw [pool_apply_of_ne hsite]

/-- Only creating a pool changes their number. -/
theorem size_apply (s : Store α) (c : Call α) : s.pools.size ≤ (c.apply s).pools.size := by
  cases c with
  | create name settings detector? =>
    change s.pools.size ≤ (s.pools.push _).size
    rw [Array.size_push]
    exact Nat.le_succ _
  | reserve p => exact (s.size_reserve p).ge
  | enable e v atOnce => exact (s.size_enable e v atOnce).ge
  | acquire p c => exact (s.size_acquire p c).ge
  | fulfil p c e v => exact (s.size_settle p c e _).ge
  | release p c e => exact (s.size_release p c e).ge
  | remove p e => exact (s.size_remove p e).ge
  | close p => exact (s.size_close p).ge

end Call

end ResourcePool
