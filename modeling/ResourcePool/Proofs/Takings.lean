import ResourcePool.Proofs.Callers
import ResourcePool.Proofs.History.Change

/-! Takings: which calls hand out an entry, and to whom, as the events have it. -/
namespace ResourcePool
open Registry

variable {α : Type}

/-- The entry that a call hands out, with the caller who gets it. -/
def Call.taking? (s : Store α) : Call α → Option (EntryId × CallerId)
  | acquire p c => (s.acquire p c).1.map fun e => (e, c)
  | fulfil p c e v => if (s.settle p c e (.value v)).1 = .ok (some e) then some (e, c) else none
  | _ => none

theorem Event.caller?_of_taking? {x : Event α} {y : EntryId × CallerId} (h : x.taking? = some y) :
    x.caller? = some y.2 := by
  cases x with
  | acquired p c e hinted => exact congrArg (fun z => some z.2) (Option.some.inj h)
  | created p c e v => exact congrArg (fun z => some z.2) (Option.some.inj h)
  | _ => simp [taking?] at h

namespace Store

/-- Who got an entry last. -/
def lastTaker? (s : Store α) (e : EntryId) : Option CallerId :=
  s.takings.reverse.lookup e

/-- A caller holds an entry that it got last, as long as the entry is in use. -/
def Holds (s : Store α) (c : CallerId) (e : EntryId) : Prop :=
  s.state e = .active ∧ s.lastTaker? e = some c

instance (s : Store α) (c : CallerId) (e : EntryId) : Decidable (s.Holds c e) :=
  inferInstanceAs (Decidable (_ ∧ _))

variable {s t : Store α} {p : PoolId} {e : EntryId}

/-- What can be done in anybody's name hands out nothing. -/
theorem takings_of_by (h : ∀ c, s.By c t) : t.takings = s.takings := by
  obtain ⟨xs, hxs, hnobody⟩ := (h .main).events
  obtain ⟨ys, hys, hsomebody⟩ := (h .leaving).events
  have hsame : xs = ys := List.append_cancel_left (hxs.symm.trans hys)
  have hnone : xs.filterMap Event.taking? = [] := by
    refine List.filterMap_eq_nil_iff.mpr fun x hx => ?_
    cases htaking : x.taking? with
    | none => rfl
    | some y =>
      have hcaller := Event.caller?_of_taking? htaking
      have hmain := hnobody x hx y.2 hcaller
      have hleaving := hsomebody x (hsame ▸ hx) y.2 hcaller
      exact absurd (hmain.symm.trans hleaving) (by decide)
  rw [takings, hxs, List.filterMap_append, hnone, List.append_nil, takings]

theorem takings_handOut (s : Store α) (p : PoolId) (c : CallerId) (e : EntryId) (hinted : Bool) :
    (s.handOut p c e hinted).takings = s.takings ++ [(e, c)] :=
  takings_note _ _

theorem takings_acquire (s : Store α) (p : PoolId) (c : CallerId) :
    (s.acquire p c).2.takings = s.takings ++ ((s.acquire p c).1.map fun e => (e, c)).toList := by
  have hmiss : ∀ u : Store α, (u.miss p).takings = u.takings := fun u => by
    rw [miss, takings_note]
    exact List.append_nil _
  cases hc : (s.roster p).closed with
  | true =>
    rw [acquire_of_closed c hc]
    exact (List.append_nil _).symm
  | false =>
    have hstart : (s.start p c).2.takings = s.takings := rfl
    obtain ⟨-, ha⟩ | ⟨x, -, ha⟩ | ⟨-, i, t, ht, ⟨x, -, ha⟩ | ⟨-, ha⟩⟩ := acquire_cases c hc
    · rw [ha, hmiss]
      exact (List.append_nil _).symm
    · rw [ha, takings_handOut]
      rfl
    · rw [ht] at hstart
      rw [ha, takings_handOut, hstart]
      rfl
    · rw [ht] at hstart
      rw [ha, hmiss, hstart]
      exact (List.append_nil _).symm

theorem takings_release (s : Store α) (p : PoolId) (c : CallerId) (e : EntryId) :
    (s.release p c e).2.takings = s.takings := by
  unfold release
  split_ifs
  · rfl
  split
  · rw [takings_note]
    exact List.append_nil _
  · rfl

theorem takings_fulfil (s : Store α) (p : PoolId) (c : CallerId) (e : EntryId) (v : α) :
    (s.settle p c e (.value v)).2.takings = s.takings ++
      (if (s.settle p c e (.value v)).1 = .ok (some e) then some (e, c) else none).toList := by
  by_cases hg : (s.entry e).Grants (.enable v true)
  · rw [if_pos (settle_of_grants hg).1]
    have ha : (s.entry e).enable v true = (.ok true, ((s.entry e).enable v true).2) := Prod.ext hg rfl
    unfold settle
    dsimp only
    rw [ha]
    exact takings_note _ _
  · obtain ⟨hanswer, hstore⟩ := settle_of_not_grants (s := s) (p := p) (c := c) hg
    rw [if_neg (hanswer e), hstore]
    exact (List.append_nil _).symm

end Store

namespace Call

variable {s : Store α} {e : EntryId}

theorem takings_apply (s : Store α) (d : Call α) :
    (d.apply s).takings = s.takings ++ (d.taking? s).toList := by
  have hnone : ∀ {t : Store α}, t.takings = s.takings → t.takings = s.takings ++ [] :=
    fun h => h.trans (List.append_nil _).symm
  cases d with
  | create name settings detector? => exact hnone rfl
  | reserve p => exact hnone (Store.takings_of_by fun _ => s.by_reserve p)
  | enable e v atOnce => exact hnone (Store.takings_of_by fun _ => s.by_enable e v atOnce)
  | acquire p c => exact s.takings_acquire p c
  | fulfil p c e v => exact s.takings_fulfil p c e v
  | release p c e => exact hnone (s.takings_release p c e)
  | remove p e => exact hnone (Store.takings_of_by fun _ => s.by_remove p e)
  | close p => exact hnone (Store.takings_of_by fun _ => s.by_close p)

/-- What a call hands out, it grants. -/
theorem granted?_of_taking? {d : Call α} {c : CallerId} (h : d.taking? s = some (e, c)) :
    ∃ r, d.granted? s = some (e, r) := by
  cases d with
  | acquire p k =>
    obtain ⟨x, hx, hpair⟩ := Option.map_eq_some_iff.mp h
    obtain ⟨rfl, -⟩ := Prod.mk.inj hpair
    exact ⟨.acquire, by simp only [granted?, hx, Option.map_some]⟩
  | fulfil p k x v =>
    dsimp only [taking?] at h
    split_ifs at h with hx
    obtain ⟨rfl, -⟩ := Prod.mk.inj (Option.some.inj h)
    exact ⟨.enable v true, if_pos hx⟩
  | _ => simp [taking?] at h

theorem lastTaker?_apply (s : Store α) (d : Call α) (e : EntryId) : (d.apply s).lastTaker? e =
    match d.taking? s with
    | some (i, c) => if e = i then some c else s.lastTaker? e
    | none => s.lastTaker? e := by
  unfold Store.lastTaker?
  rw [takings_apply]
  cases d.taking? s with
  | none => simp
  | some x =>
    obtain ⟨i, c⟩ := x
    rw [Option.toList_some, List.reverse_append, List.reverse_singleton, List.singleton_append,
      List.lookup_cons]
    by_cases hi : e = i
    · simp [hi]
    · simp [hi, beq_false_of_ne hi]

end Call

end ResourcePool
