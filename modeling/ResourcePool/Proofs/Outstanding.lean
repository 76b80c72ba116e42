import ResourcePool.Proofs.Custody
import ResourcePool.Proofs.Fence

/-! Outstanding entries: what hand-outs, returns and all other calls make of the entries of a pool that are in
use or were lost while they were. -/
namespace ResourcePool
open Registry

variable {α : Type}

namespace Call

variable {s : Store α} {d : Call α} {e : EntryId} {q : PoolId}

/-- Whether a call releases or removes an entry through a pool. -/
def GivesUp (q : PoolId) (e : EntryId) : Call α → Prop
  | release p _ x => p = q ∧ x = e
  | remove p x => p = q ∧ x = e
  | _ => False

/-- An entry is in use after a call if it was before or is handed out by it. -/
theorem active_or_granted_of_active_apply (h : (d.apply s).state e = .active) :
    s.state e = .active ∨
      ∃ r, d.granted? s = some (e, r) ∧ (s.entry e).Grants r ∧ r.target = .active := by
  have hc := d.change s
  change ((d.apply s).registry.entry e).state = .active at h
  generalize (d.apply s).registry = w at hc h
  have hremove : ∀ x, (s.entry x).Grants .remove →
      ((s.registry.grant x .remove).entry e).state = .active → s.state e = .active := by
    intro x hg hx
    by_cases he : e = x
    · subst he
      have hst : ((s.registry.entry e).answer .remove).2.state = .closed := Entry.state_answer hg
      simp [grant_entry_self, hst] at hx
    · rw [grant_entry_of_ne _ _ he] at hx
      exact hx
  cases hc with
  | create | refuse => exact .inl h
  | reserve p =>
    by_cases he : e = s.registry.size
    · rw [he, reserve_entry_self] at h
      simp [Entry.state] at h
    · rw [reserve_entry_of_ne _ p he] at h
      exact .inl h
  | @serve _ x r answer grants =>
    by_cases he : e = x
    · subst he
      have hst : ((s.registry.entry e).answer r).2.state = r.target := Entry.state_answer grants
      rw [grant_entry_self, hst] at h
      exact .inr ⟨r, answer, grants, h⟩
    · rw [grant_entry_of_ne _ r he] at h
      exact .inl h
  | evict p x _ _ grants => exact .inl (hremove x grants h)
  | disown p x _ _ grants => exact .inl (hremove x grants h)
  | close p =>
    simp only [Registry.close, Registry.closeAll] at h
    split_ifs at h
    · simp [Entry.state] at h
    · exact .inl h

/-- A release or removal concerns no other entry. -/
theorem state_apply_of_givesUp (hd : d.GivesUp q e) {i : EntryId} (hi : i ≠ e) :
    (d.apply s).state i = s.state i := by
  have hgranted : ∀ x r, d.granted? s = some (x, r) → x = e := by
    intro x r hx
    cases d with
    | release p c y =>
      obtain ⟨-, hx⟩ := Option.ite_none_right_eq_some.mp hx
      obtain ⟨rfl, -⟩ := Prod.mk.inj (Option.some.inj hx)
      exact hd.2
    | remove => simp [granted?] at hx
    | _ => exact hd.elim
  have hc := d.change s
  change ((d.apply s).registry.entry i).state = (s.registry.entry i).state
  generalize (d.apply s).registry = w at hc
  cases hc with
  | create | reserve | close => exact hd.elim
  | refuse => rfl
  | @serve _ x r answer => rw [grant_entry_of_ne _ r (hgranted x r answer ▸ hi)]
  | evict p x =>
    change ((s.registry.grant x .remove).entry i).state = (s.registry.entry i).state
    rw [grant_entry_of_ne _ _ (hd.2 ▸ hi)]
  | disown p x => rw [grant_entry_of_ne _ _ (hd.2 ▸ hi)]

/-- An entry that is released or removed through its own pool is not in use after it. -/
theorem not_active_of_givesUp (hs : s.registry.Sound) (hd : d.GivesUp q e) (he : e ∈ s.reservations q) :
    (d.apply s).state e ≠ .active := by
  have hclosed : (s.roster q).closed = true → s.state e ≠ .active := by
    intro hq hx
    have hc : s.state e = .closed := hs.state_of_closed hq he
    simp [hc] at hx
  have hgrant : ∀ {t : Store α} {r : Entry.Request α}, (s.entry e).Grants r → r.target ≠ .active →
      t.entry e = (s.registry.grant e r).entry e → t.state e ≠ .active := by
    intro t r hg ha ht hx
    unfold Store.state at hx
    rw [ht, grant_entry_self] at hx
    exact ha ((Entry.state_answer hg).symm.trans hx)
  cases d with
  | release p c x =>
    obtain ⟨rfl, rfl⟩ := hd
    by_cases hg : (s.roster p).closed = false ∧ (s.entry x).Grants .release
    · have hr := (Store.release_of_grants c hg.1 hg.2).2
      exact hgrant hg.2 (by simp [Entry.Request.target]) (congrArg (fun v : Registry α => v.entry x) hr)
    · have hsame : (release p c x).apply s = s :=
        (Store.release_of_not_grants c fun hp hx => hg ⟨hp, hx⟩).2
      rw [hsame]
      cases hp : (s.roster p).closed with
      | true => exact hclosed hp
      | false => exact fun hx => hg ⟨hp, Entry.grants_release_iff.mpr hx⟩
  | remove p x =>
    obtain ⟨rfl, rfl⟩ := hd
    cases hp : (s.roster p).closed with
    | true =>
      have hsame : (remove p x).apply s = s := congrArg Prod.snd (Store.remove_of_closed x hp)
      rw [hsame]
      exact hclosed hp
    | false =>
      by_cases hg : (s.entry x).Grants .remove
      · have ht : ((remove p x).apply s).entry x = (s.registry.grant x .remove).entry x := by
          by_cases hm : x ∈ (s.roster p).members
          · exact congrArg (fun v : Registry α => v.entry x) (Store.remove_of_mem hp hg hm).2
          · exact congrArg (fun v : Registry α => v.entry x) (Store.remove_of_not_mem hp hg hm).2
        exact hgrant hg (by simp [Entry.Request.target]) ht
      · have hsame : ((remove p x).apply s).registry = s.registry := (Store.remove_of_not_grants hg).2
        have hx : ((remove p x).apply s).state x = s.state x :=
          congrArg (fun v : Registry α => (v.entry x).state) hsame
        rw [hx]
        exact fun ha => hg (Entry.grants_remove_iff.mpr (by
          change s.state x ≠ .closed
          simp [ha]))
  | _ => exact hd.elim

/-- Of the entries that there are, releases and removals reserve none. -/
theorem reservations_of_givesUp (hd : d.GivesUp q e) : (d.apply s).reservations = s.reservations := by
  have hc := d.change s
  change (d.apply s).registry.reservations = s.registry.reservations
  generalize (d.apply s).registry = w at hc
  cases hc with
  | reserve => exact hd.elim
  | _ => rfl

end Call

/-- An entry of a pool that is in use or was lost. -/
def Store.Outstanding (s : Store α) (p : PoolId) (lost : EntryId → Prop) (e : EntryId) : Prop :=
  e ∈ s.reservations p ∧ (s.state e = .active ∨ lost e)

namespace Store

variable {s t : Store α} {p q : PoolId} {e i : EntryId} {lost : EntryId → Prop} {d : Call α}

theorem outstanding_congr (hr : t.registry = s.registry) {lost' : EntryId → Prop}
    (hl : ∀ i ∈ s.reservations p, lost' i ↔ lost i) :
    t.Outstanding p lost' i ↔ s.Outstanding p lost i := by
  have hv : t.reservations = s.reservations := congrArg Registry.reservations hr
  have hx : t.state i = s.state i := congrArg (fun v : Registry α => (v.entry i).state) hr
  unfold Outstanding
  rw [hv, hx]
  exact and_congr_right fun hi => or_congr_right (hl i hi)

/-- What is handed out was not outstanding. -/
theorem not_outstanding_of_grants {r : Entry.Request α} (hg : (s.entry e).Grants r)
    (ha : r.target = .active) (hl : ¬ lost e) : ¬ s.Outstanding p lost e := by
  rintro ⟨-, hx | hx⟩
  · rcases Entry.eq_of_grants_of_active hx hg with rfl | rfl <;> simp [Entry.Request.target] at ha
  · exact hl hx

/-- A hand-out adds the entry, if it is one of the pool. -/
theorem outstanding_handOut_iff {r : Entry.Request α} (hg : (s.entry e).Grants r)
    (ha : r.target = .active) (hr : t.registry = s.registry.grant e r) :
    t.Outstanding p lost i ↔ s.Outstanding p lost i ∨ (e ∈ s.reservations p ∧ i = e) := by
  have hv : t.reservations = s.reservations := congrArg Registry.reservations hr
  have hentry : t.entry i = (s.registry.grant e r).entry i :=
    congrArg (fun v : Registry α => v.entry i) hr
  unfold Outstanding state
  rw [hv, hentry]
  by_cases hi : i = e
  · subst hi
    have hx : ((s.registry.grant i r).entry i).state = .active := by
      rw [grant_entry_self]
      exact (Entry.state_answer hg).trans ha
    simp only [hx, true_or, and_true]
    exact ⟨Or.inr, fun h => h.elim And.left id⟩
  · have hx : (s.registry.grant e r).entry i = s.entry i := grant_entry_of_ne _ r hi
    rw [hx]
    exact (or_iff_left fun h => hi h.2).symm

/-- A release or removal takes the entry, if it is one of the pool. -/
theorem outstanding_giveUp_iff (hs : s.registry.Sound) (hd : d.GivesUp q e)
    (hq : e ∈ s.reservations p ↔ q = p) :
    (d.apply s).Outstanding p (fun i => lost i ∧ ¬ (q = p ∧ i = e)) i ↔
      s.Outstanding p lost i ∧ ¬ (q = p ∧ i = e) := by
  unfold Outstanding
  rw [Call.reservations_of_givesUp hd]
  by_cases hi : i = e
  · subst hi
    by_cases hown : i ∈ s.reservations p
    · obtain rfl := hq.mp hown
      have hx : (d.apply s).state i ≠ .active := Call.not_active_of_givesUp hs hd hown
      simp [hx]
    · simp [hown]
  · rw [Call.state_apply_of_givesUp hd hi]
    simp [hi]

/-- Any other call takes only what it closes, and that is lost. -/
theorem outstanding_apply_iff (hret : ∀ i ∈ s.reservations p, ¬ d.Returns i)
    (hout : ∀ i ∈ s.reservations p, ∀ r, d.granted? s = some (i, r) → r.target ≠ .active)
    (hl : ∀ i, lost i → s.Gone i) :
    (d.apply s).Outstanding p (fun i => lost i ∨ (s.state i = .active ∧ (d.apply s).state i = .closed)) i ↔
      s.Outstanding p lost i := by
  have hown : i < s.entries.size → (i ∈ (d.apply s).reservations p ↔ i ∈ s.reservations p) :=
    d.mem_reservations_apply
  have hsize : s.state i = .active → i < s.entries.size :=
    fun hx => lt_size_of_ne_closed (by simp [hx])
  constructor
  · rintro ⟨hi, hx | hx | ⟨hx, -⟩⟩
    · rcases Call.active_or_granted_of_active_apply hx with ha | ⟨r, hr, hg, htarget⟩
      · exact ⟨(hown (hsize ha)).mp hi, .inl ha⟩
      · exact absurd htarget (hout i ((hown (lt_size_of_grants hg)).mp hi) r hr)
    · exact ⟨(hown (hl i hx).1).mp hi, .inr hx⟩
    · exact ⟨(hown (hsize hx)).mp hi, .inl hx⟩
  · rintro ⟨hi, hx | hx⟩
    · refine ⟨(hown (hsize hx)).mpr hi, ?_⟩
      rcases Call.state_apply_of_active hx (hret i hi) with ha | hc
      · exact .inl ha
      · exact .inr (.inr ⟨hx, hc⟩)
    · exact ⟨(hown (hl i hx).1).mpr hi, .inr (.inl hx)⟩

end Store

end ResourcePool
