import ResourcePool.Proofs.Membership
import ResourcePool.Proofs.Session
import ResourcePool.Proofs.Takings

/-! Sharing: few callers who hold one entry of a pool at a time, and search from their own number, each get
the member of that number. -/
namespace ResourcePool
open Registry

variable {α : Type}

/-! ### Who shares a list -/

/-- No more than so many callers after a call. -/
def few (n : Nat) (s : Store α) (m : Move α) : Prop :=
  (m.apply s).callers.count ≤ n

/-- Callers with the numbers in `live` take turns on the list `L` of a pool: it stays as it is, whoever
acquires on the pool holds none of its entries, and only who holds one releases it. -/
def Call.TakesTurns (p : PoolId) (L : List EntryId) (live : List CallerId) (s : Store α) (d : Call α) : Prop :=
  (d.apply s).members p = L ∧
  match d with
  | acquire q c => q = p → c ∈ live ∧ ∀ e ∈ L, ¬ s.Holds c e
  | release _ c e => e ∈ L → c ∈ live ∧ s.Holds c e
  | _ => True

/-- No other pool hands out or removes an entry in the list `L` of a pool. -/
def Call.Spares (p : PoolId) (L : List EntryId) (s : Store α) : Call α → Prop
  | acquire q c => q ≠ p → ∀ e ∈ L, (s.acquire q c).1 ≠ some e
  | remove q e => q ≠ p → e ∉ L
  | _ => True

/-- A caller who leaves holds no entry of the list any more. -/
def Move.ReturnsAll (L : List EntryId) (s : Store α) : Move α → Prop
  | leave name => ∀ c ∈ (s.callers.find? name).toList, ∀ e ∈ L, ¬ s.Holds c e
  | _ => True

/-- Few callers, one for each entry in the list `L` of a pool, take turns on it. -/
def taking (p : PoolId) (L : List EntryId) (s : Store α) (m : Move α) : Prop :=
  few L.length s m ∧ m.ReturnsAll L s ∧ ∀ x ∈ m.calls s, x.2.TakesTurns p L s.callers.numbers x.1

/-- They share it, if no other pool meddles with its entries. -/
def sharing (p : PoolId) (L : List EntryId) (s : Store α) (m : Move α) : Prop :=
  taking p L s m ∧ ∀ x ∈ m.calls s, x.2.Spares p L x.1

section Decidable

variable (p : PoolId) (L : List EntryId)

instance (n : Nat) (s : Store α) (m : Move α) : Decidable (few n s m) :=
  inferInstanceAs (Decidable (_ ≤ _))

instance (live : List CallerId) (s : Store α) : (d : Call α) → Decidable (d.TakesTurns p L live s)
  | .acquire q c => inferInstanceAs (Decidable (_ ∧ (q = p → c ∈ live ∧ ∀ e ∈ L, ¬ s.Holds c e)))
  | .release _ c e => inferInstanceAs (Decidable (_ ∧ (e ∈ L → c ∈ live ∧ s.Holds c e)))
  | .create .. | .reserve _ | .enable .. | .fulfil .. | .remove .. | .close _ =>
    inferInstanceAs (Decidable (_ ∧ True))

instance (s : Store α) : (d : Call α) → Decidable (d.Spares p L s)
  | .acquire q c => inferInstanceAs (Decidable (q ≠ p → ∀ e ∈ L, (s.acquire q c).1 ≠ some e))
  | .remove q e => inferInstanceAs (Decidable (q ≠ p → e ∉ L))
  | .create .. | .reserve _ | .enable .. | .fulfil .. | .release .. | .close _ => isTrue trivial

instance (s : Store α) : (m : Move α) → Decidable (m.ReturnsAll L s)
  | .leave name =>
    inferInstanceAs (Decidable (∀ c ∈ (s.callers.find? name).toList, ∀ e ∈ L, ¬ s.Holds c e))
  | .create .. | .forget _ | .enter _ | .reserve _ | .enable .. | .acquire .. | .settle .. | .release ..
  | .remove .. | .close _ | .lease .. | .settleLease .. | .dropGuard .. | .removeGuarded _ | .detach _
  | .hold _ | .unhold _ | .unholdAll | .sweep _ | .checkLeaks _ | .clearTracking _ | .wait _ | .readLog =>
    isTrue trivial

instance (s : Store α) (m : Move α) : Decidable (taking p L s m) :=
  inferInstanceAs (Decidable (_ ∧ _))

instance (s : Store α) (m : Move α) : Decidable (sharing p L s m) :=
  inferInstanceAs (Decidable (_ ∧ _))

end Decidable

/-! ### Numbers of callers along a run -/

namespace Callers.Numbered

variable {callers callers' : Callers} {name : String} {c d : CallerId}

theorem lt_fresh (h : callers.Numbered) (hc : c ∈ callers.numbers) : c < callers.fresh :=
  (h.mem_iff c).mp (.inl hc)

/-- Who leaves takes no other number along. -/
theorem mem_numbers_leave (h : callers.Numbered) (hc : callers.find? name = some c)
    (hl : callers.leave? name = some callers') (hd : d ∈ callers.numbers) (hne : d ≠ c) :
    d ∈ callers'.numbers := by
  obtain ⟨k, hk, rfl⟩ := Option.map_eq_some_iff.mp hl
  obtain rfl := Option.some.inj (hc.symm.trans hk)
  rcases List.mem_cons.mp hd with rfl | hd
  · exact List.mem_cons_self
  · have hp := (perm_of_lookup h.names hc).map (·.2)
    rcases List.mem_cons.mp (hp.mem_iff.mp hd) with rfl | hd
    · exact absurd rfl hne
    · exact List.mem_cons_of_mem _ hd

end Callers.Numbered

theorem Callers.mem_numbers_enter {callers : Callers} {c : CallerId} (hc : c ∈ callers.numbers)
    (name : String) : c ∈ (callers.enter name).2.numbers := by
  obtain ⟨k, -, he⟩ | ⟨-, k, freed, -, he⟩ | ⟨-, -, he⟩ := callers.enter_cases name
  · rw [he]
    exact hc
  · rw [he]
    exact (numbers_append { callers with freed } name k) ▸ List.mem_append_left _ hc
  · rw [he]
    have hn := numbers_append { callers with fresh := callers.fresh + 1 } name callers.fresh
    exact hn ▸ List.mem_append_left _ hc

namespace Move

variable {s : Store α} {m : Move α}

/-- Whether a call is one by which a caller enters or leaves. -/
def isPassage : Move α → Bool
  | enter _ | leave _ => true
  | _ => false

/-- The caller who makes a call, if the call says who. -/
def caller : Move α → CallerId
  | acquire _ _ c | settle _ _ c _ _ | release _ _ c _ | lease _ _ c _ | settleLease _ c _ _ _
  | dropGuard c _ => c
  | _ => .main

theorem callers_apply (s : Store α) {m : Move α} (h : m.isPassage = false) :
    (m.apply s).callers = s.callers := by
  have hmade : made m.caller s m := by
    cases m with
    | enter | leave => simp [isPassage] at h
    | acquire | settle | release | lease | settleLease | dropGuard => rfl
    | _ => trivial
  exact (by_apply hmade).callers

/-- A number never used before is used only when there are more callers than ever. -/
theorem fresh_apply (h : s.callers.Numbered) (m : Move α) :
    (m.apply s).callers.Numbered ∧
      (m.apply s).callers.fresh = max s.callers.fresh (m.apply s).callers.count := by
  have hstay : s.callers.fresh = max s.callers.fresh s.callers.count :=
    (Nat.max_eq_left (Nat.le.intro h.count_add)).symm
  cases hm : m.isPassage with
  | false =>
    rw [callers_apply s hm]
    exact ⟨h, hstay⟩
  | true =>
    cases m with
    | enter name => exact ⟨h.enter name, h.fresh_enter name⟩
    | leave name =>
      unfold apply
      dsimp only
      cases hl : s.callers.leave? name with
      | none => exact ⟨h, hstay⟩
      | some callers =>
        obtain ⟨hnumbered, hfresh⟩ := h.leave hl
        have hcount : callers.count ≤ s.callers.fresh := hfresh ▸ Nat.le.intro hnumbered.count_add
        exact ⟨hnumbered, hfresh.trans (Nat.max_eq_left hcount).symm⟩
    | _ => simp [isPassage] at hm

/-- As long as there are few callers, all numbers are small. -/
theorem numbered_apply {n : Nat} (h : s.callers.Numbered) (hn : s.callers.fresh ≤ n)
    (hfew : few n s m) : (m.apply s).callers.Numbered ∧ (m.apply s).callers.fresh ≤ n := by
  obtain ⟨hnumbered, hfresh⟩ := fresh_apply h m
  exact ⟨hnumbered, hfresh.trans_le (Nat.max_le.mpr ⟨hn, hfew⟩)⟩

end Move

theorem Run.numbered {n : Nat} {draws : List Nat} {s : Store α} (h : Run (few n) (.blank draws) s)
    (hn : 0 < n) : s.callers.Numbered ∧ s.callers.fresh ≤ n := by
  induction h with
  | refl => exact ⟨.start, hn⟩
  | step _ m _ ok ih => exact Move.numbered_apply ih.1 ih.2 ok

/-! ### Seats -/

/-- What a call does to a listed entry that stays listed: nothing, unless it grants the entry something or
removes it through another pool. -/
theorem Call.entry_apply_of_listed {s : Store α} {p : PoolId} {e : EntryId} (hs : s.registry.Sound)
    (he : e ∈ s.members p) (d : Call α) (hstays : e ∈ (d.apply s).members p) :
    (∃ r, d.granted? s = some (e, r) ∧ (s.entry e).Grants r ∧
      (d.apply s).registry = s.registry.grant e r) ∨
    (∃ q, q ≠ p ∧ d = .remove q e) ∨
    ((∀ r, d.granted? s ≠ some (e, r)) ∧ (d.apply s).entry e = s.entry e) := by
  have hc := d.change s
  change e ∈ ((d.apply s).registry.roster p).members at hstays
  change _ ∨ _ ∨ _ ∧ (d.apply s).registry.entry e = s.registry.entry e
  generalize (d.apply s).registry = w at hc hstays
  cases hc with
  | create name settings detector? => exact .inr (.inr ⟨by simp [granted?], rfl⟩)
  | refuse refused =>
    have hnone := refused.granted?
    exact .inr (.inr ⟨by simp [hnone], rfl⟩)
  | reserve q =>
    have hlt : e < s.registry.size := hs.bounded p e ((hs.listed p).subset he)
    exact .inr (.inr ⟨by simp [granted?], reserve_entry_of_ne _ q hlt.ne⟩)
  | @serve _ x r answer grants =>
    by_cases hx : e = x
    · subst hx
      exact .inl ⟨r, answer, grants, rfl⟩
    · refine .inr (.inr ⟨fun k hk => hx ?_, grant_entry_of_ne _ r hx⟩)
      exact (Prod.mk.inj (Option.some.inj (hk.symm.trans answer))).1
  | evict q x _ _ _ listed =>
    by_cases hx : e = x
    · subst hx
      obtain rfl := hs.eq_of_mem he listed
      have hroster : (((s.registry.grant e .remove).strike p e).roster p).members =
          (s.registry.roster p).members.erase e := by
        simp [strike, Registry.grant]
      rw [hroster] at hstays
      exact absurd hstays (hs.nodup p).not_mem_erase
    · exact .inr (.inr ⟨by simp [granted?], grant_entry_of_ne _ .remove hx⟩)
  | disown q x _ _ _ unlisted =>
    by_cases hx : e = x
    · subst hx
      refine .inr (.inl ⟨q, ?_, rfl⟩)
      rintro rfl
      exact unlisted he
    · exact .inr (.inr ⟨by simp [granted?], grant_entry_of_ne _ .remove hx⟩)
  | close q =>
    have hne : q ≠ p := by
      rintro rfl
      simp [Registry.close] at hstays
    have hout : e ∉ (s.registry.roster q).members := fun hq => hne (hs.eq_of_mem hq he)
    exact .inr (.inr ⟨by simp [granted?], if_neg hout⟩)

/-- Each entry in the list of an open pool, which callers search from their own numbers, is idle or held by
the caller whose number is its place. -/
structure Store.Seated (s : Store α) (p : PoolId) (L : List EntryId) (live : List CallerId) : Prop where
  sound : s.registry.Sound
  opened : (s.pool p).closed = false
  settled : (s.pool p).settings.strategy = .byCaller ∧ (s.pool p).settings.cached = false
  members : s.members p = L
  seats : ∀ i e, L[i]? = some e → s.state e = .idle ∨ (s.Holds i e ∧ i ∈ live)

theorem scan_of_idle {ε : Type} {members : List ε} {idle : ε → Bool} {probes index : Nat} {e : ε}
    (he : members[index]? = some e) (hi : idle e = true) (hp : 0 < probes) (size : Nat) :
    scan members idle probes index size = some e := by
  obtain ⟨probes, rfl⟩ := Nat.exists_eq_succ_of_ne_zero hp.ne'
  rw [scan, he]
  exact if_pos hi

namespace Store.Seated

variable {s t : Store α} {p : PoolId} {L : List EntryId} {live live' : List CallerId}

theorem nodup (h : s.Seated p L live) : L.Nodup :=
  h.members ▸ h.sound.nodup p

theorem alike (h : s.Seated p L live) (same : s.Alike t) : t.Seated p L live where
  sound := same.registry ▸ h.sound
  opened := by
    have hc : (t.pool p).bare.closed = (s.pool p).bare.closed := by rw [same.pool p]
    exact hc.trans h.opened
  settled := by
    have hsettings : (t.pool p).bare.settings = (s.pool p).bare.settings := by rw [same.pool p]
    change (t.pool p).settings = (s.pool p).settings at hsettings
    exact hsettings ▸ h.settled
  members := by
    have hm : (t.pool p).bare.members = (s.pool p).bare.members := by rw [same.pool p]
    exact hm.trans h.members
  seats i e he := by
    have hstate : t.state e = s.state e := congrArg (fun v : Registry α => (v.entry e).state) same.registry
    have htaker : t.lastTaker? e = s.lastTaker? e := by
      rw [lastTaker?, same.takings, lastTaker?]
    unfold Holds
    rw [hstate, htaker]
    exact h.seats i e he

/-- Who has a small number and holds no entry of the list gets the entry in its own place. -/
theorem acquire (h : s.Seated p L live) {c : CallerId} (hc : c < L.length) (hnone : ∀ e ∈ L, ¬ s.Holds c e) :
    (s.acquire p c).1 = some L[c] := by
  have hget : L[c]? = some L[c] := List.getElem?_eq_getElem hc
  have hidle : s.isIdle L[c] = true := by
    refine Entry.isIdle_iff.mpr ?_
    rcases h.seats c L[c] hget with hi | ⟨hh, -⟩
    · exact hi
    · exact absurd hh (hnone _ (List.getElem_mem hc))
  have hnohint : s.hinted? p c = none := by
    unfold hinted?
    rw [h.settled.2]
    rfl
  have hstart : (s.start p c).1 = c := by
    have hplace : (Strategy.byCaller.start (s.members p).length c (s.draws.headD 0) (s.pool p).turn).1 = c := by
      rw [h.members]
      exact Nat.mod_eq_of_lt hc
    rw [← h.settled.1] at hplace
    exact hplace
  obtain ⟨hnil, -⟩ | ⟨x, hx, -⟩ | ⟨-, i, t, ht, hrest⟩ := acquire_cases (s := s) (p := p) c h.opened
  · rw [h.members] at hnil
    exact absurd hc (by simp [hnil])
  · simp [hnohint] at hx
  · have hr := s.registry_start p c
    rw [ht] at hr hstart
    obtain rfl : i = c := hstart
    have hmembers : t.members p = L :=
      (congrArg (fun v : Registry α => (v.roster p).members) hr).trans h.members
    have hti : t.isIdle L[i] = true :=
      (congrArg (fun v : Registry α => (v.entry L[i]).isIdle) hr).trans hidle
    rw [hmembers, scan_of_idle hget hti (Nat.zero_lt_of_lt hc)] at hrest
    obtain ⟨x, hx, ha⟩ | ⟨hx, -⟩ := hrest
    · rw [ha, hx]
    · simp at hx

/-- Nothing but what its callers do in turn happens to an entry in the list. -/
theorem seat_apply (h : s.Seated p L live) (hlive : ∀ c ∈ live, c < L.length) {d : Call α}
    (hd : d.TakesTurns p L live s) (hspared : d.Spares p L s) {i : Nat} {e : EntryId}
    (he : L[i]? = some e) : (d.apply s).state e = .idle ∨ ((d.apply s).Holds i e ∧ i ∈ live) := by
  have hmem : e ∈ L := List.mem_of_getElem? he
  have hlisted : e ∈ s.members p := h.members.symm ▸ hmem
  have hstays : e ∈ (d.apply s).members p := hd.1.symm ▸ hmem
  have hpending : s.state e ≠ .pending := by
    rcases h.seats i e he with hi | ⟨hh, -⟩
    · simp [hi]
    · simp [hh.1]
  obtain ⟨r, hgranted, hg, hr⟩ | ⟨q, hq, rfl⟩ | ⟨hnone, hsame⟩ :=
    d.entry_apply_of_listed h.sound hlisted hstays
  · have hstate : (d.apply s).state e = r.target := by
      change ((d.apply s).registry.entry e).state = r.target
      rw [hr, grant_entry_self]
      exact Entry.state_answer hg
    cases d with
    | enable x v atOnce =>
      dsimp only [Call.granted?] at hgranted
      split_ifs at hgranted
      obtain ⟨rfl, rfl⟩ := Prod.mk.inj (Option.some.inj hgranted)
      exact absurd (Entry.grants_enable_iff.mp hg) hpending
    | fulfil q c x v =>
      dsimp only [Call.granted?] at hgranted
      split_ifs at hgranted
      obtain ⟨rfl, rfl⟩ := Prod.mk.inj (Option.some.inj hgranted)
      exact absurd (Entry.grants_enable_iff.mp hg) hpending
    | release q c x =>
      dsimp only [Call.granted?] at hgranted
      split_ifs at hgranted
      obtain ⟨rfl, rfl⟩ := Prod.mk.inj (Option.some.inj hgranted)
      exact .inl hstate
    | acquire q c =>
      obtain ⟨x, hx, hpair⟩ := Option.map_eq_some_iff.mp hgranted
      obtain ⟨rfl, rfl⟩ := Prod.mk.inj hpair
      by_cases hq : q = p
      · subst hq
        obtain ⟨hc, hfree⟩ := hd.2 rfl
        have hgot := h.acquire (hlive c hc) hfree
        have hplace : i = c := by
          have hci : L[c]? = some x := by
            rw [List.getElem?_eq_getElem (hlive c hc)]
            exact hgot.symm.trans hx
          exact (List.getElem?_inj (List.getElem?_eq_some_iff.mp he).1 h.nodup).mp (he.trans hci.symm)
        subst hplace
        refine .inr ⟨⟨hstate, ?_⟩, hc⟩
        rw [Call.lastTaker?_apply]
        simp only [Call.taking?, hx, Option.map_some, if_true]
      · exact absurd hx (hspared hq x hmem)
    | _ => simp [Call.granted?] at hgranted
  · exact absurd hmem (hspared hq)
  · have hstate : (d.apply s).state e = s.state e := congrArg Entry.state hsame
    have htaker : (d.apply s).lastTaker? e = s.lastTaker? e := by
      rw [Call.lastTaker?_apply]
      cases htaking : d.taking? s with
      | none => rfl
      | some x =>
        obtain ⟨k, c⟩ := x
        obtain ⟨r, hr⟩ := Call.granted?_of_taking? htaking
        refine if_neg ?_
        rintro rfl
        exact hnone r hr
    unfold Holds
    rw [hstate, htaker]
    exact h.seats i e he

theorem apply (h : s.Seated p L live) (hL : L ≠ []) (hlive : ∀ c ∈ live, c < L.length) {d : Call α}
    (hd : d.TakesTurns p L live s) (hspared : d.Spares p L s) : (d.apply s).Seated p L live where
  sound := d.sound_apply h.sound
  opened := by
    rw [← Bool.not_eq_true]
    intro hc
    have hempty : (d.apply s).members p = [] := (d.sound_apply h.sound).emptied p hc
    exact hL (hd.1.symm.trans hempty)
  settled := by
    have hsettings := d.pool_keeps (fun x : Pool α => x.settings) (fun _ _ => rfl) (fun _ _ => rfl)
      (fun _ _ => rfl) (fun _ _ => rfl) (fun _ _ _ _ => rfl) fun _ _ _ _ => (lt_size_of_open h.opened).ne
    exact hsettings ▸ h.settled
  members := hd.1
  seats _ _ he := h.seat_apply hlive hd hspared he

/-- Who holds an entry has to stay among the callers. -/
theorem weaken (h : s.Seated p L live)
    (hlive : ∀ i e, L[i]? = some e → s.Holds i e → i ∈ live → i ∈ live') : s.Seated p L live' where
  sound := h.sound
  opened := h.opened
  settled := h.settled
  members := h.members
  seats i e he := (h.seats i e he).imp_right fun ⟨hh, hi⟩ => ⟨hh, hlive i e he hh hi⟩

end Store.Seated

section Steps

variable {s t : Store α} {p : PoolId} {L : List EntryId}

theorem Store.Seated.calls (h : s.Seated p L s.callers.numbers) (hL : L ≠ []) (hn : s.callers.Numbered)
    (hfresh : s.callers.fresh ≤ L.length) {m : Move α} (hm : sharing p L s m) :
    (m.apply s).Seated p L s.callers.numbers ∧
      ∀ u d, (u, d) ∈ m.calls s → u.Seated p L s.callers.numbers := by
  have hlive : ∀ c ∈ s.callers.numbers, c < L.length :=
    fun c hc => Nat.lt_of_lt_of_le (hn.lt_fresh hc) hfresh
  have hcall : ∀ u d, (u, d) ∈ m.calls s → u.Seated p L s.callers.numbers →
      (d.apply u).Seated p L s.callers.numbers :=
    fun u d hd hu => hu.apply hL hlive (hm.1.2.2 (u, d) hd) (hm.2 (u, d) hd)
  have haside : ∀ u v : Store α, u.Alike v → u.Seated p L s.callers.numbers →
      v.Seated p L s.callers.numbers := fun _ _ same hu => hu.alike same
  exact ⟨(m.trace s).keeps haside hcall h, fun u d hd => (m.trace s).holds_of_mem haside hcall h hd⟩

/-- Whoever still holds an entry after a call is there still. -/
theorem Store.Seated.move (h : s.Seated p L s.callers.numbers) (hL : L ≠ []) (hn : s.callers.Numbered)
    (hfresh : s.callers.fresh ≤ L.length) {m : Move α} (hm : sharing p L s m) :
    (m.apply s).Seated p L (m.apply s).callers.numbers := by
  have hseated := (h.calls hL hn hfresh hm).1
  cases hpassage : m.isPassage with
  | false =>
    rw [Move.callers_apply s hpassage]
    exact hseated
  | true =>
    cases m with
    | enter name => exact hseated.weaken fun i e _ _ hi => Callers.mem_numbers_enter hi name
    | leave name =>
      have hreturned := hm.1.2.1
      cases hc : s.callers.find? name with
      | none =>
        have hstays : (Move.leave name).apply s = s := by simp [Move.apply, Callers.leave?, hc]
        rw [hstays]
        exact h
      | some c =>
        obtain ⟨callers, hl⟩ : ∃ callers, s.callers.leave? name = some callers := by
          simp [Callers.leave?, hc]
        have happly : (Move.leave name).apply s = { s with callers } := by simp [Move.apply, hl]
        rw [happly] at hseated ⊢
        refine hseated.weaken fun i e he hh hi => ?_
        have hne : i ≠ c := by
          rintro rfl
          exact hreturned i (by simp [hc]) e (List.mem_of_getElem? he) hh
        exact hn.mem_numbers_leave hc hl hi hne
    | _ => simp [Move.isPassage] at hpassage

end Steps

/--
As long as there are no more callers than entries in the list of a pool that they search from their numbers,
and they share it, every acquire gets the entry in the place of the caller's number, which nobody else holds.
-/
theorem each_gets_its_place {draws : List Nat} {s t : Store α} {log : List (Moved α)} {p : PoolId}
    {L : List EntryId} (before : Run (few L.length) (.blank draws) s) (hL : L ≠ [])
    (opened : (s.pool p).closed = false) (strategy : (s.pool p).settings.strategy = .byCaller)
    (uncached : (s.pool p).settings.cached = false) (members : s.members p = L)
    (idle : ∀ e ∈ L, s.state e = .idle) (after : Session (sharing p L) s log t) :
    (∀ x ∈ log, ∀ u c, (u, .acquire p c) ∈ x.2.calls x.1 →
      ∃ e, L[c]? = some e ∧ (u.acquire p c).1 = some e) ∧
    ∀ i e, L[i]? = some e → t.state e = .idle ∨ (t.Holds i e ∧ i ∈ t.callers.numbers) := by
  have hpos : 0 < L.length := List.length_pos_iff.mpr hL
  have hinv : t.Seated p L t.callers.numbers ∧ t.callers.Numbered ∧ t.callers.fresh ≤ L.length ∧
      ∀ x ∈ log, ∀ u c, (u, .acquire p c) ∈ x.2.calls x.1 →
        ∃ e, L[c]? = some e ∧ (u.acquire p c).1 = some e := by
    induction after with
    | start =>
      obtain ⟨hn, hfresh⟩ := before.numbered hpos
      have hsound : s.registry.Sound := before.sound
      have hseats : ∀ i e, L[i]? = some e → s.state e = .idle ∨ (s.Holds i e ∧ i ∈ s.callers.numbers) :=
        fun i e he => .inl (idle e (List.mem_of_getElem? he))
      exact ⟨⟨hsound, opened, ⟨strategy, uncached⟩, members, hseats⟩, hn, hfresh,
        fun _ hx => absurd hx List.not_mem_nil⟩
    | @move log t _ m _ ok ih =>
      obtain ⟨hseated, hn, hfresh, hlog⟩ := ih
      obtain ⟨hn', hfresh'⟩ := Move.numbered_apply hn hfresh ok.1.1
      refine ⟨hseated.move hL hn hfresh ok, hn', hfresh', fun x hx u c hc => ?_⟩
      rcases List.mem_append.mp hx with hx | hx
      · exact hlog x hx u c hc
      · obtain rfl := List.mem_singleton.mp hx
        have hu := (hseated.calls hL hn hfresh ok).2 u _ hc
        obtain ⟨hlive, hnone⟩ := (ok.1.2.2 _ hc).2 rfl
        have hlt : c < L.length := Nat.lt_of_lt_of_le (hn.lt_fresh hlive) hfresh
        exact ⟨L[c], List.getElem?_eq_getElem hlt, hu.acquire hlt hnone⟩
  exact ⟨hinv.2.2.2, hinv.1.seats⟩

/-- Callers come and go, two of them at a time, and each gets the entry in the place of its number. -/
theorem each_gets_its_place_in_turns :
    let ms : List (Move Nat) := [.create "p" { strategy := .byCaller } none, .enter "a", .reserve 0,
      .enable 0 7 false, .reserve 0, .enable 1 8 false]
    let more : List (Move Nat) := [.acquire true 0 1, .lease false 0 0 "g", .release true 0 1 1, .leave "a",
      .enter "b", .acquire true 0 1, .dropGuard 0 "g", .acquire false 0 0]
    let s := ms.foldl Move.apply (.blank [])
    Run (few 2) (.blank []) s ∧ s.members 0 = [0, 1] ∧
      Session (sharing 0 [0, 1]) s (Move.log s more) (more.foldl Move.apply s) ∧
      ∀ x ∈ Move.log s more, ∀ u c, (u, .acquire 0 c) ∈ x.2.calls x.1 →
        ∃ e, [0, 1][c]? = some e ∧ (u.acquire 0 c).1 = some e := by
  intro ms more s
  have hrun : Run (few 2) (.blank []) s := (History.of_along _ ms (by decide +kernel)).run
  have hm : s.members 0 = [0, 1] := by decide +kernel
  have hsession : Session (sharing 0 [0, 1]) s (Move.log s more) (more.foldl Move.apply s) :=
    .of_along s more (by decide +kernel)
  have hplaces := (each_gets_its_place (L := [0, 1]) hrun (by simp) (by decide +kernel) (by decide +kernel)
    (by decide +kernel) hm (by decide +kernel) hsession).1
  exact ⟨hrun, hm, hsession, hplaces⟩

/-- Taking turns is not enough: a removal through another pool closes an idle entry that stays in the list, and
a hint of another pool hands out the entry in somebody else's place. -/
theorem each_gets_its_place_not_meddled_with :
    (let ms : List (Move Nat) := [.create "p" { strategy := .byCaller } none, .create "q" {} none,
        .reserve 0, .enable 0 7 false]
      let more : List (Move Nat) := [.remove true 1 0]
      let s := ms.foldl Move.apply (.blank [])
      let t := more.foldl Move.apply s
      Run (few 1) (.blank []) s ∧ (s.pool 0).closed = false ∧
        (s.pool 0).settings.strategy = .byCaller ∧ (s.pool 0).settings.cached = false ∧
        s.members 0 = [0] ∧ s.state 0 = .idle ∧ Session (taking 0 [0]) s (Move.log s more) t ∧
        taking 0 [0] t (.acquire true 0 0) ∧ (t.acquire 0 0).1 = none) ∧
    (let ms : List (Move Nat) := [.create "p" { strategy := .byCaller } none,
        .create "q" { cached := true } none, .reserve 0, .enable 0 7 false, .reserve 0, .enable 1 8 false,
        .reserve 1, .enable 2 9 false, .enter "a", .acquire true 0 1, .release true 1 0 1]
      let more : List (Move Nat) := [.acquire true 1 0]
      let s := ms.foldl Move.apply (.blank [])
      let t := more.foldl Move.apply s
      Run (few 2) (.blank []) s ∧ (s.pool 0).closed = false ∧
        (s.pool 0).settings.strategy = .byCaller ∧ (s.pool 0).settings.cached = false ∧
        s.members 0 = [0, 1] ∧ s.state 0 = .idle ∧ s.state 1 = .idle ∧
        Session (taking 0 [0, 1]) s (Move.log s more) t ∧ taking 0 [0, 1] t (.acquire true 0 1) ∧
        (t.acquire 0 1).1 = some 0) := by
  constructor
  · intro ms more s t
    have hrun : Run (few 1) (.blank []) s := (History.of_along _ ms (by decide +kernel)).run
    have hsession : Session (taking 0 [0]) s (Move.log s more) t := .of_along s more (by decide +kernel)
    exact ⟨hrun, by decide +kernel, by decide +kernel, by decide +kernel, by decide +kernel,
      by decide +kernel, hsession, by decide +kernel, by decide +kernel⟩
  · intro ms more s t
    have hrun : Run (few 2) (.blank []) s := (History.of_along _ ms (by decide +kernel)).run
    have hsession : Session (taking 0 [0, 1]) s (Move.log s more) t := .of_along s more (by decide +kernel)
    exact ⟨hrun, by decide +kernel, by decide +kernel, by decide +kernel, by decide +kernel,
      by decide +kernel, by decide +kernel, hsession, by decide +kernel, by decide +kernel⟩

end ResourcePool
