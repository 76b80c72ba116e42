import ResourcePool.Proofs.Closing
import ResourcePool.Proofs.Membership
import ResourcePool.Proofs.Outcomes
import ResourcePool.Proofs.Run.Calls

/-! Creations that come to nothing. The entry reserved for one is closed and leaves the list, whatever the
creator did to it, and where the creator did nothing little else has changed. -/
namespace ResourcePool
open Registry

variable {α ρ : Type}

/-- What `acquireWith` answers for a creation that came to nothing, unless it panicked. -/
def Creation.failure? : Creation α → Option (Except CreationError (Option EntryId))
  | .nothing => some (.ok none)
  | .refused reason => some (.error (.refused reason))
  | _ => none

/-- Whether one of the calls closed an entry by a removal through another pool than `p`. -/
def ClosedElsewhere (p : PoolId) (e : EntryId) (calls : List (Called α)) : Prop :=
  ∃ s q, q ≠ p ∧ (s, .remove q e) ∈ calls ∧ (Call.remove q e).Closes s e

/-- Where an entry of `p` stands after calls: listed while it is open, and once closed only if that was done
elsewhere and the pool is open still. -/
structure Store.Stands (s : Store α) (p : PoolId) (e : EntryId) (calls : List (Called α)) : Prop where
  sound : s.registry.Sound
  known : p < s.pools.size
  reserved : e ∈ s.reservations p
  elsewhere : ClosedElsewhere p e calls → s.state e = .closed
  listed : s.state e = .closed →
    (e ∈ s.members p ↔ (s.pool p).closed = false ∧ ClosedElsewhere p e calls)

/-! ### Calls of the creator -/

theorem closedElsewhere_append {p : PoolId} {e : EntryId} {calls calls' : List (Called α)} :
    ClosedElsewhere p e (calls ++ calls') ↔ ClosedElsewhere p e calls ∨ ClosedElsewhere p e calls' := by
  constructor
  · rintro ⟨s, q, hq, hmem, hcloses⟩
    rcases List.mem_append.mp hmem with hmem | hmem
    · exact .inl ⟨s, q, hq, hmem, hcloses⟩
    · exact .inr ⟨s, q, hq, hmem, hcloses⟩
  · rintro (⟨s, q, hq, hmem, hcloses⟩ | ⟨s, q, hq, hmem, hcloses⟩)
    · exact ⟨s, q, hq, List.mem_append_left _ hmem, hcloses⟩
    · exact ⟨s, q, hq, List.mem_append_right _ hmem, hcloses⟩

theorem closedElsewhere_singleton {p : PoolId} {e : EntryId} {s : Store α} {c : Call α} :
    ClosedElsewhere p e [(s, c)] ↔ ∃ q, q ≠ p ∧ c = .remove q e ∧ c.Closes s e := by
  constructor
  · rintro ⟨t, q, hq, hmem, hcloses⟩
    obtain ⟨rfl, rfl⟩ := Prod.mk.inj (List.mem_singleton.mp hmem)
    exact ⟨q, hq, rfl, hcloses⟩
  · rintro ⟨q, hq, rfl, hcloses⟩
    exact ⟨s, q, hq, List.mem_singleton_self _, hcloses⟩

/-- A closed entry leaves a list only with the list. -/
theorem Call.members_of_gone {s : Store α} {p : PoolId} {e : EntryId} (c : Call α)
    (hp : p < s.pools.size) (hg : s.Gone e) :
    (((c.apply s).pool p).closed = true ∧ (c.apply s).members p = []) ∨
      ((c.apply s).pool p).closed = (s.pool p).closed ∧
        (e ∈ (c.apply s).members p ↔ e ∈ s.members p) := by
  have hc := c.change s
  change (((c.apply s).registry.roster p).closed = true ∧ ((c.apply s).registry.roster p).members = []) ∨
    ((c.apply s).registry.roster p).closed = (s.registry.roster p).closed ∧
      (e ∈ ((c.apply s).registry.roster p).members ↔ e ∈ (s.registry.roster p).members)
  generalize (c.apply s).registry = w at hc
  cases hc with
  | create name settings detector? =>
    have hroster : (s.registry.create s.pools.size settings.maxEntries).roster p = s.registry.roster p :=
      Function.update_of_ne hp.ne _ _
    rw [hroster]
    exact .inr ⟨rfl, Iff.rfl⟩
  | reserve q =>
    by_cases hq : p = q
    · subst hq
      have hne : e ≠ s.registry.size := hg.1.ne
      rw [reserve_roster_self]
      exact .inr ⟨rfl, by simp [hne]⟩
    · rw [reserve_roster_of_ne _ hq]
      exact .inr ⟨rfl, Iff.rfl⟩
  | evict q x answer opened grants =>
    have hne : e ≠ x := by
      rintro rfl
      exact Entry.not_grants_of_closed hg.2 _ grants
    by_cases hq : p = q
    · subst hq
      have hroster : ((s.registry.grant x .remove).strike p x).roster p =
          { s.registry.roster p with members := (s.registry.roster p).members.erase x } :=
        Function.update_self ..
      rw [hroster]
      exact .inr ⟨rfl, List.mem_erase_of_ne hne⟩
    · have hroster : ((s.registry.grant x .remove).strike q x).roster p = s.registry.roster p :=
        Function.update_of_ne hq _ _
      rw [hroster]
      exact .inr ⟨rfl, Iff.rfl⟩
  | close q =>
    by_cases hq : p = q
    · subst hq
      have hroster : (s.registry.close p).roster p =
          { s.registry.roster p with members := [], closed := true } :=
        Function.update_self ..
      rw [hroster]
      exact .inl ⟨rfl, rfl⟩
    · have hroster : (s.registry.close q).roster p = s.registry.roster p := Function.update_of_ne hq _ _
      rw [hroster]
      exact .inr ⟨rfl, Iff.rfl⟩
  | serve | disown | refuse => exact .inr ⟨rfl, Iff.rfl⟩

namespace Store.Stands

variable {s t : Store α} {p : PoolId} {e : EntryId} {calls : List (Called α)}

theorem gone (h : s.Stands p e calls) (hc : s.state e = .closed) : s.Gone e :=
  ⟨h.sound.bounded p e h.reserved, hc⟩

theorem opened (h : s.Stands p e calls) (hm : e ∈ s.members p) : (s.pool p).closed = false := by
  by_contra hp
  rw [Bool.not_eq_false] at hp
  have hnil : s.members p = [] := h.sound.emptied p hp
  simp [hnil] at hm

/-- Its removal through its own pool closes the entry, if it is not closed by then. -/
theorem closed_of_remove (h : s.Stands p e calls) : (s.remove p e).2.state e = .closed := by
  by_cases hx : s.state e = .closed
  · have hgone := (Call.gone_apply_iff s (.remove p e) e).mpr (.inl (h.gone hx))
    exact hgone.2
  · have hm : e ∈ s.members p := h.sound.kept p e h.reserved hx
    have hg : (s.entry e).Grants .remove := Entry.grants_remove_iff.mpr hx
    have hretires : (Call.remove p e).Retires s e := ⟨rfl, (remove_of_mem (h.opened hm) hg hm).1⟩
    exact hretires.closes.2

theorem aside (h : s.Stands p e calls) (same : s.Alike t) : t.Stands p e calls where
  sound := same.registry.symm ▸ h.sound
  known := same.known.symm ▸ h.known
  reserved := by
    have hr : t.reservations = s.reservations := congrArg Registry.reservations same.registry
    exact hr.symm ▸ h.reserved
  elsewhere hc := by
    have hx : t.state e = s.state e := congrArg (fun v : Registry α => (v.entry e).state) same.registry
    exact hx.trans (h.elsewhere hc)
  listed hc := by
    have hx : t.state e = s.state e := congrArg (fun v : Registry α => (v.entry e).state) same.registry
    have hm : t.members p = s.members p :=
      congrArg (fun v : Registry α => (v.roster p).members) same.registry
    have hp : (t.pool p).closed = (s.pool p).closed :=
      congrArg (fun v : Registry α => (v.roster p).closed) same.registry
    rw [hm, hp]
    exact h.listed (hx.symm.trans hc)

/-- The call that closes the entry. -/
theorem closes (h : s.Stands p e calls) {c : Call α} (hc : c.Closes s e) :
    e ∈ (c.apply s).members p ↔
      ((c.apply s).pool p).closed = false ∧ ClosedElsewhere p e (calls ++ [(s, c)]) := by
  have hmem : e ∈ s.members p := h.sound.kept p e h.reserved hc.1
  have hbefore : ¬ ClosedElsewhere p e calls := fun hx => hc.1 (h.elsewhere hx)
  have hopen : (s.pool p).closed = false := h.opened hmem
  rw [closedElsewhere_append, or_iff_right hbefore, closedElsewhere_singleton]
  rcases hc.cases with ⟨q, rfl, hretires⟩ | ⟨q, rfl, hq⟩
  · by_cases hq : q = p
    · subst hq
      have hg : (s.entry e).Grants .remove := Entry.grants_remove_iff.mpr hc.1
      have hmembers : (s.remove q e).2.members q = (s.members q).erase e :=
        congrArg Pool.members (Store.pool_remove_of_mem hopen hg hmem)
      have hout : e ∉ (s.remove q e).2.members q := by
        rw [hmembers]
        exact (h.sound.nodup q).not_mem_erase
      refine iff_of_false hout ?_
      rintro ⟨-, q', hne, hcall, -⟩
      exact hne (by injection hcall with hq'; exact hq'.symm)
    · have hpool : ((Call.remove q e).apply s).pool p = s.pool p :=
        Call.pool_apply_of_ne fun hsite => hq (Option.some.inj hsite)
      have hstill : e ∈ ((Call.remove q e).apply s).members p := by
        unfold Store.members
        rw [hpool]
        exact hmem
      exact iff_of_true hstill ⟨hpool ▸ hopen, q, hq, rfl, hc⟩
  · obtain rfl : q = p := h.sound.eq_of_mem hq hmem
    have hpool := Store.pool_close h.known
    refine iff_of_false ?_ ?_
    · change e ∉ ((s.close q).2.pool q).members
      rw [hpool]
      exact List.not_mem_nil
    · rintro ⟨-, q', -, hcall, -⟩
      exact absurd hcall (by simp)

theorem call (h : s.Stands p e calls) (c : Call α) :
    (c.apply s).Stands p e (calls ++ [(s, c)]) where
  sound := c.sound_apply h.sound
  known := Nat.lt_of_lt_of_le h.known (c.size_apply s)
  reserved := (c.reservations_apply s p).subset h.reserved
  elsewhere hc := by
    refine ((c.gone_apply_iff s e).mpr ?_).2
    rcases closedElsewhere_append.mp hc with hc | hc
    · exact .inl (h.gone (h.elsewhere hc))
    · obtain ⟨-, -, -, hcloses⟩ := closedElsewhere_singleton.mp hc
      exact .inr hcloses
  listed hc := by
    by_cases hs : s.state e = .closed
    · have hsame : ClosedElsewhere p e (calls ++ [(s, c)]) ↔ ClosedElsewhere p e calls := by
        rw [closedElsewhere_append, closedElsewhere_singleton]
        exact or_iff_left fun ⟨_, _, _, hcloses⟩ => hcloses.1 hs
      rw [hsame]
      rcases c.members_of_gone h.known (h.gone hs) with ⟨hclosed, hnil⟩ | ⟨hclosed, hmem⟩
      · simp [hclosed, hnil]
      · rw [hmem, hclosed]
        exact h.listed hs
    · exact h.closes ⟨hs, hc⟩

end Store.Stands

/-- What the calls of a run leave of an entry that `p` reserved for a creation. -/
theorem Trace.stands {u w : Store α} {p : PoolId} {e : EntryId} {calls : List (Called α)}
    (h : Trace u calls w) (hu : u.Stands p e []) : w.Stands p e calls := by
  induction h with
  | start => exact hu
  | aside _ same ih => exact ih.aside same
  | call _ c ih => exact ih.call c

theorem Store.stands_of_reserve {t u : Store α} {p : PoolId} {e : EntryId} (ht : t.registry.Sound)
    (h : t.reserve p = (some e, u)) : u.Stands p e [] := by
  have he : (t.reserve p).1 = some e := by rw [h]
  have hm := mem_of_reserve he
  have ho := open_of_reserve he
  have hs := Call.sound_apply ht (.reserve p)
  have hr := Run.mem_reservations_of_reserve he
  change (t.reserve p).2.registry.Sound at hs
  rw [h] at hm ho hs hr
  have hnot : u.state e ≠ .closed := by simp [hm.2]
  exact ⟨hs, lt_size_of_open ho, hr, fun ⟨_, _, _, hx, _⟩ => absurd hx List.not_mem_nil,
    fun hc => absurd hc hnot⟩

/-! ### A creator that makes no calls -/

namespace Store

/-- The store after a creation that came to nothing by itself: a closed entry more, and a miss and a removal
counted. -/
def rolledBack (s : Store α) (p : PoolId) : Store α :=
  let e := s.entries.size
  { s with
    entries := s.entries.push (.closed none)
    pools := s.pools.modify p fun x => x.missed.count fun k => { k with removed := k.removed + 1 }
    draws := s.drawn p
    journal := ((s.journal.record (.missed p)).record (.reserved p e)).record (.removed p e) }

variable {s t u : Store α} {p : PoolId} {c : CallerId} {e : EntryId}

/-- A reservation is taken back by the removal of what was reserved. -/
theorem remove_of_reserve (hnew : t.entries.size ∉ (t.pool p).members) (hr : t.reserve p = (some e, u))
    (handles : List EntryId) :
    ({ u with handles }.remove p e).2 =
      { t.count p fun k => { k with removed := k.removed + 1 } with
        entries := t.entries.push (.closed none)
        handles
        journal := (t.journal.record (.reserved p e)).record (.removed p e) } := by
  have hopen : (u.pool p).closed = false := by
    have ho := open_of_reserve (congrArg Prod.fst hr)
    rw [hr] at ho
    exact ho
  have hmem := mem_of_reserve (congrArg Prod.fst hr)
  rw [hr] at hmem
  have hx : u.state e ≠ .closed := by simp [hmem.2]
  have hremove := remove_of_listed (s := { u with handles }) hopen hx hmem.1
  obtain ⟨rfl, hu⟩ := eq_of_reserve_eq_some hr
  have hvalue : u.value? t.entries.size = none := by
    have hentry : u.entry t.entries.size = .pending := by
      rw [hu]
      exact (congrFun (t.entry_push .pending) _).trans (Function.update_self ..)
    simp [value?, hentry, Entry.value?]
  have hentries : u.entries.setIfInBounds t.entries.size (.closed (u.value? t.entries.size)) =
      t.entries.push (.closed none) := by
    rw [hvalue, hu]
    simp [Array.setIfInBounds, Array.set_push]
  have hpools : ((u.modifyPool p fun x => { x with members := x.members.erase t.entries.size }).count p
      fun k => { k with removed := k.removed + 1 }).pools =
        (t.count p fun k => { k with removed := k.removed + 1 }).pools := by
    have herase : ((t.pool p).members ++ [t.entries.size]).erase t.entries.size = (t.pool p).members := by
      rw [List.erase_append_right _ hnew, List.erase_cons_head, List.append_nil]
    have hround : ((t.modifyPool p fun x => { x with members := x.members ++ [t.entries.size] }).modifyPool p
        fun x => { x with members := x.members.erase t.entries.size }).count p
          (fun k => { k with removed := k.removed + 1 }) =
        t.count p fun k => { k with removed := k.removed + 1 } := by
      unfold count
      rw [modifyPool_modifyPool, modifyPool_modifyPool]
      refine modifyPool_congr ?_
      simp only [herase]
    have hsame := congrArg Store.pools hround
    rw [hu]
    exact hsame
  rw [hremove]
  subst hu
  exact congrArg₂ (fun entries pools => { t with
    entries, pools, handles
    journal := (t.journal.record (.reserved p t.entries.size)).record (.removed p t.entries.size) })
    hentries hpools

/-- A creation that comes to nothing by itself leaves a closed entry, and a miss and a removal in the
counters. -/
theorem remove_of_missed (hs : s.registry.Sound) (ha : s.acquire p c = (none, t))
    (hr : t.reserve p = (some e, u)) (handles : List EntryId) :
    ({ u with handles }.remove p e).2 = { s.rolledBack p with handles } := by
  have hp : (s.pool p).closed = false := by
    by_contra hp
    rw [Bool.not_eq_false] at hp
    have ht : s = t := (Prod.mk.inj ((acquire_of_closed c hp).symm.trans ha)).2
    have hnone : (t.reserve p).1 = none := by
      rw [t.reserve_fst p, ← ht]
      exact if_pos (by simp [show (s.roster p).closed = true from hp])
    simp [hr] at hnone
  have hsize : p < s.pools.size := lt_size_of_open hp
  have ht := eq_of_acquire_eq_none hp ha
  have hpool : t.pool p = (s.pool p).missed := by
    rw [ht]
    exact pool_modifyPool_self hsize _
  have hnew : t.entries.size ∉ (t.pool p).members := by
    have hfresh : s.entries.size ∉ s.members p := fun hm =>
      absurd (hs.bounded p _ ((hs.listed p).subset hm)) (Nat.lt_irrefl _)
    rw [hpool, ht]
    exact hfresh
  obtain ⟨rfl, -⟩ := eq_of_reserve_eq_some hr
  rw [remove_of_reserve hnew hr handles, ht]
  have hpools : ((s.modifyPool p Pool.missed).count p fun k => { k with removed := k.removed + 1 }) =
      s.modifyPool p fun x => x.missed.count fun k => { k with removed := k.removed + 1 } :=
    s.modifyPool_modifyPool p _ _
  exact congrArg (fun y => { s.rolledBack p with pools := y.pools, handles }) hpools

end Store

/-! ### Rollback -/

/-- A creation that comes to nothing answers what its creator did, and closes the entry reserved for it, which
leaves the list unless the creator had it removed through another pool and its own stayed open. Where the
creator makes no calls, nothing else has changed but the turn, the draws and two counters. -/
theorem failed_creations_roll_back {draws : List Nat} {s t u w : Store α} {p : PoolId} {c : CallerId}
    {e : EntryId} {creator : EntryId → Store α → Creation α × List ρ × Store α} {creation : Creation α}
    {answer : Except CreationError (Option EntryId)} {reports : List ρ} {calls : List (Called α)}
    (h : Run free (.blank draws) s) (ha : s.acquire p c = (none, t)) (hr : t.reserve p = (some e, u))
    (hc : creator e u = (creation, reports, w)) (hw : History free u calls w)
    (hf : creation.failure? = some answer) (direct : Bool) :
    ∃ v, s.trackedAcquireWith direct p c creator = (answer, reports, v) ∧ v.state e = .closed ∧
      (e ∈ v.members p ↔ (w.pool p).closed = false ∧ ClosedElsewhere p e calls) ∧
      ∀ handles, w = { u with handles } → v = { s.rolledBack p with handles } := by
  have hs : s.registry.Sound := h.sound
  have ht : t.registry.Sound := by
    have hsound := Call.sound_apply hs (.acquire p c)
    change (s.acquire p c).2.registry.Sound at hsound
    rw [ha] at hsound
    exact hsound
  have hu : u.Stands p e [] := Store.stands_of_reserve ht hr
  have hstands : w.Stands p e calls := hw.trace.stands hu
  have hv : (w.remove p e).2.Stands p e (calls ++ [(w, .remove p e)]) := hstands.call (.remove p e)
  have hwith : s.trackedAcquireWith direct p c creator = (answer, reports, (w.remove p e).2) := by
    unfold Store.trackedAcquireWith Store.acquireWith
    rw [ha]
    dsimp only
    rw [hr]
    dsimp only
    rw [hc]
    dsimp only
    cases creation with
    | nothing =>
      obtain rfl := Option.some.inj hf
      rfl
    | refused reason =>
      obtain rfl := Option.some.inj hf
      rfl
    | value v => simp [Creation.failure?] at hf
    | panicked => simp [Creation.failure?] at hf
  have hclosed : (w.remove p e).2.state e = .closed := hstands.closed_of_remove
  have hopen : ((w.remove p e).2.pool p).closed = (w.pool p).closed :=
    Store.remove_keeps Pool.closed (fun _ _ => rfl) (fun _ _ => rfl) w p e
  have hsame : ClosedElsewhere p e (calls ++ [(w, .remove p e)]) ↔ ClosedElsewhere p e calls := by
    rw [closedElsewhere_append, closedElsewhere_singleton]
    refine or_iff_left ?_
    rintro ⟨q, hq, hcall, -⟩
    injection hcall with hpq
    exact hq hpq.symm
  refine ⟨(w.remove p e).2, hwith, hclosed, ?_, ?_⟩
  · rw [hv.listed hclosed, hopen, hsame]
  · rintro handles rfl
    exact Store.remove_of_missed hs ha hr handles

/-- A creator that has the entry removed through the second pool. -/
theorem failed_creations_roll_back_elsewhere :
    let s : Store Nat := [Move.create "p" {} none, .create "q" {} none].foldl Move.apply (.blank [])
    let u := (s.acquire 0 .main).2.reserve 0
    Run free (.blank []) s ∧ (s.acquire 0 .main).1 = none ∧ u.1 = some 0 ∧
      ∃ v, s.trackedAcquireWith true 0 .main (fun _ u =>
          (.refused "no", [()], (Move.remove true 1 0).apply u)) = (.error (.refused "no"), [()], v) ∧
        v.state 0 = .closed ∧ 0 ∈ v.members 0 := by
  intro s u
  have hrun : Run free (.blank []) s := Run.foldl _ _ (by simp [Move.Proper])
  have hmiss : (s.acquire 0 .main).1 = none := by decide
  have hone : u.1 = some 0 := by decide
  have hcalls : History free u.2 [(u.2, .remove 1 0)] ((Move.remove true 1 0).apply u.2) :=
    History.start.move (.remove true 1 0) trivial trivial
  let creator : EntryId → Store Nat → Creation Nat × List Unit × Store Nat :=
    fun _ u => (.refused "no", [()], (Move.remove true 1 0).apply u)
  have hcreator : creator 0 u.2 = (.refused "no", [()], (Move.remove true 1 0).apply u.2) := rfl
  obtain ⟨v, hv, hclosed, hlisted, -⟩ := failed_creations_roll_back (p := 0) (c := .main) hrun
    (t := (s.acquire 0 .main).2) (u := u.2) (e := 0) (Prod.ext hmiss rfl) (Prod.ext hone rfl)
    hcreator hcalls rfl true
  have helse : ClosedElsewhere 0 0 [(u.2, .remove 1 0)] :=
    closedElsewhere_singleton.mpr ⟨1, by decide, rfl, by decide⟩
  exact ⟨hrun, hmiss, hone, v, hv, hclosed, hlisted.mpr ⟨by decide, helse⟩⟩

/-- A creator that closes the pool after that leaves nothing in its list. -/
theorem rolled_back_from_closed_pool :
    ∃ (s t u : Store Nat) (ms : List (Move Nat)), Run free (.blank []) s ∧
      s.acquire 0 .main = (none, t) ∧ t.reserve 0 = (some 0, u) ∧ Move.AllProper u ms ∧
      ClosedElsewhere 0 0 (Move.trail u ms) ∧
      0 ∉ (s.trackedAcquireWith true 0 .main fun _ u =>
        (.nothing, ([] : List Unit), ms.foldl Move.apply u)).2.2.members 0 := by
  let s : Store Nat := [Move.create "p" {} none, .create "q" {} none].foldl Move.apply (.blank [])
  let u := (s.acquire 0 .main).2.reserve 0
  have hrun : Run free (.blank []) s := Run.foldl _ _ (by simp [Move.Proper])
  have helse : ClosedElsewhere 0 0 (Move.trail u.2 [.remove true 1 0, .close 0]) :=
    ⟨u.2, 1, by decide, List.mem_cons_self, by decide⟩
  exact ⟨s, _, u.2, [.remove true 1 0, .close 0], hrun, Prod.ext (by decide) rfl, Prod.ext (by decide) rfl,
    by decide, helse, by decide⟩

end ResourcePool
