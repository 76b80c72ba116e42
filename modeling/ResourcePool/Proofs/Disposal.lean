import Mathlib.Data.List.Nodup
import ResourcePool.Proofs.Closing
import ResourcePool.Proofs.Membership

/-! Disposal: what closing a pool notes of its members, and which values it passes to the disposer. No other
call disposes of anything. -/
namespace ResourcePool
open Registry

variable {α : Type}

def Event.isSkipped : Event α → Bool
  | .skipped .. => true
  | _ => false

namespace Store

/-- The value that closing the pool passes to the disposer for a member. -/
def discard? (s : Store α) (p : PoolId) (e : EntryId) : Option α :=
  if s.state e = .closed then none else (s.pool p).settings.dispose?.bind fun _ => s.value? e

/-- What is noted of a member when a value of it is disposed of. A failure is noted and nothing more. -/
def disposalEvents (s : Store α) (p : PoolId) (e : EntryId) : List (Event α) :=
  match (s.pool p).settings.dispose?, s.value? e with
  | some dispose, some v => .disposed p e v :: ((dispose v).map Event.disposalFailed).toList
  | _, _ => []

/-- What is noted of a member when the pool closes. -/
def farewell (s : Store α) (p : PoolId) (e : EntryId) : List (Event α) :=
  if s.state e = .closed then [.skipped p e] else .reclaimed p e :: s.disposalEvents p e

variable {s t : Store α} {p : PoolId} {e : EntryId}

/-- What is noted and disposed of depends on the entry and the disposer only. -/
theorem farewell_congr (he : t.entry e = s.entry e)
    (hd : (t.pool p).settings.dispose? = (s.pool p).settings.dispose?) :
    t.farewell p e = s.farewell p e ∧ t.discard? p e = s.discard? p e := by
  unfold farewell disposalEvents discard? state value?
  rw [he, hd]
  exact ⟨rfl, rfl⟩

/-- Whether the disposer fails makes no difference but for the note of it. -/
theorem dispose_eq (s : Store α) (p : PoolId) (e : EntryId) :
    (s.dispose p e).1 = ((s.pool p).settings.dispose?.bind fun _ => s.value? e).toList ∧
      (s.dispose p e).2.events = s.events ++ s.disposalEvents p e := by
  unfold dispose disposalEvents
  cases (s.pool p).settings.dispose? with
  | none => exact ⟨rfl, (List.append_nil _).symm⟩
  | some dispose =>
    cases s.value? e with
    | none => exact ⟨rfl, (List.append_nil _).symm⟩
    | some v =>
      dsimp only
      cases dispose v with
      | none => exact ⟨rfl, events_note s _⟩
      | some reason =>
        refine ⟨rfl, ?_⟩
        rw [events_note, events_note, List.append_assoc]
        rfl

/-- Closes an open entry and disposes of its value. -/
def retire (s : Store α) (p : PoolId) (e : EntryId) : List α × Store α :=
  ((s.setEntry e (s.entry e).tryRemove.2).note (.reclaimed p e)).dispose p e

/-- Retiring an entry leaves the others and the pools alone. -/
theorem retire_eq (hc : s.state e ≠ .closed) :
    (∀ i ≠ e, (s.retire p e).2.entry i = s.entry i) ∧ (s.retire p e).2.pools = s.pools ∧
    (s.retire p e).2.events = s.events ++ s.farewell p e ∧
    (s.retire p e).1 = (s.discard? p e).toList := by
  have hg : (s.entry e).Grants .remove := Entry.grants_remove_iff.mpr hc
  let u := (s.setEntry e (s.entry e).tryRemove.2).note (.reclaimed p e)
  have hu : u.registry = s.registry.grant e .remove := registry_grant hg rfl rfl
  have hentry : (u.dispose p e).2.entry = (s.registry.grant e .remove).entry :=
    congrArg Registry.entry ((u.registry_dispose p e).trans hu)
  have hvalue : u.value? e = s.value? e := by
    have hv : u.entry e = (s.registry.grant e .remove).entry e :=
      congrArg (fun v : Registry α => v.entry e) hu
    unfold value?
    rw [hv, grant_entry_self]
    exact (congrArg Entry.value? (Entry.answer_remove hg)).trans (Entry.value?_closed _)
  obtain ⟨hfst, hlog⟩ := u.dispose_eq p e
  have hdisposal : u.disposalEvents p e = s.disposalEvents p e := by
    unfold disposalEvents
    rw [hvalue]
    rfl
  have hfarewell : s.farewell p e = .reclaimed p e :: s.disposalEvents p e := if_neg hc
  have hdiscard : s.discard? p e = (s.pool p).settings.dispose?.bind fun _ => s.value? e := if_neg hc
  refine ⟨fun i hi => ?_, u.pools_dispose p e, ?_, ?_⟩
  · exact (congrFun hentry i).trans (grant_entry_of_ne _ _ hi)
  · have hevents : u.events = s.events ++ [.reclaimed p e] := events_note _ _
    change (u.dispose p e).2.events = _
    rw [hlog, hdisposal, hevents, hfarewell, List.append_assoc, List.singleton_append]
  · change (u.dispose p e).1 = _
    rw [hfst, hvalue, hdiscard]
    rfl

theorem reclaim_cons_of_closed (hc : s.state e = .closed) (es : List EntryId) :
    reclaim p (e :: es) s = reclaim p es (s.note (.skipped p e)) := by
  have hx : (s.entry e).tryRemove = (false, s.entry e) := by
    change (s.entry e).state = .closed at hc
    cases hs : s.entry e with
    | closed v => rfl
    | _ => simp [hs, Entry.state] at hc
  rw [reclaim, hx]

theorem reclaim_cons_of_open (hc : s.state e ≠ .closed) (es : List EntryId) :
    reclaim p (e :: es) s = ((reclaim p es (s.retire p e).2).1 + 1,
      (s.retire p e).1 ++ (reclaim p es (s.retire p e).2).2.1,
      (reclaim p es (s.retire p e).2).2.2) := by
  have hg : (s.entry e).Grants .remove := Entry.grants_remove_iff.mpr hc
  have hx : (s.entry e).tryRemove = (true, (s.entry e).tryRemove.2) := Prod.ext (Except.ok.inj hg) rfl
  rw [reclaim, hx]
  rfl

/-- Reclaiming the first entry leaves the others and the pools alone. -/
theorem reclaim_cons (s : Store α) (p : PoolId) (e : EntryId) (es : List EntryId) : ∃ t : Store α,
    (∀ i ≠ e, t.entry i = s.entry i) ∧ t.pools = s.pools ∧
    t.events = s.events ++ s.farewell p e ∧
    (reclaim p (e :: es) s).1 = (reclaim p es t).1 + (if s.state e ≠ .closed then 1 else 0) ∧
    (reclaim p (e :: es) s).2.1 = (s.discard? p e).toList ++ (reclaim p es t).2.1 ∧
    (reclaim p (e :: es) s).2.2 = (reclaim p es t).2.2 := by
  by_cases hc : s.state e = .closed
  · have hf : s.farewell p e = [.skipped p e] := if_pos hc
    have hd : s.discard? p e = none := if_pos hc
    refine ⟨s.note (.skipped p e), fun _ _ => rfl, rfl, ?_, ?_, ?_, ?_⟩
    · rw [events_note, hf]
    · rw [reclaim_cons_of_closed hc, if_neg (not_not_intro hc), Nat.add_zero]
    · rw [reclaim_cons_of_closed hc, hd, Option.toList_none, List.nil_append]
    · rw [reclaim_cons_of_closed hc]
  · obtain ⟨hentry, hpools, hevents, hvalues⟩ := retire_eq (p := p) hc
    refine ⟨(s.retire p e).2, hentry, hpools, hevents, ?_, ?_, ?_⟩
    · rw [reclaim_cons_of_open hc, if_pos hc]
    · rw [reclaim_cons_of_open hc, hvalues]
    · rw [reclaim_cons_of_open hc]

/-- What reclaiming distinct entries counts, disposes of and notes is settled before it begins. -/
theorem reclaim_eq (p : PoolId) (es : List EntryId) (hes : es.Nodup) (s : Store α) :
    (reclaim p es s).1 = es.countP (fun e => s.state e ≠ .closed) ∧
    (reclaim p es s).2.1 = es.filterMap (s.discard? p) ∧
    (reclaim p es s).2.2.events = s.events ++ es.flatMap (s.farewell p) := by
  induction es generalizing s with
  | nil => simp [reclaim]
  | cons e es ih =>
    obtain ⟨hnot, hes⟩ := List.nodup_cons.mp hes
    obtain ⟨t, hentry, hpools, hnote, hone, hvalue, hstore⟩ := s.reclaim_cons p e es
    obtain ⟨hn, hvs, hlog⟩ := ih hes t
    have hsame : ∀ i ∈ es, t.state i = s.state i ∧ t.farewell p i = s.farewell p i ∧
        t.discard? p i = s.discard? p i := by
      intro i hi
      have he : t.entry i = s.entry i := hentry i fun h => hnot (h ▸ hi)
      refine ⟨congrArg Entry.state he, farewell_congr he ?_⟩
      unfold pool
      rw [hpools]
    refine ⟨?_, ?_, ?_⟩
    · rw [hone, hn, List.countP_cons]
      congr 1
      · refine List.countP_congr fun i hi => ?_
        rw [(hsame i hi).1]
      · simp only [decide_eq_true_eq]
    · rw [hvalue, hvs, List.filterMap_congr fun i hi => (hsame i hi).2.2]
      cases hd : s.discard? p e <;> simp [hd]
    · rw [hstore, hlog, hnote, List.flatMap_congr fun i hi => (hsame i hi).2.1, List.flatMap_cons,
        List.append_assoc]

/-- What closing a pool notes. -/
def closeEvents (s : Store α) (p : PoolId) : List (Event α) :=
  if s.members p = [] then []
  else (s.members p).flatMap (s.farewell p) ++
    [.closed p (s.members p).length ((s.members p).countP fun e => s.state e ≠ .closed)]

/-- What closing a pool passes to its disposer: the values of the members that are open, in order. -/
def discards (s : Store α) (p : PoolId) : List (PoolId × EntryId × α) :=
  if (s.pool p).settings.dispose?.isSome then
    ((s.members p).filter fun e => s.state e ≠ .closed).filterMap fun e =>
      (s.value? e).map fun v => (p, e, v)
  else []

theorem discards_eq (s : Store α) (p : PoolId) :
    s.discards p = (s.members p).filterMap fun e => (s.discard? p e).map fun v => (p, e, v) := by
  unfold discards discard?
  cases (s.pool p).settings.dispose? with
  | none =>
    refine (List.filterMap_eq_nil_iff.mpr fun e _ => ?_).symm
    split_ifs <;> rfl
  | some dispose =>
    rw [if_pos Option.isSome_some, List.filterMap_filter]
    refine List.filterMap_congr fun e _ => ?_
    by_cases hc : s.state e = .closed <;> simp [hc]

/-- The values that closing a pool returns are those that it disposes of. -/
theorem discards_values (s : Store α) (p : PoolId) :
    (s.discards p).map (fun y => y.2.2) = (s.members p).filterMap (s.discard? p) := by
  rw [discards_eq, List.map_filterMap]
  refine List.filterMap_congr fun e _ => ?_
  cases s.discard? p e <;> rfl

theorem close_eq (hm : (s.members p).Nodup) :
    (s.close p).1 = (s.discards p).map (fun y => y.2.2) ∧
      (s.close p).2.events = s.events ++ s.closeEvents p := by
  rw [discards_values]
  let u := s.modifyPool p fun pool => { pool with closed := true, members := [], hints := {} }
  have hsettings : (u.pool p).settings = (s.pool p).settings :=
    s.modifyPool_keeps Pool.settings p p fun _ => rfl
  have hu : ∀ e, u.farewell p e = s.farewell p e ∧ u.discard? p e = s.discard? p e :=
    fun e => farewell_congr rfl (by rw [hsettings])
  obtain ⟨hn, hvs, hlog⟩ := reclaim_eq p (s.members p) hm u
  unfold close closeEvents
  dsimp only
  by_cases he : s.members p = []
  · rw [if_pos (List.isEmpty_iff.mpr he), if_pos he, he]
    exact ⟨rfl, (List.append_nil _).symm⟩
  · rw [if_neg (mt List.isEmpty_iff.mp he), if_neg he]
    refine ⟨?_, ?_⟩
    · exact hvs.trans (List.filterMap_congr fun e _ => (hu e).2)
    · rw [events_note, ← List.append_assoc]
      change (reclaim p (s.members p) u).2.2.events ++ [.closed p _ (reclaim p (s.members p) u).1] = _
      rw [hlog, hn, List.flatMap_congr fun e _ => (hu e).1]
      rfl

/-- Every member is either reclaimed or skipped. -/
theorem countP_skipped (s : Store α) (p : PoolId) :
    ((s.members p).countP fun e => s.state e ≠ .closed) +
      (s.closeEvents p).countP Event.isSkipped = (s.members p).length := by
  have hone : ∀ e, (s.farewell p e).countP Event.isSkipped = if s.state e = .closed then 1 else 0 := by
    intro e
    unfold farewell disposalEvents
    split_ifs
    · rfl
    · split
      · next dispose v _ _ => cases dispose v <;> rfl
      · rfl
  have hall : ∀ es : List EntryId, (es.flatMap (s.farewell p)).countP Event.isSkipped =
      es.countP fun e => s.state e = .closed := by
    intro es
    induction es with
    | nil => rfl
    | cons e es ih =>
      rw [List.flatMap_cons, List.countP_append, ih, hone, List.countP_cons, Nat.add_comm]
      simp only [decide_eq_true_eq]
  have hlog : (s.closeEvents p).countP Event.isSkipped =
      (s.members p).countP fun e => s.state e = .closed := by
    unfold closeEvents
    split_ifs with h
    · rw [h]
      rfl
    · rw [List.countP_append, hall]
      rfl
  rw [hlog, List.length_eq_countP_add_countP fun e => s.state e ≠ .closed]
  simp

/-- The note that the pool closed counts the members right. -/
theorem of_closed_mem_closeEvents {q : PoolId} {drained reclaimed : Nat}
    (h : .closed q drained reclaimed ∈ s.closeEvents p) : q = p ∧
      drained = (s.members p).length ∧
      reclaimed + (s.closeEvents p).countP Event.isSkipped = drained := by
  have hcount := s.countP_skipped p
  have hone : ∀ e, .closed q drained reclaimed ∉ s.farewell p e := by
    intro e
    unfold farewell disposalEvents
    split_ifs
    · simp
    · split
      · next dispose v _ _ => cases hd : dispose v <;> simp
      · simp
  by_cases hm : s.members p = []
  · rw [closeEvents, if_pos hm] at h
    exact absurd h List.not_mem_nil
  · rw [closeEvents, if_neg hm] at h
    rcases List.mem_append.mp h with h | h
    · obtain ⟨e, -, he⟩ := List.mem_flatMap.mp h
      exact absurd he (hone e)
    · obtain ⟨rfl, rfl, rfl⟩ := Event.closed.inj (List.mem_singleton.mp h)
      exact ⟨rfl, rfl, hcount⟩

theorem disposals_closeEvents (s : Store α) (p : PoolId) :
    (s.closeEvents p).filterMap Event.disposal? = s.discards p := by
  have hone : ∀ e, (s.farewell p e).filterMap Event.disposal? =
      ((s.discard? p e).map fun v => (p, e, v)).toList := by
    intro e
    unfold farewell disposalEvents discard?
    split_ifs
    · rfl
    · cases (s.pool p).settings.dispose? with
      | none => rfl
      | some dispose =>
        cases s.value? e with
        | none => rfl
        | some v =>
          dsimp only
          cases dispose v <;> rfl
  have hall : ∀ es : List EntryId, (es.flatMap (s.farewell p)).filterMap Event.disposal? =
      es.filterMap fun e => (s.discard? p e).map fun v => (p, e, v) := by
    intro es
    induction es with
    | nil => rfl
    | cons e es ih =>
      rw [List.flatMap_cons, List.filterMap_append, ih, hone]
      cases hd : s.discard? p e <;> simp [hd]
  rw [discards_eq]
  unfold closeEvents
  split_ifs with h
  · rw [h]
    rfl
  · rw [List.filterMap_append, hall]
    exact List.append_nil _

/-- Where only quiet events are noted, nothing is disposed of. -/
theorem Frame.disposed (h : Frame Event.Quiet p s t) : t.disposed = s.disposed := by
  obtain ⟨xs, hxs, hquiet⟩ := h.events
  have hnone : xs.filterMap Event.disposal? = [] :=
    List.filterMap_eq_nil_iff.mpr fun x hx => (hquiet x hx).1
  rw [Store.disposed, hxs, List.filterMap_append, hnone, List.append_nil, Store.disposed]

end Store

/-- The values that a call passes to a disposer. -/
def Call.disposals (s : Store α) : Call α → List (PoolId × EntryId × α)
  | close p => s.discards p
  | _ => []

namespace Call

variable {s : Store α} {c : Call α}

theorem disposed_apply (hs : s.registry.Sound) (c : Call α) :
    (c.apply s).disposed = s.disposed ++ c.disposals s := by
  have hnone : ∀ {t : Store α}, t.disposed = s.disposed → t.disposed = s.disposed ++ [] :=
    fun h => h.trans (List.append_nil _).symm
  cases c with
  | create => exact hnone rfl
  | reserve p => exact hnone (s.frame_reserve p).disposed
  | enable e v atOnce => exact hnone (s.frame_enable 0 e v atOnce).disposed
  | acquire p c => exact hnone (s.frame_acquire p c).disposed
  | fulfil p c e v => exact hnone (s.frame_settle p c e _).disposed
  | release p c e => exact hnone (s.frame_release p c e).disposed
  | remove p e => exact hnone (s.frame_remove p e).disposed
  | close p =>
    have hlog := (Store.close_eq (hs.nodup p)).2
    change (s.close p).2.events.filterMap Event.disposal? = _
    rw [hlog, List.filterMap_append, s.disposals_closeEvents]
    rfl

/-- A value is disposed of by the call that closes its entry. -/
theorem closes_of_mem_disposals {y : PoolId × EntryId × α} (h : y ∈ c.disposals s) :
    c.Closes s y.2.1 := by
  cases c with
  | close p =>
    change y ∈ s.discards p at h
    rw [s.discards_eq] at h
    obtain ⟨e, hm, hy⟩ := List.mem_filterMap.mp h
    obtain ⟨v, hd, rfl⟩ := Option.map_eq_some_iff.mp hy
    have hopen : s.state e ≠ .closed := by
      intro hc
      rw [Store.discard?, if_pos hc] at hd
      exact absurd hd (by simp)
    refine ⟨hopen, ?_⟩
    have hr : ((s.close p).2.registry.entry e).state = ((s.registry.close p).entry e).state := by
      rw [s.registry_close p]
    change ((s.close p).2.registry.entry e).state = .closed
    rw [hr]
    change (if e ∈ (s.registry.roster p).members then _ else _ : Entry α).state = .closed
    rw [if_pos (show e ∈ (s.registry.roster p).members from hm)]
    rfl
  | _ => exact absurd h List.not_mem_nil

end Call

namespace Store

/-- The values of an entry that were passed to disposers. -/
def disposedOf (s : Store α) (e : EntryId) : List (PoolId × EntryId × α) :=
  s.disposed.filter fun y => y.2.1 = e

/-- A closing pool passes on the value of a member once. -/
theorem discards_filter {s : Store α} {p : PoolId} {e : EntryId} (hm : (s.members p).Nodup)
    (he : e ∈ s.members p) : (s.discards p).filter (fun y => y.2.1 = e) =
      ((s.discard? p e).map fun v => (p, e, v)).toList := by
  have hself : (s.members p).filter (· = e) = [e] := by
    have hcount : (s.members p).count e = 1 := List.count_eq_one_of_mem hm he
    rw [List.filter_eq, hcount, List.replicate_one]
  have hswap : (s.discards p).filter (fun y => y.2.1 = e) =
      ((s.members p).filter (· = e)).filterMap fun i => (s.discard? p i).map fun v => (p, i, v) := by
    rw [s.discards_eq, List.filter_filterMap, List.filterMap_filter]
    refine List.filterMap_congr fun i _ => ?_
    by_cases hi : i = e <;> cases s.discard? p i <;> simp [hi]
  rw [hswap, hself]
  cases hd : s.discard? p e <;> simp [hd]

end Store

theorem Trace.disposed_eq {s t : Store α} {calls : List (Called α)} (h : Trace s calls t)
    (hs : s.registry.Sound) :
    t.disposed = s.disposed ++ calls.flatMap fun x => x.2.disposals x.1 := by
  induction h with
  | start => exact (List.append_nil _).symm
  | aside _ same ih => rw [same.disposed, ih]
  | @call calls u h c ih =>
    have hu : u.registry.Sound := h.keeps (P := fun v : Store α => v.registry.Sound)
      (fun _ _ same hv => same.registry ▸ hv) (fun _ d _ hv => d.sound_apply hv) hs
    rw [c.disposed_apply hu, ih, List.flatMap_append, List.append_assoc]
    simp

/-- The values of an entry were passed on by the calls that closed it. -/
theorem disposals_filter (e : EntryId) (calls : List (Called α)) :
    (calls.flatMap fun x => x.2.disposals x.1).filter (fun y => y.2.1 = e) =
      (closings e calls).flatMap fun x => (x.2.disposals x.1).filter fun y => y.2.1 = e := by
  induction calls with
  | nil => rfl
  | cons x calls ih =>
    rw [List.flatMap_cons, List.filter_append, ih]
    by_cases hx : x.2.Closes x.1 e
    · have hcons : closings e (x :: calls) = x :: closings e calls :=
        List.filter_cons_of_pos (decide_eq_true hx)
      rw [hcons, List.flatMap_cons]
    · have hcons : closings e (x :: calls) = closings e calls :=
        List.filter_cons_of_neg (by simpa using hx)
      have hnone : (x.2.disposals x.1).filter (fun y => y.2.1 = e) = [] := by
        refine List.filter_eq_nil_iff.mpr fun y hy hye => hx ?_
        exact of_decide_eq_true hye ▸ Call.closes_of_mem_disposals hy
      rw [hcons, hnone, List.nil_append]

theorem History.sound_of_mem {allowed : Store α → Move α → Prop} {draws : List Nat} {s t : Store α}
    {calls : List (Called α)} {c : Call α} (h : History allowed (.blank draws) calls s)
    (hc : (t, c) ∈ calls) : t.registry.Sound :=
  h.trace.holds_of_mem (P := fun u : Store α => u.registry.Sound)
    (fun _ _ same hv => same.registry ▸ hv) (fun _ d _ hv => d.sound_apply hv)
    (sound_blank draws) hc

/-- An entry was closed by one call of the run if it is closed, and by none if it is not. -/
theorem History.length_closings {allowed : Store α → Move α → Prop} {draws : List Nat} {s : Store α}
    {calls : List (Called α)} (h : History allowed (.blank draws) calls s) (e : EntryId) :
    (closings e calls).length = if s.Gone e then 1 else 0 := by
  have hblank : ¬ (Store.blank draws : Store α).Gone e := fun hg => Nat.not_lt_zero e hg.1
  have hlen := h.trace.length_closings e
  rwa [if_neg hblank, Nat.zero_add] at hlen

theorem History.disposedOf_eq {allowed : Store α → Move α → Prop} {draws : List Nat} {s : Store α}
    {calls : List (Called α)} (h : History allowed (.blank draws) calls s) (e : EntryId) :
    s.disposedOf e =
      (closings e calls).flatMap fun x => (x.2.disposals x.1).filter fun y => y.2.1 = e := by
  have hblank : (Store.blank draws : Store α).disposed = [] := rfl
  rw [Store.disposedOf, h.trace.disposed_eq (sound_blank draws), hblank, List.nil_append,
    disposals_filter]

theorem History.exists_closing {allowed : Store α → Move α → Prop} {draws : List Nat} {s : Store α}
    {calls : List (Called α)} (h : History allowed (.blank draws) calls s) {e : EntryId}
    (he : s.Gone e) : ∃ t c, closings e calls = [(t, c)] ∧ (t, c) ∈ calls ∧ c.Closes t e := by
  have hone : (closings e calls).length = 1 := by rw [h.length_closings e, if_pos he]
  obtain ⟨⟨t, c⟩, hclosings⟩ := List.length_eq_one_iff.mp hone
  have hmem : (t, c) ∈ closings e calls := hclosings ▸ List.mem_singleton_self _
  obtain ⟨hcalls, hcloses⟩ := List.mem_filter.mp hmem
  exact ⟨t, c, hclosings, hcalls, of_decide_eq_true hcloses⟩

/-- A closed entry was closed by one call, a removal or the closing of the pool that listed it. Only a removal
through that pool says yes, and none does once the entry is closed. The value is passed to a disposer if
the entry had one and closed with a pool that disposes of values, and that once. A closing pool disposes of
the values of its open members in their order, whatever the disposer answers, and of the members that it
drained it notes those as skipped that it did not reclaim. -/
theorem closed_and_disposed_once {allowed : Store α → Move α → Prop} {draws : List Nat} {s : Store α}
    {calls : List (Called α)} (h : History allowed (.blank draws) calls s) :
    (∀ e, ¬ s.Gone e → closings e calls = [] ∧ retirings e calls = [] ∧ s.disposedOf e = []) ∧
    (∀ e, s.Gone e → ∃ t c, closings e calls = [(t, c)] ∧
      ((∃ q, c = .remove q e ∧ retirings e calls = (if e ∈ t.members q then [(t, c)] else []) ∧
        s.disposedOf e = []) ∨
      (∃ p, c = .close p ∧ e ∈ t.members p ∧ retirings e calls = [] ∧ s.disposedOf e =
        if (t.pool p).settings.dispose?.isSome then (t.value? e).toList.map fun v => (p, e, v)
        else []))) ∧
    (∀ e t, s.Gone e → Run free s t → ∀ q, (t.remove q e).1 = false) ∧
    (∀ t p, (t, .close p) ∈ calls →
      (t.close p).2.disposed = t.disposed ++ t.discards p ∧
      (t.close p).1 = (t.discards p).map (fun y => y.2.2) ∧
      (t.close p).2.events = t.events ++ t.closeEvents p ∧
      ∀ q drained reclaimed, .closed q drained reclaimed ∈ t.closeEvents p → q = p ∧
        drained = (t.members p).length ∧
        reclaimed + (t.closeEvents p).countP Event.isSkipped = drained) := by
  refine ⟨fun e he => ?_, fun e he => ?_, fun e t he hrun q => ?_, fun t p hc => ?_⟩
  · have hnone : closings e calls = [] := by
      refine List.eq_nil_of_length_eq_zero ?_
      rw [h.length_closings e, if_neg he]
    refine ⟨hnone, ?_, ?_⟩
    · rw [retirings_eq, hnone]
      rfl
    · rw [h.disposedOf_eq, hnone]
      rfl
  · obtain ⟨t, c, hclosings, hcalls, hc⟩ := h.exists_closing he
    have hretirings : retirings e calls = if c.Retires t e then [(t, c)] else [] := by
      rw [retirings_eq, hclosings]
      by_cases hr : c.Retires t e <;> simp [hr]
    have hdisposed : s.disposedOf e = (c.disposals t).filter fun y => y.2.1 = e := by
      rw [h.disposedOf_eq, hclosings, List.flatMap_singleton]
    refine ⟨t, c, hclosings, ?_⟩
    rcases hc.cases with ⟨q, rfl, hr⟩ | ⟨p, rfl, hm⟩
    · refine .inl ⟨q, rfl, ?_, hdisposed⟩
      rw [hretirings, if_congr hr rfl rfl]
    · have hd : t.discard? p e = (t.pool p).settings.dispose?.bind fun _ => t.value? e :=
        if_neg hc.1
      refine .inr ⟨p, rfl, hm, hretirings.trans (if_neg id), ?_⟩
      rw [hdisposed, Call.disposals, Store.discards_filter ((h.sound_of_mem hcalls).nodup p) hm, hd]
      cases (t.pool p).settings.dispose? with
      | none => rfl
      | some dispose => cases t.value? e <;> rfl
  · have hclosed : t.state e = .closed := hrun.path.extends.closed e he.1 he.2
    exact (Store.remove_of_not_grants fun hg => Entry.grants_remove_iff.mp hg hclosed).1
  · have ht := h.sound_of_mem hc
    obtain ⟨hvalues, hlog⟩ := Store.close_eq (ht.nodup p)
    exact ⟨Call.disposed_apply ht (.close p), hvalues, hlog,
      fun _ _ _ hx => Store.of_closed_mem_closeEvents hx⟩

/-- A pool with a disposer that fails closes when one of its members was removed through another pool and one
through itself. -/
theorem closed_and_disposed_once_failing_disposer :
    let ms : List (Move Nat) := [.create "p" { dispose? := some fun _ => some "busy" } none,
      .create "q" {} none, .reserve 0, .reserve 0, .reserve 0, .reserve 0, .enable 0 7 false,
      .enable 1 8 true, .enable 2 9 false, .remove true 1 2, .remove true 0 3, .close 0,
      .remove true 1 0]
    let s := ms.foldl Move.apply (.blank [])
    History free (.blank []) (Move.trail (.blank []) ms) s ∧ s.Gone 0 ∧ s.Gone 2 ∧
      s.disposed = [(0, 0, 7), (0, 1, 8)] ∧
      (closings 2 (Move.trail (.blank []) ms)).map (fun x => x.1.members 0) = [[0, 1, 2, 3]] ∧
      ∃ t c, closings 0 (Move.trail (.blank []) ms) = [(t, c)] := by
  intro ms s
  have hh : History free (.blank []) (Move.trail (.blank []) ms) s :=
    .of_moves _ ms (by decide +kernel)
  have h0 : s.Gone 0 := by decide +kernel
  obtain ⟨t, c, hc, -⟩ := (closed_and_disposed_once hh).2.1 0 h0
  exact ⟨hh, h0, by decide +kernel, by decide +kernel, by decide +kernel, t, c, hc⟩

end ResourcePool
