import ResourcePool.Proofs.Draining
import ResourcePool.Proofs.Realm
import ResourcePool.Proofs.Run.Program
import ResourcePool.Proofs.Values

/-! Calls within a realm: made on two stores that are linked, they give the same answers, but for numbers, and
the stores stay linked. -/
namespace ResourcePool.Realm
open Store Registry

variable {α ρ : Type} {R : Realm} {rest t u : Store α} {p : PoolId} {e : EntryId}

/-- The open entries of a realm are in the list of its pool. -/
def Kept (R : Realm) (t : Store α) : Prop :=
  ∀ e, R.mine e → t.state e ≠ .closed → e ∈ t.members R.pool

namespace Kept

/-- What is open after a request was open before it, and not removed by it. -/
theorem open_of_grant {v : Registry α} {x : EntryId} {r : Entry.Request α} (grants : (v.entry x).Grants r)
    (h : ((v.grant x r).entry e).state ≠ .closed) :
    (v.entry e).state ≠ .closed ∧ (r = .remove → e ≠ x) := by
  by_cases hx : e = x
  · subst hx
    refine ⟨fun hclosed => Entry.not_grants_of_closed hclosed r grants, ?_⟩
    rintro rfl
    rw [grant_entry_self] at h
    exact absurd (Entry.state_answer grants) h
  · rw [grant_entry_of_ne v r hx] at h
    exact ⟨h, fun _ => hx⟩

theorem of_registry {t' : Store α} (h : R.Kept t) (hr : t'.registry = t.registry) : R.Kept t' := by
  have hv : ∀ e, R.mine e → (t.registry.entry e).state ≠ .closed → e ∈ (t.registry.roster R.pool).members := h
  rw [← hr] at hv
  exact hv

/-- A call leaves no open entry out of the list, if only the pool of the realm reserves. -/
theorem apply (h : R.Kept t) (hp : R.pool < t.pools.size) (d : Call α)
    (hd : ∀ q, d = .reserve q → q = R.pool) : R.Kept (d.apply t) := by
  intro e he hopen
  have hc := d.change t
  change ((d.apply t).registry.entry e).state ≠ .closed at hopen
  change e ∈ ((d.apply t).registry.roster R.pool).members
  generalize (d.apply t).registry = w at hc hopen
  cases hc with
  | create name settings detector? =>
    have hne : R.pool ≠ t.pools.size := Nat.ne_of_lt hp
    simp only [Registry.create, Function.update_of_ne hne]
    exact h e he hopen
  | reserve q _ _ _ =>
    obtain rfl := hd q rfl
    rw [reserve_roster_self]
    by_cases hn : e = t.registry.size
    · exact List.mem_append_right _ (List.mem_singleton.mpr hn)
    · rw [reserve_entry_of_ne _ _ hn] at hopen
      exact List.mem_append_left _ (h e he hopen)
  | serve _ grants _ => exact h e he (open_of_grant grants hopen).1
  | evict q x _ _ grants _ =>
    obtain ⟨hbefore, hne⟩ := open_of_grant grants hopen
    have hm : e ∈ t.members R.pool := h e he hbefore
    by_cases hq : R.pool = q
    · subst hq
      simp only [Registry.strike, Function.update_self]
      exact (List.mem_erase_of_ne (hne rfl)).mpr hm
    · simp only [Registry.strike, Function.update_of_ne hq]
      exact hm
  | disown q x _ _ grants _ => exact h e he (open_of_grant grants hopen).1
  | close q =>
    have hnot : e ∉ (t.registry.roster q).members := by
      intro hm
      simp [Registry.close, Registry.closeAll, hm, Entry.state] at hopen
    have hm : e ∈ t.members R.pool := by
      simp only [Registry.close, Registry.closeAll, if_neg hnot] at hopen
      exact h e he hopen
    have hq : R.pool ≠ q := by
      rintro rfl
      exact hnot hm
    simp only [Registry.close, Function.update_of_ne hq]
    exact hm
  | refuse => exact h e he hopen

end Kept

/-- Linked stores, with all open entries of the realm in the list of its pool. -/
structure InStep (R : Realm) (rest t u : Store α) : Prop extends R.Linked rest t u where
  kept : R.Kept t

/-! ### Outcomes -/

/-- Answers that `Q` relates, given how many entries there are, and stores in step. -/
def Matched {β γ : Type} (R : Realm) (rest : Store α) (Q : Nat → β → γ → Prop) (x : β × Store α)
    (y : γ × Store α) : Prop :=
  Q x.2.entries.size x.1 y.1 ∧ R.InStep rest x.2 y.2

/-- The same answer. -/
def Same {β : Type} (_ : Nat) (x y : β) : Prop :=
  x = y

/-- An entry of the realm, or none. -/
def Got (R : Realm) (n : Nat) (x y : Option EntryId) : Prop :=
  y = x.map R.shift ∧ ∀ e, x = some e → R.Has n e

/-- How a creation ends: with an entry of the realm, with none, or with the same error. -/
inductive Ended (R : Realm) (n : Nat) : Except CreationError (Option EntryId) →
    Except CreationError (Option EntryId) → Prop
  | ok {x y : Option EntryId} (got : R.Got n x y) : Ended R n (.ok x) (.ok y)
  | error (x : CreationError) : Ended R n (.error x) (.error x)

/-- Entries of the realm. -/
def GotAll (R : Realm) (n : Nat) (xs ys : List EntryId) : Prop :=
  ys = xs.map R.shift ∧ ∀ e ∈ xs, R.Has n e

theorem Got.none (R : Realm) (n : Nat) : R.Got n none none :=
  ⟨rfl, fun _ hx => nomatch hx⟩

theorem Got.some {n : Nat} (he : R.Has n e) : R.Got n (some e) (some (R.shift e)) :=
  ⟨rfl, fun _ hx => Option.some.inj hx ▸ he⟩

theorem Got.mono {n m : Nat} {x y : Option EntryId} (h : R.Got n x y) (hnm : n ≤ m) : R.Got m x y :=
  ⟨h.1, fun e he => (h.2 e he).mono hnm⟩

theorem Matched.exists_eq {β γ : Type} {Q : Nat → β → γ → Prop} {x : β × Store α} {y : γ × Store α}
    (h : R.Matched rest Q x y) :
    ∃ b c t u, x = (b, t) ∧ y = (c, u) ∧ Q t.entries.size b c ∧ R.InStep rest t u :=
  ⟨x.1, y.1, x.2, y.2, rfl, rfl, h.1, h.2⟩

/-- So for calls that also return what was reported on the way. -/
def MatchedWith {β γ : Type} (R : Realm) (rest : Store α) (P : Nat → β → γ → Prop)
    (Q : List ρ → List ρ → Prop) (x : β × List ρ × Store α) (y : γ × List ρ × Store α) : Prop :=
  P x.2.2.entries.size x.1 y.1 ∧ Q x.2.1 y.2.1 ∧ R.InStep rest x.2.2 y.2.2

theorem MatchedWith.exists_eq {β γ : Type} {P : Nat → β → γ → Prop} {Q : List ρ → List ρ → Prop}
    {x : β × List ρ × Store α} {y : γ × List ρ × Store α} (h : R.MatchedWith rest P Q x y) :
    ∃ b c rs rs' t u, x = (b, rs, t) ∧ y = (c, rs', u) ∧ P t.entries.size b c ∧ Q rs rs' ∧
      R.InStep rest t u :=
  ⟨x.1, y.1, x.2.1, y.2.1, x.2.2, y.2.2, rfl, rfl, h.1, h.2.1, h.2.2⟩

theorem Matched.of_linked {β γ : Type} {Q : Nat → β → γ → Prop} {x : β × Store α} {y : γ × Store α}
    (kept : R.Kept x.2) (h : Q x.2.entries.size x.1 y.1 ∧ R.Linked rest x.2 y.2) : R.Matched rest Q x y :=
  ⟨h.1, h.2, kept⟩

/-! ### Linked stores -/

theorem isAlive_of_mem {name : String} (hp : t.find? name = some p) (he : e ∈ t.members p) :
    t.isAlive e = true := by
  obtain ⟨l, l', hs, -⟩ := List.lookup_eq_some_iff.mp hp
  unfold isAlive
  simp [hs, he]

namespace Linked

theorem setTracker (h : R.Linked rest t u) {x : Tracker} (hx : x.detector.Apt t.entries.size) :
    R.Linked rest (t.setTracker R.pool x) (u.setTracker R.pool (x.renumber R.shift)) :=
  h.modify rfl (h.refers.track hx)

theorem tracker? (h : R.Linked rest t u) :
    (u.pool R.pool).tracker? = (t.pool R.pool).tracker?.map (·.renumber R.shift) := by
  rw [h.pool, Pool.renumber_tracker?]

theorem observeAcquire (h : R.Linked rest t u) (he : e < t.entries.size) :
    R.Linked rest (t.observeAcquire R.pool e) (u.observeAcquire R.pool (R.shift e)) := by
  unfold Store.observeAcquire
  rw [h.tracker?]
  cases hx : (t.pool R.pool).tracker? with
  | none => exact h
  | some x =>
    have hd := x.detector.acquired_renumber R.shift_injective t.now e
    have hapt := (h.refers.tracked x hx).acquired he t.now
    dsimp only [Option.map_some, Tracker.renumber]
    rw [h.now, hd]
    cases hr : x.detector.acquired t.now e (describe e) with
    | mk accepted d =>
      rw [hr] at hapt
      cases accepted with
      | true => exact h.setTracker hapt
      | false => exact (h.setTracker hapt).note rfl rfl

/-- A return is accepted or refused in both stores. -/
theorem exists_released (h : R.Linked rest t u) {x : Tracker} (hx : (t.pool R.pool).tracker? = some x)
    (e : EntryId) :
    ∃ accepted d, x.detector.released e = (accepted, d) ∧
      (x.detector.renumber R.shift).released (R.shift e) = (accepted, d.renumber R.shift) ∧
      d.Apt t.entries.size :=
  ⟨_, _, rfl, x.detector.released_renumber R.shift_injective e, (h.refers.tracked x hx).released e⟩

theorem observeRelease (h : R.Linked rest t u) (e : EntryId) :
    R.Linked rest (t.observeRelease R.pool e) (u.observeRelease R.pool (R.shift e)) := by
  unfold Store.observeRelease
  rw [h.tracker?]
  cases hx : (t.pool R.pool).tracker? with
  | none => exact h
  | some x =>
    obtain ⟨accepted, d, ht, hu, hapt⟩ := h.exists_released hx e
    dsimp only [Option.map_some, Tracker.renumber]
    rw [ht, hu]
    cases accepted with
    | true => exact h.setTracker hapt
    | false => exact (h.setTracker hapt).note rfl rfl

theorem observeRemoval (h : R.Linked rest t u) (e : EntryId) :
    R.Linked rest (t.observeRemoval R.pool e) (u.observeRemoval R.pool (R.shift e)) := by
  unfold Store.observeRemoval
  rw [h.tracker?]
  cases hx : (t.pool R.pool).tracker? with
  | none => exact h
  | some x =>
    obtain ⟨accepted, d, ht, hu, hapt⟩ := h.exists_released hx e
    dsimp only [Option.map_some, Tracker.renumber]
    rw [ht, hu]
    cases accepted with
    | true => exact h.setTracker hapt
    | false => exact (h.setTracker hapt).note rfl rfl

theorem handOut (h : R.Linked rest t u) (he : R.mine e) (c : CallerId) (hinted : Bool) :
    R.Linked rest (t.handOut R.pool c e hinted) (u.handOut R.pool c (R.shift e) hinted) := by
  unfold Store.handOut
  rw [h.entry e he]
  exact ((h.setEntry he _).count _).note rfl rfl

theorem remember (h : R.Linked rest t u) (he : R.Has t.entries.size e) (c : CallerId) :
    R.Linked rest (t.modifyPool R.pool (·.remember c e))
      (u.modifyPool R.pool (·.remember c (R.shift e))) :=
  h.modify (Pool.remember_renumber c e) (h.refers.remember c he)

theorem handedOut (h : R.Linked rest t u) (he : R.Has t.entries.size e) (c : CallerId) (hinted : Bool) :
    R.Got (t.handOut R.pool c e hinted).entries.size (some e) (some (R.shift e)) ∧
      R.Linked rest (t.handOut R.pool c e hinted) (u.handOut R.pool c (R.shift e) hinted) := by
  have hsize : (t.handOut R.pool c e hinted).entries.size = t.entries.size := t.size_setEntry e _
  exact ⟨hsize.symm ▸ .some he, h.handOut he.1 c hinted⟩

theorem miss (h : R.Linked rest t u) : R.Linked rest (t.miss R.pool) (u.miss R.pool) :=
  (h.count _).note rfl rfl

theorem start (h : R.Linked rest t u) (c : CallerId) :
    (u.start R.pool c).1 = (t.start R.pool c).1 ∧
      R.Linked rest (t.start R.pool c).2 (u.start R.pool c).2 := by
  unfold Store.start
  dsimp only
  rw [h.pool, h.draws, Pool.renumber_settings, Pool.renumber_members, Pool.renumber_turn, List.length_map]
  refine ⟨rfl, (h.draw _).modify rfl ?_⟩
  exact { h.refers with }

theorem value? (h : R.Linked rest t u) (he : R.mine e) : u.value? (R.shift e) = t.value? e :=
  congrArg Entry.value? (h.entry e he)

theorem isIdle (h : R.Linked rest t u) (he : R.mine e) : u.isIdle (R.shift e) = t.isIdle e :=
  congrArg Entry.isIdle (h.entry e he)

theorem members (h : R.Linked rest t u) : u.members R.pool = (t.members R.pool).map R.shift :=
  congrArg Pool.members h.pool

theorem has_of_mem (h : R.Linked rest t u) (he : e ∈ t.members R.pool) : R.Has t.entries.size e :=
  h.refers.listed e he

/-- A search finds the same entry. -/
theorem search (h : R.Linked rest t u) (c : CallerId) (index size : Nat) :
    R.Got (t.search R.pool c index size).2.entries.size (t.search R.pool c index size).1
        (u.search R.pool c index size).1 ∧
      R.Linked rest (t.search R.pool c index size).2 (u.search R.pool c index size).2 := by
  have hscan : scan ((t.members R.pool).map R.shift) u.isIdle size index size =
      (scan (t.members R.pool) t.isIdle size index size).map R.shift :=
    scan_map R.shift (fun e he => h.isIdle (h.has_of_mem he).1) size index size
  unfold Store.search
  rw [h.members, hscan]
  cases hs : scan (t.members R.pool) t.isIdle size index size with
  | none => exact ⟨.none R _, h⟩
  | some e => exact h.handedOut (h.has_of_mem (scan_eq_some hs).1) c false

theorem dispose (h : R.Linked rest t u) (he : R.mine e) :
    (u.dispose R.pool (R.shift e)).1 = (t.dispose R.pool e).1 ∧
      R.Linked rest (t.dispose R.pool e).2 (u.dispose R.pool (R.shift e)).2 := by
  unfold Store.dispose
  rw [h.pool, Pool.renumber_settings, h.value? he]
  split
  · next v _ _ =>
    have hnoted : R.Linked rest (t.note (.disposed R.pool e v)) (u.note (.disposed R.pool (R.shift e) v)) :=
      h.note rfl rfl
    dsimp only
    split
    · exact ⟨rfl, hnoted.note rfl rfl⟩
    · exact ⟨rfl, hnoted⟩
  · exact ⟨rfl, h⟩

theorem reclaim (h : R.Linked rest t u) {es : List EntryId} (hes : ∀ e ∈ es, R.mine e) :
    (Store.reclaim R.pool (es.map R.shift) u).1 = (Store.reclaim R.pool es t).1 ∧
      (Store.reclaim R.pool (es.map R.shift) u).2.1 = (Store.reclaim R.pool es t).2.1 ∧
      R.Linked rest (Store.reclaim R.pool es t).2.2 (Store.reclaim R.pool (es.map R.shift) u).2.2 := by
  induction es generalizing t u with
  | nil => exact ⟨rfl, rfl, h⟩
  | cons e es ih =>
    have he : R.mine e := hes e (by simp)
    have hes : ∀ i ∈ es, R.mine i := fun i hi => hes i (by simp [hi])
    rw [List.map_cons]
    unfold Store.reclaim
    rw [h.entry e he]
    cases (t.entry e).tryRemove with
    | mk done x =>
      cases done with
      | false => exact ih (h.note rfl rfl) hes
      | true =>
        have hset : R.Linked rest ((t.setEntry e x).note (.reclaimed R.pool e))
            ((u.setEntry (R.shift e) x).note (.reclaimed R.pool (R.shift e))) :=
          (h.setEntry he x).note rfl rfl
        obtain ⟨hvalues, hdisposed⟩ := hset.dispose he
        obtain ⟨hn, hmore, hlinked⟩ := ih hdisposed hes
        exact ⟨congrArg (· + 1) hn, congrArg₂ (· ++ ·) hvalues hmore, hlinked⟩

/-! ### Readings -/

theorem tally (h : R.Linked rest t u) : u.tally R.pool = t.tally R.pool := by
  unfold Store.tally
  rw [h.members, List.map_map]
  refine congrArg Tally.ofStates (List.map_congr_left fun e he => ?_)
  exact congrArg Entry.state (h.entry e (h.has_of_mem he).1)

theorem metrics (h : R.Linked rest t u) : u.metrics R.pool = t.metrics R.pool := by
  unfold Store.metrics
  rw [h.tally, h.pool]
  simp [Hints.size, Hints.renumber]

theorem health (h : R.Linked rest t u) : u.health R.pool = t.health R.pool := by
  unfold Store.health
  rw [h.tally, h.pool]
  rfl

theorem summary (h : R.Linked rest t u) : u.summary R.pool = t.summary R.pool := by
  unfold Store.summary
  rw [h.tally, h.pool]
  simp

theorem describePool (h : R.Linked rest t u) : u.describePool R.pool = t.describePool R.pool := by
  unfold Store.describePool
  rw [h.pool]
  simp

end Linked

namespace InStep

/-- An idle entry of the realm is alive in both stores, as the list of the pool holds it. -/
theorem hinted? (h : R.InStep rest t u) (c : CallerId) :
    R.Got t.entries.size (t.hinted? R.pool c) (u.hinted? R.pool c) := by
  unfold Store.hinted? Hints.get?
  rw [h.pool, Pool.renumber_settings, Pool.renumber_hints, Hints.lookup_renumber]
  split_ifs
  · cases hl : (t.pool R.pool).hints.slots.lookup c with
    | none => exact .none R _
    | some e =>
      obtain ⟨l, l', hs, -⟩ := List.lookup_eq_some_iff.mp hl
      have he : R.Has t.entries.size e := h.refers.hinted (c, e) (by simp [hs])
      cases hidle : t.isIdle e with
      | false =>
        have hnone : ∀ (s : Store α) i, s.isIdle i = false →
            ((some i).filter s.isAlive).filter s.isIdle = none := by
          intro s i hi
          cases ha : s.isAlive i <;> simp [Option.filter, ha, hi]
        rw [Option.map_some, hnone t e hidle, hnone u _ ((h.isIdle he.1).trans hidle)]
        exact .none R _
      | true =>
        have hm : e ∈ t.members R.pool := h.kept e he.1 (by simp [state, Entry.isIdle_iff.mp hidle])
        have hm' : R.shift e ∈ u.members R.pool := h.members ▸ List.mem_map_of_mem hm
        have ht : t.isAlive e = true := isAlive_of_mem h.named hm
        have hu : u.isAlive (R.shift e) = true := isAlive_of_mem h.found hm'
        simp [Got, Option.filter, h.isIdle he.1, hidle, ht, hu, he]
  · exact .none R _

theorem acquire (h : R.InStep rest t u) (c : CallerId) :
    R.Matched rest R.Got (t.acquire R.pool c) (u.acquire R.pool c) := by
  refine .of_linked (h.kept.apply h.made (.acquire R.pool c) fun _ hq => nomatch hq) ?_
  have hhint := (h.hinted? c)
  obtain ⟨hi, hstart⟩ := h.start c
  unfold Store.acquire
  rw [h.pool, Pool.renumber_closed, h.members, List.isEmpty_map]
  split_ifs
  · exact ⟨.none R _, h.toLinked⟩
  · exact ⟨.none R _, h.miss⟩
  · rw [hhint.1]
    cases hh : t.hinted? R.pool c with
    | some e => exact h.handedOut (hhint.2 e hh) c true
    | none =>
      dsimp only [Option.map_none]
      cases ht : t.start R.pool c with
      | mk i t' =>
        cases hu : u.start R.pool c with
        | mk j u' =>
          rw [ht, hu] at hi hstart
          obtain rfl : j = i := hi
          have hsearch := hstart.search c j (t'.members R.pool).length
          dsimp only
          rw [hstart.members, List.length_map]
          cases hs : t'.search R.pool c j (t'.members R.pool).length with
          | mk found v =>
            cases hs' : u'.search R.pool c j (t'.members R.pool).length with
            | mk found' w =>
              rw [hs, hs'] at hsearch
              obtain ⟨hgot, hlinked⟩ := hsearch
              obtain rfl : found' = found.map R.shift := hgot.1
              cases found with
              | none => exact ⟨.none R _, hlinked.miss⟩
              | some e => exact ⟨hgot, hlinked⟩

/-- The pool of the realm reserves the next entry of either store. -/
theorem reserve (h : R.InStep rest t u) :
    R.Matched rest R.Got (t.reserve R.pool) (u.reserve R.pool) := by
  refine .of_linked (h.kept.apply h.made (.reserve R.pool) fun _ hq => ?_) ?_
  · exact (Call.reserve.inj hq).symm
  unfold Store.reserve
  rw [h.pool, Pool.renumber_closed, Pool.renumber_isFull]
  split_ifs
  · exact ⟨.none R _, (h.count _).note rfl rfl⟩
  · have hnext : u.entries.size = R.shift t.entries.size := h.size.trans (shift_of_le h.reached).symm
    have hhas : R.Has (t.entries.push .pending).size t.entries.size := ⟨.inr h.reached, by simp⟩
    have hpush := h.push .pending
    dsimp only
    rw [hnext]
    refine ⟨.some hhas, (hpush.modify ?_ (hpush.refers.append hhas)).noteReserved _⟩
    simp [Pool.renumber]

theorem enable (h : R.InStep rest t u) (he : R.mine e) (v : α) (atOnce : Bool) :
    R.Matched rest Same (t.enable e v atOnce) (u.enable (R.shift e) v atOnce) := by
  refine .of_linked (h.kept.apply h.made (.enable e v atOnce) fun _ hq => nomatch hq) ?_
  unfold Store.enable
  rw [h.entry e he]
  cases t.entry e with
  | pending => exact ⟨rfl, (h.setEntry he _).note rfl rfl⟩
  | _ => exact ⟨rfl, h.toLinked⟩

theorem release (h : R.InStep rest t u) (he : R.mine e) (c : CallerId) :
    R.Matched rest Same (t.release R.pool c e) (u.release R.pool c (R.shift e)) := by
  refine .of_linked (h.kept.apply h.made (.release R.pool c e) fun _ hq => nomatch hq) ?_
  unfold Store.release
  rw [h.pool, Pool.renumber_closed, h.entry e he]
  split_ifs
  · exact ⟨rfl, h.toLinked⟩
  cases hx : t.entry e with
  | active v =>
    have hhas : R.Has t.entries.size e := ⟨he, lt_size_of_ne_closed (by simp [state, hx, Entry.state])⟩
    have hset := (h.setEntry he (.idle v)).count fun k => { k with released := k.released + 1 }
    refine ⟨rfl, (hset.remember ?_ c).note rfl rfl⟩
    exact (t.size_setEntry e (.idle v)).symm ▸ hhas
  | _ => exact ⟨rfl, h.toLinked⟩

theorem remove (h : R.InStep rest t u) (he : R.mine e) :
    R.Matched rest Same (t.remove R.pool e) (u.remove R.pool (R.shift e)) := by
  refine .of_linked (h.kept.apply h.made (.remove R.pool e) fun _ hq => nomatch hq) ?_
  unfold Store.remove
  rw [h.pool, Pool.renumber_closed, h.entry e he]
  split_ifs
  · exact ⟨rfl, h.toLinked⟩
  cases (t.entry e).tryRemove with
  | mk done x =>
    cases done with
    | false => exact ⟨rfl, h.note rfl rfl⟩
    | true =>
      have hset := h.setEntry he x
      have hmem : ((u.setEntry (R.shift e) x).members R.pool).contains (R.shift e) =
          ((t.setEntry e x).members R.pool).contains e := by
        rw [Bool.eq_iff_iff, List.contains_iff_mem, List.contains_iff_mem, hset.members]
        exact List.mem_map_of_injective R.shift_injective
      dsimp only
      rw [hmem]
      split_ifs
      · have herase := List.map_erase (a := e) R.shift_injective ((t.setEntry e x).members R.pool)
        refine ⟨rfl, ((hset.modify ?_ (hset.refers.erase e)).count _).note rfl rfl⟩
        exact congrArg (fun members => { (Pool.renumber R.shift _) with members }) herase.symm
      · exact ⟨rfl, hset.note rfl rfl⟩

theorem settle (h : R.InStep rest t u) (he : R.mine e) (c : CallerId) (creation : Creation α) :
    R.Matched rest R.Ended (t.settle R.pool c e creation) (u.settle R.pool c (R.shift e) creation) := by
  have hremove := h.remove he
  cases creation with
  | panicked => exact ⟨.error _, h⟩
  | nothing => exact ⟨.ok (.none R _), hremove.2⟩
  | refused reason => exact ⟨.error _, hremove.2⟩
  | value v =>
    refine .of_linked (h.kept.apply h.made (.fulfil R.pool c e v) fun _ hq => nomatch hq) ?_
    unfold Store.settle
    dsimp only
    rw [h.entry e he]
    cases hx : t.entry e with
    | pending =>
      have hlt : e < t.entries.size := lt_size_of_ne_closed (by simp [state, hx, Entry.state])
      have hset := (h.setEntry he (.active v)).count fun k => { k with acquired := k.acquired + 1 }
      refine ⟨.ok (.some ⟨he, ?_⟩), hset.note rfl rfl⟩
      exact (t.size_setEntry e (.active v)).symm ▸ hlt
    | closed => exact ⟨.ok (.none R _), h.toLinked⟩
    | idle | active => exact ⟨.error _, h.toLinked⟩

theorem close (h : R.InStep rest t u) : R.Matched rest Same (t.close R.pool) (u.close R.pool) := by
  refine .of_linked (h.kept.apply h.made (.close R.pool) fun _ hq => nomatch hq) ?_
  have hemptied := h.modify (f := fun x => { x with closed := true, members := [], hints := {} })
    (g := fun x => { x with closed := true, members := [], hints := {} }) rfl h.refers.close
  obtain ⟨hn, hvalues, hlinked⟩ := hemptied.reclaim fun e he => (h.has_of_mem he).1
  unfold Store.close
  dsimp only
  rw [h.members, List.isEmpty_map, List.length_map]
  split_ifs
  · exact ⟨rfl, hemptied⟩
  · exact ⟨hvalues.symm, hlinked.note rfl rfl⟩

/-! ### Trackers -/

/-- What changes neither entries nor lists keeps stores in step. -/
theorem of_registry {t' u' : Store α} (h : R.InStep rest t u) (hlinked : R.Linked rest t' u')
    (hr : t'.registry = t.registry) : R.InStep rest t' u' :=
  ⟨hlinked, h.kept.of_registry hr⟩

/-- Calls that pass the tracker by tell it nothing. -/
theorem past {a b : Store α} (h : R.InStep rest t u) (direct : Bool) (htold : R.InStep rest a b) :
    R.InStep rest (if direct then t else a) (if direct then u else b) := by
  split_ifs
  · exact h
  · exact htold

theorem observeAcquire (h : R.InStep rest t u) (he : e < t.entries.size) :
    R.InStep rest (t.observeAcquire R.pool e) (u.observeAcquire R.pool (R.shift e)) :=
  h.of_registry (h.toLinked.observeAcquire he) (t.registry_observeAcquire R.pool e)

theorem trackedAcquire (h : R.InStep rest t u) (direct : Bool) (c : CallerId) :
    R.Matched rest R.Got (t.trackedAcquire direct R.pool c) (u.trackedAcquire direct R.pool c) := by
  obtain ⟨found, found', t', u', ht, hu, hgot, hstores⟩ := (h.acquire c).exists_eq
  obtain rfl : found' = found.map R.shift := hgot.1
  unfold Store.trackedAcquire
  rw [ht, hu]
  cases found with
  | none => exact ⟨hgot, hstores⟩
  | some e =>
    have hsize : (t'.observeAcquire R.pool e).entries.size = t'.entries.size :=
      congrArg Registry.size (t'.registry_observeAcquire R.pool e)
    have htold := hstores.observeAcquire (hgot.2 e rfl).2
    cases direct with
    | true => exact ⟨hgot, hstores⟩
    | false => exact ⟨hgot.mono hsize.ge, htold⟩

theorem trackedRelease (h : R.InStep rest t u) (he : R.mine e) (direct : Bool) (c : CallerId) :
    R.Matched rest Same (t.trackedRelease direct R.pool c e)
      (u.trackedRelease direct R.pool c (R.shift e)) := by
  have htold := h.of_registry (h.observeRelease e) (t.registry_observeRelease R.pool e)
  exact (h.past direct htold).release he c

theorem trackedRemove (h : R.InStep rest t u) (he : R.mine e) (direct : Bool) :
    R.Matched rest Same (t.trackedRemove direct R.pool e) (u.trackedRemove direct R.pool (R.shift e)) := by
  have htold := h.of_registry (h.observeRemoval e) (t.registry_observeRemoval R.pool e)
  exact (h.past direct htold).remove he

theorem setTracker (h : R.InStep rest t u) {x : Tracker} (hx : x.detector.Apt t.entries.size) :
    R.InStep rest (t.setTracker R.pool x) (u.setTracker R.pool (x.renumber R.shift)) :=
  h.of_registry (h.toLinked.setTracker hx) (t.registry_setTracker R.pool x)

/-- A pass finds the leaks of the same entries. -/
theorem sweep (h : R.InStep rest t u) {x : Tracker} (hx : (t.pool R.pool).tracker? = some x) :
    R.Matched rest (fun _ leaks leaks' => leaks' = leaks.map (Leak.renumber R.shift)) (t.sweep R.pool x)
      (u.sweep R.pool (x.renumber R.shift)) := by
  have hd := x.detector.sweep_renumber R.shift t.now
  have hapt := (h.refers.tracked x hx).sweep t.now
  unfold Store.sweep
  dsimp only [Tracker.renumber]
  rw [h.now, hd]
  exact ⟨rfl, h.setTracker hapt⟩

theorem checkLeaks (h : R.InStep rest t u) {x : Tracker} (hx : (t.pool R.pool).tracker? = some x) :
    R.Matched rest Same (t.checkLeaks R.pool x) (u.checkLeaks R.pool (x.renumber R.shift)) := by
  have hd := x.detector.sweep_renumber R.shift t.now
  have hapt := (h.refers.tracked x hx).sweep t.now
  have hnotes : ∀ (leaks : List Leak) {a b : Store α}, R.InStep rest a b →
      R.InStep rest (leaks.foldl (fun a leak => a.note (.leaked R.pool leak)) a)
        ((leaks.map (Leak.renumber R.shift)).foldl (fun b leak => b.note (.leaked R.pool leak)) b) := by
    intro leaks
    induction leaks with
    | nil => exact fun hab => hab
    | cons leak leaks ih =>
      exact fun hab => ih (hab.of_registry (hab.note rfl rfl) (registry_note _ rfl rfl))
  unfold Store.checkLeaks
  dsimp only [Tracker.renumber]
  rw [h.now, hd, List.length_map]
  exact ⟨rfl, hnotes _ (h.setTracker hapt)⟩

/-! ### Guards -/

theorem endGuard (h : R.InStep rest t u) {name : String} (hname : R.guards name) :
    R.InStep rest (t.endGuard name) (u.endGuard name) :=
  h.of_registry (h.toLinked.endGuard hname) rfl

/-- A guard of the realm, if there is one of the name. -/
theorem guard?_cases (h : R.InStep rest t u) {name : String} (hname : R.guards name) :
    (t.guard? name = none ∧ u.guard? name = none) ∨
      ∃ e direct, R.Has t.entries.size e ∧
        t.guard? name = some { pool := R.pool, entry := e, direct } ∧
        u.guard? name = some { pool := R.pool, entry := R.shift e, direct } := by
  have hguard := h.guard name hname
  cases hg : t.guard? name with
  | none =>
    rw [hg] at hguard
    exact .inl ⟨rfl, hguard⟩
  | some g =>
    obtain ⟨hp, he⟩ := h.leased name g hname hg
    rw [hg] at hguard
    obtain ⟨q, e, direct⟩ := g
    obtain rfl : q = R.pool := hp
    exact .inr ⟨e, direct, he, rfl, hguard⟩

theorem giveBack (h : R.InStep rest t u) (he : R.mine e) (c : CallerId) (direct : Bool) :
    R.InStep rest (t.giveBack c { pool := R.pool, entry := e, direct })
      (u.giveBack c { pool := R.pool, entry := R.shift e, direct }) := by
  obtain ⟨answer, _, t', u', ht, hu, rfl, hstores⟩ := (h.trackedRelease he direct c).exists_eq
  unfold Store.giveBack
  dsimp only
  rw [ht, hu]
  cases answer with
  | ok done => exact hstores
  | error fault => exact hstores.of_registry (hstores.note rfl rfl) (t'.registry_note rfl rfl)

theorem putGuard (h : R.InStep rest t u) {name : String} (hname : R.guards name)
    (he : R.Has t.entries.size e) (c : CallerId) (direct : Bool) :
    R.InStep rest (t.putGuard c name { pool := R.pool, entry := e, direct })
      (u.putGuard c name { pool := R.pool, entry := R.shift e, direct }) := by
  have hstored := h.of_registry (h.storeGuard (g := { pool := R.pool, entry := e, direct }) hname rfl he) rfl
  unfold Store.putGuard
  obtain ⟨ht, hu⟩ | ⟨i, passed, hi, ht, hu⟩ := h.guard?_cases hname
  · rw [ht, hu]
    exact hstored
  · rw [ht, hu]
    exact hstored.giveBack hi.1 c passed

theorem lease (h : R.InStep rest t u) {name : String} (hname : R.guards name) (direct : Bool)
    (c : CallerId) :
    R.Matched rest R.Got (t.lease direct R.pool c name) (u.lease direct R.pool c name) := by
  obtain ⟨found, found', t', u', ht, hu, hgot, hstores⟩ := (h.trackedAcquire direct c).exists_eq
  obtain rfl : found' = found.map R.shift := hgot.1
  unfold Store.lease
  rw [ht, hu]
  cases found with
  | none => exact ⟨hgot, hstores⟩
  | some e =>
    have hput := hstores.putGuard hname (hgot.2 e rfl) c direct
    have hpath : Path (fun _ _ => True) t'.registry
        (t'.putGuard c name { pool := R.pool, entry := e, direct }).registry := t'.putGuard_path c name _
    exact ⟨hgot.mono hpath.extends.size, hput⟩

theorem dropGuard (h : R.InStep rest t u) {name : String} (hname : R.guards name) (he : R.mine e)
    (c : CallerId) (direct : Bool) :
    R.InStep rest (t.dropGuard c name { pool := R.pool, entry := e, direct })
      (u.dropGuard c name { pool := R.pool, entry := R.shift e, direct }) :=
  (h.endGuard hname).giveBack he c direct

theorem removeGuarded (h : R.InStep rest t u) {name : String} (hname : R.guards name) (he : R.mine e)
    (direct : Bool) :
    R.Matched rest Same (t.removeGuarded name { pool := R.pool, entry := e, direct })
      (u.removeGuarded name { pool := R.pool, entry := R.shift e, direct }) :=
  (h.endGuard hname).trackedRemove he direct

theorem hold (h : R.InStep rest t u) (he : R.Has t.entries.size e) :
    R.InStep rest (t.hold e) (u.hold (R.shift e)) :=
  h.of_registry (h.toLinked.hold he) (t.registry_hold e)

theorem unhold (h : R.InStep rest t u) (he : R.mine e) :
    R.InStep rest (t.unhold e) (u.unhold (R.shift e)) :=
  h.of_registry (h.toLinked.unhold he) rfl

theorem detach (h : R.InStep rest t u) {name : String} (hname : R.guards name)
    (he : R.Has t.entries.size e) (direct : Bool) :
    R.InStep rest (t.detach name { pool := R.pool, entry := e, direct })
      (u.detach name { pool := R.pool, entry := R.shift e, direct }) :=
  (h.hold he).endGuard hname

theorem readLog (h : R.InStep rest t u) : R.InStep rest t.takeLog.2 u.takeLog.2 :=
  h.of_registry h.toLinked.readLog rfl

/-! ### Several entries at once -/

theorem holdAll (h : R.InStep rest t u) {es : List EntryId} (hes : ∀ e ∈ es, R.Has t.entries.size e) :
    R.InStep rest (t.holdAll es) (u.holdAll (es.map R.shift)) := by
  induction es generalizing t u with
  | nil => exact h
  | cons e es ih =>
    have hsize : (t.hold e).entries.size = t.entries.size := congrArg Registry.size (t.registry_hold e)
    refine ih (h.hold (hes e (by simp))) fun i hi => ?_
    rw [hsize]
    exact hes i (by simp [hi])

theorem drain (h : R.InStep rest t u) (direct : Bool) (c : CallerId) (fuel : Nat) :
    R.Matched rest R.GotAll (Store.drain direct R.pool c fuel t) (Store.drain direct R.pool c fuel u) := by
  induction fuel generalizing t u with
  | zero => exact ⟨⟨rfl, fun _ he => absurd he List.not_mem_nil⟩, h⟩
  | succ fuel ih =>
    obtain ⟨found, _, t', u', ht, hu, hgot, hstores⟩ := (h.trackedAcquire direct c).exists_eq
    obtain rfl := hgot.1
    unfold Store.drain
    rw [ht, hu]
    cases found with
    | none => exact ⟨⟨rfl, fun _ he => absurd he List.not_mem_nil⟩, hstores⟩
    | some e =>
      have hpath := (Run.drain direct R.pool c fuel t').path
      obtain ⟨es, _, v, w, hv, hw, hall, hstores⟩ := (ih hstores).exists_eq
      obtain rfl := hall.1
      rw [hv] at hpath
      dsimp only [Option.map_some]
      rw [hv, hw]
      refine ⟨⟨rfl, fun i hi => ?_⟩, hstores⟩
      rcases List.mem_cons.mp hi with rfl | hi
      · exact (hgot.2 i rfl).mono hpath.extends.size
      · exact hall.2 i hi

/-- However many more entries there are elsewhere, the pool is drained of its own. -/
theorem acquireAll (h : R.InStep rest t u) (direct : Bool) (c : CallerId) :
    R.Matched rest R.GotAll (t.acquireAll direct R.pool c) (u.acquireAll direct R.pool c) := by
  have hle := t.card_idlers_le
  have hfuel : Store.drain direct R.pool c (t.entries.size + 1) t =
      Store.drain direct R.pool c (u.entries.size + 1) t := by
    refine drain_of_lt ?_ ?_
    · omega
    · rw [h.size]
      omega
  unfold Store.acquireAll
  rw [hfuel]
  exact h.drain direct c _

/-! ### Creators and factories -/

theorem observeResult (h : R.InStep rest t u) {x y : Except CreationError (Option EntryId)}
    (hxy : R.Ended t.entries.size x y) (direct : Bool) :
    R.InStep rest (t.observeResult direct R.pool x) (u.observeResult direct R.pool y) := by
  cases hxy with
  | error => exact h
  | @ok x y hgot =>
    obtain rfl : y = x.map R.shift := hgot.1
    cases x with
    | none => exact h
    | some e => exact h.past direct (h.observeAcquire (hgot.2 e rfl).2)

theorem guardResult (h : R.InStep rest t u) {x y : Except CreationError (Option EntryId)}
    (hxy : R.Ended t.entries.size x y) (c : CallerId) {name : String} (hname : R.guards name) :
    R.InStep rest (t.guardResult R.pool c name x) (u.guardResult R.pool c name y) := by
  cases hxy with
  | error => exact h
  | @ok x y hgot =>
    obtain rfl : y = x.map R.shift := hgot.1
    cases x with
    | none => exact h
    | some e => exact h.putGuard hname (hgot.2 e rfl) c false

section Nested

variable {Q : List ρ → List ρ → Prop}

theorem acquireWith (h : R.InStep rest t u) (hnil : Q [] []) (c : CallerId)
    {f g : EntryId → Store α → Creation α × List ρ × Store α}
    (hc : ∀ e {a b : Store α}, R.InStep rest a b → R.Has a.entries.size e →
      R.MatchedWith rest Same Q (f e a) (g (R.shift e) b)) :
    R.MatchedWith rest R.Ended Q (t.acquireWith R.pool c f) (u.acquireWith R.pool c g) := by
  obtain ⟨found, _, t', u', ht, hu, hgot, hstores⟩ := (h.acquire c).exists_eq
  obtain rfl := hgot.1
  unfold Store.acquireWith
  rw [ht, hu]
  cases found with
  | some e => exact ⟨.ok hgot, hnil, hstores⟩
  | none =>
    obtain ⟨new, _, v, w, hv, hw, hnew, hstores⟩ := hstores.reserve.exists_eq
    obtain rfl := hnew.1
    dsimp only [Option.map_none]
    rw [hv, hw]
    cases new with
    | none => exact ⟨.ok (.none R _), hnil, hstores⟩
    | some e =>
      have he : R.Has v.entries.size e := hnew.2 e rfl
      obtain ⟨creation, _, rs, rs', a, b, hf, hg, rfl, hreports, hstores⟩ := (hc e hstores he).exists_eq
      obtain ⟨answer, answer', a', b', ha, hb, hended, hstores⟩ := (hstores.settle he.1 c creation).exists_eq
      dsimp only [Option.map_some]
      rw [hf, hg]
      dsimp only
      rw [ha, hb]
      exact ⟨hended, hreports, hstores⟩

theorem warmup (h : R.InStep rest t u) (hnil : Q [] [])
    (happend : ∀ {rs rs' more more'}, Q rs rs' → Q more more' → Q (rs ++ more) (rs' ++ more'))
    {f g : Nat → EntryId → Store α → Option α × List ρ × Store α}
    (hf : ∀ n e {a b : Store α}, R.InStep rest a b → R.Has a.entries.size e →
      R.MatchedWith rest Same Q (f n e a) (g n (R.shift e) b)) (count call : Nat) :
    R.MatchedWith rest Same Q (Store.warmup R.pool f count call t) (Store.warmup R.pool g count call u) := by
  induction count generalizing call t u with
  | zero => exact ⟨rfl, hnil, h⟩
  | succ count ih =>
    obtain ⟨new, _, v, w, hv, hw, hnew, hstores⟩ := h.reserve.exists_eq
    obtain rfl := hnew.1
    unfold Store.warmup
    rw [hv, hw]
    cases new with
    | none => exact ⟨rfl, hnil, hstores⟩
    | some e =>
      have he : R.Has v.entries.size e := hnew.2 e rfl
      obtain ⟨value, _, rs, rs', a, b, hfe, hge, rfl, hreports, hstores⟩ := (hf call e hstores he).exists_eq
      dsimp only [Option.map_some]
      rw [hfe, hge]
      cases value with
      | none => exact ⟨rfl, hreports, hstores⟩
      | some x =>
        obtain ⟨answer, _, a', b', ha, hb, rfl, hstores⟩ := (hstores.enable he.1 x false).exists_eq
        obtain ⟨w, _, more, more', a'', b'', ha', hb', rfl, hmore, hlast⟩ := (ih hstores (call + 1)).exists_eq
        dsimp only
        rw [ha, hb]
        cases answer with
        | error fault => exact ⟨rfl, hreports, hstores⟩
        | ok done =>
          cases done with
          | false => exact ⟨rfl, hreports, hstores⟩
          | true =>
            dsimp only
            rw [ha', hb']
            exact ⟨rfl, happend hreports hmore, hlast⟩

end Nested

end InStep

end ResourcePool.Realm
