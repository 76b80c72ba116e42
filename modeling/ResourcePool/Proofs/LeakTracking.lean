import ResourcePool.Proofs.Audit
import ResourcePool.Proofs.Session

/-! Leak tracking: when the entries of a pool are used through its tracker only, what is tracked is what is
outstanding, and a pass finds each outstanding entry once. -/
namespace ResourcePool
open Registry

variable {α : Type}

namespace Move

/-- Whether a call hands out an entry through a pool, and its tracker is told. -/
def Obtains (s : Store α) (p : PoolId) (e : EntryId) : Move α → Prop
  | acquire direct q c => q = p ∧ (s.trackedAcquire direct q c).1 = some e
  | lease direct q c _ => q = p ∧ (s.trackedAcquire direct q c).1 = some e
  | settle _ q c x creation => q = p ∧ (s.settle q c x creation).1 = .ok (some e)
  | _ => False

/-- Whether a call releases or removes an entry through a pool, be it at the end of a guard. -/
def GivesUp (s : Store α) (p : PoolId) (e : EntryId) : Move α → Prop
  | release _ q _ x => q = p ∧ e = x
  | remove _ q x => q = p ∧ e = x
  | lease direct q c name => (s.trackedAcquire direct q c).1.isSome ∧ s.Guards name p e
  | settleLease q c name x creation =>
    (∃ i, (s.settle q c x creation).1 = .ok (some i)) ∧ s.Guards name p e
  | dropGuard _ name => s.Guards name p e
  | removeGuarded name => s.Guards name p e
  | _ => False

/-- The calls that close entries of a pool without a word to its tracker: the closing of the pool, and the end
of a creation that came to nothing. -/
def Drops (p : PoolId) (e : EntryId) : Move α → Prop
  | close q => q = p
  | settle _ q _ x creation => creation.fails = true ∧ q = p ∧ e = x
  | _ => False

/-- Whether such a call closes an entry that is in use. -/
def Strands (s : Store α) (p : PoolId) (e : EntryId) (m : Move α) : Prop :=
  m.Drops p e ∧ s.state e = .active ∧ (m.apply s).state e = .closed

/-- Whether a call is a pass that reports an entry. -/
def Reports (s : Store α) (p : PoolId) (e : EntryId) : Move α → Prop
  | sweep q => q = p ∧ s.Finds p e
  | checkLeaks q => q = p ∧ s.Finds p e
  | _ => False

end Move

/-- An entry was in use when a call closed it without a word to the tracker of its pool, and was neither
released nor removed through the pool since then. -/
def Stranded (p : PoolId) (log : List (Moved α)) (e : EntryId) : Prop :=
  Since (fun x => x.2.Strands x.1 p e) (fun x => x.2.GivesUp x.1 p e) log

/-- A pass reported an entry since it was handed out last. -/
def Reported (p : PoolId) (log : List (Moved α)) (e : EntryId) : Prop :=
  Since (fun x => x.2.Reports x.1 p e) (fun x => x.2.Obtains x.1 p e) log

namespace Store

variable {s t : Store α} {p q : PoolId} {e : EntryId} {maxAge : Nat} {lost seen : EntryId → Prop}
  {direct : Bool} {c : CallerId} {name : String}

theorem observeResult_true (s : Store α) (q : PoolId) (result : Except CreationError (Option EntryId)) :
    s.observeResult true q result = s := by
  unfold observeResult
  split <;> rfl

theorem guards_congr (hg : t.guards = s.guards) : t.Guards name p e ↔ s.Guards name p e := by
  unfold Guards guard?
  rw [hg]

theorem pools_hold (s : Store α) (e : EntryId) : (s.hold e).pools = s.pools := by
  unfold hold
  split_ifs <;> rfl

namespace Audited

theorem lease (h : s.Audited p maxAge lost seen) (hw : s.Warded p) (hd : q = p → direct = false)
    (c : CallerId) (name : String) : (s.lease direct q c name).2.Audited p maxAge
      (fun i => lost i ∧ ¬ ((s.trackedAcquire direct q c).1.isSome ∧ s.Guards name p i))
      (fun i => seen i ∧ ¬ (q = p ∧ (s.trackedAcquire direct q c).1 = some i)) := by
  have ha := h.acquire hd c
  have htrace := s.trace_trackedAcquire direct q c
  have hg := (s.frame_trackedAcquire q direct c).guards
  unfold Store.lease
  cases ht : s.trackedAcquire direct q c with
  | mk found t =>
    rw [ht] at ha htrace hg
    cases found with
    | none => exact ha.congr (fun i => by simp) fun _ => Iff.rfl
    | some e =>
      have hput := ha.putGuard (hw.trace htrace fun x hx => hg ▸ hx) c name
        { pool := q, entry := e, direct }
      exact hput.congr (fun i => by simp [guards_congr hg]) fun _ => Iff.rfl

theorem settleLease (h : s.Audited p maxAge lost seen) (hw : s.Warded p) (he : e ∈ s.reservations q)
    (hq : q ≠ p) (c : CallerId) (name : String) (creation : Creation α) :
    (Move.apply s (.settleLease q c name e creation)).Audited p maxAge
      (fun i => lost i ∧
        ¬ ((∃ x, (s.settle q c e creation).1 = .ok (some x)) ∧ s.Guards name p i)) seen := by
  have hd : q = p → true = false := fun hqp => absurd hqp hq
  have hs := h.settle he hd c creation
  have htrace := s.trace_settle q c e creation
  have hg := (s.frame_settle q c e creation).guards
  rw [observeResult_true] at hs
  have hsettled : (s.settle q c e creation).2.Audited p maxAge lost seen :=
    hs.congr (fun i => by simp [hq]) fun i => by simp [hq]
  unfold Move.apply guardResult
  dsimp only
  cases ht : s.settle q c e creation with
  | mk result t =>
    rw [ht] at hsettled htrace hg
    dsimp only at hsettled htrace hg ⊢
    split
    · next x =>
      have hput := hsettled.putGuard (hw.trace htrace fun x hx => hg ▸ hx) c name
        { pool := q, entry := x }
      exact hput.congr (fun i => by simp [guards_congr hg]) fun _ => Iff.rfl
    · next hnone =>
      refine hsettled.congr (fun i => and_iff_left ?_) fun _ => Iff.rfl
      rintro ⟨⟨x, hx⟩, -⟩
      exact hnone x hx

theorem dropGuard (h : s.Audited p maxAge lost seen) (hw : s.Warded p) (c : CallerId) (name : String) :
    (Move.apply s (.dropGuard c name)).Audited p maxAge
      (fun i => lost i ∧ ¬ s.Guards name p i) seen := by
  unfold Move.apply
  dsimp only
  cases hg : s.guard? name with
  | none => exact h.congr (fun i => by simp [Guards, hg]) fun _ => Iff.rfl
  | some g =>
    obtain ⟨hr, hd⟩ := hw _ (mem_guards_of_guard? hg)
    have hend : (s.endGuard name).Audited p maxAge lost seen := h.alike (.of_eq rfl rfl rfl) rfl
    have hback := hend.giveBack (hr.of_registry (t := s.endGuard name) rfl) hd c
    exact hback.congr (fun i => by simp [Guards, hg, eq_comm]) fun _ => Iff.rfl

theorem removeGuarded (h : s.Audited p maxAge lost seen) (hw : s.Warded p) (name : String) :
    (Move.apply s (.removeGuarded name)).Audited p maxAge
      (fun i => lost i ∧ ¬ s.Guards name p i) seen := by
  unfold Move.apply
  dsimp only
  cases hg : s.guard? name with
  | none => exact h.congr (fun i => by simp [Guards, hg]) fun _ => Iff.rfl
  | some g =>
    obtain ⟨hr, hd⟩ := hw _ (mem_guards_of_guard? hg)
    have hend : (s.endGuard name).Audited p maxAge lost seen := h.alike (.of_eq rfl rfl rfl) rfl
    have hback := hend.remove (hr.of_registry (t := s.endGuard name) rfl).2 hd
    exact hback.congr (fun i => by simp [Guards, hg, eq_comm]) fun _ => Iff.rfl

/-- The tracker follows through every call within the fence. -/
theorem apply (h : s.Audited p maxAge lost seen) (hw : s.Warded p) {m : Move α} (proper : m.Proper s)
    (ok : through p maxAge s m) : (m.apply s).Audited p maxAge
      (fun e => m.Strands s p e ∨ (lost e ∧ ¬ m.GivesUp s p e))
      (fun e => m.Reports s p e ∨ (seen e ∧ ¬ m.Obtains s p e)) := by
  -- Most calls drop nothing and are no passes.
  have hplain : (∀ e, ¬ m.Drops p e) → (∀ e, ¬ m.Reports s p e) → (m.apply s).Audited p maxAge
      (fun e => lost e ∧ ¬ m.GivesUp s p e) (fun e => seen e ∧ ¬ m.Obtains s p e) →
      (m.apply s).Audited p maxAge (fun e => m.Strands s p e ∨ (lost e ∧ ¬ m.GivesUp s p e))
        (fun e => m.Reports s p e ∨ (seen e ∧ ¬ m.Obtains s p e)) :=
    fun hd hr ht => ht.congr (fun e => or_iff_right fun hx => hd e hx.1) fun e => or_iff_right (hr e)
  have hkept : ∀ {t : Store α}, t.Audited p maxAge lost seen →
      t.Audited p maxAge (fun e => lost e ∧ ¬ False) (fun e => seen e ∧ ¬ False) :=
    fun ht => ht.congr (fun _ => and_iff_left id) fun _ => and_iff_left id
  have hinert : m.isInert = true → (m.apply s).pools = s.pools → (m.apply s).Audited p maxAge lost seen := by
    intro hm hpools
    refine h.alike (Move.alike_of_inert s m hm) ?_
    unfold pool
    rw [hpools]
  cases m with
  | create name settings detector? =>
    exact hplain (fun _ => id) (fun _ => id) (hkept (h.create name settings ok))
  | reserve q => exact hplain (fun _ => id) (fun _ => id) (hkept (h.reserve q))
  | enable e v atOnce => exact hplain (fun _ => id) (fun _ => id) (hkept (h.enable e v ok))
  | acquire direct q c =>
    refine hplain (fun _ => id) (fun _ => id) ?_
    exact (h.acquire ok c).congr (fun _ => and_iff_left id) fun _ => Iff.rfl
  | lease direct q c name => exact hplain (fun _ => id) (fun _ => id) (h.lease hw ok c name)
  | settle direct q c x creation =>
    have hstate : ∀ e, (Move.apply s (.settle direct q c x creation)).state e =
        (s.settle q c x creation).2.state e :=
      fun e => congrArg (fun v : Registry α => (v.entry e).state) (registry_observeResult _ direct q _)
    refine (h.settle proper ok c creation).congr (fun e => ?_) fun e => or_iff_right id
    simp [Move.Strands, Move.Drops, Move.GivesUp, hstate, or_comm, and_assoc]
  | settleLease q c name x creation =>
    refine hplain (fun _ => id) (fun _ => id) ?_
    exact (h.settleLease hw proper ok c name creation).congr (fun _ => Iff.rfl) fun _ => and_iff_left id
  | release direct q c x =>
    refine hplain (fun _ => id) (fun _ => id) ?_
    exact (h.release ok.1 ok.2 c).congr (fun _ => Iff.rfl) fun _ => and_iff_left id
  | remove direct q x =>
    refine hplain (fun _ => id) (fun _ => id) ?_
    exact (h.remove ok.1 ok.2).congr (fun _ => Iff.rfl) fun _ => and_iff_left id
  | close q =>
    refine (h.close q).congr (fun e => ?_) fun e => (or_iff_right id).trans (and_iff_left id)
    simp [Move.Strands, Move.Drops, Move.GivesUp, Move.apply, or_comm]
  | dropGuard c name =>
    refine hplain (fun _ => id) (fun _ => id) ?_
    exact (h.dropGuard hw c name).congr (fun _ => Iff.rfl) fun _ => and_iff_left id
  | removeGuarded name =>
    refine hplain (fun _ => id) (fun _ => id) ?_
    exact (h.removeGuarded hw name).congr (fun _ => Iff.rfl) fun _ => and_iff_left id
  | sweep q =>
    refine (h.sweep q).congr (fun e => ?_) fun e => or_congr_right (and_iff_left id)
    exact (or_iff_right fun hx => hx.1).trans (and_iff_left id)
  | checkLeaks q =>
    refine (h.checkLeaks q).congr (fun e => ?_) fun e => or_congr_right (and_iff_left id)
    exact (or_iff_right fun hx => hx.1).trans (and_iff_left id)
  | clearTracking q => exact hplain (fun _ => id) (fun _ => id) (hkept (h.clearTracking q))
  | leave caller =>
    have hpools : (Move.apply s (.leave caller)).pools = s.pools := by
      unfold Move.apply
      dsimp only
      cases s.callers.leave? caller <;> rfl
    exact hplain (fun _ => id) (fun _ => id) (hkept (hinert rfl hpools))
  | detach name =>
    have hpools : (Move.apply s (.detach name)).pools = s.pools := by
      unfold Move.apply
      dsimp only
      cases s.guard? name with
      | none => rfl
      | some g => exact s.pools_hold g.entry
    exact hplain (fun _ => id) (fun _ => id) (hkept (hinert rfl hpools))
  | hold e => exact hplain (fun _ => id) (fun _ => id) (hkept (hinert rfl (s.pools_hold e)))
  | forget | enter | unhold | unholdAll | wait | readLog =>
    exact hplain (fun _ => id) (fun _ => id) (hkept (hinert rfl rfl))

end Audited

end Store

theorem Session.audited {p : PoolId} {maxAge : Nat} {draws : List Nat} {s : Store α}
    {log : List (Moved α)} (h : Session (through p maxAge) (.blank draws) log s) :
    s.Warded p ∧ s.Audited p maxAge (Stranded p log) (Reported p log) := by
  induction h with
  | start =>
    refine ⟨fun _ hx => absurd hx List.not_mem_nil, .blank draws p, ?_, ?_⟩
    · exact fun _ he => absurd he Since.not_nil
    · exact fun hp => absurd hp (Nat.not_lt_zero p)
  | move _ m proper ok ih =>
    obtain ⟨hw, ha⟩ := ih
    refine ⟨hw.apply ha.fenced proper ok, ?_⟩
    exact (ha.apply hw proper ok).congr (fun _ => Since.concat_iff) fun _ => Since.concat_iff

/-- As long as the entries of a pool with a tracker by age are used through this pool and its tracker only,
and on the pool no others, an entry is tracked just if it is one of the pool that is in use, or that was in use
when it was closed with the pool or by a creation that came to nothing, and was neither released nor removed
since then. No acquisition is ever refused by the tracker. If there is no age to wait for, a pass finds just as
many of these entries as no earlier pass reported since they were handed out last. -/
theorem tracked_iff_outstanding {p : PoolId} {maxAge : Nat} {draws : List Nat} {s : Store α}
    {log : List (Moved α)} (h : Session (through p maxAge) (.blank draws) log s) (hp : p < s.pools.size) :
    ∃ t, (s.pool p).tracker? = some t ∧ t.acquires = 0 ∧
      (∀ e, e ∈ t.detector.resources ↔
        e ∈ s.reservations p ∧ (s.state e = .active ∨ Stranded p log e)) ∧
      (maxAge = 0 → ∃ es : List EntryId, es.Nodup ∧
        (∀ e, e ∈ es ↔ (e ∈ s.reservations p ∧ (s.state e = .active ∨ Stranded p log e)) ∧
          ¬ Reported p log e) ∧
        (s.checkLeaks p t).1 = es.length) := by
  obtain ⟨t, ht, hf⟩ := h.audited.2.follows hp
  refine ⟨t, ht, hf.taken, hf.tracked, ?_⟩
  rintro rfl
  exact hf.length_sweep s.now

/-- A hint brings an entry out again, another stays with a guard, a creation hands out an entry of its own and
another one fails over an entry that its creator acquired. Then the pool closes, and the first comes back. -/
theorem tracked_iff_outstanding_closed :
    let ms : List (Move Nat) := [.create "p" { cached := true } (some (.expiry 0 [])),
      .create "q" {} none, .reserve 0, .reserve 0, .reserve 1, .enable 0 7 false, .enable 1 8 false,
      .enable 2 9 true, .acquire false 0 0, .lease false 0 1 "g", .checkLeaks 0, .release false 0 0 0,
      .release false 0 0 0, .acquire false 0 0, .reserve 0, .settle false 0 2 3 (.value 6), .reserve 0,
      .enable 4 5 false, .acquire false 0 2, .settle false 0 2 4 .nothing, .close 0, .release false 0 0 0]
    let s := ms.foldl Move.apply (.blank [])
    let log := Move.log (.blank []) ms
    Session (through 0 0) (.blank []) log s ∧ 0 < s.pools.size ∧ s.reservations 0 = [0, 1, 3, 4] ∧
      ∃ t, (s.pool 0).tracker? = some t ∧ t.acquires = 0 ∧
        (∀ e, e ∈ t.detector.resources ↔
          e ∈ s.reservations 0 ∧ (s.state e = .active ∨ Stranded 0 log e)) ∧
        t.detector.resources = [1, 3, 4] ∧ (s.checkLeaks 0 t).1 = 2 ∧
        ∃ es : List EntryId, es.Nodup ∧ es.length = 2 ∧
          ∀ e, e ∈ es ↔ (e ∈ s.reservations 0 ∧ (s.state e = .active ∨ Stranded 0 log e)) ∧
            ¬ Reported 0 log e := by
  intro ms s log
  have hs : Session (through 0 0) (.blank []) log s := .of_along _ ms (by decide +kernel)
  have hp : 0 < s.pools.size := by decide +kernel
  obtain ⟨t, ht, hacquires, htracked, hpass⟩ := tracked_iff_outstanding hs hp
  obtain ⟨es, hnodup, hes, hlen⟩ := hpass rfl
  have hfound : (s.pool 0).tracker?.map (fun t => (t.detector.resources, (s.checkLeaks 0 t).1)) =
      some ([1, 3, 4], 2) := by decide +kernel
  rw [ht] at hfound
  obtain ⟨hresources, hcount⟩ := Prod.mk.inj (Option.some.inj hfound)
  exact ⟨hs, hp, by decide +kernel, t, ht, hacquires, htracked, hresources, hcount, es, hnodup,
    hlen.symm.trans hcount, hes⟩

/-- The creator of an entry enables and acquires it, and then makes no value for it. The entry is closed again,
and still tracked though the pool was never closed. -/
theorem tracked_after_failed_creation :
    let ms : List (Move Nat) := [.create "p" {} (some (.expiry 0 [])), .acquire false 0 0, .reserve 0,
      .enable 0 7 false, .acquire false 0 0, .settle false 0 0 0 .nothing]
    let s := ms.foldl Move.apply (.blank [])
    let log := Move.log (.blank []) ms
    Session (through 0 0) (.blank []) log s ∧
      ¬ ∃ t, (s.pool 0).tracker? = some t ∧ ∀ e ∈ s.reservations 0, e ∈ t.detector.resources ↔
        s.state e = .active ∨ Since (fun x => x.2 = .close 0 ∧ x.1.state e = .active)
          (fun x => x.2.GivesUp x.1 0 e) log := by
  intro ms s log
  refine ⟨.of_along _ ms (by decide +kernel), ?_⟩
  rintro ⟨t, ht, hiff⟩
  have hresources : (s.pool 0).tracker?.map (·.detector.resources) = some [0] := by decide +kernel
  rw [ht] at hresources
  have hzero : t.detector.resources = [0] := Option.some.inj hresources
  have htracked : 0 ∈ t.detector.resources := hzero ▸ List.mem_singleton_self 0
  rcases (hiff 0 (by decide +kernel)).mp htracked with hx | ⟨before, x, after, hlog, ⟨hclose, -⟩, -⟩
  · exact absurd hx (by decide +kernel)
  · have hx : x ∈ log := by simp [hlog]
    have hmoves : Move.close 0 ∈ log.map (·.2) := hclose ▸ List.mem_map_of_mem hx
    rw [Move.map_snd_log] at hmoves
    simp [ms] at hmoves

end ResourcePool
