import ResourcePool.Proofs.Pool

/-! Frames: what every call on a pool leaves alone, proved for the small updates that calls are made of. -/
namespace ResourcePool

variable {α : Type}

/-- Hits are among the entries acquired. -/
def Pool.Fair (x : Pool α) : Prop :=
  x.counters.hits ≤ x.counters.acquired

/-- The value that an event passed to the disposer of a pool, with its entry. -/
def Event.disposal? : Event α → Option (PoolId × EntryId × α)
  | .disposed p e v => some (p, e, v)
  | _ => none

/-- The entry that an event says was handed out, with the caller who got it. -/
def Event.taking? : Event α → Option (EntryId × CallerId)
  | .acquired _ c e _ => some (e, c)
  | .created _ c e _ => some (e, c)
  | _ => none

/-- The fault that an event says a guard met with at its end. -/
def Event.failure? : Event α → Option Fault
  | .guardFailed _ fault => some fault
  | _ => none

/-- An event that tells of no guard that failed. -/
def Event.Faultless (x : Event α) : Prop :=
  x.failure? = none

/-- An event that passes nothing to a disposer and tells of no guard that failed. -/
def Event.Quiet (x : Event α) : Prop :=
  x.disposal? = none ∧ x.Faultless

/-- What comes of calls on a pool, all events that they note being of the given kind. -/
structure Store.Frame (noted : Event α → Prop) (p : PoolId) (s t : Store α) : Prop where
  guards : t.guards = s.guards
  handles : t.handles = s.handles
  size : t.pools.size = s.pools.size
  other : ∀ q ≠ p, t.pool q = s.pool q
  fair : (s.pool p).Fair → (t.pool p).Fair
  events : ∃ xs, t.events = s.events ++ xs ∧ ∀ x ∈ xs, noted x

namespace Store

namespace Frame

variable {noted : Event α → Prop} {p : PoolId} {s t u : Store α}

theorem refl (s : Store α) : Frame noted p s s :=
  ⟨rfl, rfl, rfl, fun _ _ => rfl, id, [], (List.append_nil _).symm, fun _ hx => absurd hx List.not_mem_nil⟩

theorem trans (h : Frame noted p s t) (h' : Frame noted p t u) : Frame noted p s u where
  guards := h'.guards.trans h.guards
  handles := h'.handles.trans h.handles
  size := h'.size.trans h.size
  other q hq := (h'.other q hq).trans (h.other q hq)
  fair hs := h'.fair (h.fair hs)
  events := by
    obtain ⟨xs, hxs, hnoted⟩ := h.events
    obtain ⟨ys, hys, hnoted'⟩ := h'.events
    refine ⟨xs ++ ys, by rw [hys, hxs, List.append_assoc], fun x hx => ?_⟩
    rcases List.mem_append.mp hx with hx | hx
    · exact hnoted x hx
    · exact hnoted' x hx

theorem mono {noted' : Event α → Prop} (h : Frame noted p s t) (hn : ∀ x, noted x → noted' x) :
    Frame noted' p s t where
  guards := h.guards
  handles := h.handles
  size := h.size
  other := h.other
  fair := h.fair
  events := by
    obtain ⟨xs, hxs, hnoted⟩ := h.events
    exact ⟨xs, hxs, fun x hx => hn x (hnoted x hx)⟩

/-- Other entries, or other numbers to draw. -/
theorem of_eq (hg : t.guards = s.guards) (hh : t.handles = s.handles) (hp : t.pools = s.pools)
    (hj : t.journal = s.journal) : Frame noted p s t where
  guards := hg
  handles := hh
  size := congrArg Array.size hp
  other q _ := by rw [pool, hp, pool]
  fair hs := by rwa [pool, hp]
  events := by
    refine ⟨[], ?_, fun _ hx => absurd hx List.not_mem_nil⟩
    rw [Store.events, hj, List.append_nil, Store.events]

theorem setEntry (h : Frame noted p s t) (e : EntryId) (x : Entry α) :
    Frame noted p s (t.setEntry e x) :=
  h.trans (.of_eq rfl rfl rfl rfl)

theorem modify (h : Frame noted p s t) {f : Pool α → Pool α} (hf : ∀ x, x.Fair → (f x).Fair) :
    Frame noted p s (t.modifyPool p f) where
  guards := h.guards
  handles := h.handles
  size := (size_modifyPool t p f).trans h.size
  other q hq := by rw [pool_modifyPool, if_neg fun hx => hq hx.1, h.other q hq]
  fair hs := by
    rw [pool_modifyPool]
    split_ifs
    · exact hf _ (h.fair hs)
    · exact h.fair hs
  events := h.events

theorem count (h : Frame noted p s t) {f : Counters → Counters}
    (hf : ∀ k : Counters, k.hits ≤ k.acquired → (f k).hits ≤ (f k).acquired) :
    Frame noted p s (t.count p f) :=
  h.modify fun x hx => hf x.counters hx

theorem note (h : Frame noted p s t) {x : Event α} (hx : noted x) :
    Frame noted p s (t.note x) where
  guards := h.guards
  handles := h.handles
  size := h.size
  other := h.other
  fair := h.fair
  events := by
    obtain ⟨xs, hxs, hnoted⟩ := h.events
    refine ⟨xs ++ [x], by rw [events_note, hxs, List.append_assoc], fun y hy => ?_⟩
    rcases List.mem_append.mp hy with hy | hy
    · exact hnoted y hy
    · exact List.mem_singleton.mp hy ▸ hx

/-- Hits stay among the entries acquired, on all pools. -/
theorem fair_of_fair (h : Frame noted p s t) {q : PoolId} (hs : (s.pool q).Fair) :
    (t.pool q).Fair := by
  by_cases hq : q = p
  · subst hq
    exact h.fair hs
  · rw [h.other q hq]
    exact hs

end Frame

variable (s : Store α) (p : PoolId)

theorem frame_reserve : Frame Event.Quiet p s (s.reserve p).2 := by
  unfold reserve
  split_ifs
  · refine .note (.count (.refl s) ?_) ⟨rfl, rfl⟩
    exact fun _ hk => hk
  · refine .note (.modify ?_ ?_) ⟨rfl, rfl⟩
    · exact .of_eq rfl rfl rfl rfl
    · exact fun _ hx => hx

theorem frame_enable (e : EntryId) (v : α) (atOnce : Bool) :
    Frame Event.Quiet p s (s.enable e v atOnce).2 := by
  unfold enable
  split
  · exact .note (.setEntry (.refl s) e _) ⟨rfl, rfl⟩
  · exact .refl s

theorem frame_handOut (c : CallerId) (e : EntryId) (hinted : Bool) :
    Frame Event.Quiet p s (s.handOut p c e hinted) := by
  refine .note (.count (.setEntry (.refl s) e _) fun k hk => ?_) ⟨rfl, rfl⟩
  dsimp only
  split_ifs <;> omega

theorem frame_miss : Frame Event.Quiet p s (s.miss p) := by
  refine .note (.count (.refl s) ?_) ⟨rfl, rfl⟩
  exact fun _ hk => hk

theorem frame_start (c : CallerId) : Frame Event.Quiet p s (s.start p c).2 := by
  refine .modify ?_ ?_
  · exact .of_eq rfl rfl rfl rfl
  · exact fun _ hx => hx

theorem frame_acquire (c : CallerId) : Frame Event.Quiet p s (s.acquire p c).2 := by
  cases hc : (s.roster p).closed with
  | true =>
    rw [acquire_of_closed c hc]
    exact .refl s
  | false =>
    have hb := s.frame_start p c
    obtain ⟨-, ha⟩ | ⟨x, -, ha⟩ | ⟨-, i, t, ht, ⟨x, -, ha⟩ | ⟨-, ha⟩⟩ := acquire_cases c hc
    · exact ha ▸ s.frame_miss p
    · exact ha ▸ s.frame_handOut p c x true
    · rw [ht] at hb
      exact ha ▸ hb.trans (t.frame_handOut p c x false)
    · rw [ht] at hb
      exact ha ▸ hb.trans (t.frame_miss p)

theorem fair_remember {x : Pool α} (c : CallerId) (e : EntryId) (hx : x.Fair) :
    (x.remember c e).Fair := by
  unfold Pool.remember
  split_ifs
  · exact hx
  · exact hx

theorem frame_release (c : CallerId) (e : EntryId) :
    Frame Event.Quiet p s (s.release p c e).2 := by
  unfold release
  split_ifs
  · exact .refl s
  split
  · refine .note (.modify ?_ fun _ hx => fair_remember c e hx) ⟨rfl, rfl⟩
    exact .count (.setEntry (.refl s) e _) fun _ hk => hk
  · exact .refl s

theorem frame_remove (e : EntryId) : Frame Event.Quiet p s (s.remove p e).2 := by
  unfold remove
  split_ifs
  · exact .refl s
  split
  · exact .note (.refl s) ⟨rfl, rfl⟩
  · dsimp only
    split_ifs
    · refine .note (.count (.modify (.setEntry (.refl s) e _) ?_) ?_) ⟨rfl, rfl⟩
      · exact fun _ hx => hx
      · exact fun _ hk => hk
    · exact .note (.setEntry (.refl s) e _) ⟨rfl, rfl⟩

theorem frame_settle (c : CallerId) (e : EntryId) (creation : Creation α) :
    Frame Event.Quiet p s (s.settle p c e creation).2 := by
  cases creation with
  | value v =>
    unfold settle
    dsimp only
    split
    · exact .note (.count (.setEntry (.refl s) e _) fun _ hk => Nat.le_succ_of_le hk) ⟨rfl, rfl⟩
    · exact .refl s
    · exact .refl s
  | nothing => exact s.frame_remove p e
  | refused reason => exact s.frame_remove p e
  | panicked => exact .refl s

theorem frame_dispose (e : EntryId) : Frame Event.Faultless p s (s.dispose p e).2 := by
  unfold dispose
  split
  · dsimp only
    split
    · refine .note (.note (.refl s) ?_) ?_ <;> rfl
    · exact .note (.refl s) rfl
  · exact .refl s

theorem frame_reclaim (es : List EntryId) (s : Store α) :
    Frame Event.Faultless p s (reclaim p es s).2.2 := by
  induction es generalizing s with
  | nil => exact .refl s
  | cons e es ih =>
    unfold reclaim
    split
    · have hx : Frame Event.Faultless p s (s.note (.skipped p e)) := .note (.refl s) rfl
      exact hx.trans (ih _)
    · next x _ =>
      have hx : Frame Event.Faultless p s ((s.setEntry e x).note (.reclaimed p e)) :=
        .note (.setEntry (.refl s) e x) rfl
      exact (hx.trans (frame_dispose _ p e)).trans (ih _)

theorem frame_close : Frame Event.Faultless p s (s.close p).2 := by
  let u := s.modifyPool p fun pool => { pool with closed := true, members := [], hints := {} }
  have hu : Frame Event.Faultless p s u := .modify (.refl s) fun _ hx => hx
  unfold close
  dsimp only
  split_ifs
  · exact hu
  · exact .note (hu.trans (frame_reclaim p _ u)) rfl

/-! ### Trackers and guards -/

theorem frame_setTracker (x : Tracker) : Frame Event.Quiet p s (s.setTracker p x) := by
  refine .modify (.refl s) ?_
  exact fun _ hx => hx

theorem frame_observeAcquire (e : EntryId) : Frame Event.Quiet p s (s.observeAcquire p e) := by
  unfold observeAcquire
  split
  · exact .refl s
  · split
    · exact s.frame_setTracker p _
    · exact .note (s.frame_setTracker p _) ⟨rfl, rfl⟩

theorem frame_observeRelease (e : EntryId) : Frame Event.Quiet p s (s.observeRelease p e) := by
  unfold observeRelease
  split
  · exact .refl s
  · split
    · exact s.frame_setTracker p _
    · exact .note (s.frame_setTracker p _) ⟨rfl, rfl⟩

theorem frame_observeRemoval (e : EntryId) : Frame Event.Quiet p s (s.observeRemoval p e) := by
  unfold observeRemoval
  split
  · exact .refl s
  · split
    · exact s.frame_setTracker p _
    · exact .note (s.frame_setTracker p _) ⟨rfl, rfl⟩

theorem frame_trackedAcquire (direct : Bool) (c : CallerId) :
    Frame Event.Quiet p s (s.trackedAcquire direct p c).2 := by
  have ha := s.frame_acquire p c
  unfold trackedAcquire
  split
  · next e t ht =>
    rw [ht] at ha
    cases direct with
    | true => exact ha
    | false => exact ha.trans (t.frame_observeAcquire p e)
  · next t ht =>
    rw [ht] at ha
    exact ha

theorem frame_trackedRelease (direct : Bool) (c : CallerId) (e : EntryId) :
    Frame Event.Quiet p s (s.trackedRelease direct p c e).2 := by
  cases direct with
  | true => exact s.frame_release p c e
  | false => exact (s.frame_observeRelease p e).trans (frame_release _ p c e)

theorem frame_trackedRemove (direct : Bool) (e : EntryId) :
    Frame Event.Quiet p s (s.trackedRemove direct p e).2 := by
  cases direct with
  | true => exact s.frame_remove p e
  | false => exact (s.frame_observeRemoval p e).trans (frame_remove _ p e)

theorem frame_giveBack (c : CallerId) (g : Guard) :
    Frame (fun x => x.disposal? = none) g.pool s (s.giveBack c g) := by
  have hr : Frame (fun x => x.disposal? = none) g.pool s
      (s.trackedRelease g.direct g.pool c g.entry).2 :=
    (s.frame_trackedRelease g.pool g.direct c g.entry).mono fun _ hx => hx.1
  unfold giveBack
  split
  · next t ht =>
    rw [ht] at hr
    exact hr
  · next t ht =>
    rw [ht] at hr
    exact .note hr rfl

theorem frame_checkLeaks (x : Tracker) : Frame Event.Quiet p s (s.checkLeaks p x).2 := by
  have hf : ∀ (leaks : List Leak) (u : Store α), Frame Event.Quiet p s u →
      Frame Event.Quiet p s (leaks.foldl (fun u leak => u.note (.leaked p leak)) u) := by
    intro leaks
    induction leaks with
    | nil => exact fun _ hu => hu
    | cons leak leaks ih => exact fun u hu => ih _ (.note hu ⟨rfl, rfl⟩)
  exact hf _ _ (s.frame_setTracker p _)

end Store

end ResourcePool
