import ResourcePool.Proofs.Client
import ResourcePool.Proofs.Stock

/-! A census follows its client: it foretells every reply and every reading. -/
namespace ResourcePool

variable {α : Type}

namespace Store

variable {s : Store α} {p : PoolId} {l : List EntryId} {st : EntryState} {e : EntryId}

theorem gauge_enable_stocked (hs : s.Steady p) (h : s.registry.Stocked p l .pending) (he : e ∈ l)
    (v : α) (acquire : Bool) : ∃ done, (s.enable e v acquire).1 = .ok done ∧
      (done, (s.enable e v acquire).2.gauge p) = (s.gauge p).enable acquire := by
  cases hc : (s.pool p).closed with
  | true =>
    have hx := enable_of_closed (hs.state_of_closed hc (h.own e he)) v acquire
    have hg : (s.gauge p).enable acquire = (false, s.gauge p) := if_pos hc
    rw [hx]
    exact ⟨false, rfl, hg.symm⟩
  | false =>
    have hm := hs.mem_of_stocked h (by simp) hc he
    exact ⟨true, gauge_enable hs hm (h.state hc e he) hc v acquire⟩

theorem gauge_release_stocked (hs : s.Steady p) (h : s.registry.Stocked p l .active) (he : e ∈ l)
    (c : CallerId) : ∃ done, (s.release p c e).1 = .ok done ∧
      (done, (s.release p c e).2.gauge p) = (s.gauge p).release := by
  cases hc : (s.pool p).closed with
  | true =>
    have hx : s.release p c e = (.ok false, s) := if_pos hc
    have hg : (s.gauge p).release = (false, s.gauge p) := if_pos hc
    rw [hx]
    exact ⟨false, rfl, hg.symm⟩
  | false =>
    have hm := hs.mem_of_stocked h (by simp) hc he
    exact ⟨true, gauge_release hs hm (h.state hc e he) hc c⟩

theorem gauge_remove_stocked (hs : s.Steady p) (h : s.registry.Stocked p l st) (hst : st ≠ .closed)
    (he : e ∈ l) : ((s.remove p e).1, (s.remove p e).2.gauge p) = (s.gauge p).remove st := by
  cases hc : (s.pool p).closed with
  | true =>
    have hg : (s.gauge p).remove st = (false, s.gauge p) := if_pos hc
    rw [remove_of_closed e hc, hg]
  | false =>
    have hx : s.state e = st := h.state hc e he
    obtain ⟨ha, hg⟩ := gauge_remove hs (hs.mem_of_stocked h hst hc he) hc
    rw [ha, hg, hx]

end Store

namespace Client

def census (k : Client α) (p : PoolId) : Census where
  gauge := k.store.gauge p
  unused := k.unused.length
  held := k.held.length

/-- The client has what it takes itself to have, and nobody else deals with its pool. -/
structure Sound (k : Client α) (p : PoolId) : Prop where
  steady : k.store.Steady p
  unused : k.store.registry.Stocked p k.unused .pending
  held : k.store.registry.Stocked p k.held .active

/-- An order is carried out as the census has it, and the client stays sound. -/
def Follows (k : Client α) (p : PoolId) (c : CallerId) (order : Order α) : Prop :=
  ((k.perform p c order).1, (k.perform p c order).2.census p) = (k.census p).perform order ∧
    (k.perform p c order).2.Sound p

variable {k : Client α} {p : PoolId}

theorem follows_warmup (hk : k.Sound p) (c : CallerId) (count : Nat) (value : Nat → α) :
    k.Follows p c (.warmup count value) := by
  obtain ⟨hg, hs⟩ := Store.gauge_warmup value count 0 hk.steady
  have hu := Store.stocked_warmup value count 0 hk.steady hk.unused
  have hh := Store.stocked_warmup value count 0 hk.steady hk.held
  refine ⟨?_, hs, hu, hh⟩
  simp only [Census.perform, census]
  rw [← hg]
  rfl

theorem follows_reserve (hk : k.Sound p) (c : CallerId) : k.Follows p c .reserve := by
  have hg := Store.gauge_reserve hk.steady
  have hs := hk.steady.reserve
  have hu := Store.stocked_reserve hk.steady hk.unused
  have hh := Store.stocked_reserve hk.steady hk.held
  constructor
  · simp only [Census.perform, census]
    rw [← hg]
    cases hr : (k.store.reserve p).1 <;> simp [perform, hr]
  · refine ⟨hs, ?_, hh⟩
    simp only [perform]
    cases hr : (k.store.reserve p).1 with
    | none =>
      rw [Option.toList_none, List.append_nil]
      exact hu
    | some e =>
      obtain ⟨hm, hx⟩ := Store.mem_of_reserve hr
      exact hu.concat (Store.not_mem_of_reserve hk.steady hk.unused hr)
        ((hs.sound.listed p).subset hm) hx

theorem follows_acquire (hk : k.Sound p) (c : CallerId) : k.Follows p c .acquire := by
  have hg := Store.gauge_acquire hk.steady c
  have hu := Store.stocked_acquire hk.unused (by simp) c
  have hh := Store.stocked_acquired hk.steady hk.held c
  refine ⟨?_, hk.steady.acquire c, hu, hh⟩
  simp only [Census.perform, census]
  rw [← hg]
  cases hr : (k.store.acquire p c).1 <;> simp [perform, hr]

theorem follows_acquireWith (hk : k.Sound p) (c : CallerId) (creation : Creation α) :
    k.Follows p c (.acquireWith creation) := by
  obtain ⟨hg, hs⟩ := Store.gauge_acquireWith hk.steady c creation
  have hu := Store.stocked_acquireWith c creation hk.steady hk.unused (by simp)
  have hh := Store.stocked_acquiredWith c creation hk.steady hk.held
  refine ⟨?_, hs, hu, hh⟩
  simp only [Census.perform, census]
  rw [← hg]
  cases hr : (k.store.acquireWith (ρ := Unit) p c fun _ s => (creation, [], s)).1 with
  | error f => simp [perform, hr, Except.map, Except.toOption]
  | ok e? => cases e? <;> simp [perform, hr, Except.map, Except.toOption]

/-- An entry taken off a list: one less, and none of it is left. -/
theorem length_erase_of_getElem? {l : List EntryId} {place : Nat} {e : EntryId}
    (h : l[place]? = some e) : place < l.length ∧ e ∈ l ∧ (l.erase e).length = l.length - 1 := by
  obtain ⟨hlt, he⟩ := List.getElem?_eq_some_iff.mp h
  have hm : e ∈ l := he ▸ List.getElem_mem hlt
  exact ⟨hlt, hm, List.length_erase_of_mem hm⟩

theorem follows_enable (hk : k.Sound p) (c : CallerId) (place : Nat) (v : α) (acquire : Bool) :
    k.Follows p c (.enable place v acquire) := by
  cases he : k.unused[place]? with
  | none =>
    simp [Follows, perform, Census.perform, census, he, Census.placed_of_getElem?_eq_none he, hk]
  | some e =>
    obtain ⟨hlt, hm, hlen⟩ := length_erase_of_getElem? he
    obtain ⟨done, ha, hg⟩ := Store.gauge_enable_stocked hk.steady hk.unused hm v acquire
    have hn : k.store.state e = .pending → e ∉ k.held := fun hst =>
      hk.unused.not_mem_other hk.held (by simp) (hk.steady.open_of_stocked hk.unused hm (by simp [hst])) hm
    have hs := hk.steady.enable e v acquire
    have hu := Store.stocked_enable (hk.unused.erase e) (fun _ => hk.unused.nodup.not_mem_erase) v acquire
    have hh := Store.stocked_enable hk.held hn v acquire
    have hperform : k.perform p c (.enable place v acquire) = (.enabled (.ok done),
        { store := (k.store.enable e v acquire).2
          unused := k.unused.erase e
          held := if acquire && done then k.held ++ [e] else k.held }) := by
      cases done <;> simp [perform, he, ha]
    unfold Follows
    rw [hperform]
    constructor
    · simp only [Census.perform, census]
      rw [← hg, Census.placed_of_lt hlt, hlen]
      cases acquire <;> cases done <;> simp
    · refine ⟨hs, hu, ?_⟩
      split_ifs with hout
      · rw [Bool.and_eq_true] at hout
        obtain ⟨rfl, rfl⟩ := hout
        have hgrant : (k.store.registry.entry e).Grants (.enable v true) := by
          by_contra hno
          exact (Store.enable_of_not_grants hno).1 ha
        have hst : k.store.state e = .pending := Entry.grants_enable_iff.mp hgrant
        have hr := (Store.enable_of_grants hgrant).2
        refine hh.concat (hn hst) ?_ ?_
        · rw [hr]
          exact hk.unused.own e hm
        · rw [hr, Registry.grant_entry_self, Entry.state_answer hgrant]
          rfl
      · exact hh

theorem follows_discard (hk : k.Sound p) (c : CallerId) (place : Nat) :
    k.Follows p c (.discard place) := by
  cases he : k.unused[place]? with
  | none =>
    simp [Follows, perform, Census.perform, census, he, Census.placed_of_getElem?_eq_none he, hk]
  | some e =>
    obtain ⟨hlt, hm, hlen⟩ := length_erase_of_getElem? he
    have hg := Store.gauge_remove_stocked hk.steady hk.unused (by simp) hm
    have hu := Store.stocked_remove (hk.unused.erase e) fun _ => hk.unused.nodup.not_mem_erase
    have hh := Store.stocked_remove hk.held fun hp => hk.unused.not_mem_other hk.held (by simp) hp hm
    have hperform : k.perform p c (.discard place) = (.removed (k.store.remove p e).1,
        { k with store := (k.store.remove p e).2, unused := k.unused.erase e }) := by
      simp [perform, he]
    unfold Follows
    rw [hperform]
    refine ⟨?_, hk.steady.remove e, hu, hh⟩
    simp only [Census.perform, census]
    rw [← hg, Census.placed_of_lt hlt, hlen]

theorem follows_release (hk : k.Sound p) (c : CallerId) (place : Nat) :
    k.Follows p c (.release place) := by
  cases he : k.held[place]? with
  | none =>
    simp [Follows, perform, Census.perform, census, he, Census.placed_of_getElem?_eq_none he, hk]
  | some e =>
    obtain ⟨hlt, hm, hlen⟩ := length_erase_of_getElem? he
    obtain ⟨done, ha, hg⟩ := Store.gauge_release_stocked hk.steady hk.held hm c
    have hu := Store.stocked_release hk.unused
      (fun hp => hk.held.not_mem_other hk.unused (by simp) hp hm) c
    have hh := Store.stocked_release (hk.held.erase e) (fun _ => hk.held.nodup.not_mem_erase) c
    have hperform : k.perform p c (.release place) = (.released (.ok done),
        { k with store := (k.store.release p c e).2, held := k.held.erase e }) := by
      simp [perform, he, ha]
    unfold Follows
    rw [hperform]
    refine ⟨?_, hk.steady.release c (hk.held.own e hm), hu, hh⟩
    simp only [Census.perform, census]
    rw [← hg, Census.placed_of_lt hlt, hlen]

theorem follows_remove (hk : k.Sound p) (c : CallerId) (place : Nat) :
    k.Follows p c (.remove place) := by
  cases he : k.held[place]? with
  | none =>
    simp [Follows, perform, Census.perform, census, he, Census.placed_of_getElem?_eq_none he, hk]
  | some e =>
    obtain ⟨hlt, hm, hlen⟩ := length_erase_of_getElem? he
    have hg := Store.gauge_remove_stocked hk.steady hk.held (by simp) hm
    have hu := Store.stocked_remove hk.unused fun hp => hk.held.not_mem_other hk.unused (by simp) hp hm
    have hh := Store.stocked_remove (hk.held.erase e) fun _ => hk.held.nodup.not_mem_erase
    have hperform : k.perform p c (.remove place) = (.removed (k.store.remove p e).1,
        { k with store := (k.store.remove p e).2, held := k.held.erase e }) := by
      simp [perform, he]
    unfold Follows
    rw [hperform]
    refine ⟨?_, hk.steady.remove e, hu, hh⟩
    simp only [Census.perform, census]
    rw [← hg, Census.placed_of_lt hlt, hlen]

theorem follows_close (hk : k.Sound p) (c : CallerId) : k.Follows p c .close := by
  refine ⟨?_, hk.steady.close, Store.stocked_close hk.unused, Store.stocked_close hk.held⟩
  simp only [Census.perform, census, perform]
  rw [Store.gauge_close hk.steady]

theorem follows (hk : k.Sound p) (c : CallerId) (order : Order α) : k.Follows p c order := by
  cases order with
  | warmup count value => exact follows_warmup hk c count value
  | reserve => exact follows_reserve hk c
  | enable place v acquire => exact follows_enable hk c place v acquire
  | discard place => exact follows_discard hk c place
  | acquire => exact follows_acquire hk c
  | acquireWith creation => exact follows_acquireWith hk c creation
  | release place => exact follows_release hk c place
  | remove place => exact follows_remove hk c place
  | close => exact follows_close hk c

theorem trail_eq (hk : k.Sound p) (orders : List (CallerId × Order α)) :
    k.trail p orders = (k.census p).trail (orders.map (·.2)) := by
  induction orders generalizing k with
  | nil => rfl
  | cons call orders ih =>
    obtain ⟨c, order⟩ := call
    obtain ⟨hp, hs⟩ := follows hk c order
    rw [List.map_cons, Census.trail, ← hp]
    dsimp only [trail]
    rw [ih hs]
    rfl

end Client

end ResourcePool
