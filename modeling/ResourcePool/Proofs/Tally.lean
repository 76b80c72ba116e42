import ResourcePool.Proofs.Registry.Sound
import ResourcePool.Store.Readings

/-! Tallies: how the count of members by state changes with the members and their states. -/
namespace ResourcePool

variable {α : Type}

namespace Tally

/-- One member more, in the given state. -/
def add (t : Tally) : EntryState → Tally
  | .pending => { t with reserved := t.reserved + 1 }
  | .idle => { t with idle := t.idle + 1 }
  | .active => { t with inUse := t.inUse + 1 }
  | .closed => { t with closed := t.closed + 1 }

/-- One member less. -/
def drop (t : Tally) : EntryState → Tally
  | .pending => { t with reserved := t.reserved - 1 }
  | .idle => { t with idle := t.idle - 1 }
  | .active => { t with inUse := t.inUse - 1 }
  | .closed => { t with closed := t.closed - 1 }

@[simp] theorem drop_add (t : Tally) (st : EntryState) : (t.add st).drop st = t := by
  cases st <;> rfl

theorem size_add (t : Tally) (st : EntryState) : (t.add st).size = t.size + 1 := by
  cases st <;> simp only [add, size] <;> omega

theorem inUse_add (t : Tally) (st : EntryState) :
    (t.add st).inUse = t.inUse + if st = .active then 1 else 0 := by
  cases st <;> rfl

theorem ofStates_cons (st : EntryState) (states : List EntryState) :
    ofStates (st :: states) = (ofStates states).add st := by
  cases st <;> simp [ofStates, add]

theorem ofStates_perm {states states' : List EntryState} (h : states.Perm states') :
    ofStates states = ofStates states' := by
  simp [ofStates, h.count_eq]

theorem ofStates_concat (states : List EntryState) (st : EntryState) :
    ofStates (states ++ [st]) = (ofStates states).add st :=
  (ofStates_perm (List.perm_append_singleton st states)).trans (ofStates_cons st states)

theorem size_ofStates (states : List EntryState) : (ofStates states).size = states.length := by
  induction states with
  | nil => rfl
  | cons st states ih =>
    rw [ofStates_cons, List.length_cons, size_add, ih]

end Tally

namespace Registry

def tally (v : Registry α) (p : PoolId) : Tally :=
  .ofStates ((v.roster p).members.map fun e => (v.entry e).state)

variable {v : Registry α} {p : PoolId} {e : EntryId}

theorem tally_eq_add (he : e ∈ (v.roster p).members) : v.tally p = (Tally.ofStates
    (((v.roster p).members.erase e).map fun i => (v.entry i).state)).add (v.entry e).state := by
  have hperm : (v.roster p).members.Perm (e :: (v.roster p).members.erase e) :=
    List.perm_cons_erase he
  rw [tally, Tally.ofStates_perm (hperm.map _), List.map_cons, Tally.ofStates_cons]

/-- The other members are what they were. -/
theorem grant_entry_of_mem_erase (hn : (v.roster p).members.Nodup) (r : Entry.Request α)
    {i : EntryId} (hi : i ∈ (v.roster p).members.erase e) :
    (v.grant e r).entry i = v.entry i := by
  refine grant_entry_of_ne v r ?_
  rintro rfl
  exact hn.not_mem_erase hi

theorem tally_grant {r : Entry.Request α} (hn : (v.roster p).members.Nodup)
    (he : e ∈ (v.roster p).members) (hg : (v.entry e).Grants r) :
    (v.grant e r).tally p = ((v.tally p).drop (v.entry e).state).add r.target := by
  have hnew : ((v.grant e r).entry e).state = r.target := by
    rw [grant_entry_self, Entry.state_answer hg]
  rw [tally_eq_add (v := v.grant e r) he, hnew, tally_eq_add (v := v) he, Tally.drop_add]
  congr 2
  exact List.map_congr_left fun i hi => by rw [grant_entry_of_mem_erase hn r hi]

theorem tally_evict (hn : (v.roster p).members.Nodup) (he : e ∈ (v.roster p).members) :
    ((v.grant e .remove).strike p e).tally p = (v.tally p).drop (v.entry e).state := by
  have hmembers : (((v.grant e .remove).strike p e).roster p).members =
      (v.roster p).members.erase e := by
    simp [Registry.strike, Registry.grant]
  rw [tally, hmembers, tally_eq_add (v := v) he, Tally.drop_add]
  congr 1
  refine List.map_congr_left fun i hi => ?_
  change ((v.grant e .remove).entry i).state = _
  rw [grant_entry_of_mem_erase hn .remove hi]

theorem tally_reserve (hv : v.Sound) (p : PoolId) :
    (v.reserve p).tally p = (v.tally p).add .pending := by
  have hrest : ∀ i ∈ (v.roster p).members, (v.reserve p).entry i = v.entry i := by
    intro i hi
    have hlt : i < v.size := hv.bounded p i ((hv.listed p).subset hi)
    exact v.reserve_entry_of_ne p (Nat.ne_of_lt hlt)
  rw [tally, reserve_roster_self, List.map_append, List.map_singleton, Tally.ofStates_concat,
    reserve_entry_self, tally]
  congr 2
  exact List.map_congr_left fun i hi => by rw [hrest i hi]

theorem tally_close (v : Registry α) (p : PoolId) : (v.close p).tally p = {} := by
  simp [tally, Registry.close, Tally.ofStates]

end Registry

end ResourcePool
