import ResourcePool.Proofs.Guards
import ResourcePool.Proofs.Numbering
import ResourcePool.Proofs.Session

/-! Endings: the account of guards. A guard that was stored is there, or it ended, and that once; at its end it
made one call on its entry, or none. -/
namespace ResourcePool

variable {α : Type}

/-- How a guard ends. -/
inductive Ending where
  /-- The caller dropped it, or stored another under its name. -/
  | dropped (c : CallerId)
  | removed
  | detached

/-- The calls on its entry that a guard makes as it ends, whatever others did to that entry. -/
def Ending.calls (g : Guard) : Ending → List (Call α)
  | dropped c => [.release g.pool c g.entry]
  | removed => [.remove g.pool g.entry]
  | detached => []

/-- The guard of a name, if there is one, with the end that it comes to. -/
def Store.ending (s : Store α) (name : String) (x : Ending) : List ((String × Guard) × Ending) :=
  ((s.guard? name).map fun g => ((name, g), x)).toList

namespace Move

/-- The guards that a call stores, by name. -/
def guardsStored (s : Store α) : Move α → List (String × Guard)
  | lease direct p c name =>
    match (s.trackedAcquire direct p c).1 with
    | some e => [(name, { pool := p, entry := e, direct })]
    | none => []
  | settleLease p c name e creation =>
    match (s.settle p c e creation).1 with
    | .ok (some x) => [(name, { pool := p, entry := x })]
    | _ => []
  | _ => []

/-- The guards that a call ends. One that is stored ends the guard that had its name. -/
def guardsEnded (s : Store α) : Move α → List ((String × Guard) × Ending)
  | lease direct p c name => (guardsStored s (lease direct p c name)).flatMap fun _ => s.ending name (.dropped c)
  | settleLease p c name e creation =>
    (guardsStored s (settleLease p c name e creation)).flatMap fun _ => s.ending name (.dropped c)
  | dropGuard c name => s.ending name (.dropped c)
  | removeGuarded name => s.ending name .removed
  | detach name => s.ending name .detached
  | _ => []

end Move

namespace Store

/-- The guards that a name leaves, and the guard of that name. -/
theorem perm_ending {s : Store α} (hn : (s.guards.map (·.1)).Nodup) (name : String) (x : Ending) :
    s.guards.Perm ((s.ending name x).map (·.1) ++ s.guards.filter (·.1 != name)) := by
  unfold ending
  cases hg : s.guard? name with
  | none =>
    rw [filter_of_guard?_none hg]
    exact .refl _
  | some g => exact Callers.perm_of_lookup hn hg

theorem nodup_filter {s : Store α} (hn : (s.guards.map (·.1)).Nodup) (name : String) :
    ((s.guards.filter (·.1 != name)).map (·.1)).Nodup :=
  hn.sublist (List.filter_sublist.map _)

end Store

/-- The guards that the logged calls store. -/
def guardsStored (log : List (Moved α)) : List (String × Guard) :=
  log.flatMap fun x => x.2.guardsStored x.1

/-- The guards that the logged calls end, and how. -/
def guardsEnded (log : List (Moved α)) : List ((String × Guard) × Ending) :=
  log.flatMap fun x => x.2.guardsEnded x.1

namespace Move

variable {s : Store α}

/-- No guard was stored, or one took the place of the guard of its name. -/
def Swaps (s t : Store α) (name : String) (stored : List (String × Guard)) : Prop :=
  (stored = [] ∧ t.guards = s.guards) ∨
    ∃ g, stored = [(name, g)] ∧ t.guards = (name, g) :: s.guards.filter (·.1 != name)

theorem swaps_lease (s : Store α) (direct : Bool) (p : PoolId) (c : CallerId) (name : String) :
    Swaps s ((lease direct p c name).apply s) name (guardsStored s (lease direct p c name)) := by
  have hguards := (s.frame_trackedAcquire p direct c).guards
  unfold apply guardsStored Store.lease
  dsimp only
  cases ht : s.trackedAcquire direct p c with
  | mk found t =>
    rw [ht] at hguards
    cases found with
    | none => exact .inl ⟨rfl, hguards⟩
    | some e => exact .inr ⟨_, rfl, by rw [Store.guards_putGuard, hguards]⟩

theorem swaps_settleLease (s : Store α) (p : PoolId) (c : CallerId) (name : String) (e : EntryId)
    (creation : Creation α) : Swaps s ((settleLease p c name e creation).apply s) name
      (guardsStored s (settleLease p c name e creation)) := by
  have hguards := (s.frame_settle p c e creation).guards
  unfold apply guardsStored Store.guardResult
  dsimp only
  cases ht : s.settle p c e creation with
  | mk result t =>
    rw [ht] at hguards
    cases result with
    | error fault => exact .inl ⟨rfl, hguards⟩
    | ok found =>
      cases found with
      | none => exact .inl ⟨rfl, hguards⟩
      | some x => exact .inr ⟨_, rfl, by rw [Store.guards_putGuard, hguards]⟩

theorem Swaps.accounts {t : Store α} {name : String} {stored : List (String × Guard)}
    (h : Swaps s t name stored) (hn : (s.guards.map (·.1)).Nodup) (x : Ending) :
    (t.guards.map (·.1)).Nodup ∧ (s.guards ++ stored).Perm
      ((stored.flatMap fun _ => s.ending name x).map (·.1) ++ t.guards) := by
  rcases h with ⟨rfl, ht⟩ | ⟨g, rfl, ht⟩
  · rw [ht, List.append_nil]
    exact ⟨hn, .refl _⟩
  · have hfresh : name ∉ (s.guards.filter (·.1 != name)).map (·.1) := by
      intro hmem
      obtain ⟨y, hy, hname⟩ := List.mem_map.mp hmem
      exact bne_iff_ne.mp (List.mem_filter.mp hy).2 hname
    have hperm := (Store.perm_ending hn name x).append_right [(name, g)]
    rw [List.append_assoc] at hperm
    rw [ht, List.flatMap_singleton]
    constructor
    · exact List.nodup_cons.mpr ⟨hfresh, Store.nodup_filter hn name⟩
    · exact hperm.trans ((List.perm_append_singleton _ _).append_left _)

end Move

/-- Names stay distinct, and the guards before and those stored are the guards ended and those after. -/
def Accounts (s : Store α) (log : List (Moved α)) (t : Store α) : Prop :=
  (s.guards.map (·.1)).Nodup → (t.guards.map (·.1)).Nodup ∧
    (s.guards ++ guardsStored log).Perm ((guardsEnded log).map (·.1) ++ t.guards)

namespace Accounts

variable {s t u : Store α} {log log' : List (Moved α)}

theorem of_guards_eq (h : t.guards = s.guards) : Accounts s [] t := by
  intro hn
  rw [h]
  exact ⟨hn, .of_eq (List.append_nil _)⟩

theorem refl (s : Store α) : Accounts s [] s :=
  of_guards_eq rfl

theorem trans (h : Accounts s log t) (h' : Accounts t log' u) : Accounts s (log ++ log') u := by
  intro hn
  obtain ⟨ht, hperm⟩ := h hn
  obtain ⟨hu, hperm'⟩ := h' ht
  have hbefore := hperm.append_right (guardsStored log')
  have hafter := hperm'.append_left ((guardsEnded log).map (·.1))
  rw [List.append_assoc, List.append_assoc] at hbefore
  refine ⟨hu, ?_⟩
  simpa [guardsStored, guardsEnded] using hbefore.trans hafter

/-- What leaves the guards alone stands in no account. -/
theorem then_eq (h : Accounts s log t) (hu : u.guards = t.guards) : Accounts s log u := by
  have htrans := h.trans (of_guards_eq hu)
  rwa [List.append_nil] at htrans

theorem after_eq (hs : t.guards = s.guards) (h : Accounts t log u) : Accounts s log u :=
  (of_guards_eq hs).trans h

/-- A call of a client, whatever it is, balances. -/
theorem of_apply (s : Store α) (m : Move α) : Accounts s [(s, m)] (m.apply s) := by
  intro hn
  have hended : ∀ name x, m.ended? = some name → m.guardsStored s = [] →
      m.guardsEnded s = s.ending name x → ((m.apply s).guards.map (·.1)).Nodup ∧
        (s.guards ++ m.guardsStored s).Perm ((m.guardsEnded s).map (·.1) ++ (m.apply s).guards) := by
    intro name x hm hstored hends
    rw [Move.guards_of_ended hm, hstored, hends, List.append_nil]
    exact ⟨Store.nodup_filter hn name, Store.perm_ending hn name x⟩
  have hother : m.isLeasing = false → m.ended? = none → m.guardsStored s = [] →
      m.guardsEnded s = [] → ((m.apply s).guards.map (·.1)).Nodup ∧
        (s.guards ++ m.guardsStored s).Perm ((m.guardsEnded s).map (·.1) ++ (m.apply s).guards) := by
    intro hl he hstored hends
    rw [Move.guards_apply hl he, hstored, hends, List.append_nil]
    exact ⟨hn, .refl _⟩
  simp only [guardsStored, guardsEnded, List.flatMap_singleton]
  cases m with
  | lease direct p c name => exact (Move.swaps_lease s direct p c name).accounts hn (.dropped c)
  | settleLease p c name e creation =>
    exact (Move.swaps_settleLease s p c name e creation).accounts hn (.dropped c)
  | dropGuard c name => exact hended name (.dropped c) rfl rfl rfl
  | removeGuarded name => exact hended name .removed rfl rfl rfl
  | detach name => exact hended name .detached rfl rfl rfl
  | _ => exact hother rfl rfl rfl rfl

end Accounts

end ResourcePool
