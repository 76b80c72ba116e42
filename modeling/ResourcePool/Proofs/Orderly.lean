import ResourcePool.Proofs.Hinting

/-! Orderly stores: when entries are released and removed on the pools that reserved them, all pools are
steady, and a call on one of them touches no entry of another. -/
namespace ResourcePool
open Registry

variable {α : Type}

/-- Whether a call, if it is a release or a removal, is made on the pool that reserved the entry. -/
def Call.OnOwn (s : Store α) : Call α → Prop
  | release p _ e => e ∈ s.reservations p
  | remove p e => e ∈ s.reservations p
  | _ => True

instance (s : Store α) : (c : Call α) → Decidable (c.OnOwn s)
  | .release p _ e => inferInstanceAs (Decidable (e ∈ s.reservations p))
  | .remove p e => inferInstanceAs (Decidable (e ∈ s.reservations p))
  | .create .. | .reserve _ | .enable .. | .acquire .. | .fulfil .. | .close _ => isTrue trivial

theorem Call.OnOwn.releasesOwn {s : Store α} {c : Call α} (h : c.OnOwn s) : c.ReleasesOwn s := by
  cases c with
  | release p c e => exact h
  | _ => trivial

/-- Whether a call, if it ends a creation, is made on the pool that reserved the entry. -/
def Call.FulfilsOwn (s : Store α) : Call α → Prop
  | fulfil p _ e _ => e ∈ s.reservations p
  | _ => True

theorem Move.fulfilsOwn {s : Store α} {m : Move α} (proper : m.Proper s) :
    ∀ x ∈ m.calls s, x.2.FulfilsOwn x.1 := by
  have hsettle : ∀ p c e creation, e ∈ s.reservations p →
      ∀ x ∈ s.settleCalls p c e creation, x.2.FulfilsOwn x.1 := by
    intro p c e creation he x hx
    cases creation with
    | value v => exact List.mem_singleton.mp hx ▸ he
    | nothing => exact List.mem_singleton.mp hx ▸ trivial
    | refused reason => exact List.mem_singleton.mp hx ▸ trivial
    | panicked => exact absurd hx List.not_mem_nil
  have hput : ∀ (t : Store α) c name g, ∀ x ∈ t.putGuardCalls c name g, x.2.FulfilsOwn x.1 := by
    intro t c name g x hx
    unfold Store.putGuardCalls at hx
    split at hx
    · exact List.mem_singleton.mp hx ▸ trivial
    · exact absurd hx List.not_mem_nil
  intro x hx
  cases m with
  | settle direct p c e creation => exact hsettle p c e creation proper x hx
  | lease direct p c name =>
    rcases List.mem_cons.mp hx with rfl | hx
    · trivial
    · split at hx
      · exact hput _ c name _ x hx
      · exact absurd hx List.not_mem_nil
  | settleLease p c name e creation =>
    rcases List.mem_append.mp hx with hx | hx
    · exact hsettle p c e creation proper x hx
    · split at hx
      · exact hput _ c name _ x hx
      · exact absurd hx List.not_mem_nil
  | dropGuard c name =>
    change x ∈ (s.guard? name).elim [] fun g => [(s.endGuard name).giveBackCall c g] at hx
    cases hg : s.guard? name with
    | none =>
      rw [hg] at hx
      exact absurd hx List.not_mem_nil
    | some g =>
      rw [hg] at hx
      exact List.mem_singleton.mp hx ▸ trivial
  | removeGuarded name =>
    change x ∈ (s.guard? name).elim [] fun g =>
      [(s.endGuard name).removeCall g.direct g.pool g.entry] at hx
    cases hg : s.guard? name with
    | none =>
      rw [hg] at hx
      exact absurd hx List.not_mem_nil
    | some g =>
      rw [hg] at hx
      exact List.mem_singleton.mp hx ▸ trivial
  | create | reserve | enable | acquire | release | remove | close =>
    exact List.mem_singleton.mp hx ▸ trivial
  | _ => exact absurd hx List.not_mem_nil

theorem History.fulfilsOwn {allowed : Store α → Move α → Prop} {s t : Store α}
    {calls : List (Called α)} (h : History allowed s calls t) :
    ∀ x ∈ calls, x.2.FulfilsOwn x.1 := by
  induction h with
  | start => exact fun _ hx => absurd hx List.not_mem_nil
  | move _ m proper _ ih =>
    intro x hx
    rcases List.mem_append.mp hx with hx | hx
    · exact ih x hx
    · exact m.fulfilsOwn proper x hx

/-- Besides what is trusted, all members are open. -/
structure Store.Orderly (s : Store α) : Prop extends s.Trusted where
  live : ∀ p, ∀ e ∈ s.members p, s.state e ≠ .closed

namespace Store.Orderly

variable {s t : Store α} {p q : PoolId} {e : EntryId} {c : Call α}

theorem steady (hs : s.Orderly) (hp : p < s.pools.size) : s.Steady p :=
  ⟨hp, hs.sound, hs.live p, hs.hinted p⟩

theorem blank (draws : List Nat) : (Store.blank draws : Store α).Orderly where
  toTrusted := .blank draws
  live _ _ he := absurd he List.not_mem_nil

theorem alike (hs : s.Orderly) (h : s.Alike t) : t.Orderly where
  toTrusted := hs.toTrusted.alike h
  live p e he := by
    have hv : (e ∈ (t.registry.roster p).members → (t.registry.entry e).state ≠ .closed) := by
      rw [h.registry]
      exact hs.live p e
    exact hv he

/-- An open entry is in the list of the pool that reserved it. -/
theorem mem_of_own (hs : s.Orderly) (he : e ∈ s.reservations p) (hx : s.state e ≠ .closed) :
    e ∈ s.members p :=
  hs.sound.kept p e he hx

theorem apply (hs : s.Orderly) (own : c.OnOwn s) : (c.apply s).Orderly where
  toTrusted := hs.toTrusted.apply c own.releasesOwn
  live p := by
    have hpath : Path (ownRemovals p) s.registry (c.apply s).registry := by
      refine (c.change s).path fun q e hc hg unlisted => ?_
      subst hc
      exact absurd (hs.mem_of_own own (Entry.grants_remove_iff.mp hg)) unlisted
    exact hpath.listed_open hs.sound (hs.live p)

/-- A call that serves an entry, but for enabling it, is made on the pool that reserved it. -/
theorem own_of_granted (hs : s.Orderly) (own : c.OnOwn s) (fulfils : c.FulfilsOwn s)
    {r : Entry.Request α} (h : c.granted? s = some (e, r)) :
    (∃ v atOnce, c = .enable e v atOnce) ∨ ∃ q, c.site? s = some q ∧ e ∈ s.reservations q := by
  cases c with
  | enable x v atOnce =>
    obtain ⟨-, hx⟩ := Option.ite_none_right_eq_some.mp h
    obtain ⟨rfl, -⟩ := Prod.mk.inj (Option.some.inj hx)
    exact .inl ⟨v, atOnce, rfl⟩
  | acquire q i =>
    obtain ⟨x, hx, hpair⟩ := Option.map_eq_some_iff.mp h
    obtain ⟨rfl, -⟩ := Prod.mk.inj hpair
    exact .inr ⟨q, rfl, (hs.sound.listed q).subset (hs.toTrusted.mem_of_acquire hx).1⟩
  | fulfil q i x v =>
    obtain ⟨-, hx⟩ := Option.ite_none_right_eq_some.mp h
    obtain ⟨rfl, -⟩ := Prod.mk.inj (Option.some.inj hx)
    exact .inr ⟨q, rfl, fulfils⟩
  | release q i x =>
    obtain ⟨-, hx⟩ := Option.ite_none_right_eq_some.mp h
    obtain ⟨rfl, -⟩ := Prod.mk.inj (Option.some.inj hx)
    exact .inr ⟨q, rfl, own⟩
  | _ => simp [Call.granted?] at h

/-- A call on another pool leaves the entries of this one alone. -/
theorem entry_apply_of_ne (hs : s.Orderly) (own : c.OnOwn s) (fulfils : c.FulfilsOwn s)
    (other : c.site? s ≠ some p) (he : e ∈ s.reservations p)
    (henable : ∀ v atOnce, c ≠ .enable e v atOnce) : (c.apply s).entry e = s.entry e := by
  have hc := c.change s
  change (c.apply s).registry.entry e = s.registry.entry e
  generalize (c.apply s).registry = w at hc
  have hne : ∀ {q x}, c.site? s = some q → x ∈ s.reservations q → e ≠ x := by
    rintro q x hq hx rfl
    exact other (hs.sound.disjoint q p e hx he ▸ hq)
  cases hc with
  | create | refuse => rfl
  | reserve q => exact reserve_entry_of_ne _ q (Nat.ne_of_lt (hs.sound.bounded p e he))
  | @serve _ x r answer =>
    refine grant_entry_of_ne _ r ?_
    rcases hs.own_of_granted own fulfils answer with ⟨v, atOnce, rfl⟩ | ⟨q, hq, hx⟩
    · rintro rfl
      exact henable v atOnce rfl
    · exact hne hq hx
  | evict q x => exact grant_entry_of_ne _ _ (hne rfl own)
  | disown q x => exact grant_entry_of_ne _ _ (hne rfl own)
  | close q =>
    have hm : e ∉ (s.registry.roster q).members := by
      intro hm
      exact hne rfl ((hs.sound.listed q).subset hm) rfl
    simp only [Registry.close, Registry.closeAll, if_neg hm]

end Store.Orderly

theorem Trace.orderly {draws : List Nat} {s : Store α} {calls : List (Called α)}
    (h : Trace (.blank draws) calls s) (own : ∀ x ∈ calls, x.2.OnOwn x.1) : s.Orderly :=
  h.keeps (fun _ _ same hu => hu.alike same) (fun u c hc hu => hu.apply (own (u, c) hc))
    (Store.Orderly.blank draws)

end ResourcePool
