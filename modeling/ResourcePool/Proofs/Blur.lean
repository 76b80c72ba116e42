import ResourcePool.Proofs.History

/-! Blurs: changes to what a store tells of itself that calls on entries and pools do not notice. A call does
the same to a blurred store, and what it does can be blurred afterwards as well. -/
namespace ResourcePool

variable {α ρ ρ' : Type}

/-- An event that calls on entries and pools note themselves. -/
def Event.isOwn : Event α → Bool
  | .reacquired .. | .untrackedRelease .. | .untrackedRemoval .. | .leaked .. | .guardFailed .. => false
  | _ => true

/-- A pool with another tracker, or with none. -/
def Pool.under (x : Pool α) (t? : Option Tracker) : Pool α :=
  { x with tracker? := t? }

/-- A change to stores that leaves entries and, past the trackers, pools alone, and goes together with all
small updates that calls are made of. -/
structure Store.Blurs (f : Store α → Store α) : Prop where
  entries : ∀ s, (f s).entries = s.entries
  draws : ∀ s, (f s).draws = s.draws
  pool : ∀ s p, ((f s).pool p).bare = (s.pool p).bare
  isAlive : ∀ s, (f s).isAlive = s.isAlive
  set_entries : ∀ s xs, f { s with entries := xs } = { f s with entries := xs }
  set_draws : ∀ s ns, f { s with draws := ns } = { f s with draws := ns }
  modify : ∀ s p g, (∀ x t?, g (x.under t?) = (g x).under t?) → f (s.modifyPool p g) = (f s).modifyPool p g
  note : ∀ s {x : Event α}, x.isOwn = true → f (s.note x) = (f s).note x

namespace Store

/-- Equal answers, and stores that look the same when blurred. -/
def Blurred {β : Type} (f : Store α → Store α) (x y : β × Store α) : Prop :=
  x.1 = y.1 ∧ f x.2 = f y.2

/-- Equal answers, related reports, and stores that look the same when blurred. -/
def BlurredWith {β : Type} (f : Store α → Store α) (R : List ρ → List ρ' → Prop) (x : β × List ρ × Store α)
    (y : β × List ρ' × Store α) : Prop :=
  x.1 = y.1 ∧ R x.2.1 y.2.1 ∧ f x.2.2 = f y.2.2

variable {f : Store α → Store α}

theorem Blurred.exists_eq {β : Type} {x y : β × Store α} (h : Blurred f x y) :
    ∃ b u v, x = (b, u) ∧ y = (b, v) ∧ f u = f v :=
  ⟨x.1, x.2, y.2, rfl, Prod.ext h.1.symm rfl, h.2⟩

theorem BlurredWith.exists_eq {β : Type} {R : List ρ → List ρ' → Prop} {x : β × List ρ × Store α}
    {y : β × List ρ' × Store α} (h : BlurredWith f R x y) :
    ∃ b rs rs' u v, x = (b, rs, u) ∧ y = (b, rs', v) ∧ R rs rs' ∧ f u = f v :=
  ⟨x.1, x.2.1, y.2.1, x.2.2, y.2.2, rfl, Prod.ext h.1.symm rfl, h.2.1, h.2.2⟩

/-- What goes together with a blur, and answers the same on blurred stores, does the same to stores that
look the same when blurred. -/
theorem blurred_of_commutes {β : Type} {g : Store α → β × Store α}
    (hg : ∀ s, g (f s) = ((g s).1, f (g s).2)) {s t : Store α} (h : f s = f t) :
    Blurred f (g s) (g t) := by
  have hst : ((g s).1, f (g s).2) = ((g t).1, f (g t).2) := by
    rw [← hg s, ← hg t, h]
  exact Prod.mk.inj hst

namespace Blurs

variable (hf : Blurs f) (s : Store α) (p : PoolId) (c : CallerId) (e : EntryId)

include hf

/-! ### Readings and small updates -/

theorem entry : (f s).entry = s.entry := by
  funext e
  unfold Store.entry
  rw [hf.entries]

theorem isIdle : (f s).isIdle = s.isIdle := by
  funext e
  unfold Store.isIdle
  rw [hf.entry]

theorem value? : (f s).value? e = s.value? e := by
  unfold Store.value?
  rw [hf.entry]

/-- What a pool tells past its tracker. -/
theorem read {β : Type} (g : Pool α → β) (hg : ∀ x, g x.bare = g x) : g ((f s).pool p) = g (s.pool p) := by
  rw [← hg ((f s).pool p), hf.pool, hg]

theorem closed : ((f s).pool p).closed = (s.pool p).closed :=
  hf.read s p Pool.closed fun _ => rfl

theorem settings : ((f s).pool p).settings = (s.pool p).settings :=
  hf.read s p Pool.settings fun _ => rfl

theorem members : (f s).members p = s.members p :=
  hf.read s p Pool.members fun _ => rfl

theorem setEntry (x : Entry α) : f (s.setEntry e x) = (f s).setEntry e x := by
  unfold Store.setEntry
  rw [hf.set_entries, hf.entries]

theorem count (g : Counters → Counters) : f (s.count p g) = (f s).count p g :=
  hf.modify s p _ fun _ _ => rfl

/-! ### Calls -/

theorem reserve : (f s).reserve p = ((s.reserve p).1, f (s.reserve p).2) := by
  have hfull : ((f s).pool p).isFull = (s.pool p).isFull := hf.read s p Pool.isFull fun _ => rfl
  have hsize : (f s).entries.size = s.entries.size := by rw [hf.entries]
  have hpush : f { s with entries := s.entries.push .pending } =
      { f s with entries := (f s).entries.push .pending } := by
    rw [hf.set_entries, hf.entries]
  unfold Store.reserve
  rw [hf.closed, hfull, hsize]
  split_ifs
  · rw [hf.note _ rfl, hf.count]
  · dsimp only
    rw [hf.note _ rfl, hf.modify _ _ _ (by exact fun _ _ => rfl), hpush]

theorem enable (v : α) (atOnce : Bool) :
    (f s).enable e v atOnce = ((s.enable e v atOnce).1, f (s.enable e v atOnce).2) := by
  unfold Store.enable
  rw [hf.entry]
  split
  · rw [hf.note _ rfl, hf.setEntry]
  · rfl

theorem hinted? : (f s).hinted? p c = s.hinted? p c := by
  have hhints : ((f s).pool p).hints = (s.pool p).hints := hf.read s p Pool.hints fun _ => rfl
  unfold Store.hinted?
  rw [hf.settings, hhints, hf.isAlive, hf.isIdle]

theorem start : (f s).start p c = ((s.start p c).1, f (s.start p c).2) := by
  have hturn : ((f s).pool p).turn = (s.pool p).turn := hf.read s p Pool.turn fun _ => rfl
  have hmembers : ((f s).pool p).members = (s.pool p).members := hf.members s p
  have hdrawn : f { s with draws := if (s.pool p).settings.strategy = .random then s.draws.tail else s.draws } =
      { f s with
        draws := if (s.pool p).settings.strategy = .random then (f s).draws.tail else (f s).draws } := by
    rw [hf.set_draws, hf.draws]
  have hhead : (f s).draws.headD 0 = s.draws.headD 0 := by rw [hf.draws]
  unfold Store.start
  dsimp only
  rw [hf.settings, hmembers, hturn, hhead, hf.modify _ _ _ (by exact fun _ _ => rfl), hdrawn]

theorem handOut (hinted : Bool) : f (s.handOut p c e hinted) = (f s).handOut p c e hinted := by
  unfold Store.handOut
  dsimp only
  rw [hf.note _ rfl, hf.count, hf.setEntry, hf.entry]

theorem miss : f (s.miss p) = (f s).miss p := by
  unfold Store.miss
  rw [hf.note _ rfl, hf.count]

theorem search (i n : Nat) :
    (f s).search p c i n = ((s.search p c i n).1, f (s.search p c i n).2) := by
  unfold Store.search
  rw [hf.members, hf.isIdle]
  cases scan (s.members p) s.isIdle n i n with
  | some e => rw [hf.handOut]
  | none => rfl

theorem acquire : (f s).acquire p c = ((s.acquire p c).1, f (s.acquire p c).2) := by
  unfold Store.acquire
  rw [hf.closed, hf.members, hf.hinted?, hf.start]
  split_ifs
  · rfl
  · rw [hf.miss]
  · cases s.hinted? p c with
    | some e =>
      dsimp only
      rw [hf.handOut]
    | none =>
      generalize s.start p c = started
      obtain ⟨i, u⟩ := started
      dsimp only
      rw [hf.members, hf.search]
      generalize u.search p c i (u.members p).length = searched
      obtain ⟨found, w⟩ := searched
      cases found with
      | some e => rfl
      | none =>
        dsimp only
        rw [hf.miss]

theorem release : (f s).release p c e = ((s.release p c e).1, f (s.release p c e).2) := by
  have hremember : ∀ (x : Pool α) t?, (x.under t?).remember c e = (x.remember c e).under t? := by
    intro x t?
    unfold Pool.remember Pool.under
    split_ifs <;> rfl
  unfold Store.release
  rw [hf.closed, hf.entry]
  split_ifs
  · rfl
  · split
    · rw [hf.note _ rfl, hf.modify _ _ _ hremember, hf.count, hf.setEntry]
    · rfl

theorem remove : (f s).remove p e = ((s.remove p e).1, f (s.remove p e).2) := by
  unfold Store.remove
  rw [hf.closed, hf.entry]
  split_ifs
  · rfl
  · split
    · rw [hf.note _ rfl]
    · next x _ =>
      rw [← hf.setEntry]
      dsimp only
      rw [hf.members]
      split_ifs
      · rw [hf.note _ rfl, hf.count, hf.modify _ _ _ (by exact fun _ _ => rfl)]
      · rw [hf.note _ rfl]

theorem settle (creation : Creation α) : (f s).settle p c e creation =
    ((s.settle p c e creation).1, f (s.settle p c e creation).2) := by
  unfold Store.settle
  cases creation with
  | value v =>
    dsimp only
    rw [hf.entry]
    split
    · rw [hf.note _ rfl, hf.count, hf.setEntry]
    · rfl
    · rfl
  | nothing =>
    dsimp only
    rw [hf.remove]
  | refused reason =>
    dsimp only
    rw [hf.remove]
  | panicked => rfl

theorem dispose : (f s).dispose p e = ((s.dispose p e).1, f (s.dispose p e).2) := by
  unfold Store.dispose
  rw [hf.settings, hf.value?]
  split
  · dsimp only
    split
    · rw [hf.note _ rfl, hf.note _ rfl]
    · rw [hf.note _ rfl]
  · rfl

theorem reclaim (es : List EntryId) (s : Store α) : Store.reclaim p es (f s) =
    ((Store.reclaim p es s).1, (Store.reclaim p es s).2.1, f (Store.reclaim p es s).2.2) := by
  induction es generalizing s with
  | nil => rfl
  | cons e es ih =>
    unfold Store.reclaim
    rw [hf.entry]
    split
    · rw [← hf.note _ rfl, ih]
    · rw [← hf.setEntry, ← hf.note _ rfl, hf.dispose]
      dsimp only
      rw [ih]

theorem close : (f s).close p = ((s.close p).1, f (s.close p).2) := by
  unfold Store.close
  dsimp only
  rw [hf.members, ← hf.modify _ _ _ (by exact fun _ _ => rfl)]
  split_ifs
  · rfl
  · rw [hf.reclaim]
    dsimp only
    rw [hf.note _ rfl]

/-! ### Creators and factories -/

variable {R : List ρ → List ρ' → Prop} (hnil : R [] []) {s t : Store α} (h : f s = f t)

include hnil h

/-- Creators that do the same to stores that look the same when blurred make `acquireWith` do so. -/
theorem acquireWith (p : PoolId) (c : CallerId)
    {make : EntryId → Store α → Creation α × List ρ × Store α}
    {make' : EntryId → Store α → Creation α × List ρ' × Store α}
    (hmake : ∀ e u v, f u = f v → BlurredWith f R (make e u) (make' e v)) :
    BlurredWith f R (s.acquireWith p c make) (t.acquireWith p c make') := by
  obtain ⟨found, u, v, hs, ht, hstores⟩ :=
    (blurred_of_commutes (g := fun s => s.acquire p c) (fun s => hf.acquire s p c) h).exists_eq
  unfold Store.acquireWith
  rw [hs, ht]
  cases found with
  | some e => exact ⟨rfl, hnil, hstores⟩
  | none =>
    obtain ⟨reserved, u, v, hs, ht, hstores⟩ :=
      (blurred_of_commutes (g := fun s => s.reserve p) (fun s => hf.reserve s p) hstores).exists_eq
    dsimp only
    rw [hs, ht]
    cases reserved with
    | none => exact ⟨rfl, hnil, hstores⟩
    | some e =>
      obtain ⟨creation, reports, reports', u, v, hs, ht, hreports, hstores⟩ :=
        (hmake e u v hstores).exists_eq
      dsimp only
      rw [hs, ht]
      obtain ⟨hanswer, hstores⟩ := blurred_of_commutes (g := fun s => s.settle p c e creation)
        (fun s => hf.settle s p c e creation) hstores
      exact ⟨hanswer, hreports, hstores⟩

/-- So do factories with `warmup`. -/
theorem warmup (happend : ∀ {as bs as' bs'}, R as bs → R as' bs' → R (as ++ as') (bs ++ bs')) (p : PoolId)
    {make : Nat → EntryId → Store α → Option α × List ρ × Store α}
    {make' : Nat → EntryId → Store α → Option α × List ρ' × Store α}
    (hmake : ∀ n e u v, f u = f v → BlurredWith f R (make n e u) (make' n e v)) (count call : Nat) :
    BlurredWith f R (Store.warmup p make count call s) (Store.warmup p make' count call t) := by
  induction count generalizing s t call with
  | zero => exact ⟨rfl, hnil, h⟩
  | succ count ih =>
    obtain ⟨reserved, u, v, hs, ht, hstores⟩ :=
      (blurred_of_commutes (g := fun s => s.reserve p) (fun s => hf.reserve s p) h).exists_eq
    unfold Store.warmup
    rw [hs, ht]
    cases reserved with
    | none => exact ⟨rfl, hnil, hstores⟩
    | some e =>
      obtain ⟨value, reports, reports', u, v, hs, ht, hreports, hstores⟩ :=
        (hmake call e u v hstores).exists_eq
      dsimp only
      rw [hs, ht]
      cases value with
      | none => exact ⟨rfl, hreports, hstores⟩
      | some x =>
        obtain ⟨answer, u, v, hs, ht, hstores⟩ := (blurred_of_commutes
          (g := fun s => s.enable e x false) (fun s => hf.enable s e x false) hstores).exists_eq
        dsimp only
        rw [hs, ht]
        cases answer with
        | error fault => exact ⟨rfl, hreports, hstores⟩
        | ok enabled =>
          cases enabled with
          | false => exact ⟨rfl, hreports, hstores⟩
          | true =>
            obtain ⟨w, more, more', u, v, hs, ht, hmore, hrest⟩ := (ih hstores (call + 1)).exists_eq
            dsimp only
            rw [hs, ht]
            exact ⟨rfl, happend hreports hmore, hrest⟩

end Blurs

/-! ### Reports -/

theorem blurs_id : Blurs (id : Store α → Store α) where
  entries _ := rfl
  draws _ := rfl
  pool _ _ := rfl
  isAlive _ := rfl
  set_entries _ _ := rfl
  set_draws _ _ := rfl
  modify _ _ _ _ := rfl
  note _ _ _ := rfl

/-- What a creator reports beside its answer changes nothing. -/
theorem acquireWith_congr (s : Store α) (p : PoolId) (c : CallerId)
    (make : EntryId → Store α → Creation α × List ρ × Store α)
    (make' : EntryId → Store α → Creation α × List ρ' × Store α)
    (h : ∀ e u, (make e u).1 = (make' e u).1 ∧ (make e u).2.2 = (make' e u).2.2) :
    (s.acquireWith p c make).1 = (s.acquireWith p c make').1 ∧
      (s.acquireWith p c make).2.2 = (s.acquireWith p c make').2.2 := by
  have hmake : ∀ e u v, id u = id v → BlurredWith id (fun _ _ => True) (make e u) (make' e v) := by
    rintro e u _ rfl
    exact ⟨(h e u).1, trivial, (h e u).2⟩
  obtain ⟨hanswer, -, hstore⟩ := blurs_id.acquireWith trivial (rfl : id s = id s) p c hmake
  exact ⟨hanswer, hstore⟩

/-- Nor does what a factory reports. -/
theorem warmup_congr (s : Store α) (p : PoolId)
    (make : Nat → EntryId → Store α → Option α × List ρ × Store α)
    (make' : Nat → EntryId → Store α → Option α × List ρ' × Store α)
    (h : ∀ n e u, (make n e u).1 = (make' n e u).1 ∧ (make n e u).2.2 = (make' n e u).2.2)
    (count call : Nat) : (warmup p make count call s).1 = (warmup p make' count call s).1 ∧
      (warmup p make count call s).2.2 = (warmup p make' count call s).2.2 := by
  have hmake : ∀ n e u v, id u = id v → BlurredWith id (fun _ _ => True) (make n e u) (make' n e v) := by
    rintro n e u _ rfl
    exact ⟨(h n e u).1, trivial, (h n e u).2⟩
  obtain ⟨hanswer, -, hstore⟩ := blurs_id.warmup trivial (rfl : id s = id s) (fun _ _ => trivial) p hmake
    count call
  exact ⟨hanswer, hstore⟩

end Store

end ResourcePool
