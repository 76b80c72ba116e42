import Mathlib.Data.List.Nodup
import Mathlib.Data.List.TakeWhile
import Mathlib.Data.String.Basic
import ResourcePool.Proofs.Exposition

/-! The exposition line by line: a block of three lines for each metric, which reads back as what was written, and as
the texts of the fields that the metrics stand for. The order of the tags does not show. -/
namespace ResourcePool.Metrics

/-! ### Reading -/

/-- A metric of an exposition. -/
structure Block where
  name : String
  help : String
  kind : String
  labels : String
  value : String
  deriving DecidableEq

/-- The lines of a metric. -/
def Block.text (b : Block) : String :=
  "# HELP " ++ b.name ++ " " ++ b.help ++ "\n" ++
    ("# TYPE " ++ b.name ++ " " ++ b.kind ++ "\n") ++
      (b.name ++ "\x7b" ++ b.labels ++ "\x7d " ++ b.value ++ "\n")

/-- What stands before the first of some character, and what stands after it. -/
def cut (c : Char) (cs : List Char) : Option (List Char × List Char) :=
  match cs.dropWhile (· != c) with
  | _ :: rest => some (cs.takeWhile (· != c), rest)
  | [] => none

/-- The name that a comment line is about and what it says of it, behind the words that it begins with. -/
def readComment (words : String) (line : List Char) : Option (List Char × List Char) :=
  (line.dropPrefix? words.toList).bind (cut ' ')

/-- The name, the labels and the value of a sample line. The value stands behind the last blank. -/
def readValued (line : List Char) : Option (List Char × List Char × List Char) := do
  let (name, rest) ← cut '\x7b' line
  let (value, labels) ← cut ' ' rest.reverse
  match labels with
  | '\x7d' :: labels => some (name, labels.reverse, value.reverse)
  | _ => none

/-- The three lines of a metric, all about the same name. -/
def readBlock (help kind sample : List Char) : Option Block := do
  let (name, about) ← readComment "# HELP " help
  let (sameName, sort) ← readComment "# TYPE " kind
  let (sampleName, labels, value) ← readValued sample
  if sameName = name ∧ sampleName = name then
    some ⟨.ofList name, .ofList about, .ofList sort, .ofList labels, .ofList value⟩
  else none

/-- Blocks of lines up to the end of a text, where nothing follows the last line break. -/
def readBlocks : List (List Char) → Option (List Block)
  | [[]] => some []
  | help :: kind :: sample :: rest =>
    (readBlock help kind sample).bind fun b => (readBlocks rest).map (b :: ·)
  | _ => none

/-- The blocks of a text, if it is nothing but blocks. -/
def blocksOf (text : String) : Option (List Block) :=
  readBlocks (text.toList.splitOn '\n')

theorem cut_append_cons {c : Char} {before : List Char} (h : c ∉ before) (rest : List Char) :
    cut c (before ++ c :: rest) = some (before, rest) := by
  have hbefore : ∀ d ∈ before, (d != c) = true := fun d hd => bne_iff_ne.mpr fun heq => h (heq ▸ hd)
  unfold cut
  rw [List.dropWhile_append_of_pos hbefore, List.dropWhile_cons_of_neg (by simp),
    List.takeWhile_append_of_pos hbefore, List.takeWhile_cons_of_neg (by simp), List.append_nil]

theorem readComment_append {words : String} {name : List Char} (h : ' ' ∉ name) (about : List Char) :
    readComment words (words.toList ++ (name ++ ' ' :: about)) = some (name, about) := by
  unfold readComment
  rw [List.dropPrefix?_append_of_beq _ (beq_self_eq_true _), Option.bind_some, cut_append_cons h]

theorem readValued_append {name value : List Char} (hname : '\x7b' ∉ name) (hvalue : ' ' ∉ value)
    (labels : List Char) :
    readValued (name ++ '\x7b' :: (labels ++ '\x7d' :: ' ' :: value)) = some (name, labels, value) := by
  have hreverse : (labels ++ '\x7d' :: ' ' :: value).reverse = value.reverse ++ ' ' :: '\x7d' :: labels.reverse := by
    simp
  have hblank : ' ' ∉ value.reverse := by simpa using hvalue
  simp [readValued, cut_append_cons hname, hreverse, cut_append_cons hblank]

/-! ### The lines that are written -/

/-- What a metric is read back as. -/
def Sample.block (s : Sample) (labels : String) (m : Metrics) : Block where
  name := s.name
  help := s.help
  kind := s.kind.name
  labels := labels
  value := (m.read s.field).text

theorem isDigit_of_mem_toString {n : Nat} {c : Char} (h : c ∈ (toString n).toList) : c.isDigit = true := by
  rw [Nat.toString_eq_ofList_toDigits, String.toList_ofList] at h
  exact Nat.isDigit_of_mem_toDigits (by decide) (by decide) h

theorem toList_pushn (s : String) (c : Char) (n : Nat) :
    (s.pushn c n).toList = s.toList ++ List.replicate n c := by
  rw [String.pushn_eq_repeat_push]
  induction n with
  | zero => simp [Nat.repeat]
  | succ n ih =>
    rw [Nat.repeat, String.toList_push, ih, List.replicate_succ', List.append_assoc]

theorem isDigit_of_mem_padded {width n : Nat} {c : Char} (h : c ∈ (Decimal.padded width n).toList) :
    c.isDigit = true := by
  unfold Decimal.padded at h
  rw [String.toList_append, toList_pushn, List.mem_append, List.mem_append] at h
  rcases h with (h | h) | h
  · exact absurd h List.not_mem_nil
  · rw [List.eq_of_mem_replicate h]
    rfl
  · exact isDigit_of_mem_toString h

/-- A character of numbers with decimal places, finite or not. -/
def isFigure (c : Char) : Bool :=
  c.isDigit || "-.NaNinf".toList.contains c

theorem isFigure_of_isDigit {c : Char} (h : c.isDigit = true) : isFigure c = true := by
  unfold isFigure
  rw [h, Bool.true_or]

theorem isFigure_append {s t : String} (hs : ∀ c ∈ s.toList, isFigure c = true)
    (ht : ∀ c ∈ t.toList, isFigure c = true) : ∀ c ∈ (s ++ t).toList, isFigure c = true := by
  rw [String.toList_append]
  exact List.forall_mem_append.mpr ⟨hs, ht⟩

theorem isFigure_fixed (places : Nat) (x : Binary64) : ∀ c ∈ (Decimal.fixed places x).toList, isFigure c = true := by
  -- decided over the characters of the text, as `∀ c ∈ _` may be decided over all there are
  have hNaN : ∀ c ∈ "NaN".toList, isFigure c = true := List.all_eq_true.mp (by decide)
  have hinf : ∀ c ∈ "inf".toList, isFigure c = true := List.all_eq_true.mp (by decide)
  have hpoint : ∀ c ∈ ".".toList, isFigure c = true := List.all_eq_true.mp (by decide)
  have hsign : ∀ c ∈ (if x.isNegative then "-" else "").toList, isFigure c = true := by
    split_ifs <;> exact List.all_eq_true.mp (by decide)
  have hwhole : ∀ n : Nat, ∀ c ∈ (toString n).toList, isFigure c = true :=
    fun _ _ hc => isFigure_of_isDigit (isDigit_of_mem_toString hc)
  have hplaces : ∀ n, ∀ c ∈ (Decimal.padded places n).toList, isFigure c = true :=
    fun _ _ hc => isFigure_of_isDigit (isDigit_of_mem_padded hc)
  unfold Decimal.fixed
  dsimp only
  generalize (if x.isNegative then "-" else "") = sign at hsign ⊢
  split_ifs
  · exact hNaN
  · exact isFigure_append hsign hinf
  · exact isFigure_append (isFigure_append (isFigure_append hsign (hwhole _)) hpoint) (hplaces _)

theorem isFigure_text (r : Reading) : ∀ c ∈ r.text.toList, isFigure c = true := by
  cases r with
  | count n => exact fun c hc => isFigure_of_isDigit (isDigit_of_mem_toString hc)
  | ratio x => exact isFigure_fixed 2 x

theorem not_mem_text {c : Char} (hc : isFigure c = false) (r : Reading) : c ∉ r.text.toList := by
  intro hmem
  rw [isFigure_text r c hmem] at hc
  exact Bool.noConfusion hc

variable {m : Metrics} {labels : String}

theorem readBlock_lines {s : Sample} (h : s.Plain) (m : Metrics) (labels : String) : ∃ help kind sample,
    s.lines labels m = [help, kind, sample] ∧
      readBlock help.toList kind.toList sample.toList = some (s.block labels m) := by
  refine ⟨_, _, _, rfl, ?_⟩
  have hvalue : ' ' ∉ (m.read s.field).text.toList := not_mem_text (by decide) _
  have hhelp : ("# HELP " ++ s.name ++ " " ++ s.help).toList =
      "# HELP ".toList ++ (s.name.toList ++ ' ' :: s.help.toList) := by simp
  have hkind : ("# TYPE " ++ s.name ++ " " ++ s.kind.name).toList =
      "# TYPE ".toList ++ (s.name.toList ++ ' ' :: s.kind.name.toList) := by simp
  have hsample : (s.name ++ "\x7b" ++ labels ++ "\x7d " ++ (m.read s.field).text).toList =
      s.name.toList ++ '\x7b' :: (labels.toList ++ '\x7d' :: ' ' :: (m.read s.field).text.toList) := by simp
  rw [hhelp, hkind, hsample]
  simp only [readBlock, readComment_append h.name.1, readValued_append h.name.2.1 hvalue, Option.bind_eq_bind,
    Option.bind_some, and_self, if_true, String.ofList_toList]
  rfl

theorem splitOn_lines {ls : List String} (h : ∀ l ∈ ls, '\n' ∉ l.toList) :
    (String.join (ls.map (· ++ "\n"))).toList.splitOn '\n' = ls.map String.toList ++ [[]] := by
  induction ls with
  | nil => rfl
  | cons l ls ih =>
    obtain ⟨hl, hls⟩ := List.forall_mem_cons.mp h
    have hcons : (String.join ((l :: ls).map (· ++ "\n"))).toList =
        l.toList ++ '\n' :: (String.join (ls.map (· ++ "\n"))).toList := by simp
    rw [hcons, List.splitOn_append_cons_self_of_not_mem hl, ih hls]
    rfl

theorem readBlocks_lines {ss : List Sample} (h : ∀ s ∈ ss, s.Plain) :
    readBlocks ((ss.flatMap fun s => s.lines labels m).map String.toList ++ [[]]) =
      some (ss.map fun s => s.block labels m) := by
  induction ss with
  | nil => rfl
  | cons s ss ih =>
    obtain ⟨hs, hss⟩ := List.forall_mem_cons.mp h
    obtain ⟨help, kind, sample, hlines, hread⟩ := readBlock_lines hs m labels
    rw [List.flatMap_cons, hlines]
    simp only [List.map_cons, List.cons_append, List.nil_append, readBlocks, hread, Option.bind_some, ih hss,
      Option.map_some]

theorem join_block_texts (ss : List Sample) :
    String.join ((ss.map fun s => s.block labels m).map Block.text) = linesOf ss m labels := by
  induction ss with
  | nil => rfl
  | cons s ss ih =>
    have hcons : linesOf (s :: ss) m labels = (s.block labels m).text ++ linesOf ss m labels := by
      simp [linesOf, Sample.lines, Sample.block, Block.text, String.append_assoc]
    rw [hcons, ← ih]
    simp

/-! ### Labels and tags -/

theorem break_not_mem_chars {x : Label} (h : '\n' ∉ x.1.toList ∧ '\n' ∉ x.2.toList) : '\n' ∉ x.chars := by
  simp [Label.chars, h.1, h.2]

theorem break_not_mem_following {xs : List Label} (h : ∀ x ∈ xs, '\n' ∉ x.1.toList ∧ '\n' ∉ x.2.toList) :
    '\n' ∉ following xs := by
  induction xs with
  | nil => exact List.not_mem_nil
  | cons x xs ih =>
    obtain ⟨hx, hxs⟩ := List.forall_mem_cons.mp h
    simp [following, break_not_mem_chars hx, ih hxs]

theorem break_not_mem_labels {n : String} {t : Tags} (hname : '\n' ∉ n.toList)
    (htags : ∀ x ∈ t, '\n' ∉ x.1.toList ∧ '\n' ∉ x.2.toList) : '\n' ∉ (Metrics.labels n t).toList := by
  have hsorted : ∀ x ∈ sortedTags t, '\n' ∉ x.1.toList ∧ '\n' ∉ x.2.toList :=
    fun x hx => htags x ((sortedTags_perm t).mem_iff.mp hx)
  have hpool : '\n' ∉ "pool".toList := by decide
  rw [toList_labels, List.mem_append, not_or]
  exact ⟨break_not_mem_chars ⟨hpool, hname⟩, break_not_mem_following hsorted⟩

/-- A line break ends each line, and stands nowhere else. -/
theorem break_not_mem_lines {ss : List Sample} (h : ∀ s ∈ ss, s.Plain) (m : Metrics)
    (hlabels : '\n' ∉ labels.toList) :
    ∀ l ∈ ss.flatMap fun s => s.lines labels m, '\n' ∉ l.toList := by
  intro l hl
  obtain ⟨s, hs, hmem⟩ := List.mem_flatMap.mp hl
  have hplain := h s hs
  have hvalue : '\n' ∉ (m.read s.field).text.toList := not_mem_text (by decide) _
  simp only [Sample.lines, List.mem_cons, List.not_mem_nil, or_false] at hmem
  rcases hmem with rfl | rfl | rfl
  · simp [hplain.name.2.2, hplain.help]
  · simp [hplain.name.2.2, hplain.kind]
  · simp [hplain.name.2.2, hlabels, hvalue]

theorem pairwise_sortedTags (t : Tags) : (sortedTags t).Pairwise fun a b => a.1 ≤ b.1 := by
  have hsorted : (sortedTags t).Pairwise fun a b => decide (a.1 ≤ b.1) = true :=
    List.pairwise_mergeSort
      (fun a b c hab hbc => decide_eq_true ((of_decide_eq_true hab).trans (of_decide_eq_true hbc)))
      (fun a b => by simpa using le_total a.1 b.1) t
  exact hsorted.imp of_decide_eq_true

theorem nodup_keys_sortedTags {t : Tags} (hkeys : (t.map Prod.fst).Nodup) : ((sortedTags t).map Prod.fst).Nodup :=
  ((sortedTags_perm t).map Prod.fst).nodup_iff.mpr hkeys

/-- Tags with distinct keys are sorted strictly. -/
theorem pairwise_keys_sortedTags {t : Tags} (hkeys : (t.map Prod.fst).Nodup) :
    ((sortedTags t).map Prod.fst).Pairwise (· < ·) := by
  have hle : ((sortedTags t).map Prod.fst).Pairwise (· ≤ ·) := List.pairwise_map.mpr (pairwise_sortedTags t)
  exact (hle.and (nodup_keys_sortedTags hkeys)).imp fun h => lt_of_le_of_ne h.1 h.2

/-- The order in which tags come does not matter. -/
theorem sortedTags_eq_of_perm {t t' : Tags} (hkeys : (t.map Prod.fst).Nodup) (h : t.Perm t') :
    sortedTags t = sortedTags t' := by
  refine List.Perm.eq_of_pairwise ?_ (pairwise_sortedTags t) (pairwise_sortedTags t')
    ((sortedTags_perm t).trans (h.trans (sortedTags_perm t').symm))
  intro a b ha hb hab hba
  have hkey : a.1 = b.1 := le_antisymm hab hba
  exact List.inj_on_of_nodup_map hkeys ((sortedTags_perm t).mem_iff.mp ha)
    (h.mem_iff.mpr ((sortedTags_perm t').mem_iff.mp hb)) hkey

/-! ### Metrics and fields -/

/-- Each exposed metric with the field that it stands for. -/
def counterparts : List (String × String) :=
  [ ("entrypool_entries_idle", "idle_entries"),
    ("entrypool_entries_in_use", "in_use_entries"),
    ("entrypool_entries_reserved", "reserved_entries"),
    ("entrypool_entries", "size"),
    ("entrypool_entries_max", "max_entries"),
    ("entrypool_cached_callers", "cached_callers"),
    ("entrypool_utilization", "utilization"),
    ("entrypool_acquired_total", "total_acquired"),
    ("entrypool_released_total", "total_released"),
    ("entrypool_removed_total", "total_removed"),
    ("entrypool_cache_hits_total", "cache_hits"),
    ("entrypool_acquire_misses_total", "acquire_misses"),
    ("entrypool_reserve_rejections_total", "reserve_rejections") ]

theorem counterparts_eq : counterparts = samples.map fun s => (s.name, s.field.name) :=
  rfl

theorem map_fst_texts (m : Metrics) : m.texts.map Prod.fst = Field.all.map Field.name :=
  rfl

theorem nodup_field_names : (Field.all.map Field.name).Nodup := by
  simp [Field.all, Field.name]

/-- Each field but one has a metric. -/
theorem perm_sampled_fields : Field.all.Perm (.closed :: samples.map Sample.field) := by
  decide

theorem mem_all_fields (f : Field) : f ∈ Field.all := by
  cases f <;> decide

/-- Pairs with distinct keys are found by them. -/
theorem lookup_map_of_nodup {α β : Type} {key : α → String} {value : α → β} {xs : List α}
    (h : (xs.map key).Nodup) {x : α} (hx : x ∈ xs) :
    (xs.map fun y => (key y, value y)).lookup (key x) = some (value x) := by
  induction xs with
  | nil => exact absurd hx List.not_mem_nil
  | cons y ys ih =>
    rw [List.map_cons, List.nodup_cons] at h
    rcases List.mem_cons.mp hx with rfl | hx
    · exact List.lookup_cons_self
    · have hne : key x ≠ key y := fun heq => h.1 (heq ▸ List.mem_map_of_mem hx)
      rw [List.map_cons, List.lookup_cons, beq_false_of_ne hne]
      exact ih h.2 hx

theorem lookup_texts (m : Metrics) (f : Field) : m.texts.lookup f.name = some (m.read f).text :=
  lookup_map_of_nodup nodup_field_names (mem_all_fields f)

/-- The exposition is the same for tags in any order. It is thirteen blocks of different metrics, each with the pool's
name and then the tags by ascending keys for labels, and it reads back as these blocks. They have the values that the
texts of the fields are, and only the closed entries have a text but no block. -/
theorem exposition_shows_texts (m : Metrics) {n : String} {t t' : Tags} (hname : '\n' ∉ n.toList)
    (htags : ∀ x ∈ t, '\n' ∉ x.1.toList ∧ '\n' ∉ x.2.toList) (hkeys : (t.map Prod.fst).Nodup)
    (hperm : t.Perm t') :
    exposition m n t = exposition m n t' ∧
    (∃ u blocks, u.Perm t ∧ (u.map Prod.fst).Pairwise (· < ·) ∧
      exposition m n t = String.join (blocks.map Block.text) ∧ blocksOf (exposition m n t) = some blocks ∧
      blocks.length = 13 ∧ (blocks.map Block.name).Nodup ∧
      (∀ b ∈ blocks, b.labels = ",".intercalate ((("pool", n) :: u).map fun (k, v) => label k v)) ∧
      blocks.map (fun b => (b.name, some b.value)) =
        counterparts.map fun (name, field) => (name, m.texts.lookup field)) ∧
    (m.texts.map Prod.fst).Nodup ∧
    (m.texts.map Prod.fst).Perm ("closed_entries" :: counterparts.map Prod.snd) := by
  have hplain : ∀ s ∈ samples, s.Plain := fun _ => plain_of_mem_samples
  have hlines := break_not_mem_lines hplain m (break_not_mem_labels hname htags)
  refine ⟨exposition_eq_iff.mpr ?_, ⟨sortedTags t, samples.map fun s => s.block (Metrics.labels n t) m,
    sortedTags_perm t, pairwise_keys_sortedTags hkeys, ?_, ?_, rfl, ?_, ?_, ?_⟩, ?_, ?_⟩
  · unfold Metrics.labels
    rw [sortedTags_eq_of_perm hkeys hperm]
  · exact (join_block_texts samples).symm
  · unfold blocksOf exposition
    rw [splitOn_lines hlines]
    exact readBlocks_lines hplain
  · have hnames : (samples.map Sample.name).Nodup := by simp [samples]
    rwa [List.map_map]
  · intro b hb
    obtain ⟨s, -, rfl⟩ := List.mem_map.mp hb
    rfl
  · rw [counterparts_eq, List.map_map, List.map_map]
    refine List.map_congr_left fun s _ => ?_
    exact congrArg (Prod.mk s.name) (lookup_texts m s.field).symm
  · rw [map_fst_texts]
    exact nodup_field_names
  · have hfields := List.Perm.map Field.name perm_sampled_fields
    rw [List.map_cons, List.map_map] at hfields
    rw [map_fst_texts, counterparts_eq, List.map_map]
    exact hfields

/-- Tags in two orders, with quotes, braces and blanks that look like the end of the labels. -/
theorem exposition_shows_texts_any_order :
    let t : Tags := [("zone", "a\"\x7d 7"), ("env", "x=y")]
    let t' : Tags := [("env", "x=y"), ("zone", "a\"\x7d 7")]
    let m : Metrics := { idle := 3, size := 5, inUse := 2, utilization := .ofRatio 2 5 }
    exposition m "p q" t = exposition m "p q" t' ∧
      ∃ blocks, blocksOf (exposition m "p q" t) = some blocks ∧ blocks.length = 13 ∧
        ∀ b ∈ blocks, b.labels = "pool=\"p q\",env=\"x=y\",zone=\"a\"\x7d 7\"" := by
  intro t t' m
  have hswap : t.Perm t' := List.Perm.swap _ _ _
  obtain ⟨hsame, ⟨u, blocks, hu, hsorted, -, hread, hlength, -, hlabels, -⟩, -⟩ :=
    exposition_shows_texts m (n := "p q") (by decide) (by decide) (by decide) hswap
  have hut : u = t' := (hu.trans hswap).eq_of_pairwise (fun _ _ _ _ hab hba => absurd hba hab.asymm)
    (List.pairwise_map.mp hsorted) (by decide)
  subst hut
  exact ⟨hsame, blocks, hread, hlength, fun b hb => (hlabels b hb).trans (by decide)⟩

end ResourcePool.Metrics
