import Mathlib.Data.List.Basic
import ResourcePool.Metrics.Exposition

/-! The exposition as a text: it depends on the pool's name and the tags by their labels alone, and without
quotes in them no two of these write the same labels. -/
namespace ResourcePool.Metrics

/-- A label of a sample, its key before its value. -/
abbrev Label := String × String

namespace Label

/-- A label as it is written. -/
def chars (x : Label) : List Char :=
  x.1.toList ++ '=' :: '"' :: (x.2.toList ++ ['"'])

/-- Neither the key nor the value has a quote. -/
def Unquoted (x : Label) : Prop :=
  '"' ∉ x.1.toList ∧ '"' ∉ x.2.toList

instance (x : Label) : Decidable x.Unquoted :=
  inferInstanceAs (Decidable (_ ∧ _))

end Label

/-- Labels after the first, each behind a comma. -/
def following : List Label → List Char
  | [] => []
  | x :: xs => ',' :: (x.chars ++ following xs)

theorem sortedTags_perm (tags : Tags) : (sortedTags tags).Perm tags :=
  List.mergeSort_perm tags _

theorem toList_label (x : Label) : (label x.1 x.2).toList = x.chars := by
  simp [label, Label.chars]

theorem toList_intercalate_labels (x : Label) (xs : List Label) :
    (",".intercalate (label x.1 x.2 :: xs.map fun (k, v) => label k v)).toList =
      x.chars ++ following xs := by
  induction xs generalizing x with
  | nil => simp [following, toList_label]
  | cons y ys ih =>
    rw [List.map_cons, String.intercalate_cons_cons, String.toList_append, String.toList_append,
      ih y, toList_label]
    simp [following]

/-- The labels as characters: the pool's name comes first. -/
theorem toList_labels (poolName : String) (tags : Tags) : (labels poolName tags).toList =
    Label.chars ("pool", poolName) ++ following (sortedTags tags) :=
  toList_intercalate_labels ("pool", poolName) (sortedTags tags)

/-! ### Samples -/

/-- Names, helps and kinds have no character that ends them in their lines. -/
structure Sample.Plain (s : Sample) : Prop where
  name : ' ' ∉ s.name.toList ∧ '\x7b' ∉ s.name.toList ∧ '\n' ∉ s.name.toList
  help : '\n' ∉ s.help.toList
  kind : '\n' ∉ s.kind.name.toList

theorem not_mem_toList_ofList {c : Char} {cs : List Char} (h : c ∉ cs) : c ∉ (String.ofList cs).toList := by
  rwa [String.toList_ofList]

theorem plain_of_mem_samples {s : Sample} (hs : s ∈ samples) : s.Plain := by
  simp only [samples, List.mem_cons, List.not_mem_nil, or_false] at hs
  -- a literal is a string of a list of characters, which are looked through without decoding the string
  rcases hs with rfl | rfl | rfl | rfl | rfl | rfl | rfl | rfl | rfl | rfl | rfl | rfl | rfl
  all_goals
    refine ⟨⟨?_, ?_, ?_⟩, ?_, ?_⟩
    all_goals exact not_mem_toList_ofList (by decide)

/-! ### The text and its labels -/

/-- The lines of some metrics in a row. -/
def linesOf (ss : List Sample) (m : Metrics) (labels : String) : String :=
  String.join ((ss.flatMap fun s => s.lines labels m).map (· ++ "\n"))

/-- A text is longer than its labels by what does not depend on them. -/
theorem length_linesOf (ss : List Sample) (m : Metrics) :
    ∃ n, ∀ labels, (linesOf ss m labels).length = n + ss.length * labels.length := by
  induction ss with
  | nil => exact ⟨0, fun labels => by simp [linesOf]⟩
  | cons s ss ih =>
    obtain ⟨n, hn⟩ := ih
    refine ⟨(linesOf [s] m "").length + n, fun labels => ?_⟩
    have hcons : linesOf (s :: ss) m labels = linesOf [s] m labels ++ linesOf ss m labels := by
      simp [linesOf]
    have hone : (linesOf [s] m labels).length = (linesOf [s] m "").length + labels.length := by
      simp [linesOf, Sample.lines]
      omega
    rw [hcons, String.length_append, hn, hone, List.length_cons, Nat.succ_mul]
    omega

/-- The first line that depends on the labels has them after the same characters. -/
theorem linesOf_cons (s : Sample) (ss : List Sample) (m : Metrics) :
    ∃ (before : String) (after : String → String), ∀ labels,
      linesOf (s :: ss) m labels = before ++ (labels ++ after labels) := by
  refine ⟨("# HELP " ++ s.name ++ " " ++ s.help ++ "\n") ++ ("# TYPE " ++ s.name ++ " " ++ s.kind.name ++ "\n") ++
    (s.name ++ "\x7b"), fun labels => "\x7d " ++ (m.read s.field).text ++ "\n" ++ linesOf ss m labels,
    fun labels => ?_⟩
  simp [linesOf, Sample.lines, String.append_assoc]

/-- The text tells the labels, and nothing else of the pool's name and the tags. -/
theorem exposition_eq_iff {m : Metrics} {n n' : String} {t t' : Tags} :
    exposition m n t = exposition m n' t' ↔ labels n t = labels n' t' := by
  refine ⟨fun h => ?_, fun h => by rw [exposition, h, exposition]⟩
  change linesOf samples m (labels n t) = linesOf samples m (labels n' t') at h
  have hlen : (labels n t).toList.length = (labels n' t').toList.length := by
    obtain ⟨k, hk⟩ := length_linesOf samples m
    have hlen := congrArg String.length h
    rw [hk, hk, show samples.length = 13 from rfl] at hlen
    rw [String.length_toList, String.length_toList]
    omega
  obtain ⟨before, after, hsplit⟩ := linesOf_cons _ samples.tail m
  rw [show samples = _ :: samples.tail from rfl, hsplit, hsplit, String.append_right_inj] at h
  have hchars := congrArg String.toList h
  rw [String.toList_append, String.toList_append] at hchars
  exact String.toList_injective (List.append_inj_left hchars hlen)

/-! ### Labels without quotes -/

/-- What stands before the first of some character, and what stands after it. -/
theorem append_cons_inj_of_not_mem {c : Char} {a a' b b' : List Char} (ha : c ∉ a) (ha' : c ∉ a')
    (h : a ++ c :: b = a' ++ c :: b') : a = a' ∧ b = b' := by
  induction a generalizing a' with
  | nil =>
    cases a' with
    | nil => exact ⟨rfl, (List.cons.inj h).2⟩
    | cons d a' => exact absurd ((List.cons.inj h).1 ▸ List.mem_cons_self) ha'
  | cons d a ih =>
    cases a' with
    | nil => exact absurd ((List.cons.inj h).1 ▸ List.mem_cons_self) ha
    | cons e a' =>
      obtain ⟨rfl, hrest⟩ := List.cons.inj h
      obtain ⟨rfl, rfl⟩ := ih (List.not_mem_of_not_mem_cons ha) (List.not_mem_of_not_mem_cons ha') hrest
      exact ⟨rfl, rfl⟩

namespace Label

variable {x y : Label} {rest rest' : List Char}

theorem chars_append (x : Label) (rest : List Char) :
    x.chars ++ rest = x.1.toList ++ '=' :: '"' :: (x.2.toList ++ '"' :: rest) := by
  simp [chars]

/-- The quotes of a label without others tell its parts. -/
theorem chars_append_inj (hx : x.Unquoted) (hy : y.Unquoted)
    (h : x.chars ++ rest = y.chars ++ rest') : x = y ∧ rest = rest' := by
  have hkey : ∀ {z : Label}, z.Unquoted → '"' ∉ z.1.toList ++ ['='] :=
    fun hz hmem => hz.1 (by simpa using hmem)
  have hsplit : ∀ (z : Label) (r : List Char),
      z.chars ++ r = z.1.toList ++ ['='] ++ '"' :: (z.2.toList ++ '"' :: r) :=
    fun z r => (z.chars_append r).trans (List.append_cons _ _ _)
  rw [hsplit, hsplit] at h
  obtain ⟨hkeys, hvalues⟩ := append_cons_inj_of_not_mem (hkey hx) (hkey hy) h
  obtain ⟨hvalue, hrest⟩ := append_cons_inj_of_not_mem hx.2 hy.2 hvalues
  have hname : x.1.toList = y.1.toList := (List.append_inj' hkeys rfl).1
  exact ⟨Prod.ext (String.toList_injective hname) (String.toList_injective hvalue), hrest⟩

end Label

theorem following_inj {xs ys : List Label} (hx : ∀ x ∈ xs, x.Unquoted) (hy : ∀ y ∈ ys, y.Unquoted)
    (h : following xs = following ys) : xs = ys := by
  induction xs generalizing ys with
  | nil =>
    cases ys with
    | nil => rfl
    | cons y ys => exact absurd h.symm (List.cons_ne_nil _ _)
  | cons x xs ih =>
    cases ys with
    | nil => exact absurd h (List.cons_ne_nil _ _)
    | cons y ys =>
      obtain ⟨rfl, hrest⟩ := Label.chars_append_inj (hx x List.mem_cons_self) (hy y List.mem_cons_self)
        (List.cons.inj h).2
      rw [ih (fun z hz => hx z (List.mem_cons_of_mem _ hz)) (fun z hz => hy z (List.mem_cons_of_mem _ hz)) hrest]

/-- Without quotes, the labels tell the pool's name and the tags. -/
theorem labels_inj {n n' : String} {t t' : Tags} (hx : ∀ x ∈ ("pool", n) :: t, Label.Unquoted x)
    (hy : ∀ y ∈ ("pool", n') :: t', Label.Unquoted y) (h : labels n t = labels n' t') :
    n = n' ∧ t.Perm t' := by
  have hsorted : ∀ {m : String} {u : Tags}, (∀ x ∈ ("pool", m) :: u, Label.Unquoted x) →
      ∀ x ∈ sortedTags u, Label.Unquoted x :=
    fun hu x hmem => hu x (List.mem_cons_of_mem _ ((sortedTags_perm _).mem_iff.mp hmem))
  have hchars := congrArg String.toList h
  rw [toList_labels, toList_labels] at hchars
  obtain ⟨hpool, htags⟩ := Label.chars_append_inj (hx _ List.mem_cons_self) (hy _ List.mem_cons_self) hchars
  have hsame : sortedTags t = sortedTags t' := following_inj (hsorted hx) (hsorted hy) htags
  exact ⟨(Prod.mk.inj hpool).2, (sortedTags_perm t).symm.trans (hsame ▸ sortedTags_perm t')⟩

end ResourcePool.Metrics
