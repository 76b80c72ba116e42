import Mathlib.Data.List.TakeWhile
import Mathlib.Data.List.Induction
import ResourcePool.Proofs.Exposition

/-! A scraper's reading of samples, by the rules of the format: a label has a name of letters, digits and
underscores, and in its value a backslash escapes a quote, another backslash or a line break. What the exposition
writes is read back just if none of the values has anything to escape. -/
namespace ResourcePool.Metrics

/-- What a backslash makes of the character after it. -/
def unescape? : Char → Option Char
  | '\\' => some '\\'
  | '"' => some '"'
  | 'n' => some '\n'
  | _ => none

/-- A value up to its closing quote, and what follows. No line break can stand in it. -/
def readValue : List Char → Option (List Char × List Char)
  | [] => none
  | '"' :: rest => some ([], rest)
  | '\n' :: _ => none
  | '\\' :: c :: rest =>
    (unescape? c).bind fun d => (readValue rest).map fun (value, rest) => (d :: value, rest)
  | c :: rest => (readValue rest).map fun (value, rest) => (c :: value, rest)

def isNameChar (c : Char) : Bool :=
  c.isAlphanum || c == '_'

/-- Whether characters are the name of a label, which does not begin with a digit. -/
def isLabelName : List Char → Bool
  | [] => false
  | c :: cs => !c.isDigit && (c :: cs).all isNameChar

/-- A label, and what follows. -/
def readLabel (cs : List Char) : Option (Label × List Char) :=
  match cs.dropWhile isNameChar with
  | '=' :: '"' :: rest =>
    if isLabelName (cs.takeWhile isNameChar) then
      (readValue rest).map fun (value, rest) =>
        ((String.ofList (cs.takeWhile isNameChar), String.ofList value), rest)
    else none
  | _ => none

theorem length_lt_of_readValue {cs value rest : List Char} (h : readValue cs = some (value, rest)) :
    rest.length < cs.length := by
  fun_induction readValue cs generalizing value with
  | case1 | case3 => exact absurd h.symm (Option.some_ne_none _)
  | case2 following =>
    obtain ⟨-, rfl⟩ := Prod.mk.inj (Option.some.inj h)
    exact Nat.lt_succ_self _
  | case4 c following ih =>
    obtain ⟨d, -, h⟩ := Option.bind_eq_some_iff.mp h
    obtain ⟨⟨v, r⟩, hread, hpair⟩ := Option.map_eq_some_iff.mp h
    obtain ⟨-, rfl⟩ := Prod.mk.inj hpair
    exact (ih hread).trans (by simp only [List.length_cons]; omega)
  | case5 c following _ _ _ ih =>
    obtain ⟨⟨v, r⟩, hread, hpair⟩ := Option.map_eq_some_iff.mp h
    obtain ⟨-, rfl⟩ := Prod.mk.inj hpair
    exact (ih hread).trans (Nat.lt_succ_self _)

theorem length_lt_of_readLabel {cs rest : List Char} {x : Label} (h : readLabel cs = some (x, rest)) :
    rest.length < cs.length := by
  unfold readLabel at h
  split at h
  · next following hdrop =>
    obtain ⟨-, h⟩ := Option.ite_none_right_eq_some.mp h
    obtain ⟨⟨v, r⟩, hread, hpair⟩ := Option.map_eq_some_iff.mp h
    obtain ⟨-, rfl⟩ := Prod.mk.inj hpair
    have hsuffix := (List.dropWhile_suffix isNameChar (l := cs)).length_le
    rw [hdrop] at hsuffix
    have hlt := length_lt_of_readValue hread
    simp only [List.length_cons] at hsuffix
    omega
  · exact absurd h.symm (Option.some_ne_none _)

/-- Labels between commas up to the closing brace. The format would also have blanks around their parts and a comma
after the last; the exposition writes neither. -/
def readLabels (cs : List Char) : Option (List Label) :=
  match h : readLabel cs with
  | some (x, '\x7d' :: _) => some [x]
  | some (x, ',' :: rest) =>
    have : rest.length < cs.length := Nat.lt_of_succ_lt (length_lt_of_readLabel h)
    (readLabels rest).map (x :: ·)
  | _ => none
termination_by cs.length

/-- The labels of a sample, behind its name. -/
def readSample (line : String) : Option (List Label) :=
  match line.toList.dropWhile (· != '\x7b') with
  | _ :: labels => readLabels labels
  | [] => none

/-! ### Values -/

/-- A character that stands for itself in a value. -/
def IsPlain (c : Char) : Prop :=
  c ≠ '"' ∧ c ≠ '\\' ∧ c ≠ '\n'

/-- How the format has a character written in a value. -/
def escape : Char → List Char
  | '"' => ['\\', '"']
  | '\\' => ['\\', '\\']
  | '\n' => ['\\', 'n']
  | c => [c]

theorem escape_of_isPlain {c : Char} (h : IsPlain c) : escape c = [c] :=
  escape.eq_4 c h.1 h.2.1 h.2.2

theorem readValue_of_isPlain {c : Char} (h : IsPlain c) (rest : List Char) :
    readValue (c :: rest) = (readValue rest).map fun (value, rest) => (c :: value, rest) :=
  readValue.eq_5 c rest h.1 h.2.2 fun _ _ hc => absurd hc h.2.1

/-- A value that is written as the format has it is read back. -/
theorem readValue_escape (value rest : List Char) :
    readValue (value.flatMap escape ++ '"' :: rest) = some (value, rest) := by
  induction value with
  | nil => rfl
  | cons c value ih =>
    rw [List.flatMap_cons, List.append_assoc]
    fun_cases escape c with
    | case1 | case2 | case3 => simp [readValue, unescape?, ih]
    | case4 c hquote hslash hbreak =>
      rw [List.singleton_append, readValue_of_isPlain ⟨hquote, hslash, hbreak⟩, ih]
      rfl

/-- So is one that stands as it is, if it has nothing to escape. -/
theorem readValue_of_plain {value : List Char} (h : ∀ c ∈ value, IsPlain c) (rest : List Char) :
    readValue (value ++ '"' :: rest) = some (value, rest) := by
  have hsame : value.flatMap escape = value := by
    rw [List.flatMap_congr fun c hc => escape_of_isPlain (h c hc), List.flatMap_singleton']
  have hread := readValue_escape value rest
  rwa [hsame] at hread

theorem replicate_append_cons (n : Nat) (c : Char) (cs : List Char) :
    List.replicate n c ++ c :: cs = List.replicate (n + 1) c ++ cs := by
  rw [List.replicate_succ', List.append_assoc]
  rfl

theorem eq_backslash_of_unescape? {c : Char} (h : unescape? c = some '\\') : c = '\\' := by
  unfold unescape? at h
  split at h
  · rfl
  · exact absurd (Option.some.inj h) (by decide)
  · exact absurd (Option.some.inj h) (by decide)
  · exact absurd h.symm (Option.some_ne_none _)

/-- What stands as it is and is read back has nothing to escape. Once two backslashes are read for one, what is
read lags behind what stands there by more and more of them, and never catches up. -/
theorem plain_of_readValue {n : Nat} {value rest rest' : List Char}
    (h : readValue (value ++ '"' :: rest) = some (List.replicate n '\\' ++ value, rest')) :
    n = 0 ∧ (∀ c ∈ value, IsPlain c) ∧ rest' = rest := by
  induction value using readValue.induct generalizing n with
  | case1 =>
    obtain ⟨hvalue, hrest⟩ := Prod.mk.inj (Option.some.inj h)
    rw [List.append_nil, List.nil_eq, List.replicate_eq_nil_iff] at hvalue
    exact ⟨hvalue, fun _ hc => absurd hc List.not_mem_nil, hrest.symm⟩
  | case2 following =>
    obtain ⟨hvalue, -⟩ := Prod.mk.inj (Option.some.inj h)
    exact absurd hvalue.symm (List.append_ne_nil_of_right_ne_nil _ (List.cons_ne_nil _ _))
  | case3 following => exact absurd h.symm (Option.some_ne_none _)
  | case4 c following ih =>
    obtain ⟨d, hd, h⟩ := Option.bind_eq_some_iff.mp h
    obtain ⟨⟨v, r⟩, hread, hpair⟩ := Option.map_eq_some_iff.mp h
    obtain ⟨hvalue, rfl⟩ := Prod.mk.inj hpair
    rw [replicate_append_cons, List.replicate_succ, List.cons_append] at hvalue
    obtain ⟨rfl, rfl⟩ := List.cons.inj hvalue
    obtain rfl := eq_backslash_of_unescape? hd
    rw [replicate_append_cons] at hread
    exact absurd (ih hread).1 (Nat.succ_ne_zero n)
  | case5 c following hquote hbreak hslash ih =>
    by_cases hc : c = '\\'
    · subst hc
      cases following with
      | cons d following => exact absurd rfl (hslash d following rfl)
      | nil =>
        obtain ⟨⟨v, r⟩, -, hpair⟩ := Option.map_eq_some_iff.mp h
        obtain ⟨hvalue, -⟩ := Prod.mk.inj hpair
        rw [replicate_append_cons] at hvalue
        exact absurd (List.cons.inj hvalue).1 (by decide)
    · have hplain : IsPlain c := ⟨hquote, hc, hbreak⟩
      rw [List.cons_append, readValue_of_isPlain hplain] at h
      obtain ⟨⟨v, r⟩, hread, hpair⟩ := Option.map_eq_some_iff.mp h
      obtain ⟨hvalue, rfl⟩ := Prod.mk.inj hpair
      cases n with
      | succ n => exact absurd (List.cons.inj hvalue).1 hc
      | zero =>
        obtain ⟨-, rfl⟩ := List.cons.inj hvalue
        obtain ⟨-, hrest, hr⟩ := ih (n := 0) hread
        exact ⟨rfl, List.forall_mem_cons.mpr ⟨hplain, hrest⟩, hr⟩

/-! ### Labels -/

namespace Label

variable {x : Label} {rest rest' : List Char}

/-- The key is the name of a label and the value has nothing to escape. -/
def Readable (x : Label) : Prop :=
  isLabelName x.1.toList = true ∧ ∀ c ∈ x.2.toList, IsPlain c

theorem isNameChar_of_isLabelName {name : List Char} (h : isLabelName name = true) :
    ∀ c ∈ name, isNameChar c = true := by
  cases name with
  | nil => exact fun _ hc => absurd hc List.not_mem_nil
  | cons c cs => exact List.all_eq_true.mp (Bool.and_eq_true_iff.mp h).2

theorem readLabel_of_readable (h : x.Readable) (rest : List Char) :
    readLabel (x.chars ++ rest) = some (x, rest) := by
  have hname := isNameChar_of_isLabelName h.1
  have htake : (x.chars ++ rest).takeWhile isNameChar = x.1.toList := by
    rw [chars_append, List.takeWhile_append_of_pos hname, List.takeWhile_cons_of_neg (by decide), List.append_nil]
  have hdrop : (x.chars ++ rest).dropWhile isNameChar = '=' :: '"' :: (x.2.toList ++ '"' :: rest) := by
    rw [chars_append, List.dropWhile_append_of_pos hname, List.dropWhile_cons_of_neg (by decide)]
  unfold readLabel
  simp only [htake, hdrop, h.1, if_true, readValue_of_plain h.2, Option.map_some, String.ofList_toList]

theorem readable_of_readLabel (h : readLabel (x.chars ++ rest) = some (x, rest')) :
    x.Readable ∧ rest' = rest := by
  unfold readLabel at h
  split at h
  · next following hdrop =>
    obtain ⟨hname, h⟩ := Option.ite_none_right_eq_some.mp h
    obtain ⟨⟨v, r⟩, hread, hpair⟩ := Option.map_eq_some_iff.mp h
    obtain ⟨hx, rfl⟩ := Prod.mk.inj hpair
    have htake : (x.chars ++ rest).takeWhile isNameChar = x.1.toList := by
      rw [← congrArg Prod.fst hx, String.toList_ofList]
    have hvalue : v = x.2.toList := by
      rw [← congrArg Prod.snd hx, String.toList_ofList]
    have hwhole := List.takeWhile_append_dropWhile (p := isNameChar) (l := x.chars ++ rest)
    rw [htake, hdrop, chars_append] at hwhole
    obtain rfl : following = x.2.toList ++ '"' :: rest :=
      (List.cons.inj (List.cons.inj (List.append_cancel_left hwhole)).2).2
    rw [hvalue] at hread
    obtain ⟨-, hplain, hr⟩ := plain_of_readValue (n := 0) hread
    exact ⟨⟨htake ▸ hname, hplain⟩, hr⟩
  · exact absurd h.symm (Option.some_ne_none _)

end Label

theorem readLabels_last {cs rest : List Char} {x : Label} (h : readLabel cs = some (x, '\x7d' :: rest)) :
    readLabels cs = some [x] := by
  rw [readLabels]
  split <;> simp_all

theorem readLabels_next {cs rest : List Char} {x : Label} (h : readLabel cs = some (x, ',' :: rest)) :
    readLabels cs = (readLabels rest).map (x :: ·) := by
  rw [readLabels]
  split <;> simp_all

theorem exists_readLabel {cs : List Char} {x : Label} {xs : List Label} (h : readLabels cs = some (x :: xs)) :
    ∃ rest, readLabel cs = some (x, rest) := by
  rw [readLabels] at h
  split at h
  · next y rest hread =>
    obtain ⟨rfl, -⟩ := List.cons.inj (Option.some.inj h)
    exact ⟨_, hread⟩
  · next y rest hread =>
    obtain ⟨ys, -, hys⟩ := Option.map_eq_some_iff.mp h
    obtain ⟨rfl, -⟩ := List.cons.inj hys
    exact ⟨_, hread⟩
  · exact absurd h.symm (Option.some_ne_none _)

/-- Labels are read back just if their names and values let them be. -/
theorem readLabels_eq_iff {x : Label} {xs : List Label} {rest : List Char} :
    readLabels (x.chars ++ (following xs ++ '\x7d' :: rest)) = some (x :: xs) ↔
      ∀ y ∈ x :: xs, y.Readable := by
  rw [List.forall_mem_cons]
  induction xs generalizing x with
  | nil =>
    constructor
    · intro h
      obtain ⟨_, hread⟩ := exists_readLabel h
      exact ⟨(Label.readable_of_readLabel hread).1, fun _ hy => absurd hy List.not_mem_nil⟩
    · exact fun h => readLabels_last (Label.readLabel_of_readable h.1 _)
  | cons y ys ih =>
    have hnext : x.Readable → readLabels (x.chars ++ (following (y :: ys) ++ '\x7d' :: rest)) =
        (readLabels (y.chars ++ (following ys ++ '\x7d' :: rest))).map (x :: ·) := by
      intro hx
      rw [following, List.cons_append, List.append_assoc]
      exact readLabels_next (Label.readLabel_of_readable hx _)
    constructor
    · intro h
      obtain ⟨_, hread⟩ := exists_readLabel h
      have hx := (Label.readable_of_readLabel hread).1
      rw [hnext hx] at h
      obtain ⟨zs, hzs, hcons⟩ := Option.map_eq_some_iff.mp h
      rw [(List.cons.inj hcons).2] at hzs
      rw [List.forall_mem_cons]
      exact ⟨hx, ih.mp hzs⟩
    · rintro ⟨hx, hys⟩
      rw [List.forall_mem_cons] at hys
      rw [hnext hx, ih.mpr hys]
      rfl

/-! ### Samples -/

/-- The labels of a sample are read back just if the tags have names of labels for keys, and neither the pool's
name nor a tag's value has anything to escape. -/
theorem readSample_eq_iff {s : Sample} (hs : s ∈ samples) (m : Metrics) (n : String) (t : Tags) :
    ∃ help kind line, s.lines (labels n t) m = [help, kind, line] ∧
      (readSample line = some (("pool", n) :: sortedTags t) ↔
        (∀ c ∈ n.toList, IsPlain c) ∧ ∀ x ∈ t, Label.Readable x) := by
  refine ⟨_, _, _, rfl, ?_⟩
  have hname : ∀ c ∈ s.name.toList, (c != '\x7b') = true :=
    fun c hc => bne_iff_ne.mpr fun hbrace => (plain_of_mem_samples hs).name.2.1 (hbrace ▸ hc)
  have hpool : isLabelName "pool".toList = true := by decide
  have hfirst : Label.Readable ("pool", n) ↔ ∀ c ∈ n.toList, IsPlain c := and_iff_right hpool
  have hsorted : (∀ x ∈ sortedTags t, Label.Readable x) ↔ ∀ x ∈ t, Label.Readable x :=
    forall_congr' fun x => imp_congr_left (sortedTags_perm t).mem_iff
  have hline : (s.name ++ "\x7b" ++ labels n t ++ "\x7d " ++ (m.read s.field).text).toList =
      s.name.toList ++ '\x7b' :: (Label.chars ("pool", n) ++ (following (sortedTags t) ++
        '\x7d' :: ' ' :: (m.read s.field).text.toList)) := by
    simp [toList_labels]
  unfold readSample
  rw [hline, List.dropWhile_append_of_pos hname, List.dropWhile_cons_of_neg (by decide), readLabels_eq_iff,
    List.forall_mem_cons, hfirst, hsorted]

/-- The text tells the labels as they are written. Without quotes in the name, the keys and the values these tell
the pool's name and the tags, whatever backslashes, commas and line breaks there are. A scraper reads the name and
the tags back just if the keys are names of labels and nothing in the name and the values is to be escaped. -/
theorem exposition_tells_plain_labels (m : Metrics) :
    (∀ n n' t t', exposition m n t = exposition m n' t' ↔ labels n t = labels n' t') ∧
    (∀ n n' t t', (∀ x ∈ ("pool", n) :: t, Label.Unquoted x) →
      (∀ x ∈ ("pool", n') :: t', Label.Unquoted x) → exposition m n t = exposition m n' t' →
        n = n' ∧ t.Perm t') ∧
    ∀ s ∈ samples, ∀ n t, ∃ help kind line, s.lines (labels n t) m = [help, kind, line] ∧
      (readSample line = some (("pool", n) :: sortedTags t) ↔
        (∀ c ∈ n.toList, IsPlain c) ∧ ∀ x ∈ t, Label.Readable x) := by
  refine ⟨fun n n' t t' => exposition_eq_iff, fun n n' t t' hx hy h => ?_, fun s hs n t => ?_⟩
  · exact labels_inj hx hy (exposition_eq_iff.mp h)
  · exact readSample_eq_iff hs m n t

/-- The same tags twice, in another order, with what is special elsewhere in a line but not in a value. -/
theorem exposition_tells_plain_labels_any_order :
    let t : Tags := [("zone", "a,b=c"), ("env", "\x7bx\x7d")]
    let t' : Tags := [("env", "\x7bx\x7d"), ("zone", "a,b=c")]
    exposition {} "p q" t = exposition {} "p q" t' ∧ t.Perm t' ∧
      ∃ help kind line, Sample.lines ⟨"entrypool_entries_idle", "Idle entries", .gauge, .idle⟩
          (labels "p q" t) {} = [help, kind, line] ∧
        readSample line = some (("pool", "p q") :: t') := by
  intro t t'
  obtain ⟨htext, hnames, hread⟩ := exposition_tells_plain_labels {}
  have hsorted : sortedTags t = t' := by
    have hkeys : ¬ "zone" ≤ "env" := by decide
    simp [sortedTags, List.mergeSort, t, t', hkeys]
  have hsorted' : sortedTags t' = t' := by
    have hkeys : "env" ≤ "zone" := by decide
    simp [sortedTags, List.mergeSort, t', hkeys]
  have hlabels : labels "p q" t = labels "p q" t' := by rw [labels, hsorted, labels, hsorted']
  have hsame : exposition {} "p q" t = exposition {} "p q" t' := (htext _ _ _ _).mpr hlabels
  obtain ⟨-, hperm⟩ := hnames _ _ _ _ (by decide) (by decide) hsame
  obtain ⟨help, kind, line, hlines, hiff⟩ := hread _ List.mem_cons_self "p q" t
  have hplain : (∀ c ∈ "p q".toList, IsPlain c) ∧ ∀ x ∈ t, Label.Readable x := by
    simp [t, IsPlain, Label.Readable, isLabelName, isNameChar]
  exact ⟨hsame, hperm, help, kind, line, hlines, hsorted ▸ hiff.mpr hplain⟩

/-- A quote in the pool's name ends it in the text, and what follows it there reads as a tag. -/
theorem exposition_confuses_quoted_names :
    ¬ ∀ (m : Metrics) (n n' : String) (t t' : Tags),
      exposition m n t = exposition m n' t' → n = n' ∧ t = t' := by
  intro h
  have hsame : exposition {} "a\",b=\"c" [] = exposition {} "a" [("b", "c")] :=
    exposition_eq_iff.mpr (by simp [labels, label, sortedTags])
  exact absurd (h _ _ _ _ _ hsame).1 (by decide)

end ResourcePool.Metrics
