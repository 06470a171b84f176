import Mathlib.Data.List.TakeWhile
import OmniMemory.Lib.Words
import OmniMemory.Python

/-! `str.split`, `str.strip` and `str.replace`: the parts of a text with the separators between them
are the text, the separator occurs in none of the parts, stripping takes white space only, and a
character is replaced wherever it is. -/

namespace OmniMemory

/-! ### Splitting -/

/-- `ends`, each with the separator after it, and `last` are the parts of `l`: the separator does
not occur in them. -/
structure Parts (separator l : List Char) (ends : List (List Char)) (last : List Char) : Prop where
  join : ends.flatMap (· ++ separator) ++ last = l
  ends : ∀ part ∈ ends, ∀ tail, tail ≠ [] → tail <:+ part → ¬ separator <+: tail ++ separator
  last : ∀ tail, tail ≠ [] → tail <:+ last → ¬ separator <+: tail

section Split

variable {separator l part : List Char}

/-- The parts from a place on at which `part` was read and the separator does not begin in it. -/
theorem splitParts_parts (some : separator ≠ []) (skip : Nat) (part l : List Char)
    (skipping : skip ≠ 0 → part = [])
    (fresh : ∀ tail, tail ≠ [] → tail <:+ part.reverse → ¬ separator <+: tail ++ l.drop skip) :
    ∃ ends last, splitParts separator skip part l = ends ++ [last] ∧
      Parts separator (part.reverse ++ l.drop skip) ends last := by
  induction skip, part, l using splitParts.induct separator with
  | case1 skip part =>
    refine ⟨[], part.reverse, by simp [splitParts], by simp, by simp, fun tail ne suffix => ?_⟩
    simpa using fresh tail ne suffix
  | case2 skip part c rest ih =>
    obtain rfl := skipping (by omega)
    exact ih (fun _ => rfl) fun tail ne suffix => absurd (List.suffix_nil.mp suffix) ne
  | case3 part c rest starts ih =>
    obtain ⟨ends, last, split, parts⟩ := ih (fun _ => rfl)
      fun tail ne suffix => absurd (List.suffix_nil.mp suffix) ne
    obtain ⟨after, same⟩ := List.isPrefixOf_iff_prefix.mp starts
    have skipped : rest.drop (separator.length - 1) = after := by
      have dropped := congrArg (List.drop separator.length) same
      rw [List.drop_left] at dropped
      obtain ⟨n, length⟩ : ∃ n, separator.length = n + 1 :=
        ⟨separator.length - 1, by have := List.length_pos_iff.mpr some; omega⟩
      rw [length] at dropped ⊢
      exact dropped.symm
    rw [skipped] at parts
    refine ⟨part.reverse :: ends, last, ?_, ?_, ?_, parts.last⟩
    · rw [splitParts, if_pos starts, split, List.cons_append]
    · have join := parts.join
      simp only [List.reverse_nil, List.nil_append] at join
      rw [List.flatMap_cons, List.append_assoc, join, List.append_assoc, same, List.drop_zero]
    · refine List.forall_mem_cons.mpr ⟨fun tail ne suffix prefixed => ?_, parts.ends⟩
      refine fresh tail ne suffix ?_
      rw [List.drop_zero, ← same, ← List.append_assoc]
      exact prefixed.trans (List.prefix_append _ _)
  | case4 part c rest none ih =>
    have here : ∀ tail, tail ≠ [] → tail <:+ (c :: part).reverse →
        ¬ separator <+: tail ++ rest.drop 0 := by
      intro tail ne suffix prefixed
      rw [List.reverse_cons] at suffix
      rcases List.suffix_concat_iff.mp suffix with rfl | ⟨start, rfl, earlier⟩
      · exact ne rfl
      · rw [List.append_assoc, List.singleton_append, List.drop_zero] at prefixed
        by_cases empty : start = []
        · subst empty
          exact none (List.isPrefixOf_iff_prefix.mpr prefixed)
        · exact fresh start empty earlier prefixed
    obtain ⟨ends, last, split, parts⟩ := ih (by simp) here
    refine ⟨ends, last, ?_, ?_⟩
    · rw [splitParts, if_neg none, split]
    · simpa using parts

theorem splitParts_eq (some : separator ≠ []) (l : List Char) :
    ∃ ends last, splitParts separator 0 [] l = ends ++ [last] ∧ Parts separator l ends last := by
  simpa using splitParts_parts some 0 [] l (by simp)
    fun tail ne suffix => absurd (List.suffix_nil.mp suffix) ne

end Split

section Parts

variable {separator l last : List Char} {ends : List (List Char)}

theorem Parts.not_infix (parts : Parts separator l ends last) (some : separator ≠ [])
    {part : List Char} (mem : part ∈ ends ++ [last]) : ¬ separator <:+: part := by
  rintro ⟨before, after, rfl⟩
  have suffix : separator ++ after <:+ before ++ separator ++ after :=
    ⟨before, (List.append_assoc ..).symm⟩
  have tail : separator ++ after ≠ [] := by simp [some]
  rcases List.mem_append.mp mem with mem | mem
  · refine parts.ends _ mem _ tail suffix ?_
    rw [List.append_assoc]
    exact List.prefix_append _ _
  · obtain rfl := List.mem_singleton.mp mem
    exact parts.last _ tail suffix (List.prefix_append _ _)

theorem Parts.ends_eq_nil (parts : Parts separator l ends last) (some : separator ≠ []) :
    ends = [] ↔ ¬ separator <:+: l := by
  constructor
  · rintro rfl
    obtain rfl : last = l := parts.join
    exact parts.not_infix some (by simp)
  · intro none
    cases ends with
    | nil => rfl
    | cons part ends =>
      refine absurd ⟨part, ends.flatMap (· ++ separator) ++ last, ?_⟩ none
      rw [← parts.join, List.flatMap_cons, List.append_assoc _ _ last]

end Parts

theorem split_parts (s separator : String) (some : separator ≠ "") :
    ∃ ends last, split s separator = ends.map String.ofList ++ [String.ofList last] ∧
      Parts separator.toList s.toList ends last := by
  have nonempty : separator.toList ≠ [] := by simpa using some
  obtain ⟨ends, last, split, parts⟩ := splitParts_eq nonempty s.toList
  exact ⟨ends, last, by rw [OmniMemory.split, split, List.map_append, List.map_singleton], parts⟩

/-! ### Stripping -/

theorem dropWhile_append (p : Char → Bool) (l : List Char) :
    ∃ start, l = start ++ l.dropWhile p ∧ start.all p = true :=
  ⟨l.takeWhile p, List.takeWhile_append_dropWhile.symm, List.all_takeWhile⟩

/-- What `strip` takes is white space at both ends. -/
theorem toList_strip (s : String) : ∃ start rest, s.toList = start ++ (strip s).toList ++ rest ∧
    start.all isSpace = true ∧ rest.all isSpace = true := by
  obtain ⟨start, front, starts⟩ := dropWhile_append isSpace s.toList
  obtain ⟨rest, back, rests⟩ := dropWhile_append isSpace (s.toList.dropWhile isSpace).reverse
  refine ⟨start, rest.reverse, ?_, starts, by simpa using rests⟩
  have back := congrArg List.reverse back
  rw [List.reverse_reverse, List.reverse_append] at back
  rw [strip, String.toList_ofList, List.append_assoc, ← back, ← front]

theorem strip_eq_trim (s : String) : strip s = String.ofList (Words.trim isSpace s.toList) := rfl

/-- Neither end of a stripped text is white space. -/
theorem strip_ends (s : String) : (∀ c ∈ (strip s).toList.head?, isSpace c = false) ∧
    ∀ c ∈ (strip s).toList.getLast?, isSpace c = false := by
  rw [strip_eq_trim, String.toList_ofList]
  exact Words.trim_ends isSpace s.toList

/-- Stripping changes nothing just when neither end is white space. -/
theorem strip_eq_self {s : String} : strip s = s ↔
    (∀ c ∈ s.toList.head?, isSpace c = false) ∧ ∀ c ∈ s.toList.getLast?, isSpace c = false := by
  rw [← Words.trim_eq_self, strip_eq_trim, ← String.toList_inj, String.toList_ofList]

theorem strip_strip (s : String) : strip (strip s) = strip s := strip_eq_self.mpr (strip_ends s)

/-- The characters of a text that are not white space. -/
def ink (l : List Char) : List Char := l.filter fun c => !isSpace c

@[simp] theorem ink_nil : ink [] = [] := rfl

@[simp] theorem ink_append (l l' : List Char) : ink (l ++ l') = ink l ++ ink l' :=
  List.filter_append ..

theorem ink_eq_nil {l : List Char} : ink l = [] ↔ l.all isSpace = true := by
  simp [ink, List.filter_eq_nil_iff]

@[simp] theorem ink_strip (s : String) : ink (strip s).toList = ink s.toList := by
  obtain ⟨start, rest, same, starts, rests⟩ := toList_strip s
  rw [same, ink_append, ink_append, ink_eq_nil.mpr starts, ink_eq_nil.mpr rests, List.nil_append,
    List.append_nil]

theorem isInfix_strip (s : String) : (strip s).toList <:+: s.toList := by
  obtain ⟨start, rest, same, -, -⟩ := toList_strip s
  exact ⟨start, rest, same.symm⟩

theorem strip_eq_empty {s : String} : strip s = "" ↔ ink s.toList = [] := by
  constructor
  · intro empty
    rw [← ink_strip, empty]
    rfl
  · intro blank
    have all : ∀ c ∈ s.toList, isSpace c = true := List.all_eq_true.mp (ink_eq_nil.mp blank)
    rw [strip, List.dropWhile_eq_nil_iff.mpr all]
    rfl

theorem length_strip_le (s : String) : (strip s).length ≤ s.length := by
  rw [← String.length_toList, ← String.length_toList]
  exact (isInfix_strip s).length_le

/-! ### Replacing -/

section Replace

open String.Slice.Pattern String.Slice.Pattern.Model

/-- `part` in place of every occurrence of `c`. -/
def substitute (c : Char) (part : String) (l : List Char) : List Char :=
  l.flatMap fun d => if d = c then part.toList else [d]

theorem substitute_append (c : Char) (part : String) (l l' : List Char) :
    substitute c part (l ++ l') = substitute c part l ++ substitute c part l' := List.flatMap_append

theorem substitute_of_ne {c : Char} {part : String} {l : List Char} (other : ∀ d ∈ l, d ≠ c) :
    substitute c part l = l := by
  induction l with
  | nil => rfl
  | cons d l ih =>
    obtain ⟨here, rest⟩ := List.forall_mem_cons.mp other
    rw [substitute, List.flatMap_cons, if_neg here]
    exact congrArg (d :: ·) (ih rest)

/-- One step of `str.replace`. -/
def replaceStep {s : String.Slice} (part : String) (sofar : String) : SearchStep s → String
  | .matched .. => sofar ++ part.toSlice
  | .rejected start stop => sofar ++ s.slice! start stop

theorem toList_foldl_steps {c : Char} {s : String.Slice} (part : String) {pos : s.Pos}
    {steps : List (SearchStep s)} (search : IsValidSearchFrom (String.singleton c) pos steps)
    {before after : String} (splits : pos.Splits before after) (sofar : String) :
    (steps.foldl (replaceStep part) sofar).toList =
      sofar.toList ++ substitute c part after.toList := by
  induction search generalizing before after sofar with
  | endPos =>
    obtain rfl : after = "" := splits.eq_right (String.Slice.splits_endPos _)
    simp [substitute]
  | @matched l start stop longest _ ih =>
    obtain ⟨before', after', first, second⟩ :=
      ForwardStringSearcher.isLongestMatchAt_iff_splits.mp longest
    obtain rfl := splits.eq_right first
    rw [List.foldl_cons, ih second]
    simp [replaceStep, substitute]
  | @mismatched l start stop less none _ ih =>
    have second := stop.splits
    obtain ⟨between, -, left, rfl⟩ := (splits.lt_iff_exists_eq_append second).mp less
    rw [left] at second
    obtain ⟨le, copy⟩ := String.Slice.copy_slice_eq_iff_splits.mpr ⟨_, _, splits, second⟩
    have other : ∀ d ∈ between.toList, d ≠ c := by
      rintro d mem rfl
      obtain ⟨u, v, parts⟩ := List.append_of_mem mem
      obtain rfl : between = String.ofList u ++ (String.singleton d ++ String.ofList v) := by
        apply String.toList_injective
        simp [parts]
      have whole : s.copy = before ++ String.ofList u ++
          (String.singleton d ++ (String.ofList v ++ (s.sliceFrom stop).copy)) := by
        rw [splits.eq_append]
        simp only [String.append_assoc]
      have here := String.Slice.Pos.splits_ofEqAppend whole
      refine none _ ?_ ?_ (ForwardStringSearcher.matchesAt_iff_splits.mpr ⟨_, _, here⟩)
      · refine (splits.le_iff_exists_eq_append here).mpr ⟨String.ofList u, rfl, ?_⟩
        simp only [String.append_assoc]
      · refine (here.lt_iff_exists_eq_append second).mpr
          ⟨String.singleton d ++ String.ofList v, by simp, ?_, ?_⟩
        · simp only [String.append_assoc]
        · simp only [String.append_assoc]
    rw [List.foldl_cons, ih second, String.toList_append, substitute_append, substitute_of_ne other]
    simp [replaceStep, ← String.Slice.slice_eq_slice!, le, copy]

theorem toList_replace (s : String) (c : Char) (part : String) :
    (s.replace (String.singleton c) part).toList = substitute c part s.toList := by
  have nonempty : String.singleton c ≠ "" := by simp
  have lawful := ForwardStringSearcher.lawfulToForwardSearcherModel nonempty
  have search := lawful.isValidSearchFrom_toList s.toSlice
  have all := toList_foldl_steps part search s.toSlice.splits_startPos ""
  rw [Std.Iter.foldl_toList] at all
  have same : s.replace (String.singleton c) part =
      (ToForwardSearcher.toSearcher (String.singleton c) s.toSlice).fold (replaceStep part) "" := by
    unfold String.replace String.Slice.replace
    congr
    funext sofar step
    cases step <;> rfl
  rw [same]
  simpa using all

end Replace

end OmniMemory
