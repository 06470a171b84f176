import Mathlib.Data.List.TakeWhile

/-! The words of a list: its parts that have no separator. What is taken from both ends of a list, and
where a part is found first: at its place if what comes before it is of another kind than its first
element. -/

namespace Words

variable {α : Type*}

/-- The words; `word` has the elements of the current one, the last one first. -/
def wordsFrom (sep : α → Bool) : (word : List α) → List α → List (List α)
  | word, [] => if word.isEmpty then [] else [word.reverse]
  | word, a :: rest =>
    if sep a then
      if word.isEmpty then wordsFrom sep [] rest else word.reverse :: wordsFrom sep [] rest
    else wordsFrom sep (a :: word) rest

def words (sep : α → Bool) (l : List α) : List (List α) := wordsFrom sep [] l

/-- What is left of a list without the elements of a kind at its ends. -/
def trim (p : α → Bool) (l : List α) : List α := ((l.dropWhile p).reverse.dropWhile p).reverse

/-- Where a part of a list begins first. -/
def index? [BEq α] (part : List α) : List α → Option Nat
  | [] => if part.isEmpty then some 0 else none
  | a :: rest => if part.isPrefixOf (a :: rest) then some 0 else (index? part rest).map (· + 1)

example : words (· == 0) [0, 1, 2, 0, 0, 3] = [[1, 2], [3]] := by decide
example : trim (· == 0) [0, 1, 0, 2, 0, 0] = [1, 0, 2] := by decide
example : index? [2, 1] [1, 2, 2, 1, 2, 1] = some 2 := by decide

/-- The list has these words, in this order, with nothing but separators around them. -/
inductive Spaced (sep : α → Bool) : List α → List (List α) → Prop
  | nil {gap : List α} (before : ∀ a ∈ gap, sep a = true) : Spaced sep gap []
  | cons {gap word rest : List α} {words : List (List α)} (before : ∀ a ∈ gap, sep a = true)
      (some : word ≠ []) (inside : ∀ a ∈ word, sep a = false) (tail : Spaced sep rest words) :
      Spaced sep (gap ++ word ++ rest) (word :: words)

variable {sep p : α → Bool} {l part gap rest : List α} {a : α} {ws : List (List α)}

theorem Spaced.cons_sep (here : sep a = true) (spaced : Spaced sep l ws) : Spaced sep (a :: l) ws := by
  cases spaced with
  | nil before => exact .nil (List.forall_mem_cons.mpr ⟨here, before⟩)
  | @cons gap word rest words before some inside tail =>
    have longer : ∀ b ∈ a :: gap, sep b = true := List.forall_mem_cons.mpr ⟨here, before⟩
    exact .cons longer some inside tail

/-- A word at the beginning. -/
theorem Spaced.cons_word {word : List α} (some : word ≠ []) (inside : ∀ a ∈ word, sep a = false)
    (tail : Spaced sep rest ws) : Spaced sep (word ++ rest) (word :: ws) := by
  have none : ∀ a ∈ ([] : List α), sep a = true := by simp
  exact .cons none some inside tail

theorem spaced_wordsFrom {word : List α} (inside : ∀ a ∈ word, sep a = false) :
    Spaced sep (word.reverse ++ l) (wordsFrom sep word l) := by
  induction l generalizing word with
  | nil =>
    have ends : Spaced sep ([] : List α) [] := .nil (by simp)
    cases word with
    | nil => exact ends
    | cons b word => exact .cons_word (by simp) (fun a mem => inside a (List.mem_reverse.mp mem)) ends
  | cons a rest ih =>
    rw [wordsFrom]
    cases here : sep a with
    | true =>
      have none : ∀ b ∈ ([] : List α), sep b = false := by simp
      have next : Spaced sep rest (wordsFrom sep [] rest) := ih none
      cases word with
      | nil => exact next.cons_sep here
      | cons b word =>
        exact .cons_word (by simp) (fun a mem => inside a (List.mem_reverse.mp mem))
          (next.cons_sep here)
    | false =>
      have next := ih (List.forall_mem_cons.mpr ⟨here, inside⟩)
      rw [List.reverse_cons, List.append_assoc] at next
      exact next

theorem spaced_words (sep : α → Bool) (l : List α) : Spaced sep l (words sep l) := by
  have none : ∀ a ∈ ([] : List α), sep a = false := by simp
  exact spaced_wordsFrom none

theorem Spaced.sublist (spaced : Spaced sep l ws) : ∀ word ∈ ws, word.Sublist l := by
  induction spaced with
  | nil => simp
  | @cons gap word rest words before some inside tail ih =>
    refine List.forall_mem_cons.mpr ⟨?_, fun w mem => ?_⟩
    · exact (List.sublist_append_right gap word).trans (List.sublist_append_left _ _)
    · exact (ih w mem).trans (List.sublist_append_right _ _)

theorem Spaced.isInfix (spaced : Spaced sep l ws) : ∀ word ∈ ws, word <:+: l := by
  induction spaced with
  | nil => simp
  | @cons gap word rest words before some inside tail ih =>
    refine List.forall_mem_cons.mpr ⟨⟨gap, rest, rfl⟩, fun w mem => ?_⟩
    exact (ih w mem).trans (List.suffix_append _ _).isInfix

theorem Spaced.plain (spaced : Spaced sep l ws) : ∀ word ∈ ws, ∀ a ∈ word, sep a = false := by
  induction spaced with
  | nil => simp
  | cons before some inside tail ih => exact List.forall_mem_cons.mpr ⟨inside, ih⟩

/-- A part that an element is not in lies before the element or after it. -/
theorem isInfix_append_cons {x y : List α} (other : a ∉ part) (inside : part <:+: x ++ a :: y) :
    part <:+: x ∨ part <:+: y := by
  obtain ⟨left, right, same⟩ := inside
  rcases List.append_eq_append_iff.mp same with ⟨rest, rfl, -⟩ | ⟨rest, split, tail⟩
  · exact .inl ⟨left, rest, rfl⟩
  · cases rest with
    | nil =>
      refine .inl ⟨left, [], ?_⟩
      simpa using split
    | cons b rest =>
      obtain ⟨rfl, rfl⟩ := List.cons.inj tail
      rcases List.append_eq_append_iff.mp split with ⟨front, rfl, whole⟩ | ⟨front, rfl, whole⟩
      · exact (other (by simp [whole])).elim
      · cases front with
        | nil =>
          have mem : a ∈ [] ++ part := whole ▸ List.mem_cons_self
          exact (other mem).elim
        | cons c front =>
          obtain ⟨rfl, rfl⟩ := List.cons.inj whole
          exact .inr ⟨front, right, rfl⟩

theorem exists_wordsFrom_of_isInfix {word : List α} (some : part ≠ [])
    (plain : ∀ a ∈ part, sep a = false) (inside : part <:+: word.reverse ++ l) :
    ∃ w ∈ wordsFrom sep word l, part <:+: w := by
  induction l generalizing word with
  | nil =>
    rw [List.append_nil] at inside
    cases word with
    | nil => exact absurd (List.infix_nil.mp inside) some
    | cons b word => exact ⟨_, by simp [wordsFrom], inside⟩
  | cons a rest ih =>
    rw [wordsFrom]
    cases here : sep a with
    | false =>
      refine ih ?_
      rw [List.reverse_cons, List.append_assoc]
      exact inside
    | true =>
      have other : a ∉ part := fun mem => by
        rw [plain a mem] at here
        contradiction
      rcases isInfix_append_cons other inside with before | after
      · cases word with
        | nil => exact absurd (List.infix_nil.mp before) some
        | cons b word => exact ⟨_, by simp, before⟩
      · obtain ⟨w, mem, within⟩ : ∃ w ∈ wordsFrom sep [] rest, part <:+: w := ih after
        cases word with
        | nil => exact ⟨w, mem, within⟩
        | cons b word => exact ⟨w, List.mem_cons_of_mem _ mem, within⟩

/-- A part without separators lies within a word. -/
theorem exists_words_of_isInfix (some : part ≠ []) (plain : ∀ a ∈ part, sep a = false)
    (inside : part <:+: l) : ∃ w ∈ words sep l, part <:+: w :=
  exists_wordsFrom_of_isInfix some plain inside

/-! ### The ends -/

/-- What is taken from the ends is of the kind, and what is left begins with another. -/
theorem exists_trim (p : α → Bool) (l : List α) : ∃ left right, l = left ++ trim p l ++ right ∧
    (∀ a ∈ left, p a = true) ∧ ∀ a ∈ (trim p l).head?, p a = false := by
  have front : l.takeWhile p ++ l.dropWhile p = l := List.takeWhile_append_dropWhile
  have back := congrArg List.reverse
    (List.takeWhile_append_dropWhile (p := p) (l := (l.dropWhile p).reverse))
  rw [List.reverse_append, List.reverse_reverse] at back
  refine ⟨l.takeWhile p, ((l.dropWhile p).reverse.takeWhile p).reverse, ?_,
    fun a mem => List.mem_takeWhile_imp mem, fun a first => ?_⟩
  · rw [List.append_assoc, trim, back, front]
  · have first : a ∈ (l.dropWhile p).head? := by
      have first : (trim p l).head? = some a := first
      rw [← back, List.head?_append]
      exact congrArg (Option.or · _) first
    cases dropped : l.dropWhile p with
    | nil => simp [dropped] at first
    | cons b tail =>
      obtain rfl : b = a := by simpa [dropped] using first
      have stops := List.head?_dropWhile_not p l
      simpa [dropped] using stops

theorem trim_sublist (p : α → Bool) (l : List α) : (trim p l).Sublist l := by
  obtain ⟨left, right, same, -, -⟩ := exists_trim p l
  have inside := (List.sublist_append_right left (trim p l)).trans (List.sublist_append_left _ right)
  rwa [← same] at inside

theorem head?_dropWhile (first : a ∈ (l.dropWhile p).head?) : p a = false := by
  have kept := List.head?_dropWhile_not p l
  rwa [Option.mem_def.mp first] at kept

theorem dropWhile_eq_self (first : ∀ a ∈ l.head?, p a = false) : l.dropWhile p = l := by
  cases l with
  | nil => rfl
  | cons a l => rw [List.dropWhile_cons_of_neg (by simp [first a rfl])]

/-- Neither end of what is left is of the kind. -/
theorem trim_ends (p : α → Bool) (l : List α) :
    (∀ a ∈ (trim p l).head?, p a = false) ∧ ∀ a ∈ (trim p l).getLast?, p a = false := by
  constructor
  · intro a first
    rw [trim, List.head?_reverse] at first
    obtain ⟨taken, split⟩ := List.dropWhile_suffix (l := (l.dropWhile p).reverse) p
    have last : a ∈ (l.dropWhile p).reverse.getLast? := by
      rw [← split, List.getLast?_append, Option.mem_def.mp first]
      rfl
    rw [List.getLast?_reverse] at last
    exact head?_dropWhile last
  · intro a last
    rw [trim, List.getLast?_reverse] at last
    exact head?_dropWhile last

/-- Nothing is taken from a list just when neither end is of the kind. -/
theorem trim_eq_self : trim p l = l ↔
    (∀ a ∈ l.head?, p a = false) ∧ ∀ a ∈ l.getLast?, p a = false := by
  constructor
  · intro same
    rw [← same]
    exact trim_ends p l
  · rintro ⟨first, last⟩
    rw [trim, dropWhile_eq_self first, dropWhile_eq_self (by simpa using last), List.reverse_reverse]

/-! ### Places -/

/-- A part is found after what is of another kind than its first element. -/
theorem index?_append [BEq α] [LawfulBEq α] (rest : List α) (before : ∀ a ∈ gap, p a = true)
    (first : ∀ a ∈ part.head?, p a = false) (some : part ≠ []) :
    index? part (gap ++ part ++ rest) = .some gap.length := by
  obtain ⟨b, tail, rfl⟩ := List.exists_cons_of_ne_nil some
  have other : p b = false := first b rfl
  induction gap with
  | nil =>
    have starts : (b :: tail).isPrefixOf (b :: (tail ++ rest)) = true :=
      List.isPrefixOf_iff_prefix.mpr (List.prefix_append _ _)
    exact if_pos starts
  | cons a gap ih =>
    obtain ⟨here, later⟩ := List.forall_mem_cons.mp before
    have ne : (b == a) = false := beq_false_of_ne fun same => by
      rw [same, here] at other
      contradiction
    have elsewhere : ¬ (b :: tail).isPrefixOf (a :: (gap ++ b :: tail ++ rest)) = true := by
      simp [List.isPrefixOf, ne]
    rw [List.cons_append, List.cons_append, index?, if_neg elsewhere, ih later]
    rfl

end Words
