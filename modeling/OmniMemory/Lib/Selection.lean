import Mathlib.Data.List.Induction

/-! The first of the largest: what a loop ends with that goes through a list and takes every element
that fits and is larger than the one it has. Which one that is depends only on what fits and on the
order of the sizes of what fits. -/

namespace Selection

variable {α : Type} {fits fits' : α → Bool} {size size' : α → Nat} {l : List α} {a b : α}

/-- One turn of the loop, with the element it has so far. -/
def better (fits : α → Bool) (size : α → Nat) (best : Option α) (a : α) : Option α :=
  if fits a ∧ best.all (size · < size a) then some a else best

def firstLargest (fits : α → Bool) (size : α → Nat) (l : List α) : Option α :=
  l.foldl (better fits size) none

theorem firstLargest_concat :
    firstLargest fits size (l ++ [a]) = better fits size (firstLargest fits size l) a := by
  simp [firstLargest]

/-- The element fits, those that fit before it are smaller, and those after it not larger. -/
def IsFirstLargest (fits : α → Bool) (size : α → Nat) (l : List α) (a : α) : Prop :=
  fits a = true ∧ ∃ before after, l = before ++ a :: after ∧
    (∀ b ∈ before, fits b = true → size b < size a) ∧
    ∀ b ∈ after, fits b = true → size b ≤ size a

theorem IsFirstLargest.le (largest : IsFirstLargest fits size l a) (mem : b ∈ l)
    (fit : fits b = true) : size b ≤ size a := by
  obtain ⟨-, before, after, rfl, less, most⟩ := largest
  simp only [List.mem_append, List.mem_cons] at mem
  obtain earlier | rfl | later := mem
  · exact Nat.le_of_lt (less b earlier fit)
  · exact Nat.le_refl _
  · exact most b later fit

theorem IsFirstLargest.mem (largest : IsFirstLargest fits size l a) : a ∈ l := by
  obtain ⟨-, before, after, rfl, -⟩ := largest
  simp

theorem IsFirstLargest.unique (first : IsFirstLargest fits size l a)
    (second : IsFirstLargest fits size l b) : a = b := by
  obtain ⟨fita, prea, posta, rfl, lessa, mosta⟩ := first
  obtain ⟨fitb, preb, postb, same, lessb, mostb⟩ := second
  rcases List.append_eq_append_iff.mp same with ⟨mid, rfl, rest⟩ | ⟨mid, rfl, rest⟩
  · cases mid with
    | nil => exact (List.cons.inj rest).1
    | cons c mid =>
      obtain ⟨rfl, rfl⟩ := List.cons.inj rest
      have less := lessb a (by simp) fita
      have most := mosta b (by simp) fitb
      omega
  · cases mid with
    | nil => exact (List.cons.inj rest).1.symm
    | cons c mid =>
      obtain ⟨rfl, rfl⟩ := List.cons.inj rest
      have less := lessa b (by simp) fitb
      have most := mostb a (by simp) fita
      omega

/-- What the loop has after a list: nothing if nothing fits, and otherwise the first of the
largest. -/
theorem firstLargest_spec (fits : α → Bool) (size : α → Nat) (l : List α) :
    (firstLargest fits size l = none ∧ ∀ a ∈ l, fits a = false) ∨
      ∃ a, firstLargest fits size l = some a ∧ IsFirstLargest fits size l a := by
  induction l using List.reverseRecOn with
  | nil => exact .inl ⟨rfl, by simp⟩
  | append_singleton l c ih =>
    rw [firstLargest_concat]
    cases fit : fits c with
    | false =>
      have skip : ∀ best, better fits size best c = best := by simp [better, fit]
      rw [skip]
      rcases ih with ⟨none, unfit⟩ | ⟨a, some, fita, before, after, rfl, less, most⟩
      · refine .inl ⟨none, fun b mem => ?_⟩
        rcases List.mem_append.mp mem with mem | mem
        · exact unfit b mem
        · rwa [List.mem_singleton.mp mem]
      · refine .inr ⟨a, some, fita, before, after ++ [c], by simp, less, fun b mem fitb => ?_⟩
        rcases List.mem_append.mp mem with mem | mem
        · exact most b mem fitb
        · rw [List.mem_singleton.mp mem, fit] at fitb
          contradiction
    | true =>
      right
      rcases ih with ⟨none, unfit⟩ | ⟨a, some, largest⟩
      · refine ⟨c, by simp [better, fit, none], fit, l, [], rfl, fun b mem fitb => ?_, by simp⟩
        rw [unfit b mem] at fitb
        contradiction
      · by_cases larger : size a < size c
        · refine ⟨c, by simp [better, fit, some, larger], fit, l, [], rfl, fun b mem fitb => ?_,
            by simp⟩
          exact Nat.lt_of_le_of_lt (largest.le mem fitb) larger
        · obtain ⟨fita, before, after, rfl, less, most⟩ := largest
          refine ⟨a, by simp [better, some, larger], fita, before, after ++ [c], by simp, less,
            fun b mem fitb => ?_⟩
          rcases List.mem_append.mp mem with mem | mem
          · exact most b mem fitb
          · rw [List.mem_singleton.mp mem]
            omega

theorem firstLargest_eq_some :
    firstLargest fits size l = some a ↔ IsFirstLargest fits size l a := by
  rcases firstLargest_spec fits size l with ⟨none, unfit⟩ | ⟨b, some, largest⟩
  · rw [none]
    refine iff_of_false (by simp) fun largest => ?_
    have fit := unfit a largest.mem
    rw [largest.1] at fit
    contradiction
  · rw [some]
    constructor
    · intro same
      exact Option.some.inj same ▸ largest
    · exact fun other => congrArg _ (largest.unique other)

theorem firstLargest_eq_none :
    firstLargest fits size l = none ↔ ∀ a ∈ l, fits a = false := by
  rcases firstLargest_spec fits size l with ⟨none, unfit⟩ | ⟨b, some, largest⟩
  · exact iff_of_true none unfit
  · refine iff_of_false (by simp [some]) fun unfit => ?_
    have fit := unfit b largest.mem
    rw [largest.1] at fit
    contradiction

/-- The same element is selected under other rules, if it fits there and whatever fits there is
smaller there, or fits here too and compares with it as here. -/
theorem IsFirstLargest.transfer (largest : IsFirstLargest fits size l a) (fit : fits' a = true)
    (other : ∀ b ∈ l, fits' b = true → size' b < size' a ∨ fits b = true ∧
      (size b < size a → size' b < size' a) ∧ (size b ≤ size a → size' b ≤ size' a)) :
    IsFirstLargest fits' size' l a := by
  obtain ⟨-, before, after, rfl, less, most⟩ := largest
  refine ⟨fit, before, after, rfl, fun b mem fitb => ?_, fun b mem fitb => ?_⟩
  · rcases other b (by simp [mem]) fitb with smaller | ⟨fitb, order, -⟩
    · exact smaller
    · exact order (less b mem fitb)
  · rcases other b (by simp [mem]) fitb with smaller | ⟨fitb, -, order⟩
    · exact Nat.le_of_lt smaller
    · exact order (most b mem fitb)

/-- Where all that fit have one size, the first of them is selected. -/
theorem firstLargest_of_same_size {n : Nat} (same : ∀ a ∈ l, fits a = true → size a = n) :
    firstLargest fits size l = l.find? fits := by
  cases found : l.find? fits with
  | none =>
    refine firstLargest_eq_none.mpr fun a mem => ?_
    simpa using List.find?_eq_none.mp found a mem
  | some a =>
    obtain ⟨fit, before, after, rfl, unfit⟩ := List.find?_eq_some_iff_append.mp found
    refine firstLargest_eq_some.mpr ⟨fit, before, after, rfl, fun b mem fitb => ?_,
      fun b mem fitb => ?_⟩
    · have unfitb := unfit b mem
      rw [fitb] at unfitb
      contradiction
    · exact Nat.le_of_eq ((same b (by simp [mem]) fitb).trans (same a (by simp) fit).symm)

end Selection
