import Mathlib.Data.List.Basic

/-! Names joined by a separator that occurs in none of them, such as the parts of a path. Written
with the separator after each name, they form a prefix code: one text starts another exactly if its
names start the names of the other. -/

namespace Separated

variable {α : Type} {sep : α} {xs ys names : List (List α)}

/-- The names, each with the separator after it. -/
def ended (sep : α) (names : List (List α)) : List α := names.flatMap (· ++ [sep])

@[simp] theorem ended_nil : ended sep [] = [] := rfl

@[simp] theorem ended_cons (x : List α) : ended sep (x :: xs) = x ++ sep :: ended sep xs := by
  simp [ended]

theorem intercalate_append_sep (some : names ≠ []) :
    [sep].intercalate names ++ [sep] = ended sep names := by
  induction names with
  | nil => contradiction
  | cons x xs ih =>
    cases xs with
    | nil => simp
    | cons y ys => simp [ih (List.cons_ne_nil y ys)]

/-- Texts up to the first separator. -/
theorem append_sep_inj {x y s t : List α} (hx : sep ∉ x) (hy : sep ∉ y)
    (same : x ++ sep :: s = y ++ sep :: t) : x = y ∧ s = t := by
  induction x generalizing y with
  | nil =>
    cases y with
    | nil => exact ⟨rfl, by simpa using same⟩
    | cons c y =>
      obtain ⟨rfl, -⟩ := List.cons.inj same
      simp at hy
  | cons a x ih =>
    cases y with
    | nil =>
      obtain ⟨rfl, -⟩ := List.cons.inj same
      simp at hx
    | cons c y =>
      obtain ⟨rfl, tails⟩ := List.cons.inj same
      obtain ⟨rfl, rest⟩ :=
        ih (mt (List.mem_cons_of_mem a) hx) (mt (List.mem_cons_of_mem a) hy) tails
      exact ⟨rfl, rest⟩

theorem ended_isPrefix (hx : ∀ x ∈ xs, sep ∉ x) (hy : ∀ y ∈ ys, sep ∉ y) :
    ended sep ys <+: ended sep xs ↔ ys <+: xs := by
  induction ys generalizing xs with
  | nil => simp
  | cons y ys ih =>
    cases xs with
    | nil => simp
    | cons x xs =>
      rw [ended_cons, ended_cons, List.cons_prefix_cons,
        ← ih (fun z mem => hx z (by simp [mem])) fun z mem => hy z (by simp [mem])]
      constructor
      · rintro ⟨rest, same⟩
        rw [List.append_assoc, List.cons_append] at same
        obtain ⟨rfl, tails⟩ := append_sep_inj (hy y (by simp)) (hx x (by simp)) same
        exact ⟨rfl, rest, tails⟩
      · rintro ⟨rfl, rest, same⟩
        exact ⟨rest, by simp [← same]⟩

/-- A text is, or is followed by a separator in, another one. -/
theorem append_sep_isPrefix {p q : List α} :
    q ++ [sep] <+: p ++ [sep] ↔ q = p ∨ q ++ [sep] <+: p := by
  rw [List.prefix_concat_iff, List.append_left_inj]

theorem not_mem_of_mem_splitOn [BEq α] [LawfulBEq α] {l part : List α}
    (mem : part ∈ l.splitOn sep) : sep ∉ part := by
  induction l generalizing part with
  | nil => simp_all [List.splitOn_nil]
  | cons c l ih =>
    rw [List.splitOn_cons_eq_if_modifyHead] at mem
    split at mem
    · rcases List.mem_cons.mp mem with rfl | mem
      · simp
      · exact ih mem
    · rename_i ne
      cases parts : l.splitOn sep with
      | nil => exact absurd parts (List.splitOn_ne_nil sep l)
      | cons first rest =>
        rw [parts, List.modifyHead_cons] at mem
        rw [parts] at ih
        rcases List.mem_cons.mp mem with rfl | mem
        · intro here
          rcases List.mem_cons.mp here with rfl | here
          · simp at ne
          · exact ih (List.mem_cons_self) here
        · exact ih (List.mem_cons_of_mem _ mem)

end Separated
