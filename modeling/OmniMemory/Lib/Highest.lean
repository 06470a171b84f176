import Mathlib.Data.List.Sort

/-! The elements of a list with the highest scores, the highest first, and of equal ones in the order
of the list. `IsHighest` says what these are without sorting. -/

namespace Highest

variable {α S : Type*} [LinearOrder S] (score : α → S)

/-- The first `n` elements of the list, by descending scores. -/
def highest (n : Nat) (l : List α) : List α := (l.insertionSort fun a b => score b ≤ score a).take n

structure IsHighest (n : Nat) (l listed : List α) : Prop where
  members : listed.Subperm l
  length : listed.length = min n l.length
  descending : listed.Pairwise fun a b => score b ≤ score a
  best : ∀ a ∈ listed, ∀ b ∈ l, b ∉ listed → score b ≤ score a
  stable : ∀ s, listed.filter (score · = s) <+: l.filter (score · = s)

variable {score} {n : Nat} {l : List α} {a : α} {s : S}

theorem filter_orderedInsert : (l.orderedInsert (fun a b => score b ≤ score a) a).filter (score · = s) =
    (a :: l).filter (score · = s) := by
  induction l with
  | nil => rfl
  | cons b l ih =>
    rw [List.orderedInsert]
    split
    · rfl
    · rename_i higher
      -- The elements that `a` is moved over have other scores.
      by_cases here : score a = s
      · have other : score b ≠ s := fun same => higher (by rw [same, here])
        rw [List.filter_cons_of_neg (by simpa using other), ih,
          List.filter_cons_of_pos (by simpa using here), List.filter_cons_of_pos (by simpa using here),
          List.filter_cons_of_neg (by simpa using other)]
      · rw [List.filter_cons_of_neg (a := a) (by simpa using here), List.filter_cons, List.filter_cons, ih,
          List.filter_cons_of_neg (by simpa using here)]

theorem filter_insertionSort : (l.insertionSort fun a b => score b ≤ score a).filter (score · = s) =
    l.filter (score · = s) := by
  induction l with
  | nil => rfl
  | cons a l ih => rw [List.insertionSort_cons, filter_orderedInsert, List.filter_cons, List.filter_cons, ih]

theorem pairwise_insertionSort (score : α → S) (l : List α) :
    (l.insertionSort fun a b => score b ≤ score a).Pairwise fun a b => score b ≤ score a := by
  have total : Std.Total fun a b : α => score b ≤ score a := ⟨fun a b => le_total _ _⟩
  have trans : IsTrans α fun a b => score b ≤ score a := ⟨fun a b c ab bc => bc.trans ab⟩
  exact List.pairwise_insertionSort _ l

theorem isHighest_highest (score : α → S) (n : Nat) (l : List α) : IsHighest score n l (highest score n l) := by
  have perm := List.perm_insertionSort (fun a b => score b ≤ score a) l
  have sorted := pairwise_insertionSort score l
  refine ⟨?_, ?_, ?_, ?_, fun s => ?_⟩
  · exact (List.take_sublist n _).subperm.trans perm.subperm
  · rw [highest, List.length_take, perm.length_eq]
  · exact sorted.sublist (List.take_sublist n _)
  · intro a mem b there missing
    have split := List.take_append_drop n (l.insertionSort fun a b => score b ≤ score a)
    rw [← split] at sorted
    have there := perm.mem_iff.mpr there
    rw [← split] at there
    rcases List.mem_append.mp there with first | rest
    · exact absurd first missing
    · exact (List.pairwise_append.mp sorted).2.2 a mem b rest
  · rw [← filter_insertionSort (l := l)]
    exact (List.take_prefix n _).filter _

variable {listed : List α}

theorem IsHighest.mem (isHighest : IsHighest score n l listed) (mem : a ∈ listed) : a ∈ l :=
  isHighest.members.subset mem

theorem IsHighest.eq_nil (isHighest : IsHighest score n l listed) (pos : 0 < n) : listed = [] ↔ l = [] := by
  rw [← List.length_eq_zero_iff, isHighest.length, ← List.length_eq_zero_iff]
  omega

theorem IsHighest.nodup (isHighest : IsHighest score n l listed) (nodup : l.Nodup) : listed.Nodup :=
  let ⟨_, perm, sub⟩ := isHighest.members
  perm.nodup_iff.mp (nodup.sublist sub)

end Highest
