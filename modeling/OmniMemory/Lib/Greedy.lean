import Mathlib.Data.List.Basic
import Mathlib.Data.List.Pairwise

/-! A greedy choice: each element of a list is kept that clashes with none kept before it. The rounds
of the choice are the elements kept, each with those that it is the first to strike out. -/

namespace Greedy

variable {α : Type} (clash : α → α → Bool)

def keep (kept : List α) : List α → List α
  | [] => kept
  | a :: rest => if kept.any (clash a) then keep kept rest else keep (kept ++ [a]) rest

/-- The rounds after one more element, which is struck out by the first that it clashes with. -/
def place (a : α) : List (α × List α) → List (α × List α)
  | [] => [(a, [])]
  | (k, struck) :: rest =>
    if clash a k then (k, struck ++ [a]) :: rest else (k, struck) :: place a rest

def rounds (l : List α) : List (α × List α) := l.foldl (fun rounds a => place clash a rounds) []

/-- What is struck out in a round clashes with the element kept in it and with none before. -/
structure Proper (rounds : List (α × List α)) : Prop where
  clashes : ∀ round ∈ rounds, ∀ a ∈ round.2, clash a round.1 = true
  apart : rounds.Pairwise fun round later => ∀ a ∈ later.1 :: later.2, clash a round.1 = false

variable {clash} {kept l : List α} {a b : α} {rs : List (α × List α)}

theorem place_fst : (place clash a rs).map Prod.fst =
    if (rs.map Prod.fst).any (clash a) then rs.map Prod.fst else rs.map Prod.fst ++ [a] := by
  induction rs with
  | nil => rfl
  | cons r rs ih =>
    rw [place]
    split
    · rename_i clashes
      simp [clashes]
    · rename_i apart
      rw [List.map_cons, ih, List.map_cons, List.any_cons, eq_false_of_ne_true apart,
        Bool.false_or]
      split <;> rfl

/-- What is kept are the first elements of the rounds. -/
theorem keep_eq (l : List α) : keep clash [] l = (rounds clash l).map Prod.fst := by
  have from_rounds (l : List α) (rs : List (α × List α)) : keep clash (rs.map Prod.fst) l =
      (l.foldl (fun rounds a => place clash a rounds) rs).map Prod.fst := by
    induction l generalizing rs with
    | nil => rfl
    | cons a l ih =>
      rw [List.foldl_cons, ← ih, place_fst, keep]
      split <;> rfl
  exact from_rounds l []

theorem mem_place : (∃ r ∈ place clash a rs, b = r.1 ∨ b ∈ r.2) ↔
    b = a ∨ ∃ r ∈ rs, b = r.1 ∨ b ∈ r.2 := by
  induction rs with
  | nil => simp [place]
  | cons r rs ih =>
    rw [place]
    split
    · simp only [List.mem_cons, exists_eq_or_imp, List.mem_append, List.not_mem_nil, or_false]
      rw [← or_assoc (a := b = r.1), or_comm (b := b = a), or_assoc]
    · simp only [List.mem_cons, exists_eq_or_imp, ih]
      exact or_left_comm

/-- Every element is kept or struck out. -/
theorem mem_rounds (l : List α) : (∃ r ∈ rounds clash l, b = r.1 ∨ b ∈ r.2) ↔ b ∈ l := by
  have from_rounds (rs : List (α × List α)) :
      (∃ r ∈ l.foldl (fun rounds a => place clash a rounds) rs, b = r.1 ∨ b ∈ r.2) ↔
        b ∈ l ∨ ∃ r ∈ rs, b = r.1 ∨ b ∈ r.2 := by
    induction l generalizing rs with
    | nil => simp
    | cons a l ih =>
      rw [List.foldl_cons, ih, mem_place, List.mem_cons, or_left_comm, or_assoc]
  rw [rounds, from_rounds]
  simp

/-- A place is found in an earlier round that it does not clash with, or is that of a new element. -/
theorem mem_place_round {r : α × List α} (mem : r ∈ place clash a rs) :
    r = (a, []) ∨ r ∈ rs ∨ ∃ s ∈ rs, clash a s.1 = true ∧ r = (s.1, s.2 ++ [a]) := by
  induction rs with
  | nil => exact .inl (List.mem_singleton.mp mem)
  | cons s rs ih =>
    rw [place] at mem
    split at mem
    · rename_i clashes
      rcases List.mem_cons.mp mem with rfl | mem
      · exact .inr (.inr ⟨s, by simp, clashes, rfl⟩)
      · exact .inr (.inl (by simp [mem]))
    · rcases List.mem_cons.mp mem with rfl | mem
      · exact .inr (.inl (by simp))
      · rcases ih mem with new | old | ⟨t, old, clashes, rfl⟩
        · exact .inl new
        · exact .inr (.inl (by simp [old]))
        · exact .inr (.inr ⟨t, by simp [old], clashes, rfl⟩)

theorem Proper.place (proper : Proper clash rs) (a : α) : Proper clash (place clash a rs) where
  clashes r mem b struck := by
    rcases mem_place_round mem with rfl | old | ⟨s, old, clashes, rfl⟩
    · exact absurd struck (by simp)
    · exact proper.clashes r old b struck
    · rcases List.mem_append.mp struck with struck | new
      · exact proper.clashes s old b struck
      · obtain rfl := List.mem_singleton.mp new
        exact clashes
  apart := by
    have pairs := proper.apart
    clear proper
    induction rs with
    | nil => exact List.pairwise_singleton _ _
    | cons r rs ih =>
      obtain ⟨first, rest⟩ := List.pairwise_cons.mp pairs
      rw [Greedy.place]
      split
      · exact List.pairwise_cons.mpr ⟨first, rest⟩
      · rename_i apart
        refine List.pairwise_cons.mpr ⟨fun s mem b member => ?_, ih rest⟩
        have parts : ∃ s ∈ Greedy.place clash a rs, b = s.1 ∨ b ∈ s.2 :=
          ⟨s, mem, List.mem_cons.mp member⟩
        rcases mem_place.mp parts with rfl | ⟨s, old, member⟩
        · exact eq_false_of_ne_true apart
        · exact first s old b (List.mem_cons.mpr member)

theorem proper_rounds (l : List α) : Proper clash (rounds clash l) := by
  have from_rounds (rs : List (α × List α)) (proper : Proper clash rs) :
      Proper clash (l.foldl (fun rounds a => Greedy.place clash a rounds) rs) := by
    induction l generalizing rs with
    | nil => exact proper
    | cons a l ih => exact ih _ (proper.place a)
  exact from_rounds [] ⟨by simp, .nil⟩

theorem keep_pairwise (l : List α) :
    (keep clash [] l).Pairwise fun a b => clash b a = false := by
  rw [keep_eq, List.pairwise_map]
  exact (proper_rounds l).apart.imp fun apart => apart _ (by simp)

theorem mem_of_keep (mem : a ∈ keep clash [] l) : a ∈ l := by
  rw [keep_eq] at mem
  obtain ⟨r, round, rfl⟩ := List.mem_map.mp mem
  exact (mem_rounds l).mp ⟨r, round, .inl rfl⟩

theorem keep_eq_nil : keep clash [] l = [] ↔ l = [] := by
  constructor
  · intro nothing
    refine List.eq_nil_iff_forall_not_mem.mpr fun a mem => ?_
    obtain ⟨r, round, -⟩ : ∃ r ∈ rounds clash l, a = r.1 ∨ a ∈ r.2 := (mem_rounds l).mpr mem
    rw [keep_eq, List.map_eq_nil_iff] at nothing
    simp [nothing] at round
  · rintro rfl
    rfl

/-- What is struck out comes after what is kept in its round. -/
theorem ordered_rounds {R : α → α → Prop} (ordered : l.Pairwise R) :
    ∀ r ∈ rounds clash l, ∀ a ∈ r.2, R r.1 a := by
  have from_rounds (rs : List (α × List α)) (before : ∀ r ∈ rs, ∀ a ∈ l, R r.1 a)
      (struck : ∀ r ∈ rs, ∀ a ∈ r.2, R r.1 a) :
      ∀ r ∈ l.foldl (fun rounds a => place clash a rounds) rs, ∀ a ∈ r.2, R r.1 a := by
    induction l generalizing rs with
    | nil => exact struck
    | cons b l ih =>
      obtain ⟨first, rest⟩ := List.pairwise_cons.mp ordered
      refine ih rest _ (fun r mem a later => ?_) fun r mem a out => ?_
      · rcases mem_place_round mem with rfl | old | ⟨s, old, -, rfl⟩
        · exact first a later
        · exact before r old a (List.mem_cons_of_mem _ later)
        · exact before s old a (List.mem_cons_of_mem _ later)
      · rcases mem_place_round mem with rfl | old | ⟨s, old, -, rfl⟩
        · exact absurd out (by simp)
        · exact struck r old a out
        · rcases List.mem_append.mp out with out | new
          · exact struck s old a out
          · rw [List.mem_singleton.mp new]
            exact before s old b (by simp)
  exact from_rounds [] (by simp) (by simp)

/-- An element is kept, or clashes with one that is kept and comes before it. -/
theorem exists_keep {R : α → α → Prop} (ordered : l.Pairwise R) (mem : a ∈ l) :
    a ∈ keep clash [] l ∨ ∃ k ∈ keep clash [] l, clash a k = true ∧ R k a := by
  obtain ⟨r, round, member⟩ : ∃ r ∈ rounds clash l, a = r.1 ∨ a ∈ r.2 := (mem_rounds l).mpr mem
  have kept : r.1 ∈ keep clash [] l := by
    rw [keep_eq]
    exact List.mem_map_of_mem round
  rcases member with rfl | struck
  · exact .inl kept
  · refine .inr ⟨r.1, kept, ?_, ?_⟩
    · exact (proper_rounds l).clashes r round a struck
    · exact ordered_rounds ordered r round a struck

section Better

variable (better : α → α → Prop)

variable (clash) in
/-- What is struck out in a round is not better than what is kept in it, or than what is kept in a
later one that it clashes with as well. -/
def Fair : List (α × List α) → Prop
  | [] => True
  | (k, struck) :: rest =>
    (∀ a ∈ struck, better k a ∨ ∃ r ∈ rest, clash a r.1 = true ∧ better r.1 a) ∧ Fair rest

variable {better}

/-- An element is kept, or clashes with one that is kept and better. -/
def Outdone (clash : α → α → Bool) (better : α → α → Prop) (ks : List α) (a : α) : Prop :=
  a ∈ ks ∨ ∃ k ∈ ks, clash a k = true ∧ better k a

theorem Proper.tail {r : α × List α} (proper : Proper clash (r :: rs)) : Proper clash rs :=
  ⟨fun s mem => proper.clashes s (List.mem_cons_of_mem _ mem), (List.pairwise_cons.mp proper.apart).2⟩

/-- An element of a later round is outdone as it is among the later rounds. -/
theorem Proper.outdone_tail (symm : ∀ a b, clash a b = clash b a) {r s : α × List α}
    (proper : Proper clash (r :: rs)) (mem : s ∈ rs) (member : a = s.1 ∨ a ∈ s.2) :
    Outdone clash better ((r :: rs).map Prod.fst) a ↔
      Outdone clash better (rs.map Prod.fst) a := by
  have later := (List.pairwise_cons.mp proper.apart).1
  have apart : clash a r.1 = false := later s mem a (List.mem_cons.mpr member)
  constructor
  · rintro (kept | ⟨k, kept, clashes, more⟩)
    · rcases List.mem_cons.mp kept with rfl | kept
      · rcases member with same | struck
        · exact .inl (List.mem_map.mpr ⟨s, mem, same.symm⟩)
        · have clashes := proper.tail.clashes s mem _ struck
          rw [symm, later s mem s.1 (by simp)] at clashes
          exact absurd clashes (by simp)
      · exact .inl kept
    · rcases List.mem_cons.mp kept with rfl | kept
      · exact absurd clashes (by simp [apart])
      · exact .inr ⟨k, kept, clashes, more⟩
  · rintro (kept | ⟨k, kept, clashes, more⟩)
    · exact .inl (List.mem_cons_of_mem _ kept)
    · exact .inr ⟨k, List.mem_cons_of_mem _ kept, clashes, more⟩

/-- An element struck out in the first round is outdone in it or in a later one. -/
theorem Proper.outdone_head (refl : ∀ a, better a a) {r : α × List α}
    (proper : Proper clash (r :: rs)) (struck : a ∈ r.2) :
    Outdone clash better ((r :: rs).map Prod.fst) a ↔
      better r.1 a ∨ ∃ s ∈ rs, clash a s.1 = true ∧ better s.1 a := by
  have later := (List.pairwise_cons.mp proper.apart).1
  have clashes := proper.clashes r (by simp) a struck
  constructor
  · rintro (kept | ⟨k, kept, clash, more⟩)
    · rcases List.mem_cons.mp kept with rfl | kept
      · exact .inl (refl _)
      · obtain ⟨s, mem, rfl⟩ := List.mem_map.mp kept
        exact absurd clashes (by simp [later s mem s.1 (by simp)])
    · rcases List.mem_cons.mp kept with rfl | kept
      · exact .inl more
      · obtain ⟨s, mem, rfl⟩ := List.mem_map.mp kept
        exact .inr ⟨s, mem, clash, more⟩
  · rintro (more | ⟨s, mem, clash, more⟩)
    · exact .inr ⟨r.1, by simp, clashes, more⟩
    · exact .inr ⟨s.1, List.mem_cons_of_mem _ (List.mem_map_of_mem mem), clash, more⟩

theorem Proper.outdone_iff (symm : ∀ a b, clash a b = clash b a) (refl : ∀ a, better a a)
    (proper : Proper clash rs) :
    (∀ a, (∃ r ∈ rs, a = r.1 ∨ a ∈ r.2) → Outdone clash better (rs.map Prod.fst) a) ↔
      Fair clash better rs := by
  induction rs with
  | nil => simp [Fair]
  | cons r rs ih =>
    rw [Fair, ← ih proper.tail]
    constructor
    · intro outdone
      refine ⟨fun a struck => ?_, fun a ⟨s, mem, member⟩ => ?_⟩
      · exact (proper.outdone_head refl struck).mp (outdone a ⟨r, by simp, .inr struck⟩)
      · exact (proper.outdone_tail symm mem member).mp (outdone a ⟨s, by simp [mem], member⟩)
    · rintro ⟨head, tail⟩ a ⟨s, mem, member⟩
      rcases List.mem_cons.mp mem with rfl | mem
      · rcases member with rfl | struck
        · exact .inl (by simp)
        · exact (proper.outdone_head refl struck).mpr (head a struck)
      · exact (proper.outdone_tail symm mem member).mpr (tail a ⟨s, mem, member⟩)

/-- Everything is kept or outdone exactly when the rounds are fair. -/
theorem outdone_iff_fair (symm : ∀ a b, clash a b = clash b a) (refl : ∀ a, better a a)
    (l : List α) :
    (∀ a ∈ l, Outdone clash better (keep clash [] l) a) ↔
      Fair clash better (rounds clash l) := by
  rw [keep_eq, ← (proper_rounds l).outdone_iff symm refl]
  exact forall_congr' fun a => imp_congr_left (mem_rounds l).symm

end Better

end Greedy
