import OmniMemory.Lib.Pages
import Mathlib.Data.Set.Card

/-! The first of a list of ranked elements that stand for names, where a name may have several
elements of different ranks. Elements of equal rank are listed in any order. The first elements
are those of the best names exactly if enough names come before every second element of a name. -/

namespace Ranked

open Pages

variable {α ι : Type*} (name : α → ι) (rank : α → Nat)

/-- One of the orders in which `l` may be listed, the lowest rank first. -/
abbrev Listing (l listed : List α) : Prop := Orders (fun a => OrderDual.toDual (rank a)) l listed

/-- No element of the same name has a lower rank. -/
def Least (l : List α) (a : α) : Prop := ∀ b ∈ l, name b = name a → rank a ≤ rank b

/-- The elements are those of the best `n` names: one for each, with the least rank, and no name
that is left out is better. -/
structure Best (l : List α) (n : Nat) (top : List α) : Prop where
  once : (top.map name).Nodup
  least : ∀ a ∈ top, Least name rank l a
  length : top.length = n
  best : ∀ a ∈ top, ∀ b ∈ l, name b ∉ top.map name → rank a ≤ rank b

/-- The names of the elements, and of those below a rank. -/
def names (l : List α) : Set ι := {i | ∃ b ∈ l, name b = i}

def namesBelow (l : List α) (r : Nat) : Set ι := {i | ∃ b ∈ l, name b = i ∧ rank b < r}

variable {name rank} {l listed front back top : List α} {a b : α} {k : Nat}

theorem exists_listing (rank : α → Nat) (l : List α) : ∃ listed, Listing rank l listed :=
  ⟨_, orders_insertionSort _ l⟩

theorem rank_le_of_mem (listing : Listing rank l (front ++ back)) (first : a ∈ front)
    (later : b ∈ back) : rank a ≤ rank b :=
  (List.pairwise_append.mp listing.sorted).2.2 a first b later

/-- The elements of a lower rank come before one of the first elements. -/
theorem countP_lt_of_mem_take (listing : Listing rank l listed) (mem : a ∈ listed.take k) :
    l.countP (rank · < rank a) < k := by
  obtain ⟨front, back, split⟩ := List.append_of_mem mem
  have whole : listed = front ++ a :: (back ++ listed.drop k) := by
    conv_lhs => rw [← List.take_append_drop k listed, split]
    simp
  have later : ∀ b ∈ a :: (back ++ listed.drop k), ¬ rank b < rank a := by
    rw [whole] at listing
    refine List.forall_mem_cons.mpr ⟨lt_irrefl _, fun b mem => not_lt_of_ge ?_⟩
    exact (List.pairwise_cons.mp (List.pairwise_append.mp listing.sorted).2.1).1 b mem
  have none : (a :: (back ++ listed.drop k)).countP (rank · < rank a) = 0 :=
    List.countP_eq_zero.mpr fun b mem => by simpa using later b mem
  have lengths := congrArg List.length split
  have le := List.length_take_le k listed
  rw [List.length_append, List.length_cons] at lengths
  rw [← listing.perm.countP_eq, whole, List.countP_append, none, Nat.add_zero]
  have := List.countP_le_length (l := front) (p := (rank · < rank a))
  omega

/-- An element can be listed first of those with its rank. -/
theorem exists_listing_first (rank : α → Nat) (mem : a ∈ l) :
    ∃ front back, Listing rank l (front ++ a :: back) ∧
      front.length = l.countP (rank · < rank a) := by
  obtain ⟨before, after, rfl⟩ := List.append_of_mem mem
  let rest := before ++ after
  have whole : (before ++ a :: after).Perm (a :: rest) := List.perm_middle
  obtain ⟨low, lows⟩ := exists_listing rank (rest.filter (rank · < rank a))
  obtain ⟨high, highs⟩ := exists_listing rank (rest.filter fun x => !decide (rank x < rank a))
  have small : ∀ x ∈ low, rank x < rank a := fun x mem => by
    simpa using (List.mem_filter.mp (lows.perm.mem_iff.mp mem)).2
  have large : ∀ x ∈ high, rank a ≤ rank x := fun x mem => by
    simpa using (List.mem_filter.mp (highs.perm.mem_iff.mp mem)).2
  refine ⟨low, high, ⟨?_, ?_⟩, ?_⟩
  · have parts := (lows.perm.append highs.perm).trans (List.filter_append_perm _ rest)
    exact (List.perm_middle.trans (parts.cons a)).trans whole.symm
  · refine List.pairwise_append.mpr ⟨lows.sorted, ?_, fun x before y mem => ?_⟩
    · exact List.pairwise_cons.mpr ⟨large, highs.sorted⟩
    · rcases List.mem_cons.mp mem with rfl | later
      · exact (small x before).le
      · exact (small x before).le.trans (large y later)
  · rw [lows.perm.length_eq, ← List.countP_eq_length_filter, whole.countP_eq, List.countP_cons]
    simp

/-- What is kept of the first elements are the first of what is kept, when nothing is kept after an
element that is not. -/
theorem filter_take {keep : α → Bool}
    (sorted : listed.Pairwise fun a b => keep b = true → keep a = true) (k : Nat) :
    (listed.take k).filter keep = (listed.filter keep).take k := by
  induction listed generalizing k with
  | nil => simp
  | cons a listed ih =>
    obtain ⟨first, rest⟩ := List.pairwise_cons.mp sorted
    cases k with
    | zero => rfl
    | succ k =>
      rw [List.take_succ_cons, List.filter_cons, List.filter_cons]
      cases kept : keep a with
      | true => rw [if_pos rfl, if_pos rfl, ih rest, List.take_succ_cons]
      | false =>
        have none : listed.filter keep = [] := List.filter_eq_nil_iff.mpr fun b mem keeps =>
          Bool.false_ne_true (kept.symm.trans (first b mem keeps))
        rw [if_neg Bool.false_ne_true, if_neg Bool.false_ne_true, ih rest, none, List.take_nil,
          List.take_nil]

/-! ### Counting names -/

section Count

variable {r : Nat}

theorem names_eq_toFinset [DecidableEq ι] : names name l = ((l.map name).toFinset : Set ι) := by
  ext i
  simp [names]

theorem encard_names_le (name : α → ι) (l : List α) : (names name l).encard ≤ l.length := by
  classical
  rw [names_eq_toFinset, Set.encard_coe_eq_coe_finsetCard]
  exact_mod_cast (List.toFinset_card_le (l.map name)).trans_eq (List.length_map name)

theorem encard_names_of_nodup (nodup : (l.map name).Nodup) :
    (names name l).encard = l.length := by
  classical
  rw [names_eq_toFinset, Set.encard_coe_eq_coe_finsetCard, List.toFinset_card_of_nodup nodup,
    List.length_map]

theorem namesBelow_eq : namesBelow name rank l r = names name (l.filter (rank · < r)) := by
  ext i
  simp only [namesBelow, names, List.mem_filter, decide_eq_true_eq, Set.mem_ofPred_eq]
  exact exists_congr fun b => by tauto

theorem namesBelow_subset : namesBelow name rank l r ⊆ names name l := by
  rintro i ⟨b, mem, same, -⟩
  exact ⟨b, mem, same⟩

theorem namesBelow_mono {r' : Nat} (le : r ≤ r') :
    namesBelow name rank l r ⊆ namesBelow name rank l r' := by
  rintro i ⟨b, mem, same, less⟩
  exact ⟨b, mem, same, less.trans_le le⟩

theorem encard_namesBelow_le : (namesBelow name rank l r).encard ≤ l.countP (rank · < r) := by
  rw [namesBelow_eq, List.countP_eq_length_filter]
  exact encard_names_le name _

end Count

/-! ### The best names -/

section Names

variable {limit bound n : Nat}

/-- Elements of least rank stand for different names. -/
theorem nodup_of_least {some : List α} (sub : some ⊆ l) (distinct : some.Nodup)
    (inj : ∀ a ∈ l, ∀ b ∈ l, name a = name b → rank a = rank b → a = b)
    (least : ∀ a ∈ some, Least name rank l a) : (some.map name).Nodup := by
  refine List.Nodup.map_on (fun a memA b memB same => ?_) distinct
  have le := least a memA b (sub memB) same.symm
  have ge := least b memB a (sub memA) same
  exact inj a (sub memA) b (sub memB) same (Nat.le_antisymm le ge)

/-- Of `n` names, the first elements up to `limit` and `bound` are the best up to `limit`. -/
theorem best_take (nodup : l.Nodup)
    (inj : ∀ a ∈ l, ∀ b ∈ l, name a = name b → rank a = rank b → a = b)
    (count : (names name l).encard = n) (room : min limit n ≤ bound)
    (enough : ∀ a ∈ l, ¬ Least name rank l a →
      (min bound limit : Nat) ≤ (namesBelow name rank l (rank a)).encard)
    (listing : Listing rank l listed) :
    Best name rank l (min limit n) (listed.take (min bound limit)) := by
  have sub : listed.take (min bound limit) ⊆ l := fun a mem =>
    listing.perm.mem_iff.mp (List.mem_of_mem_take mem)
  have distinct : (listed.take (min bound limit)).Nodup :=
    (listing.perm.nodup_iff.mpr nodup).sublist (List.take_sublist _ _)
  have least : ∀ a ∈ listed.take (min bound limit), Least name rank l a := by
    intro a mem
    by_contra second
    have many := (enough a (sub mem) second).trans encard_namesBelow_le
    have few := countP_lt_of_mem_take listing mem
    have many : min bound limit ≤ l.countP (rank · < rank a) := by exact_mod_cast many
    omega
  have size : n ≤ l.length := by
    have le := encard_names_le name l
    rw [count] at le
    exact_mod_cast le
  refine ⟨nodup_of_least sub distinct inj least, least, ?_, fun a mem b here absent => ?_⟩
  · rw [List.length_take, listing.perm.length_eq]
    by_cases all : ∀ a ∈ l, Least name rank l a
    · have exact_ := encard_names_of_nodup (nodup_of_least (List.Subset.refl l) nodup inj all)
      rw [count] at exact_
      have exact_ : n = l.length := by exact_mod_cast exact_
      omega
    · push Not at all
      obtain ⟨a, mem, second⟩ := all
      have le := (enough a mem second).trans (Set.encard_le_encard namesBelow_subset)
      rw [count] at le
      have le : min bound limit ≤ n := by exact_mod_cast le
      omega
  · have later : b ∈ listed.drop (min bound limit) := by
      have mem' := listing.perm.mem_iff.mpr here
      rw [← List.take_append_drop (min bound limit) listed] at mem'
      refine (List.mem_append.mp mem').resolve_left fun first => absent ?_
      exact List.mem_map_of_mem first
    have split := List.take_append_drop (min bound limit) listed
    exact rank_le_of_mem (split.symm ▸ listing) mem later

/-- If the first elements are the best in every order, then enough names come before every second
element of a name. -/
theorem le_encard_of_best (nodup : l.Nodup)
    (inj : ∀ a ∈ l, ∀ b ∈ l, name a = name b → rank a = rank b → a = b)
    (least : ∀ listed, Listing rank l listed → ∀ a ∈ listed.take k, Least name rank l a)
    (mem : a ∈ l) (second : ¬ Least name rank l a) :
    (k : ℕ∞) ≤ (namesBelow name rank l (rank a)).encard := by
  induction same : rank a using Nat.strong_induction_on generalizing a with
  | _ r ih =>
    subst same
    by_contra few
    -- Below `a` every element is the least of its name, or else few come before that one.
    have below : ∀ b ∈ l.filter (rank · < rank a), Least name rank l b := by
      intro b memB
      obtain ⟨here, less⟩ := List.mem_filter.mp memB
      replace less : rank b < rank a := by simpa using less
      by_contra second'
      exact few ((ih _ less here second' rfl).trans
        (Set.encard_le_encard (namesBelow_mono less.le)))
    have distinct := nodup_of_least (List.filter_subset_self _) (nodup.filter _) inj below
    rw [namesBelow_eq, encard_names_of_nodup distinct, ← List.countP_eq_length_filter] at few
    have few : l.countP (rank · < rank a) < k := by exact_mod_cast not_le.mp few
    obtain ⟨front, back, listing, length⟩ := exists_listing_first rank mem
    refine second (least _ listing a ?_)
    rw [List.take_append, List.mem_append]
    obtain ⟨j, room⟩ : ∃ j, k - front.length = j + 1 := ⟨k - front.length - 1, by omega⟩
    rw [room, List.take_succ_cons]
    exact .inr List.mem_cons_self

end Names

end Ranked
