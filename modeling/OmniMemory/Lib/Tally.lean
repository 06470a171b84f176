import OmniMemory.Lib.Leading
import OmniMemory.Lib.Pages
import Mathlib.Data.List.Count
import Mathlib.Data.List.Induction
import Mathlib.Data.List.Sort

/-! Counting how often the elements of a list occur. A tally has its elements in the order in which
they first occur, and sorting it by the counts keeps this order of elements that occur equally
often. -/

namespace Tally

variable {α : Type*} [DecidableEq α]

/-- A tally with one more of an element. -/
def increment (a : α) : List (α × Nat) → List (α × Nat)
  | [] => [(a, 1)]
  | (b, n) :: rest => if b = a then (b, n + 1) :: rest else (b, n) :: increment a rest

def tally (l : List α) : List (α × Nat) := l.foldl (fun counts a => increment a counts) []

/-- The elements of a tally by their counts, the highest first. -/
def mostCommon (l : List α) : List (α × Nat) := (tally l).insertionSort fun a b => b.2 ≤ a.2

/-- The most frequent element, and of several the one that occurs first. -/
def leader (l : List α) : Option α := (mostCommon l).head?.map Prod.fst

example : mostCommon ["b", "a", "c", "a", "c"] = [("a", 2), ("c", 2), ("b", 1)] := by decide

/-- The elements of a list, each where it first occurs. -/
def firsts (l : List α) : List α :=
  l.foldl (fun seen a => if a ∈ seen then seen else seen ++ [a]) []

variable {l : List α} {a b : α} {n : Nat}

/-! ### The elements -/

theorem firsts_concat : firsts (l ++ [a]) = if a ∈ firsts l then firsts l else firsts l ++ [a] := by
  rw [firsts, List.foldl_append]
  rfl

@[simp] theorem mem_firsts : a ∈ firsts l ↔ a ∈ l := by
  induction l using List.reverseRecOn with
  | nil => rfl
  | append_singleton l b ih =>
    rw [firsts_concat, List.mem_append, List.mem_singleton, ← ih]
    by_cases seen : b ∈ firsts l
    · rw [if_pos seen]
      exact ⟨.inl, fun mem => mem.elim id fun same => same ▸ seen⟩
    · rw [if_neg seen, List.mem_append, List.mem_singleton]

/-- The elements stand in the order in which they first occur. -/
theorem firsts_sorted : (firsts l).Pairwise fun a b => l.idxOf a < l.idxOf b := by
  induction l using List.reverseRecOn with
  | nil => exact .nil
  | append_singleton l b ih =>
    have earlier : (firsts l).Pairwise fun a c => (l ++ [b]).idxOf a < (l ++ [b]).idxOf c := by
      refine ih.imp_of_mem fun memA memC less => ?_
      rwa [List.idxOf_append_of_mem (mem_firsts.mp memA), List.idxOf_append_of_mem (mem_firsts.mp memC)]
    rw [firsts_concat]
    split
    · exact earlier
    · rename_i new
      refine List.pairwise_append.mpr ⟨earlier, List.pairwise_singleton _ _, fun a mem c last => ?_⟩
      obtain rfl := List.mem_singleton.mp last
      rw [List.idxOf_append_of_mem (mem_firsts.mp mem),
        List.idxOf_append_of_notMem fun here => new (mem_firsts.mpr here)]
      exact Nat.lt_add_right _ (List.idxOf_lt_length_iff.mpr (mem_firsts.mp mem))

theorem nodup_firsts : (firsts l).Nodup :=
  firsts_sorted.imp fun less same => by
    rw [same] at less
    exact Nat.lt_irrefl _ less

/-! ### The counts -/

theorem increment_map {elements : List α} (nodup : elements.Nodup) (count : α → Nat) :
    increment a (elements.map fun b => (b, count b)) =
      if a ∈ elements then elements.map fun b => (b, count b + if b = a then 1 else 0)
      else (elements.map fun b => (b, count b)) ++ [(a, 1)] := by
  induction elements with
  | nil => rfl
  | cons b rest ih =>
    obtain ⟨new, nodup⟩ := List.nodup_cons.mp nodup
    rw [List.map_cons, increment]
    by_cases here : b = a
    · subst here
      have same : rest.map (fun c => (c, count c)) =
          rest.map fun c => (c, count c + if c = b then 1 else 0) := by
        refine List.map_congr_left fun c mem => ?_
        have other : c ≠ b := fun same => new (same ▸ mem)
        rw [if_neg other, Nat.add_zero]
      simp only [if_true, List.mem_cons_self, List.map_cons, same]
    · rw [if_neg here, ih nodup]
      by_cases later : a ∈ rest
      · simp [later, here]
      · have other : a ∉ b :: rest := by
          simp only [List.mem_cons, not_or]
          exact ⟨fun same => here same.symm, later⟩
        rw [if_neg later, if_neg other, List.cons_append]

/-- Every element is counted as often as it occurs. -/
theorem tally_eq (l : List α) : tally l = (firsts l).map fun a => (a, l.count a) := by
  induction l using List.reverseRecOn with
  | nil => rfl
  | append_singleton l a ih =>
    rw [tally, List.foldl_append, List.foldl_cons, List.foldl_nil]
    change increment a (tally l) = _
    rw [ih, increment_map nodup_firsts, firsts_concat]
    by_cases seen : a ∈ firsts l
    · rw [if_pos seen, if_pos seen]
      refine List.map_congr_left fun b _ => ?_
      rw [List.count_append, List.count_singleton]
      rcases eq_or_ne b a with rfl | other
      · simp
      · simp [other, other.symm]
    · rw [if_neg seen, if_neg seen, List.map_append, List.map_singleton]
      have none : l.count a = 0 := List.count_eq_zero.mpr fun mem => seen (mem_firsts.mpr mem)
      congr 1
      · refine List.map_congr_left fun b mem => ?_
        have other : a ≠ b := fun same => seen (same ▸ mem)
        rw [List.count_append, List.count_singleton]
        simp [other]
      · simp [none]

theorem keys_tally (l : List α) : (tally l).map Prod.fst = firsts l := by
  rw [tally_eq, List.map_map]
  exact List.map_id _

theorem mem_tally : (a, n) ∈ tally l ↔ 0 < n ∧ n = l.count a := by
  rw [tally_eq, List.mem_map]
  constructor
  · rintro ⟨b, mem, same⟩
    obtain ⟨rfl, rfl⟩ := Prod.mk.inj same
    exact ⟨List.count_pos_iff.mpr (mem_firsts.mp mem), rfl⟩
  · rintro ⟨occurs, rfl⟩
    exact ⟨a, mem_firsts.mpr (List.count_pos_iff.mp occurs), rfl⟩

theorem sum_tally (l : List α) : ((tally l).map Prod.snd).sum = l.length := by
  have same : (firsts l).Perm l.dedup :=
    (List.perm_ext_iff_of_nodup nodup_firsts (List.nodup_dedup l)).mpr (by simp)
  rw [tally_eq, List.map_map]
  exact (same.map _).sum_eq.trans (List.sum_map_count_dedup_eq_length l)

/-! ### Sorting by the counts -/

/-- Sorting keeps the order of what may stand either way. -/
theorem insertionSort_stable {β : Type*} {r s : β → β → Prop} [DecidableRel r] [Std.Total r]
    [IsTrans β r] {l : List β} (sorted : l.Pairwise s) :
    (l.insertionSort r).Pairwise fun a b => r a b ∧ (r b a → s a b) := by
  induction l with
  | nil => exact .nil
  | cons a l ih =>
    obtain ⟨first, rest⟩ := List.pairwise_cons.mp sorted
    have before : ∀ b ∈ l.insertionSort r, s a b := fun b mem => first b ((List.mem_insertionSort r).mp mem)
    have sorted := ih rest
    rw [List.insertionSort_cons]
    generalize l.insertionSort r = listed at before sorted
    induction listed with
    | nil => exact List.pairwise_singleton _ _
    | cons b listed ih' =>
      obtain ⟨here, later⟩ := List.pairwise_cons.mp sorted
      obtain ⟨next, beyond⟩ := List.forall_mem_cons.mp before
      rw [List.orderedInsert]
      split
      · rename_i le
        refine List.pairwise_cons.mpr ⟨?_, sorted⟩
        refine List.forall_mem_cons.mpr ⟨⟨le, fun _ => next⟩, fun c mem => ?_⟩
        exact ⟨IsTrans.trans _ _ _ le (here c mem).1, fun _ => beyond c mem⟩
      · rename_i above
        refine List.pairwise_cons.mpr ⟨fun c mem => ?_, ih' beyond later⟩
        rcases (List.mem_orderedInsert r).mp mem with rfl | mem
        · exact ⟨(Std.Total.total (r := r) b c).resolve_right above, fun le => absurd le above⟩
        · exact here c mem

/-- `a` comes before `b`: it occurs more often, or as often and first. -/
def Before (l : List α) (a b : α) : Prop :=
  l.count b < l.count a ∨ l.count a = l.count b ∧ l.idxOf a < l.idxOf b

instance (l : List α) : DecidableRel (Before l) := fun _ _ => inferInstanceAs (Decidable (_ ∨ _))

theorem Before.asymm (before : Before l a b) : ¬ Before l b a := by
  unfold Before at *
  omega

/-- The elements by how often they occur, the most frequent first. -/
def ranked (l : List α) : List α := (mostCommon l).map Prod.fst

theorem mostCommon_eq (l : List α) : mostCommon l = (ranked l).map fun a => (a, l.count a) := by
  rw [ranked, List.map_map]
  refine (List.map_id _).symm.trans (List.map_congr_left fun entry mem => ?_)
  rw [mostCommon, List.mem_insertionSort, tally_eq] at mem
  obtain ⟨a, -, rfl⟩ := List.mem_map.mp mem
  rfl

theorem ranked_perm (l : List α) : (ranked l).Perm (firsts l) := by
  have perm := (List.perm_insertionSort (fun a b => b.2 ≤ a.2) (tally l)).map Prod.fst
  rwa [keys_tally] at perm

@[simp] theorem mem_ranked : a ∈ ranked l ↔ a ∈ l := (ranked_perm l).mem_iff.trans mem_firsts

theorem ranked_sorted : (ranked l).Pairwise (Before l) := by
  have sorted : (tally l).Pairwise fun a b => l.idxOf a.1 < l.idxOf b.1 := by
    rw [tally_eq, List.pairwise_map]
    exact firsts_sorted
  have stable := insertionSort_stable (r := fun a b : α × Nat => b.2 ≤ a.2) sorted
  rw [show (tally l).insertionSort (fun a b => b.2 ≤ a.2) = mostCommon l from rfl, mostCommon_eq,
    List.pairwise_map] at stable
  refine stable.imp ?_
  rintro a b ⟨le, first⟩
  rcases Nat.lt_or_eq_of_le le with less | same
  · exact .inl less
  · exact .inr ⟨same.symm, first same.ge⟩

theorem nodup_ranked : (ranked l).Nodup := (ranked_perm l).nodup_iff.mpr nodup_firsts

/-! ### The leader -/

theorem leader_eq (l : List α) : leader l = (ranked l).head? := by
  rw [leader, ranked, List.head?_map]

theorem leader_eq_none : leader l = none ↔ l = [] := by
  rw [leader_eq, List.head?_eq_none_iff, List.eq_nil_iff_forall_not_mem, List.eq_nil_iff_forall_not_mem]
  simp

theorem count_le_of_leader (leads : leader l = some a) (b : α) : l.count b ≤ l.count a := by
  rw [leader_eq, List.head?_eq_some_iff] at leads
  obtain ⟨rest, same⟩ := leads
  have sorted := ranked_sorted (l := l)
  by_cases mem : b ∈ l
  · rw [← mem_ranked, same] at mem
    rw [same] at sorted
    rcases List.mem_cons.mp mem with rfl | later
    · exact Nat.le_refl _
    · rcases (List.pairwise_cons.mp sorted).1 b later with less | ⟨equal, -⟩
      · exact Nat.le_of_lt less
      · exact Nat.le_of_eq equal.symm
  · rw [List.count_eq_zero.mpr mem]
    exact Nat.zero_le _

theorem mem_of_leader (leads : leader l = some a) : a ∈ l := by
  rw [leader_eq] at leads
  exact mem_ranked.mp (List.mem_of_head? leads)

/-! ### The most frequent elements -/

/-- Up to `n` elements that occur most often, the most frequent first. -/
abbrev MostFrequent (l : List α) (n : Nat) (top : List α) : Prop :=
  Pages.Largest (l.count ·) (· ∈ l) n top

theorem Before.count_le (before : Before l a b) : l.count b ≤ l.count a := by
  unfold Before at before
  omega

/-- What is kept of the ranked elements is ordered by how often it occurs. -/
theorem orders_ranked_filter (keep : α → Bool) :
    Pages.Orders ((l.filter keep).count ·) ((ranked l).filter keep) ((ranked l).filter keep) := by
  refine ⟨.refl _, (ranked_sorted.sublist List.filter_sublist).imp_of_mem fun memA memB before => ?_⟩
  rw [List.count_filter (List.mem_filter.mp memA).2, List.count_filter (List.mem_filter.mp memB).2]
  exact before.count_le

/-- The first elements are the most frequent ones of those that are kept exactly if they are kept. -/
theorem mostFrequent_take_iff {keep : α → Bool} :
    MostFrequent (l.filter keep) n ((ranked l).take n) ↔ ∀ a ∈ (ranked l).take n, keep a = true := by
  constructor
  · exact fun most a mem => (List.mem_filter.mp (most.among a mem)).2
  · intro kept
    have largest := (orders_ranked_filter (l := l) keep).largest (nodup_ranked.filter keep) n
    rw [Leading.take_filter_of_precedes (Leading.forall_mem_take_iff.mp kept)] at largest
    have same : (· ∈ (ranked l).filter keep) = (· ∈ l.filter keep) := by
      funext a
      simp
    rwa [same] at largest

/-- The first elements are the most frequent ones of those that are kept exactly if `n` of these come
before every one that is not. -/
theorem mostFrequent_iff {keep : α → Bool} :
    MostFrequent (l.filter keep) n ((ranked l).take n) ↔
      ∀ a ∈ l, keep a = false → n ≤ {b | b ∈ l.filter keep ∧ Before l b a}.encard := by
  rw [mostFrequent_take_iff, Leading.forall_mem_take_iff,
    Leading.precedes_iff_of_sorted (fun _ _ before => before.asymm) ranked_sorted]
  refine forall_congr' fun a => ?_
  rw [mem_ranked]
  refine imp_congr_right fun _ => imp_congr_right fun _ => ?_
  have count := Leading.countP_eq_encard nodup_ranked (l := ranked l)
    (p := fun b => keep b && decide (Before l b a))
  have same : {b | b ∈ ranked l ∧ (keep b && decide (Before l b a)) = true} =
      {b | b ∈ l.filter keep ∧ Before l b a} := by
    ext b
    simp only [Set.mem_ofPred_eq, mem_ranked, List.mem_filter, Bool.and_eq_true, decide_eq_true_eq]
    exact and_assoc.symm
  rw [← same, ← count]
  exact_mod_cast Iff.rfl

end Tally
