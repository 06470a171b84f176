import Mathlib.Data.List.Sort

/-! Pages of a list whose elements are ordered by a key, the largest first. Elements of equal keys
are listed in any order, anew for each page. The pages fit together exactly if no elements of equal
keys lie on both sides of a border between two pages. -/

namespace Pages

variable {α β : Type*} [LinearOrder β] (key : α → β)

/-- One of the orders in which `l` may be listed. -/
structure Orders (l listed : List α) : Prop where
  perm : listed.Perm l
  sorted : listed.Pairwise fun a b => key b ≤ key a

/-- The page of `k` elements that follows `i` pages. -/
def page (k i : Nat) (l : List α) : List α := (l.drop (i * k)).take k

/-- The border after `b` elements lies between two elements of different keys. -/
def Separates (l : List α) (b : Nat) : Prop :=
  ∀ a ∈ l, l.countP (key a < key ·) < b → l.countP (key a ≤ key ·) ≤ b

variable {key} {l listed listed' front back : List α} {a c : α}

theorem take_page (k i : Nat) (l : List α) :
    l.take ((i + 1) * k) = l.take (i * k) ++ page k i l := by
  rw [page, Nat.add_one_mul, List.take_add]

theorem orders_insertionSort (key : α → β) (l : List α) :
    Orders key l (l.insertionSort fun a b => key b ≤ key a) := by
  have total : Std.Total fun a b => key b ≤ key a := ⟨fun a b => le_total (key b) (key a)⟩
  have trans : IsTrans α fun a b => key b ≤ key a := ⟨fun _ _ _ first second => second.trans first⟩
  exact ⟨List.perm_insertionSort _ l, List.pairwise_insertionSort _ l⟩

/-- What is ordered by a key is ordered by another one that is larger for larger keys. -/
theorem Orders.of_key {γ : Type*} [LinearOrder γ] {key' : α → γ} (orders : Orders key l listed)
    (mono : ∀ a ∈ l, ∀ b ∈ l, key a ≤ key b → key' a ≤ key' b) : Orders key' l listed := by
  refine ⟨orders.perm, orders.sorted.imp_of_mem fun memA memB le => ?_⟩
  exact mono _ (orders.perm.mem_iff.mp memB) _ (orders.perm.mem_iff.mp memA) le

/-- An order of what stands for elements, which can be read back, stands for an order of these. -/
theorem Orders.decode {γ δ : Type*} [LinearOrder δ] {key' : γ → δ} {listing : List γ} {f : α → γ}
    {g : γ → Option α} (inverse : ∀ a ∈ l, g (f a) = some a) (orders : Orders key' (l.map f) listing) :
    ∃ listed, listing = listed.map f ∧ Orders (fun a => key' (f a)) l listed := by
  have read : ∀ x ∈ listing, (g x).map f = some x := by
    intro x mem
    obtain ⟨a, here, rfl⟩ := List.mem_map.mp (orders.perm.mem_iff.mp mem)
    rw [inverse a here, Option.map_some]
  have whole : listing = (listing.filterMap g).map f := by
    rw [List.map_filterMap, List.filterMap_congr read, List.filterMap_some]
  have perm : (listing.filterMap g).Perm l := by
    have perm := orders.perm.filterMap g
    have all : l.filterMap (g ∘ f) = l := (List.filterMap_congr inverse).trans List.filterMap_some
    rwa [List.filterMap_map, all] at perm
  have sorted := orders.sorted
  rw [whole, List.pairwise_map] at sorted
  exact ⟨_, whole, perm, sorted⟩

/-! ### The largest elements -/

/-- The first element of an order has the largest key. -/
theorem Orders.of_head? (orders : Orders key l listed) (first : listed.head? = some a) :
    a ∈ l ∧ ∀ b ∈ l, key b ≤ key a := by
  obtain ⟨rest, rfl⟩ := List.head?_eq_some_iff.mp first
  refine ⟨orders.perm.mem_iff.mp List.mem_cons_self, fun b mem => ?_⟩
  rcases List.mem_cons.mp (orders.perm.mem_iff.mpr mem) with rfl | later
  · exact le_rfl
  · exact (List.pairwise_cons.mp orders.sorted).1 b later

/-- Up to `n` of the chosen elements, with the largest keys, the largest first. -/
structure Largest (key : α → β) (chosen : α → Prop) (n : Nat) (top : List α) : Prop where
  nodup : top.Nodup
  among : ∀ a ∈ top, chosen a
  sorted : top.Pairwise fun a b => key b ≤ key a
  length : top.length ≤ n
  most : ∀ a, chosen a → a ∉ top → top.length = n ∧ ∀ b ∈ top, key a ≤ key b

/-- The first elements of an order are the largest. -/
theorem Orders.largest (orders : Orders key l listed) (nodup : l.Nodup) (n : Nat) :
    Largest key (· ∈ l) n (listed.take n) := by
  have distinct := orders.perm.nodup_iff.mpr nodup
  refine ⟨distinct.sublist (List.take_sublist _ _), fun a mem => ?_,
    orders.sorted.sublist (List.take_sublist _ _), List.length_take_le _ _, fun a mem absent => ?_⟩
  · exact orders.perm.mem_iff.mp (List.mem_of_mem_take mem)
  · have mem := orders.perm.mem_iff.mpr mem
    have sorted := orders.sorted
    rw [← List.take_append_drop n listed] at mem sorted
    have later := (List.mem_append.mp mem).resolve_left absent
    have some := List.length_pos_of_mem later
    rw [List.length_drop] at some
    refine ⟨by rw [List.length_take]; omega, fun b first => ?_⟩
    exact (List.pairwise_append.mp sorted).2.2 b first a later

/-! ### Borders that separate -/

/-- At a border that separates, every key before it is larger than every key after it. -/
theorem Separates.lt (separates : Separates key l front.length)
    (orders : Orders key l (front ++ back)) (before : a ∈ front) (after : c ∈ back) :
    key c < key a := by
  by_contra tie
  have least : ∀ x ∈ front, key a ≤ key x := by
    intro x mem
    have sorted := (List.pairwise_append.mp orders.sorted).2.2 x mem c after
    exact (le_of_not_gt tie).trans sorted
  have most : ∀ x ∈ back, ¬ key a < key x := fun x mem =>
    not_lt_of_ge ((List.pairwise_append.mp orders.sorted).2.2 a before x mem)
  have larger : l.countP (key a < key ·) < front.length := by
    have none : back.countP (key a < key ·) = 0 :=
      List.countP_eq_zero.mpr fun x mem => by simpa using most x mem
    rw [← orders.perm.countP_eq, List.countP_append, none, Nat.add_zero]
    refine lt_of_le_of_ne List.countP_le_length fun all => ?_
    simpa using List.countP_eq_length.mp all a before
  have within := separates a (orders.perm.mem_iff.mp (List.mem_append_left _ before)) larger
  have one : 0 < back.countP (key a ≤ key ·) :=
    List.countP_pos_iff.mpr ⟨c, after, by simpa using le_of_not_gt tie⟩
  have all : front.countP (key a ≤ key ·) = front.length :=
    List.countP_eq_length.mpr fun x mem => by simpa using least x mem
  rw [← orders.perm.countP_eq, List.countP_append, all] at within
  omega

/-- What lies before a border that separates does not depend on the order: it is the elements than
which few are larger. -/
theorem Separates.take_eq_filter {b : Nat} (separates : Separates key l b)
    (orders : Orders key l listed) :
    listed.take b = listed.filter fun x => l.countP (key x ≤ key ·) ≤ b := by
  rcases Nat.lt_or_ge b listed.length with inside | outside
  · have length : (listed.take b).length = b := List.length_take_of_le inside.le
    have split := List.take_append_drop b listed
    have lt : ∀ x ∈ listed.take b, ∀ y ∈ listed.drop b, key y < key x := fun x before y after =>
      Separates.lt (length.symm ▸ separates) (split.symm ▸ orders) before after
    have counts : ∀ x, l.countP (key x ≤ key ·) =
        (listed.take b).countP (key x ≤ key ·) + (listed.drop b).countP (key x ≤ key ·) := by
      intro x
      rw [← List.countP_append, split, orders.perm.countP_eq]
    have front : ∀ x ∈ listed.take b, l.countP (key x ≤ key ·) ≤ b := by
      intro x before
      have none : (listed.drop b).countP (key x ≤ key ·) = 0 :=
        List.countP_eq_zero.mpr fun y after => by simpa using lt x before y after
      have most := List.countP_le_length (l := listed.take b) (p := fun y => key x ≤ key y)
      rw [counts, none]
      omega
    have back : ∀ x ∈ listed.drop b, ¬ l.countP (key x ≤ key ·) ≤ b := by
      intro x after
      have all : (listed.take b).countP (key x ≤ key ·) = (listed.take b).length :=
        List.countP_eq_length.mpr fun y before => by simpa using (lt y before x after).le
      have one : 0 < (listed.drop b).countP (key x ≤ key ·) :=
        List.countP_pos_iff.mpr ⟨x, after, by simp⟩
      rw [counts, all]
      omega
    conv_rhs => rw [← split, List.filter_append]
    rw [List.filter_eq_self.mpr fun x before => by simpa using front x before,
      List.filter_eq_nil_iff.mpr fun x after => by simpa using back x after, List.append_nil]
  · have all : ∀ x ∈ listed, l.countP (key x ≤ key ·) ≤ b := fun x _ =>
      List.countP_le_length.trans (orders.perm.length_eq ▸ outside)
    rw [List.take_of_length_le outside, List.filter_eq_self.mpr fun x mem => by simpa using all x mem]

theorem Separates.take_perm {b : Nat} (separates : Separates key l b) (orders : Orders key l listed)
    (orders' : Orders key l listed') : (listed.take b).Perm (listed'.take b) := by
  rw [separates.take_eq_filter orders, separates.take_eq_filter orders']
  exact (orders.perm.trans orders'.perm.symm).filter _

/-- At a border that does not separate, elements of equal keys meet. -/
theorem exists_tie {b : Nat} (not : ¬ Separates key l b) (orders : Orders key l listed) :
    ∃ front a c back, listed = front ++ a :: c :: back ∧ front.length + 1 = b ∧ key a = key c := by
  unfold Separates at not
  push Not at not
  obtain ⟨x, -, larger, more⟩ := not
  have place : ∀ front a back, listed = front ++ a :: back →
      l.countP (key x < key ·) ≤ front.length → front.length < l.countP (key x ≤ key ·) →
        key a = key x := by
    rintro front a back rfl above below
    have sorted := List.pairwise_append.mp orders.sorted
    have later := List.pairwise_cons.mp sorted.2.1
    rw [← orders.perm.countP_eq, List.countP_append, List.countP_cons] at above below
    refine le_antisymm (le_of_not_gt fun gt => ?_) (le_of_not_gt fun lt => ?_)
    · have all : front.countP (key x < key ·) = front.length :=
        List.countP_eq_length.mpr fun y mem => by
          simpa using gt.trans_le (sorted.2.2 y mem a List.mem_cons_self)
      simp only [all, gt, decide_true, if_true] at above
      omega
    · have none : back.countP (key x ≤ key ·) = 0 :=
        List.countP_eq_zero.mpr fun y mem => by simpa using (later.1 y mem).trans_lt lt
      have most := List.countP_le_length (l := front) (p := fun y => key x ≤ key y)
      simp only [none, not_le_of_gt lt, decide_false, Bool.false_eq_true, if_false] at below
      omega
  have inside : b < listed.length :=
    more.trans_le (orders.perm.length_eq ▸ List.countP_le_length)
  obtain ⟨d, rfl⟩ : ∃ d, b = d + 1 := ⟨b - 1, by omega⟩
  have cut : listed = listed.take d ++ listed[d] :: listed[d + 1] :: listed.drop (d + 2) := by
    rw [List.getElem_cons_drop, List.getElem_cons_drop, List.take_append_drop]
  have length : (listed.take d).length = d := List.length_take_of_le (by omega)
  have first := place _ _ _ cut (by omega) (by omega)
  have second := place (listed.take d ++ [listed[d]]) listed[d + 1] (listed.drop (d + 2))
    (by rw [List.append_assoc, List.singleton_append]; exact cut)
    (by rw [List.length_append, length]; simp; omega)
    (by rw [List.length_append, length]; simpa using more)
  exact ⟨_, _, _, _, cut, by omega, first.trans second.symm⟩

theorem Orders.swap (orders : Orders key l (front ++ a :: c :: back)) (tie : key a = key c) :
    Orders key l (front ++ c :: a :: back) where
  perm := ((List.Perm.swap a c back).append_left front).trans orders.perm
  sorted := by
    have sorted := orders.sorted
    simp only [List.pairwise_append, List.pairwise_cons, List.mem_cons, forall_eq_or_imp] at sorted ⊢
    rw [tie] at sorted
    rw [tie]
    exact ⟨sorted.1, ⟨⟨le_rfl, sorted.2.1.2.1⟩, sorted.2.1.2⟩, sorted.2.2⟩

/-! ### Pages -/

variable {k : Nat}

theorem mem_page {i : Nat} (first : i * k ≤ front.length) (last : front.length < (i + 1) * k) :
    a ∈ page k i (front ++ a :: back) := by
  have width := Nat.add_one_mul i k
  have length : (front.drop (i * k)).length = front.length - i * k := List.length_drop
  obtain ⟨m, room⟩ : ∃ m, k - (front.drop (i * k)).length = m + 1 :=
    ⟨k - (front.drop (i * k)).length - 1, by omega⟩
  rw [page, List.drop_append_of_le_length first, List.take_append, room, List.take_succ_cons]
  exact List.mem_append_right _ List.mem_cons_self

/-- The first pages are, together, what lies before their last border. -/
theorem pages_perm_take (separates : ∀ i, Separates key l (i * k)) {orders : Nat → List α}
    (listings : ∀ i, Orders key l (orders i)) (listing : Orders key l listed) (n : Nat) :
    ((List.range n).flatMap fun i => page k i (orders i)).Perm (listed.take (n * k)) := by
  induction n with
  | zero => simp
  | succ n ih =>
    rw [List.range_succ, List.flatMap_append, List.flatMap_singleton]
    have before := ih.trans ((separates n).take_perm listing (listings n))
    refine (before.append_right _).trans ?_
    rw [← take_page]
    exact (separates (n + 1)).take_perm (listings n) listing

/-- The pages list every element once, however elements of equal keys are ordered in each of them,
exactly if all borders separate. -/
theorem pages_perm_iff (nodup : l.Nodup) (pos : 0 < k) :
    (∀ orders : Nat → List α, (∀ i, Orders key l (orders i)) → ∀ n, l.length ≤ n * k →
      ((List.range n).flatMap fun i => page k i (orders i)).Perm l) ↔
        ∀ i, Separates key l (i * k) := by
  constructor
  · intro once i
    by_contra not
    obtain ⟨front, a, c, back, listed, length, tie⟩ :=
      exists_tie not (orders_insertionSort key l)
    have orders := orders_insertionSort key l
    rw [listed] at orders
    obtain ⟨j, rfl⟩ : ∃ j, i = j + 1 := by
      refine ⟨i - 1, (Nat.succ_pred_eq_of_ne_zero ?_).symm⟩
      rintro rfl
      omega
    -- The page after the border is listed with the two elements swapped.
    let listing : Nat → List α := fun n =>
      if n = j + 1 then front ++ c :: a :: back else front ++ a :: c :: back
    have all := once listing (fun n => by
      show Orders key l (if n = j + 1 then _ else _)
      split
      · exact orders.swap tie
      · exact orders) (l.length + j + 2) (Nat.le_trans (by omega) (Nat.le_mul_of_pos_right _ pos))
    have distinct := (List.nodup_flatMap.mp (all.nodup_iff.mpr nodup)).2
    have disjoint := List.pairwise_iff_getElem.mp distinct j (j + 1)
      (by rw [List.length_range]; omega) (by rw [List.length_range]; omega) (by omega)
    simp only [List.getElem_range, Function.onFun] at disjoint
    have earlier : listing j = front ++ a :: c :: back := if_neg (by omega)
    have later : listing (j + 1) = front ++ c :: a :: back := if_pos rfl
    have width := Nat.add_one_mul j k
    have width' := Nat.add_one_mul (j + 1) k
    refine disjoint (a := a) ?_ ?_
    · rw [earlier]
      exact mem_page (by omega) (by omega)
    · rw [later, List.append_cons]
      have swapped : (front ++ [c]).length = front.length + 1 := List.length_append
      exact mem_page (by omega) (by omega)
  · intro separates orders listings n enough
    have listing := orders_insertionSort key l
    refine (pages_perm_take separates listings listing n).trans ?_
    rw [List.take_of_length_le (listing.perm.length_eq ▸ enough)]
    exact listing.perm

end Pages
