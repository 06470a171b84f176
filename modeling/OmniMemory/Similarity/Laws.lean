import Mathlib.Analysis.InnerProductSpace.PiL2
import Mathlib.Data.List.GetD
import OmniMemory.Similarity.Handler

/-! The distances over the real numbers. The vectors that pass the check are those of a Euclidean
space, with its norm and its inner product, so that the laws of the distances are those of angles and
lengths. -/

namespace OmniMemory

namespace Similarity

open RealInnerProductSpace

/-- The numbers of a vector as a vector of the space of `n` dimensions. -/
noncomputable def point (n : ℕ) (vec : List (Element ℝ)) : EuclideanSpace ℝ (Fin n) :=
  WithLp.toLp _ fun i => (vec.map Element.value).getD i 0

/-- The arithmetic of real numbers. -/
noncomputable def exact (format : ℝ → String) : Arithmetic ℝ := ⟨Real.sqrt, format⟩

def Element.IsNumber (e : Element ℝ) : Prop := ∃ x, e = .number x

section Points

variable {n : ℕ} {vecA vecB : List (Element ℝ)} {k : ℝ}

theorem sum_zip (f : ℝ → ℝ → ℝ) (lengthA : vecA.length = n) (lengthB : vecB.length = n) :
    ((vecA.zip vecB).map fun p => f p.1.value p.2.value).sum =
      ∑ i, f (point n vecA i) (point n vecB i) := by
  induction n generalizing vecA vecB with
  | zero =>
    rw [List.length_eq_zero_iff] at lengthA
    rw [lengthA]
    rfl
  | succ n ih =>
    obtain ⟨a, vecA, rfl⟩ := List.exists_cons_of_length_eq_add_one lengthA
    obtain ⟨b, vecB, rfl⟩ := List.exists_cons_of_length_eq_add_one lengthB
    rw [List.zip_cons_cons, List.map_cons, List.sum_cons, Fin.sum_univ_succ,
      ih (by simpa using lengthA) (by simpa using lengthB)]
    rfl

theorem dotProduct_eq (lengthA : vecA.length = n) (lengthB : vecB.length = n) :
    dotProduct vecA vecB = ⟪point n vecA, point n vecB⟫ := by
  rw [dotProduct, sum_zip (· * ·) lengthA lengthB, PiLp.inner_apply]
  exact Finset.sum_congr rfl fun i _ => by rw [RCLike.inner_apply, conj_trivial, mul_comm]

/-- The sums of squares that the check adds up are those of the norms. -/
theorem sqrt_sums (lengthA : vecA.length = n) (lengthB : vecB.length = n) :
    Real.sqrt ((vecA.zip vecB).map fun p => p.1.value * p.1.value).sum = ‖point n vecA‖ ∧
      Real.sqrt ((vecA.zip vecB).map fun p => p.2.value * p.2.value).sum = ‖point n vecB‖ := by
  have square (x : ℝ) : x * x = ‖x‖ ^ 2 := by rw [Real.norm_eq_abs, sq_abs, sq]
  have left := sum_zip (fun x _ => x * x) lengthA lengthB
  have right := sum_zip (fun _ y => y * y) lengthA lengthB
  rw [left, right, EuclideanSpace.norm_eq, EuclideanSpace.norm_eq]
  exact ⟨congrArg Real.sqrt (Finset.sum_congr rfl fun i _ => square _),
    congrArg Real.sqrt (Finset.sum_congr rfl fun i _ => square _)⟩

theorem dist_point (lengthA : vecA.length = n) (lengthB : vecB.length = n) :
    dist (point n vecA) (point n vecB) =
      Real.sqrt ((vecA.zip vecB).map fun p => (p.1.value - p.2.value) ^ 2).sum := by
  rw [EuclideanSpace.dist_eq, sum_zip (fun x y => (x - y) ^ 2) lengthA lengthB]
  refine congrArg Real.sqrt (Finset.sum_congr rfl fun i _ => ?_)
  rw [Real.dist_eq, sq_abs]

/-- Vectors of numbers that are the same point are the same. -/
theorem eq_of_point (lengthA : vecA.length = n) (lengthB : vecB.length = n)
    (numbersA : ∀ e ∈ vecA, e.IsNumber) (numbersB : ∀ e ∈ vecB, e.IsNumber)
    (same : point n vecA = point n vecB) : vecA = vecB := by
  refine List.ext_getElem (lengthA.trans lengthB.symm) fun i boundA boundB => ?_
  obtain ⟨x, a⟩ := numbersA _ (List.getElem_mem boundA)
  obtain ⟨y, b⟩ := numbersB _ (List.getElem_mem boundB)
  have coordinate := congrArg (fun v : EuclideanSpace ℝ (Fin n) => v ⟨i, lengthA ▸ boundA⟩) same
  have valueA : (vecA.map Element.value).getD i 0 = x := by
    rw [List.getD_eq_getElem _ _ (by simpa using boundA), List.getElem_map, a]
    rfl
  have valueB : (vecB.map Element.value).getD i 0 = y := by
    rw [List.getD_eq_getElem _ _ (by simpa using boundB), List.getElem_map, b]
    rfl
  have values : x = y := valueA.symm.trans (coordinate.trans valueB)
  rw [a, b, values]

theorem point_scale : point n (vecA.map (Element.scale k)) = k • point n vecA := by
  have value (e : Element ℝ) : (e.scale k).value = k * e.value := by
    cases e <;> simp [Element.value, Element.scale]
  ext i
  show ((vecA.map (Element.scale k)).map Element.value).getD i 0 =
    k * (vecA.map Element.value).getD i 0
  rw [List.map_map]
  by_cases bound : (i : ℕ) < vecA.length
  · rw [List.getD_eq_getElem _ _ (by simpa using bound), List.getD_eq_getElem _ _ (by simpa using bound),
      List.getElem_map, List.getElem_map]
    exact value _
  · rw [List.getD_eq_default _ _ (by simpa using bound), List.getD_eq_default _ _ (by simpa using bound),
      mul_zero]

end Points

section Check

variable {M : Arithmetic ℝ} {format : ℝ → String} {c : Config ℝ} {vecA vecB : List (Element ℝ)}

theorem validateElement_number (name : String) (i : ℕ) (x : ℝ) :
    validateElement name i (.number x) = .ok x := rfl

theorem exists_error (name : String) (i : ℕ) {e : Element ℝ} (other : ¬ e.IsNumber) :
    ∃ error, validateElement name i e = .error error := by
  cases e with
  | number x => exact absurd ⟨x, rfl⟩ other
  | nan => exact ⟨_, rfl⟩
  | infinite negative => exact ⟨_, rfl⟩

/-- The pass goes through when all elements are numbers, and adds up their squares if it is to. -/
theorem validateElements_eq_ok {check : Bool} {i : ℕ} {pairs : List (Element ℝ × Element ℝ)}
    {sums sums' : ℝ × ℝ} : validateElements check i pairs sums = .ok sums' ↔
      (∀ p ∈ pairs, p.1.IsNumber ∧ p.2.IsNumber) ∧
        sums' = if check then (sums.1 + (pairs.map fun p => p.1.value * p.1.value).sum,
          sums.2 + (pairs.map fun p => p.2.value * p.2.value).sum) else sums := by
  induction pairs generalizing i sums with
  | nil => simp [validateElements, eq_comm]
  | cons p rest ih =>
    obtain ⟨a, b⟩ := p
    rw [List.forall_mem_cons]
    by_cases first : a.IsNumber
    · obtain ⟨x, rfl⟩ := id first
      rw [validateElements, validateElement_number]
      dsimp only
      by_cases second : b.IsNumber
      · obtain ⟨y, rfl⟩ := id second
        rw [validateElement_number]
        simp only [ih, first, second, true_and, and_self]
        refine and_congr_right fun _ => ?_
        cases check <;> simp [Element.value, add_assoc]
      · obtain ⟨error, raises⟩ := exists_error "vec_b" i second
        rw [raises]
        exact iff_of_false (by rintro ⟨⟩) fun all => second all.1.1.2
    · obtain ⟨error, raises⟩ := exists_error "vec_a" i first
      rw [validateElements, raises]
      exact iff_of_false (by rintro ⟨⟩) fun all => first all.1.1.1

/-- Two vectors that the distances are defined of. -/
structure Comparable (vecA vecB : List (Element ℝ)) : Prop where
  some : vecA ≠ []
  sameLength : vecA.length = vecB.length
  numbersA : ∀ e ∈ vecA, e.IsNumber
  numbersB : ∀ e ∈ vecB, e.IsNumber

theorem numbers_zip (sameLength : vecA.length = vecB.length) :
    (∀ p ∈ vecA.zip vecB, p.1.IsNumber ∧ p.2.IsNumber) ↔
      (∀ e ∈ vecA, e.IsNumber) ∧ ∀ e ∈ vecB, e.IsNumber := by
  have first : (vecA.zip vecB).map Prod.fst = vecA := List.map_fst_zip sameLength.le
  have second : (vecA.zip vecB).map Prod.snd = vecB := List.map_snd_zip sameLength.ge
  constructor
  · intro all
    constructor
    · rw [← first]
      exact List.forall_mem_map.mpr fun p mem => (all p mem).1
    · rw [← second]
      exact List.forall_mem_map.mpr fun p mem => (all p mem).2
  · rintro ⟨numbersA, numbersB⟩ p mem
    exact ⟨numbersA _ (List.of_mem_zip mem).1, numbersB _ (List.of_mem_zip mem).2⟩

/-- The check comes to the magnitudes just when the vectors are comparable. -/
theorem validateVectors_eq_ok {check : Bool} {h : Handler ℝ} {r : ℝ × ℝ} :
    validateVectors M h vecA vecB check = .ok r ↔ Comparable vecA vecB ∧
      (if check then
        let sums := (((vecA.zip vecB).map fun p => p.1.value * p.1.value).sum,
          ((vecA.zip vecB).map fun p => p.2.value * p.2.value).sum)
        ∃ config, h.config = some config ∧ config.epsilon ≤ M.sqrt sums.1 ∧
          config.epsilon ≤ M.sqrt sums.2 ∧ r = (M.sqrt sums.1, M.sqrt sums.2)
      else r = (0, 0)) := by
  unfold validateVectors
  split
  · rename_i none
    exact iff_of_false (by rintro ⟨⟩) fun both =>
      both.1.some (List.length_eq_zero_iff.mp none)
  split
  · rename_i some none
    exact iff_of_false (by rintro ⟨⟩) fun both => some (both.1.sameLength.trans none)
  split
  · rename_i differ
    exact iff_of_false (by rintro ⟨⟩) fun both => differ both.1.sameLength
  rename_i some _ same
  rw [not_not] at same
  have comparable : Comparable vecA vecB ↔ ∀ p ∈ vecA.zip vecB, p.1.IsNumber ∧ p.2.IsNumber := by
    rw [numbers_zip same]
    refine ⟨fun all => ⟨all.numbersA, all.numbersB⟩, fun all => ⟨?_, same, all.1, all.2⟩⟩
    rintro rfl
    exact some rfl
  rw [comparable]
  split
  · rename_i error raises
    refine iff_of_false (by rintro ⟨⟩) fun both => ?_
    have passes : validateElements check 0 (vecA.zip vecB) (0, 0) = .ok _ :=
      validateElements_eq_ok.mpr ⟨both.1, rfl⟩
    rw [passes] at raises
    cases raises
  · rename_i sumA sumB passes
    obtain ⟨numbers, sums⟩ := validateElements_eq_ok.mp passes
    rw [iff_true_intro numbers, true_and]
    cases check with
    | false => simp [eq_comm]
    | true =>
      simp only [if_true, zero_add, Prod.mk.injEq] at sums ⊢
      obtain ⟨rfl, rfl⟩ := sums
      cases h.config with
      | none => simp
      | some config =>
        simp only [Option.some.injEq, exists_eq_left']
        split
        · rename_i small
          exact iff_of_false (by rintro ⟨⟩) fun all => absurd all.1 (not_le.mpr small)
        split
        · rename_i small
          exact iff_of_false (by rintro ⟨⟩) fun all => absurd all.2.1 (not_le.mpr small)
        · rename_i least least'
          rw [not_lt] at least least'
          simp [least, least', eq_comm]

theorem validateVectors_false {h : Handler ℝ} {r : ℝ × ℝ} :
    validateVectors M h vecA vecB false = .ok r ↔ Comparable vecA vecB ∧ r = (0, 0) := by
  rw [validateVectors_eq_ok, if_neg Bool.false_ne_true]

/-- Two vectors of which the norms are not less than the epsilon of a config. -/
structure Accepted (c : Config ℝ) (vecA vecB : List (Element ℝ)) : Prop
    extends Comparable vecA vecB where
  leastA : c.epsilon ≤ ‖point vecA.length vecA‖
  leastB : c.epsilon ≤ ‖point vecA.length vecB‖

/-- With the check of magnitudes, the vectors that are accepted pass, and their norms are given. -/
theorem validateVectors_true {r : ℝ × ℝ} :
    validateVectors (exact format) ⟨some c⟩ vecA vecB true = .ok r ↔ Accepted c vecA vecB ∧
      r = (‖point vecA.length vecA‖, ‖point vecA.length vecB‖) := by
  rw [validateVectors_eq_ok, if_pos rfl]
  simp only [Option.some.injEq, exists_eq_left', exact]
  constructor
  · rintro ⟨comparable, leastA, leastB, rfl⟩
    obtain ⟨normA, normB⟩ := sqrt_sums rfl comparable.sameLength.symm
    rw [normA] at leastA ⊢
    rw [normB] at leastB ⊢
    exact ⟨⟨comparable, leastA, leastB⟩, rfl⟩
  · rintro ⟨⟨comparable, leastA, leastB⟩, rfl⟩
    obtain ⟨normA, normB⟩ := sqrt_sums rfl comparable.sameLength.symm
    rw [normA, normB]
    exact ⟨comparable, leastA, leastB, rfl⟩

/-- The similarity of two vectors is between the bounds that it is clamped to. -/
theorem clamp_similarity {n : ℕ} (x y : EuclideanSpace ℝ (Fin n)) :
    clamp (⟪x, y⟫ / (‖x‖ * ‖y‖)) = ⟪x, y⟫ / (‖x‖ * ‖y‖) := by
  obtain ⟨least, most⟩ := abs_le.mp (abs_real_inner_div_norm_mul_norm_le_one x y)
  rw [clamp, min_eq_right most, max_eq_right least]

/-- The cosine distance of vectors that are accepted. -/
theorem cosineDistance_eq_ok {d : ℝ} :
    cosineDistance (exact format) ⟨some c⟩ vecA vecB = .ok d ↔ Accepted c vecA vecB ∧
      d = 1 - ⟪point vecA.length vecA, point vecA.length vecB⟫ /
        (‖point vecA.length vecA‖ * ‖point vecA.length vecB‖) := by
  unfold cosineDistance
  dsimp only
  split
  · rename_i error raises
    refine iff_of_false (by rintro ⟨⟩) fun both => ?_
    rw [validateVectors_true.mpr ⟨both.1, rfl⟩] at raises
    cases raises
  · rename_i magA magB passes
    obtain ⟨accepted, magnitudes⟩ := validateVectors_true.mp passes
    obtain ⟨rfl, rfl⟩ := Prod.mk.inj magnitudes
    rw [dotProduct_eq rfl accepted.sameLength.symm, clamp_similarity, Except.ok.injEq,
      eq_comm (b := d)]
    exact (and_iff_right accepted).symm

theorem euclideanDistance_eq_ok {d : ℝ} :
    euclideanDistance (exact format) ⟨some c⟩ vecA vecB = .ok d ↔ Comparable vecA vecB ∧
      d = dist (point vecA.length vecA) (point vecA.length vecB) := by
  unfold euclideanDistance
  dsimp only
  split
  · rename_i error raises
    refine iff_of_false (by rintro ⟨⟩) fun both => ?_
    rw [validateVectors_false.mpr ⟨both.1, rfl⟩] at raises
    cases raises
  · rename_i r passes
    have comparable := (validateVectors_false.mp passes).1
    rw [dist_point rfl comparable.sameLength.symm, Except.ok.injEq, eq_comm]
    exact (and_iff_right comparable).symm

theorem Comparable.symm (comparable : Comparable vecA vecB) : Comparable vecB vecA where
  some none := comparable.some
    (List.length_eq_zero_iff.mp (comparable.sameLength.trans (by rw [none, List.length_nil])))
  sameLength := comparable.sameLength.symm
  numbersA := comparable.numbersB
  numbersB := comparable.numbersA

theorem Accepted.symm (accepted : Accepted c vecA vecB) : Accepted c vecB vecA where
  toComparable := accepted.toComparable.symm
  leastA := accepted.sameLength ▸ accepted.leastB
  leastB := accepted.sameLength ▸ accepted.leastA

end Check

/-- What holds of the cosine distance. -/
structure CosineLaws (format : ℝ → String) (c : Config ℝ) : Prop where
  range : ∀ a b d, cosineDistance (exact format) ⟨some c⟩ a b = .ok d → 0 ≤ d ∧ d ≤ 2
  unclamped : ∀ a b magA magB, validateVectors (exact format) ⟨some c⟩ a b true = .ok (magA, magB) →
    clamp (dotProduct a b / (magA * magB)) = dotProduct a b / (magA * magB)
  symmetric : ∀ a b d, cosineDistance (exact format) ⟨some c⟩ a b = .ok d →
    cosineDistance (exact format) ⟨some c⟩ b a = .ok d
  scaledLeft : ∀ a b k d d', 0 < k → cosineDistance (exact format) ⟨some c⟩ a b = .ok d →
    cosineDistance (exact format) ⟨some c⟩ (a.map (Element.scale k)) b = .ok d' → d' = d
  scaledRight : ∀ a b k d d', 0 < k → cosineDistance (exact format) ⟨some c⟩ a b = .ok d →
    cosineDistance (exact format) ⟨some c⟩ a (b.map (Element.scale k)) = .ok d' → d' = d
  zero_iff : ∀ a b d, cosineDistance (exact format) ⟨some c⟩ a b = .ok d →
    (d = 0 ↔ ∃ k > 0, b = a.map (Element.scale k))

/-- What holds of the Euclidean distance. -/
structure EuclideanLaws (format : ℝ → String) (c : Config ℝ) : Prop where
  symmetric : ∀ x y d, euclideanDistance (exact format) ⟨some c⟩ x y = .ok d →
    euclideanDistance (exact format) ⟨some c⟩ y x = .ok d
  zero_iff : ∀ x y d, euclideanDistance (exact format) ⟨some c⟩ x y = .ok d → (d = 0 ↔ x = y)
  triangle : ∀ x y z d d', euclideanDistance (exact format) ⟨some c⟩ x y = .ok d →
    euclideanDistance (exact format) ⟨some c⟩ y z = .ok d' →
      ∃ e, euclideanDistance (exact format) ⟨some c⟩ x z = .ok e ∧ e ≤ d + d'

section Laws

variable {format : ℝ → String} {c : Config ℝ}

theorem cosine_symmetric {a b : List (Element ℝ)} {d : ℝ}
    (distance : cosineDistance (exact format) ⟨some c⟩ a b = .ok d) :
    cosineDistance (exact format) ⟨some c⟩ b a = .ok d := by
  obtain ⟨accepted, rfl⟩ := cosineDistance_eq_ok.mp distance
  refine cosineDistance_eq_ok.mpr ⟨accepted.symm, ?_⟩
  rw [← accepted.sameLength, real_inner_comm, mul_comm]

theorem cosine_scaled {a b : List (Element ℝ)} {k d d' : ℝ} (pos : 0 < k)
    (distance : cosineDistance (exact format) ⟨some c⟩ a b = .ok d)
    (scaled : cosineDistance (exact format) ⟨some c⟩ (a.map (Element.scale k)) b = .ok d') :
    d' = d := by
  obtain ⟨accepted, rfl⟩ := cosineDistance_eq_ok.mp distance
  obtain ⟨-, rfl⟩ := cosineDistance_eq_ok.mp scaled
  rw [List.length_map, point_scale, real_inner_smul_left, norm_smul, Real.norm_of_nonneg pos.le,
    mul_assoc, mul_div_mul_left _ _ pos.ne']

/-- A distance is zero just when one vector is a positive multiple of the other. -/
theorem cosine_zero_iff {a b : List (Element ℝ)} {d : ℝ}
    (distance : cosineDistance (exact format) ⟨some c⟩ a b = .ok d) :
    d = 0 ↔ ∃ k > 0, b = a.map (Element.scale k) := by
  obtain ⟨accepted, rfl⟩ := cosineDistance_eq_ok.mp distance
  have some : point a.length a ≠ 0 := norm_pos_iff.mp (c.positive.trans_le accepted.leastA)
  rw [sub_eq_zero, eq_comm, real_inner_div_norm_mul_norm_eq_one_iff, and_iff_right some]
  refine exists_congr fun k => and_congr_right fun pos => ?_
  rw [← point_scale]
  constructor
  · intro same
    refine eq_of_point accepted.sameLength.symm (List.length_map _) accepted.numbersB
      (fun e mem => ?_) same
    obtain ⟨e', here, rfl⟩ := List.mem_map.mp mem
    obtain ⟨x, rfl⟩ := accepted.numbersA e' here
    exact ⟨k * x, rfl⟩
  · rintro rfl
    rfl

end Laws

/-- Roots of squares of rational numbers. -/
def rational : Arithmetic ℚ where
  sqrt q := mkRat (Nat.sqrt q.num.toNat) (Nat.sqrt q.den)
  format q := toString q

example : cosineDistance rational ⟨some ⟨1 / 10 ^ 10, by norm_num⟩⟩
    [.number 3, .number 4] [.number 6, .number 8] = .ok 0 := by decide +kernel

end Similarity

end OmniMemory
