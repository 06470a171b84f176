import OmniMemory.Lib.Binary64
import Mathlib.Algebra.BigOperators.Ring.Finset
import Mathlib.Data.List.GetD
import Mathlib.Data.List.Induction
import Mathlib.Tactic.Linarith

/-! Arithmetics that round: the exact one and that of binary64, and what both have in common. A
running average is that of its first value and of those that were folded in, each with a weight. -/

namespace Binary64

/-- How a machine rounds the results of its operations, when none overflows. -/
structure Arithmetic where
  fl : ℚ → ℚ
  nonneg : ∀ q, 0 ≤ q → 0 ≤ fl q
  le_one : ∀ q, 0 ≤ q → q ≤ 1 → fl q ≤ 1
  near : ∀ q, 0 ≤ q → |fl q - q| ≤ (q + 1) / 2 ^ 53

theorem abs_roundHalfEven_sub (q : ℚ) : |(roundHalfEven q : ℚ) - q| ≤ 1 / 2 := by
  have low := Int.floor_le q
  have high := Int.lt_floor_add_one q
  rw [abs_le]
  simp only [roundHalfEven]
  split
  · rename_i down
    constructor
    · rcases down with less | ⟨same, -⟩ <;> linarith
    · linarith
  · rename_i up
    have half : 1 / 2 ≤ q - ⌊q⌋ := by
      by_contra less
      exact up (.inl (not_le.mp less))
    push_cast
    constructor <;> linarith

namespace Arithmetic

def exact : Arithmetic where
  fl := id
  nonneg _ nonneg := nonneg
  le_one _ _ le := le
  near q nonneg := by
    rw [id, sub_self, abs_zero]
    positivity

theorem unit_pos (q : ℚ) : 0 < Value.unit q := zpow_pos (by norm_num) _

theorem unit_le {q : ℚ} (nonneg : 0 ≤ q) : Value.unit q ≤ (q + 1) / 2 ^ 52 := by
  unfold Value.unit
  have small : (2 : ℚ) ^ (-1074 : ℤ) ≤ 1 / 2 ^ 52 := by
    rw [show (1 : ℚ) / 2 ^ 52 = 2 ^ (-52 : ℤ) by norm_num]
    exact zpow_le_zpow_right₀ (by norm_num) (by norm_num)
  have one : (1 : ℚ) / 2 ^ 52 ≤ (q + 1) / 2 ^ 52 := by gcongr; linarith
  rcases max_cases (Int.log 2 q - 52) (-1074) with ⟨same, -⟩ | ⟨same, -⟩
  · rw [same]
    rcases nonneg.lt_or_eq with pos | rfl
    · have log : (2 : ℚ) ^ Int.log 2 q ≤ q := Int.zpow_log_le_self (by norm_num) pos
      rw [zpow_sub₀ (by norm_num)]
      norm_num
      gcongr
      linarith
    · norm_num
  · rw [same]
    exact small.trans one

/-- One is a multiple of what the last digit is worth of a number up to one. -/
theorem exists_unit {q : ℚ} (nonneg : 0 ≤ q) (le : q ≤ 1) : ∃ k : ℕ, Value.unit q = 1 / 2 ^ k := by
  have log : Int.log 2 q ≤ 0 := by
    rcases nonneg.lt_or_eq with pos | rfl
    · have mono := Int.log_mono_right (b := 2) pos le
      simpa using mono
    · simp
  refine ⟨(-max (Int.log 2 q - 52) (-1074)).toNat, ?_⟩
  unfold Value.unit
  rw [one_div, ← zpow_natCast, ← zpow_neg]
  congr 1
  omega

def binary64 : Arithmetic where
  fl q := roundHalfEven (q / Value.unit |q|) * Value.unit |q|
  nonneg q nonneg := by
    have units : (0 : ℤ) ≤ roundHalfEven (q / Value.unit |q|) :=
      le_trans (Int.floor_nonneg.mpr (div_nonneg nonneg (unit_pos _).le))
        (floor_le_roundHalfEven _)
    exact mul_nonneg (by exact_mod_cast units) (unit_pos _).le
  le_one q nonneg le := by
    rw [abs_of_nonneg nonneg]
    obtain ⟨k, unit⟩ := exists_unit nonneg le
    have bound : roundHalfEven (q / Value.unit q) ≤ (2 ^ k : ℤ) := by
      refine roundHalfEven_le ?_
      rw [unit, div_div_eq_mul_div, div_one]
      push_cast
      nlinarith [show (0 : ℚ) < 2 ^ k by positivity]
    calc (roundHalfEven (q / Value.unit q) : ℚ) * Value.unit q
        ≤ ((2 ^ k : ℤ) : ℚ) * Value.unit q :=
          mul_le_mul_of_nonneg_right (by exact_mod_cast bound) (unit_pos q).le
      _ = 1 := by
        rw [unit]
        push_cast
        rw [mul_one_div_cancel (by positivity)]
  near q nonneg := by
    rw [abs_of_nonneg nonneg]
    have unit := unit_pos q
    have half := abs_roundHalfEven_sub (q / Value.unit q)
    have split : (roundHalfEven (q / Value.unit q) : ℚ) * Value.unit q - q =
        ((roundHalfEven (q / Value.unit q) : ℚ) - q / Value.unit q) * Value.unit q := by
      rw [sub_mul, div_mul_cancel₀ _ unit.ne']
    rw [split, abs_mul, abs_of_pos unit]
    calc _ ≤ 1 / 2 * Value.unit q := mul_le_mul_of_nonneg_right half unit.le
      _ ≤ 1 / 2 * ((q + 1) / 2 ^ 52) := by
        have := unit_le nonneg
        linarith
      _ = (q + 1) / 2 ^ 53 := by ring

variable (A : Arithmetic)

/-- `q` rounded to three decimals. -/
def round3 (q : ℚ) : ℚ := A.fl (roundHalfEven (q * 1000) / 1000)

variable {A} {q : ℚ}

theorem round3_exact (q : ℚ) : exact.round3 q = roundHalfEven (q * 1000) / 1000 := rfl

theorem abs_round3_sub (q : ℚ) : |exact.round3 q - q| ≤ 1 / 2000 := by
  have half := abs_roundHalfEven_sub (q * 1000)
  rw [round3_exact, show (roundHalfEven (q * 1000) : ℚ) / 1000 - q =
    ((roundHalfEven (q * 1000) : ℚ) - q * 1000) / 1000 by ring, abs_div]
  norm_num
  linarith

theorem roundHalfEven_intCast (n : ℤ) : roundHalfEven n = n := by
  simp [roundHalfEven]

/-- Rounding what is rounded changes nothing. -/
theorem round3_round3 (q : ℚ) : exact.round3 (exact.round3 q) = exact.round3 q := by
  rw [round3_exact, round3_exact, div_mul_cancel₀ _ (by norm_num), roundHalfEven_intCast]

/-- A number that is hardly more than one is rounded to one at most. -/
theorem round3_mem (nonneg : 0 ≤ q) (le : q ≤ 1 + 1 / 2 ^ 20) :
    0 ≤ A.round3 q ∧ A.round3 q ≤ 1 := by
  have units : (0 : ℤ) ≤ roundHalfEven (q * 1000) :=
    le_trans (Int.floor_nonneg.mpr (by positivity)) (floor_le_roundHalfEven _)
  have thousand : roundHalfEven (q * 1000) ≤ 1000 := by
    have half := (abs_le.mp (abs_roundHalfEven_sub (q * 1000))).2
    have close : (roundHalfEven (q * 1000) : ℚ) < 1001 := by
      norm_num at le
      linarith
    have close : roundHalfEven (q * 1000) < 1001 := by exact_mod_cast close
    omega
  have low : (0 : ℚ) ≤ roundHalfEven (q * 1000) / 1000 := div_nonneg (by exact_mod_cast units) (by norm_num)
  refine ⟨A.nonneg _ low, A.le_one _ low ?_⟩
  rw [div_le_one (by norm_num)]
  exact_mod_cast thousand

/-! ### Running averages -/

/-- A running average after one more value; `share` is the part that the value has in it. -/
def average (A : Arithmetic) (share : ℚ) (current value : ℚ) : ℚ :=
  A.fl (A.fl (A.fl share * value) + A.fl (A.fl (1 - A.fl share) * current))

/-- With a share of a fifth, the average of values up to one is hardly more than one. -/
theorem average_mem {current value : ℚ} (value_mem : 0 ≤ value ∧ value ≤ 1)
    (current_mem : 0 ≤ current ∧ current ≤ 1 + 1 / 2 ^ 40) :
    0 ≤ average A (1 / 5) current value ∧ average A (1 / 5) current value ≤ 1 + 1 / 2 ^ 40 := by
  obtain ⟨value_nonneg, value_le⟩ := value_mem
  obtain ⟨current_nonneg, current_le⟩ := current_mem
  have near : ∀ q, 0 ≤ q → A.fl q ≤ q + (q + 1) / 2 ^ 53 ∧ q - (q + 1) / 2 ^ 53 ≤ A.fl q :=
    fun q nonneg => ⟨by linarith [(abs_le.mp (A.near q nonneg)).2],
      by linarith [(abs_le.mp (A.near q nonneg)).1]⟩
  have share := near (1 / 5) (by norm_num)
  have share_nonneg := A.nonneg (1 / 5) (by norm_num)
  norm_num at share
  have rest_nonneg : 0 ≤ 1 - A.fl (1 / 5) := by linarith
  have rest := near _ rest_nonneg
  have rest_fl := A.nonneg _ rest_nonneg
  have first_nonneg : 0 ≤ A.fl (1 / 5) * value := mul_nonneg share_nonneg value_nonneg
  have first_le : A.fl (1 / 5) * value ≤ A.fl (1 / 5) := mul_le_of_le_one_right share_nonneg value_le
  have first := near _ first_nonneg
  have second_nonneg : 0 ≤ A.fl (1 - A.fl (1 / 5)) * current := mul_nonneg rest_fl current_nonneg
  have second_le : A.fl (1 - A.fl (1 / 5)) * current ≤ A.fl (1 - A.fl (1 / 5)) * (1 + 1 / 2 ^ 40) :=
    mul_le_mul_of_nonneg_left current_le rest_fl
  have second := near _ second_nonneg
  have sum_nonneg := add_nonneg (A.nonneg _ first_nonneg) (A.nonneg _ second_nonneg)
  have sum := near _ sum_nonneg
  refine ⟨A.nonneg _ sum_nonneg, ?_⟩
  unfold average
  norm_num at rest first second sum second_le ⊢
  linarith

/-- A running average after several values. -/
def averages (A : Arithmetic) (share current : ℚ) (values : List ℚ) : ℚ :=
  values.foldl (average A share) current

/-- The average in which the first value and each later one have their weights. -/
def weighted (share current : ℚ) (values : List ℚ) : ℚ :=
  (1 - share) ^ values.length * current +
    ∑ i ∈ Finset.range values.length,
      share * (1 - share) ^ (values.length - 1 - i) * values.getD i 0

theorem weighted_concat (share current v : ℚ) (values : List ℚ) :
    weighted share current (values ++ [v]) = share * v + (1 - share) * weighted share current values := by
  have last : (values ++ [v]).getD values.length 0 = v := by simp
  have sum : ∑ i ∈ Finset.range values.length,
      share * (1 - share) ^ (values.length - i) * (values ++ [v]).getD i 0 =
      (1 - share) * ∑ i ∈ Finset.range values.length,
        share * (1 - share) ^ (values.length - 1 - i) * values.getD i 0 := by
    rw [Finset.mul_sum]
    refine Finset.sum_congr rfl fun i mem => ?_
    have less := Finset.mem_range.mp mem
    rw [show values.length - i = values.length - 1 - i + 1 by omega, pow_succ,
      List.getD_append _ _ _ _ less]
    ring
  rw [weighted, weighted, List.length_append, List.length_singleton, Nat.add_sub_cancel,
    Finset.sum_range_succ, sum, last, Nat.sub_self, pow_zero]
  ring

/-- An exact running average is the one with these weights. -/
theorem averages_exact (share current : ℚ) (values : List ℚ) :
    averages exact share current values = weighted share current values := by
  induction values using List.reverseRecOn with
  | nil => simp [weighted, averages]
  | append_singleton values v ih =>
    rw [weighted_concat, ← ih, averages, List.foldl_append]
    rfl

theorem averages_mem {current : ℚ} {values : List ℚ} (values_mem : ∀ v ∈ values, 0 ≤ v ∧ v ≤ 1)
    (current_mem : 0 ≤ current ∧ current ≤ 1 + 1 / 2 ^ 40) :
    0 ≤ averages A (1 / 5) current values ∧
      averages A (1 / 5) current values ≤ 1 + 1 / 2 ^ 40 := by
  induction values generalizing current with
  | nil => exact current_mem
  | cons v values ih =>
    obtain ⟨first, rest⟩ := List.forall_mem_cons.mp values_mem
    exact ih rest (average_mem first current_mem)

/-- An exact average is between bounds of the first value and of those folded in. -/
theorem averages_exact_mem {share current low high : ℚ} {values : List ℚ}
    (share_mem : 0 ≤ share ∧ share ≤ 1) (first : low ≤ current ∧ current ≤ high)
    (bounds : ∀ v ∈ values, low ≤ v ∧ v ≤ high) :
    low ≤ averages exact share current values ∧ averages exact share current values ≤ high := by
  induction values generalizing current with
  | nil => exact first
  | cons v values ih =>
    obtain ⟨here, rest⟩ := List.forall_mem_cons.mp bounds
    refine ih ?_ rest
    show low ≤ share * v + (1 - share) * current ∧ share * v + (1 - share) * current ≤ high
    obtain ⟨nonneg, le⟩ := share_mem
    constructor <;> nlinarith

end Arithmetic

end Binary64
