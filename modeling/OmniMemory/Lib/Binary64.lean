import Mathlib.Data.Int.Log
import Mathlib.Data.Rat.Floor
import Mathlib.Algebra.Order.Field.Power
import Mathlib.Tactic.NormNum

/-! Rounding to 53 binary digits, to the nearest and of two to the even one, as a floating-point
product or a quotient is rounded that neither overflows nor is subnormal, and the products of all
values. -/

namespace Binary64

/-- The integer nearest to `q`, and of two the even one. -/
def roundHalfEven (q : ℚ) : ℤ :=
  let below := ⌊q⌋
  let rest := q - below
  if rest < 1 / 2 ∨ rest = 1 / 2 ∧ below % 2 = 0 then below else below + 1

/-- What one unit in the last of the 53 digits of `q` is worth. -/
def ulp (q : ℚ) : ℚ := 2 ^ (Int.log 2 q - 52)

/-- A positive number, rounded. -/
def round (q : ℚ) : ℚ := roundHalfEven (q / ulp q) * ulp q

/-- Ten times the number that is closest to 1.1, which is above 1.1. -/
example : round (10 * (2476979795053773 / 2 ^ 51)) = 11 := by decide +kernel

theorem floor_le_roundHalfEven (q : ℚ) : ⌊q⌋ ≤ roundHalfEven q := by
  simp only [roundHalfEven]
  split <;> omega

theorem ulp_pos (q : ℚ) : 0 < ulp q := zpow_pos (by norm_num) _

theorem ulp_le {q : ℚ} (pos : 0 < q) : ulp q ≤ q := by
  have log : (2 : ℚ) ^ Int.log 2 q ≤ q := Int.zpow_log_le_self (by norm_num) pos
  refine le_trans (zpow_le_zpow_right₀ (by norm_num) ?_) log
  omega

theorem round_pos {q : ℚ} (pos : 0 < q) : 0 < round q := by
  have one : 1 ≤ q / ulp q := (one_le_div (ulp_pos q)).mpr (ulp_le pos)
  have floor : 1 ≤ ⌊q / ulp q⌋ := Int.le_floor.mpr (by simpa using one)
  have rounded : 0 < roundHalfEven (q / ulp q) :=
    lt_of_lt_of_le (by omega) (floor_le_roundHalfEven _)
  exact mul_pos (by exact_mod_cast rounded) (ulp_pos q)

theorem round_nonneg {q : ℚ} (nonneg : 0 ≤ q) : 0 ≤ round q := by
  rcases nonneg.lt_or_eq with pos | rfl
  · exact (round_pos pos).le
  · decide +kernel

theorem roundHalfEven_le {q : ℚ} {n : ℤ} (le : q ≤ n) : roundHalfEven q ≤ n := by
  have below : ⌊q⌋ ≤ n := by exact_mod_cast (Int.floor_le q).trans le
  simp only [roundHalfEven]
  split
  · exact below
  · rename_i up
    rcases below.lt_or_eq with lt | same
    · omega
    · exfalso
      have rest : q - (⌊q⌋ : ℚ) ≤ 0 := by rw [same]; linarith
      exact up (.inl (by linarith))

/-- A number up to a natural number that has a float is rounded to one up to it. -/
theorem round_le {q : ℚ} {n : ℕ} (pos : 0 < q) (le : q ≤ n) (small : n < 2 ^ 53) :
    round q ≤ n := by
  have log : Int.log 2 q ≤ 52 := by
    have above : q < (2 : ℚ) ^ (53 : ℤ) := lt_of_le_of_lt le (by exact_mod_cast small)
    have : Int.log 2 q < 53 :=
      (Int.lt_zpow_iff_log_lt (by norm_num) pos).mp (by exact_mod_cast above)
    omega
  obtain ⟨k, width⟩ := Int.eq_ofNat_of_zero_le (show 0 ≤ 52 - Int.log 2 q by omega)
  have units : (n : ℚ) / ulp q = ((n * 2 ^ k : ℤ) : ℚ) := by
    have exponent : Int.log 2 q - 52 = -(k : ℤ) := by omega
    rw [ulp, exponent, zpow_neg, zpow_natCast, div_inv_eq_mul]
    push_cast
    ring
  have bound : roundHalfEven (q / ulp q) ≤ n * 2 ^ k := by
    refine roundHalfEven_le ?_
    rw [← units]
    exact div_le_div_of_nonneg_right le (ulp_pos q).le
  calc round q = roundHalfEven (q / ulp q) * ulp q := rfl
    _ ≤ ((n * 2 ^ k : ℤ) : ℚ) * ulp q :=
      mul_le_mul_of_nonneg_right (by exact_mod_cast bound) (ulp_pos q).le
    _ = n := by rw [← units, div_mul_cancel₀ _ (ulp_pos q).ne']

/-- A number from a natural number that has a float on is rounded to one from it on. -/
theorem le_round {q : ℚ} {n : ℕ} (pos : 0 < q) (le : n ≤ q) (small : n ≤ 2 ^ 53) :
    (n : ℚ) ≤ round q := by
  have floor : ((⌊q / ulp q⌋ : ℤ) : ℚ) * ulp q ≤ round q :=
    mul_le_mul_of_nonneg_right (by exact_mod_cast floor_le_roundHalfEven _) (ulp_pos q).le
  refine le_trans ?_ floor
  rcases le_or_gt (Int.log 2 q) 52 with low | high
  · obtain ⟨k, width⟩ := Int.eq_ofNat_of_zero_le (show 0 ≤ 52 - Int.log 2 q by omega)
    have units : (n : ℚ) / ulp q = ((n * 2 ^ k : ℤ) : ℚ) := by
      have exponent : Int.log 2 q - 52 = -(k : ℤ) := by omega
      rw [ulp, exponent, zpow_neg, zpow_natCast, div_inv_eq_mul]
      push_cast
      ring
    have below : (n * 2 ^ k : ℤ) ≤ ⌊q / ulp q⌋ := by
      refine Int.le_floor.mpr ?_
      rw [← units]
      exact div_le_div_of_nonneg_right le (ulp_pos q).le
    calc (n : ℚ) = ((n * 2 ^ k : ℤ) : ℚ) * ulp q := by rw [← units, div_mul_cancel₀ _ (ulp_pos q).ne']
      _ ≤ _ := mul_le_mul_of_nonneg_right (by exact_mod_cast below) (ulp_pos q).le
  · have split : (2 : ℚ) ^ Int.log 2 q = 2 ^ (52 : ℤ) * ulp q := by
      rw [ulp, ← zpow_add₀ (by norm_num)]
      congr 1
      omega
    have below : (2 ^ 52 : ℤ) ≤ ⌊q / ulp q⌋ := by
      refine Int.le_floor.mpr ((le_div_iff₀ (ulp_pos q)).mpr ?_)
      have := Int.zpow_log_le_self (b := 2) (by norm_num) pos
      rw [Nat.cast_ofNat, split] at this
      exact_mod_cast this
    calc (n : ℚ) ≤ 2 ^ (53 : ℤ) := by exact_mod_cast small
      _ ≤ 2 ^ Int.log 2 q := zpow_le_zpow_right₀ (by norm_num) (by omega)
      _ = ((2 ^ 52 : ℤ) : ℚ) * ulp q := by rw [split]; norm_num
      _ ≤ _ := mul_le_mul_of_nonneg_right (by exact_mod_cast below) (ulp_pos q).le

theorem roundHalfEven_mono {p q : ℚ} (le : p ≤ q) : roundHalfEven p ≤ roundHalfEven q := by
  have floors : ⌊p⌋ ≤ ⌊q⌋ := Int.floor_mono le
  have above : roundHalfEven p ≤ ⌊p⌋ + 1 := by
    simp only [roundHalfEven]
    split <;> omega
  have below := floor_le_roundHalfEven q
  rcases floors.lt_or_eq with lt | same
  · omega
  · simp only [roundHalfEven, same] at *
    split
    · split <;> omega
    · rename_i up
      rw [if_neg]
      rintro (less | ⟨half, even⟩)
      · exact up (.inl (by linarith))
      · rcases le.lt_or_eq with lt | rfl
        · exact up (.inl (by linarith))
        · exact up (.inr ⟨half, even⟩)

theorem ulp_eq (q : ℚ) : 2 ^ (52 : ℕ) * ulp q = 2 ^ Int.log 2 q := by
  rw [ulp, ← zpow_natCast, ← zpow_add₀ (by norm_num)]
  congr 1
  push_cast
  ring

/-- Rounding keeps the order of positive numbers. -/
theorem round_mono {p q : ℚ} (pos : 0 < p) (le : p ≤ q) : round p ≤ round q := by
  have logs : Int.log 2 p ≤ Int.log 2 q := Int.log_mono_right pos le
  rcases logs.lt_or_eq with lt | same
  · have low : (2 : ℚ) ^ Int.log 2 q ≤ round q := by
      have whole : ((2 ^ 52 : ℤ) : ℚ) ≤ q / ulp q := by
        rw [le_div_iff₀ (ulp_pos q), Int.cast_pow, Int.cast_ofNat, ulp_eq]
        exact Int.zpow_log_le_self (by norm_num) (pos.trans_le le)
      have floor : (2 ^ 52 : ℤ) ≤ roundHalfEven (q / ulp q) :=
        (Int.le_floor.mpr whole).trans (floor_le_roundHalfEven _)
      rw [← ulp_eq]
      exact mul_le_mul_of_nonneg_right (by exact_mod_cast floor) (ulp_pos q).le
    have high : round p ≤ 2 ^ (Int.log 2 p + 1) := by
      have two : (2 : ℚ) ^ (Int.log 2 p + 1) = ((2 ^ 53 : ℤ) : ℚ) * ulp p := by
        rw [zpow_add_one₀ (by norm_num), ← ulp_eq, Int.cast_pow, Int.cast_ofNat]
        ring
      have less : p / ulp p ≤ ((2 ^ 53 : ℤ) : ℚ) := by
        rw [div_le_iff₀ (ulp_pos p), ← two]
        exact (Int.lt_zpow_succ_log_self (by norm_num) p).le
      rw [two]
      exact mul_le_mul_of_nonneg_right (by exact_mod_cast roundHalfEven_le less) (ulp_pos p).le
    exact high.trans ((zpow_le_zpow_right₀ (by norm_num) (by omega)).trans low)
  · have units : ulp p = ulp q := by rw [ulp, ulp, same]
    rw [round, round, units]
    refine mul_le_mul_of_nonneg_right ?_ (ulp_pos q).le
    exact_mod_cast roundHalfEven_mono (div_le_div_of_nonneg_right le (ulp_pos q).le)

/-- A number of either sign, rounded. -/
def nearest (q : ℚ) : ℚ := if q < 0 then -round (-q) else round q

theorem nearest_mem {q : ℚ} {n : ℕ} (nonneg : 0 ≤ q) (le : q ≤ n) (small : n < 2 ^ 53) :
    0 ≤ nearest q ∧ nearest q ≤ n := by
  rw [nearest, if_neg nonneg.not_gt]
  refine ⟨round_nonneg nonneg, ?_⟩
  rcases nonneg.lt_or_eq with pos | rfl
  · exact round_le pos le small
  · have zero : round 0 = 0 := by decide +kernel
    rw [zero]
    exact n.cast_nonneg

/-! ### All values -/

/-- A floating-point value, without the sign of a zero. -/
inductive Value where
  | nan
  | infinite (negative : Bool)
  | finite (q : ℚ)
deriving DecidableEq

namespace Value

/-- What one unit in the last digit is worth near `q`, which is the same for all subnormals. -/
def unit (q : ℚ) : ℚ := 2 ^ max (Int.log 2 q - 52) (-1074)

/-- `q` rounded to a value. -/
def ofRat (q : ℚ) : Value :=
  let size := roundHalfEven (|q| / unit |q|) * unit |q|
  if 2 ^ 1024 ≤ size then infinite (decide (q < 0)) else finite (if q < 0 then -size else size)

/-- The value is less than zero. -/
def isNegative : Value → Bool
  | nan => false
  | infinite negative => negative
  | finite q => decide (q < 0)

def mul : Value → Value → Value
  | nan, _ | _, nan => nan
  | infinite s, infinite t => infinite (s != t)
  | infinite s, finite q | finite q, infinite s =>
    if q = 0 then nan else infinite (s != decide (q < 0))
  | finite p, finite q => ofRat (p * q)

/-- `min(1.0, x)`, which is the second value only when this is less. -/
def minOne : Value → Value
  | finite q => if q < 1 then finite q else finite 1
  | infinite true => infinite true
  | nan | infinite false => finite 1

example : ofRat (1 / 3) = finite (6004799503160661 / 2 ^ 54) := by decide +kernel

section Sign

variable {a b : Value} {q : ℚ}

theorem isNegative_ofRat (nonneg : 0 ≤ q) : (ofRat q).isNegative = false := by
  have unit : 0 < unit |q| := zpow_pos (by norm_num) _
  have units : (0 : ℤ) ≤ roundHalfEven (|q| / Value.unit |q|) :=
    le_trans (Int.floor_nonneg.mpr (div_nonneg (abs_nonneg q) unit.le)) (floor_le_roundHalfEven _)
  have size : 0 ≤ (roundHalfEven (|q| / Value.unit |q|) : ℚ) * Value.unit |q| :=
    mul_nonneg (by exact_mod_cast units) unit.le
  have sign : ¬ q < 0 := nonneg.not_gt
  simp only [ofRat, sign, if_false]
  split
  · rfl
  · simpa [isNegative] using size

/-- A product of values that are not negative is not negative. -/
theorem isNegative_mul (left : a.isNegative = false) (right : b.isNegative = false) :
    (mul a b).isNegative = false := by
  cases a with
  | nan => rfl
  | infinite s =>
    cases b with
    | nan => rfl
    | infinite t =>
      obtain rfl : s = false := left
      obtain rfl : t = false := right
      rfl
    | finite q =>
      obtain rfl : s = false := left
      simp only [isNegative] at right
      simp only [mul]
      split
      · rfl
      · simp [isNegative, right]
  | finite p =>
    cases b with
    | nan => rfl
    | infinite t =>
      obtain rfl : t = false := right
      simp only [isNegative] at left
      simp only [mul]
      split
      · rfl
      · simp [isNegative, left]
    | finite q =>
      simp only [isNegative, decide_eq_false_iff_not, not_lt] at left right
      exact isNegative_ofRat (mul_nonneg left right)

theorem exists_minOne (nonneg : a.isNegative = false) :
    ∃ q, minOne a = finite q ∧ 0 ≤ q ∧ q ≤ 1 := by
  cases a with
  | nan => exact ⟨1, rfl, by norm_num, le_rfl⟩
  | infinite s =>
    obtain rfl : s = false := nonneg
    exact ⟨1, rfl, by norm_num, le_rfl⟩
  | finite q =>
    simp only [isNegative, decide_eq_false_iff_not, not_lt] at nonneg
    simp only [minOne]
    split
    · rename_i less
      exact ⟨q, rfl, nonneg, less.le⟩
    · exact ⟨1, rfl, by norm_num, le_rfl⟩

end Sign

end Value

end Binary64
