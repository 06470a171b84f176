import OmniMemory.Lib.Binary64
import Mathlib.Analysis.SpecialFunctions.Log.Basic

/-! Code over floats, which is read twice: over binary64, where an operation rounds and there are
infinities and a value that is not a number, and over the real numbers. `min` and `max` take the
first of their arguments unless the second is less, or greater. -/

namespace Binary64

/-- Numbers that float literals and integers stand for. An integer that is too large for a float is
not converted. -/
class Numbers (F : Type) where
  ofRat : ℚ → F
  ofInt : ℤ → Option F

/-- The two functions of `math` that are not the same on every machine. -/
structure PyMath (F : Type) where
  exp : F → F
  log : F → F

section Choice

variable {F : Type} [LT F] [DecidableLT F]

def pyMax (a b : F) : F := if a < b then b else a

def pyMin (a b : F) : F := if b < a then b else a

end Choice

noncomputable instance : Numbers ℝ where
  ofRat q := q
  ofInt n := some n

noncomputable def PyMath.real : PyMath ℝ where
  exp := Real.exp
  log := Real.log

namespace Value

instance : Numbers Value where
  ofRat := ofRat
  ofInt n :=
    match ofRat n with
    | finite q => some (finite q)
    | nan | infinite _ => none

def neg : Value → Value
  | nan => nan
  | infinite negative => infinite !negative
  | finite q => finite (-q)

def add : Value → Value → Value
  | nan, _ | _, nan => nan
  | infinite s, infinite t => if s = t then infinite s else nan
  | infinite s, finite _ | finite _, infinite s => infinite s
  | finite p, finite q => ofRat (p + q)

/-- A quotient by what is not zero. -/
def div : Value → Value → Value
  | nan, _ | _, nan | infinite _, infinite _ => nan
  | infinite s, finite q => infinite (s != decide (q < 0))
  | finite _, infinite _ => finite 0
  | finite p, finite q => ofRat (p / q)

def lt : Value → Value → Bool
  | nan, _ | _, nan => false
  | infinite s, infinite t => s && !t
  | infinite s, finite _ => s
  | finite _, infinite t => !t
  | finite p, finite q => decide (p < q)

def le : Value → Value → Bool
  | nan, _ | _, nan => false
  | infinite s, infinite t => s || !t
  | infinite s, finite _ => s
  | finite _, infinite t => !t
  | finite p, finite q => decide (p ≤ q)

instance : Neg Value := ⟨neg⟩
instance : Add Value := ⟨add⟩
instance : Sub Value := ⟨fun a b => add a (neg b)⟩
instance : Mul Value := ⟨mul⟩
instance : Div Value := ⟨div⟩
instance : LT Value := ⟨fun a b => lt a b⟩
instance : LE Value := ⟨fun a b => le a b⟩
instance : DecidableLT Value := fun a b => inferInstanceAs (Decidable (lt a b = true))
instance : DecidableLE Value := fun a b => inferInstanceAs (Decidable (le a b = true))

section Order

variable {a b c : Value}

attribute [local simp] lt le

theorem le_of_lt (less : a < b) : a ≤ b := by
  change lt a b = true at less
  change le a b = true
  cases a <;> cases b <;> simp_all [LT.lt.le]

theorem not_lt_of_le (le : a ≤ b) : ¬ b < a := by
  change Value.le a b = true at le
  change ¬ lt b a = true
  cases a <;> cases b <;> simp_all
  rintro rfl
  simpa using le

/-- Two numbers are comparable. -/
theorem le_of_not_lt (num : a ≤ a) (num' : b ≤ b) (not : ¬ b < a) : a ≤ b := by
  change Value.le a a = true at num
  change Value.le b b = true at num'
  change ¬ lt b a = true at not
  change Value.le a b = true
  cases a <;> cases b <;> simp_all
  exact or_iff_not_imp_right.mpr fun negative => not (by simpa using negative)

theorem le_self_of_lt (less : a < b) : b ≤ b := by
  change lt a b = true at less
  change Value.le b b = true
  cases a <;> cases b <;> simp_all

theorem lt_trans (left : a < b) (right : b < c) : a < c := by
  change lt a b = true at left
  change lt b c = true at right
  change lt a c = true
  cases a <;> cases b <;> cases c <;> simp_all
  exact left.trans right

end Order

/-- A number up to a natural number that has a float is rounded to one up to it, of its sign. -/
theorem exists_ofRat {q : ℚ} {n : ℕ} (le : |q| ≤ n) (small : n < 2 ^ 53) :
    ∃ r, ofRat q = finite r ∧ |r| ≤ n ∧ (0 ≤ q → 0 ≤ r) := by
  have log : Int.log 2 |q| ≤ 52 := by
    rcases (abs_nonneg q).lt_or_eq with pos | zero
    · have above : |q| < (2 : ℚ) ^ (53 : ℤ) := lt_of_le_of_lt le (by exact_mod_cast small)
      have : Int.log 2 |q| < 53 :=
        (Int.lt_zpow_iff_log_lt (by norm_num) pos).mp (by exact_mod_cast above)
      omega
    · simp [← zero]
  obtain ⟨k, width⟩ := Int.eq_ofNat_of_zero_le (show 0 ≤ -max (Int.log 2 |q| - 52) (-1074) by omega)
  have pos : 0 < unit |q| := zpow_pos (by norm_num) _
  have units : (n : ℚ) / unit |q| = ((n * 2 ^ k : ℤ) : ℚ) := by
    have exponent : max (Int.log 2 |q| - 52) (-1074) = -(k : ℤ) := by omega
    rw [unit, exponent, zpow_neg, zpow_natCast, div_inv_eq_mul]
    push_cast
    ring
  have above : roundHalfEven (|q| / unit |q|) ≤ n * 2 ^ k := by
    refine roundHalfEven_le ?_
    rw [← units]
    exact div_le_div_of_nonneg_right le pos.le
  have below : 0 ≤ roundHalfEven (|q| / unit |q|) :=
    le_trans (Int.floor_nonneg.mpr (div_nonneg (abs_nonneg q) pos.le)) (floor_le_roundHalfEven _)
  have size : (roundHalfEven (|q| / unit |q|) : ℚ) * unit |q| ≤ n :=
    calc (roundHalfEven (|q| / unit |q|) : ℚ) * unit |q|
      _ ≤ ((n * 2 ^ k : ℤ) : ℚ) * unit |q| :=
        mul_le_mul_of_nonneg_right (by exact_mod_cast above) pos.le
      _ = n := by rw [← units, div_mul_cancel₀ _ pos.ne']
  have nonneg : 0 ≤ (roundHalfEven (|q| / unit |q|) : ℚ) * unit |q| :=
    mul_nonneg (by exact_mod_cast below) pos.le
  have fits : ¬ (2 : ℚ) ^ 1024 ≤ (roundHalfEven (|q| / unit |q|) : ℚ) * unit |q| := by
    have : (n : ℚ) < 2 ^ 1024 := lt_of_lt_of_le (by exact_mod_cast small)
      (pow_le_pow_right₀ (by norm_num) (by norm_num : 53 ≤ 1024))
    exact not_le.mpr (lt_of_le_of_lt size this)
  refine ⟨_, by simp only [ofRat]; rw [if_neg fits], ?_, ?_⟩
  · split
    · rwa [abs_neg, abs_of_nonneg nonneg]
    · rwa [abs_of_nonneg nonneg]
  · intro sign
    rw [if_neg sign.not_gt]
    exact nonneg

end Value

end Binary64
