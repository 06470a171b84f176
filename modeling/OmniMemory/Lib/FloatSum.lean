import Mathlib.Data.Nat.Sqrt
import OmniMemory.Lib.Floats

/-! Which numbers have a float, `sum` over floats, which keeps the errors of its additions and adds them
at the end, and `math.sqrt`. A sum of squares is not negative, whatever is rounded on the way, and roots
of floats are so large that products of two of them do not vanish. -/

namespace Binary64.Value

/-! ### Numbers that have a float -/

/-- A number that has a float, unless it is too large for one. -/
def Fits (q : ℚ) : Prop := ∃ m e : ℤ, |m| < 2 ^ 53 ∧ -1074 ≤ e ∧ q = m * 2 ^ e

/-- A number that is not negative, rounded, as if there were no largest float. -/
def size (x : ℚ) : ℚ := roundHalfEven (x / unit x) * unit x

/-- A number rounded, as if there were no largest float. -/
def rounded (q : ℚ) : ℚ := if q < 0 then -size |q| else size |q|

section Rounding

variable {p q r x y : ℚ} {m e : ℤ}

theorem unit_pos (q : ℚ) : 0 < unit q := zpow_pos (by norm_num) _

theorem two_zpow_le {a b : ℤ} (le : a ≤ b) : (2 : ℚ) ^ a ≤ 2 ^ b := zpow_le_zpow_right₀ (by norm_num) le

theorem lt_unit (x : ℚ) : x < 2 ^ (53 : ℤ) * unit x := by
  have log : x < (2 : ℚ) ^ (Int.log 2 x + 1) := Int.lt_zpow_succ_log_self (by norm_num) x
  refine log.trans_le ?_
  rw [unit, ← zpow_add₀ (by norm_num)]
  apply two_zpow_le
  omega

theorem unit_le (pos : 0 < x) (normal : -1074 < Int.log 2 x - 52) : 2 ^ (52 : ℤ) * unit x ≤ x := by
  have log : (2 : ℚ) ^ Int.log 2 x ≤ x := Int.zpow_log_le_self (by norm_num) pos
  refine le_trans ?_ log
  rw [unit, ← zpow_add₀ (by norm_num)]
  apply two_zpow_le
  omega

theorem roundHalfEven_intCast (n : ℤ) : roundHalfEven n = n := by
  simp [roundHalfEven]

theorem size_zero : size 0 = 0 := by
  simp [size, roundHalfEven]

theorem size_nonneg (nonneg : 0 ≤ x) : 0 ≤ size x := by
  have units : 0 ≤ roundHalfEven (x / unit x) :=
    le_trans (Int.floor_nonneg.mpr (div_nonneg nonneg (unit_pos x).le)) (floor_le_roundHalfEven _)
  exact mul_nonneg (by exact_mod_cast units) (unit_pos x).le

theorem size_le (x : ℚ) : size x ≤ 2 ^ (53 : ℤ) * unit x := by
  have bound : roundHalfEven (x / unit x) ≤ (2 ^ 53 : ℤ) := by
    refine roundHalfEven_le ((div_le_iff₀ (unit_pos x)).mpr ?_)
    exact_mod_cast (lt_unit x).le
  exact mul_le_mul_of_nonneg_right (by exact_mod_cast bound) (unit_pos x).le

theorem le_size (pos : 0 < x) (normal : -1074 < Int.log 2 x - 52) : 2 ^ (52 : ℤ) * unit x ≤ size x := by
  have bound : (2 ^ 52 : ℤ) ≤ roundHalfEven (x / unit x) := by
    refine le_trans (Int.le_floor.mpr ((le_div_iff₀ (unit_pos x)).mpr ?_)) (floor_le_roundHalfEven _)
    exact_mod_cast unit_le pos normal
  exact mul_le_mul_of_nonneg_right (by exact_mod_cast bound) (unit_pos x).le

theorem size_mono (nonneg : 0 ≤ x) (le : x ≤ y) : size x ≤ size y := by
  rcases nonneg.lt_or_eq with pos | rfl
  · have logs : Int.log 2 x ≤ Int.log 2 y := Int.log_mono_right pos le
    by_cases same : max (Int.log 2 x - 52) (-1074) = max (Int.log 2 y - 52) (-1074)
    · have units : unit x = unit y := by rw [unit, unit, same]
      rw [size, size, units]
      refine mul_le_mul_of_nonneg_right ?_ (unit_pos y).le
      exact_mod_cast roundHalfEven_mono (div_le_div_of_nonneg_right le (unit_pos y).le)
    · -- The larger number has larger units, and is no subnormal.
      refine (size_le x).trans (le_trans ?_ (le_size (pos.trans_le le) (by omega)))
      rw [unit, unit, ← zpow_add₀ (by norm_num), ← zpow_add₀ (by norm_num)]
      apply two_zpow_le
      omega
  · rw [size_zero]
    exact size_nonneg le

/-- A number that has a float is its own rounding. -/
theorem size_eq_self (nonneg : 0 ≤ x) (fits : Fits x) : size x = x := by
  obtain ⟨m, e, small, least, rfl⟩ := fits
  rcases nonneg.lt_or_eq with pos | zero
  · have pos_m : 0 < m := by
      have := (mul_pos_iff_of_pos_right (zpow_pos (by norm_num) e)).mp pos
      exact_mod_cast this
    have log : Int.log 2 ((m : ℚ) * 2 ^ e) < e + 53 := by
      refine (Int.lt_zpow_iff_log_lt (by norm_num) pos).mp ?_
      rw [Nat.cast_ofNat, zpow_add₀ (by norm_num), mul_comm]
      refine mul_lt_mul_of_pos_left ?_ (zpow_pos (by norm_num) e)
      exact_mod_cast lt_of_abs_lt small
    obtain ⟨k, width⟩ := Int.eq_ofNat_of_zero_le
      (show 0 ≤ e - max (Int.log 2 ((m : ℚ) * 2 ^ e) - 52) (-1074) by omega)
    have units : ((m : ℚ) * 2 ^ e) / unit ((m : ℚ) * 2 ^ e) = ((m * 2 ^ k : ℤ) : ℚ) := by
      have split : (2 : ℚ) ^ e = 2 ^ k * unit ((m : ℚ) * 2 ^ e) := by
        rw [unit, ← zpow_natCast, ← zpow_add₀ (by norm_num)]
        congr 1
        omega
      rw [div_eq_iff (unit_pos _).ne']
      conv => lhs; rw [split]
      push_cast
      ring
    rw [size, units, roundHalfEven_intCast, ← units, div_mul_cancel₀ _ (unit_pos _).ne']
  · rw [← zero, size_zero]

theorem Fits.neg (fits : Fits q) : Fits (-q) := by
  obtain ⟨m, e, small, least, rfl⟩ := fits
  exact ⟨-m, e, by rwa [abs_neg], least, by push_cast; ring⟩

/-- What is rounded has a float. -/
theorem fits_size (nonneg : 0 ≤ x) : Fits (size x) := by
  rcases nonneg.lt_or_eq with pos | rfl
  · have nonneg : 0 ≤ roundHalfEven (x / unit x) :=
      le_trans (Int.floor_nonneg.mpr (div_nonneg pos.le (unit_pos x).le)) (floor_le_roundHalfEven _)
    have bound : roundHalfEven (x / unit x) ≤ (2 ^ 53 : ℤ) := by
      refine roundHalfEven_le ((div_le_iff₀ (unit_pos x)).mpr ?_)
      exact_mod_cast (lt_unit x).le
    rcases bound.lt_or_eq with less | same
    · exact ⟨roundHalfEven (x / unit x), max (Int.log 2 x - 52) (-1074), by rwa [abs_of_nonneg nonneg],
        le_max_right _ _, rfl⟩
    · refine ⟨2 ^ 52, max (Int.log 2 x - 52) (-1074) + 1, by norm_num, by omega, ?_⟩
      rw [size, same, unit, zpow_add_one₀ (by norm_num)]
      push_cast
      ring
  · rw [size_zero]
    exact ⟨0, 0, by norm_num, by norm_num, by norm_num⟩

theorem rounded_nonneg (nonneg : 0 ≤ q) : 0 ≤ rounded q := by
  rw [rounded, if_neg nonneg.not_gt]
  exact size_nonneg (abs_nonneg q)

theorem rounded_neg (neg : q < 0) : rounded q ≤ 0 := by
  rw [rounded, if_pos neg, neg_nonpos]
  exact size_nonneg (abs_nonneg q)

theorem rounded_mono (le : p ≤ q) : rounded p ≤ rounded q := by
  by_cases neg : p < 0
  · by_cases neg' : q < 0
    · rw [rounded, rounded, if_pos neg, if_pos neg', neg_le_neg_iff]
      refine size_mono (abs_nonneg q) ?_
      rw [abs_of_neg neg, abs_of_neg neg']
      linarith
    · exact (rounded_neg neg).trans (rounded_nonneg (not_lt.mp neg'))
  · have nonneg := not_lt.mp neg
    rw [rounded, rounded, if_neg neg, if_neg (nonneg.trans le).not_gt]
    refine size_mono (abs_nonneg p) ?_
    rwa [abs_of_nonneg nonneg, abs_of_nonneg (nonneg.trans le)]

theorem Fits.abs (fits : Fits q) : Fits |q| := by
  rcases abs_choice q with same | neg
  · rwa [same]
  · rw [neg]
    exact fits.neg

theorem rounded_eq_self (fits : Fits q) : rounded q = q := by
  rw [rounded, size_eq_self (abs_nonneg q) fits.abs]
  split
  · rename_i neg
    rw [abs_of_neg neg, neg_neg]
  · rename_i nonneg
    exact abs_of_nonneg (not_lt.mp nonneg)

theorem fits_rounded (q : ℚ) : Fits (rounded q) := by
  rw [rounded]
  split
  · exact (fits_size (abs_nonneg q)).neg
  · exact fits_size (abs_nonneg q)

theorem abs_rounded (q : ℚ) : |rounded q| = size |q| := by
  rw [rounded]
  split
  · rw [abs_neg, abs_of_nonneg (size_nonneg (abs_nonneg q))]
  · exact abs_of_nonneg (size_nonneg (abs_nonneg q))

/-- The numbers that have a float. -/
structure IsFloat (q : ℚ) : Prop where
  fits : Fits q
  bounded : |q| < 2 ^ 1024

theorem ofRat_eq (q : ℚ) :
    ofRat q = if 2 ^ 1024 ≤ |rounded q| then infinite (decide (q < 0)) else finite (rounded q) := by
  rw [abs_rounded]
  rfl

theorem IsFloat.ofRat (float : IsFloat q) : Value.ofRat q = finite q := by
  rw [ofRat_eq, rounded_eq_self float.fits, if_neg float.bounded.not_ge]

theorem isFloat_ofRat (rounds : ofRat q = finite r) : IsFloat r ∧ r = rounded q := by
  rw [ofRat_eq] at rounds
  split at rounds
  · cases rounds
  · rename_i bounded
    obtain rfl := Value.finite.inj rounds
    exact ⟨⟨fits_rounded q, not_le.mp bounded⟩, rfl⟩

/-- A number that is not below a float is not rounded to less. -/
theorem le_ofRat (float : IsFloat r) (le : r ≤ q) :
    ofRat q = infinite false ∨ ∃ s, ofRat q = finite s ∧ IsFloat s ∧ r ≤ s := by
  have mono := rounded_mono le
  rw [rounded_eq_self float.fits] at mono
  rw [ofRat_eq]
  split
  · rename_i large
    left
    have nonneg : ¬ q < 0 := by
      intro neg
      rw [abs_of_nonpos (rounded_neg neg)] at large
      have above := neg_lt_of_abs_lt float.bounded
      generalize (2 : ℚ) ^ 1024 = top at large above
      linarith
    rw [decide_eq_false nonneg]
  · rename_i bounded
    exact .inr ⟨_, rfl, ⟨fits_rounded q, not_le.mp bounded⟩, mono⟩

/-- The difference of two floats that are not far from each other has a float. -/
theorem isFloat_sub (left : IsFloat p) (right : IsFloat r) (nonneg : 0 ≤ p) (le : p ≤ r) (near : r ≤ 2 * p) :
    IsFloat (r - p) := by
  have bounded : |r - p| < 2 ^ 1024 := by
    rw [abs_of_nonneg (sub_nonneg.mpr le)]
    refine lt_of_le_of_lt ?_ (lt_of_abs_lt left.bounded)
    linarith
  refine ⟨?_, bounded⟩
  obtain ⟨m, e, small, least, p_eq⟩ := left.fits
  obtain ⟨n, f, small', least', r_eq⟩ := right.fits
  have coarse {a b : ℤ} {g h : ℤ} (finer : g ≤ h) : ∃ c : ℤ, (b : ℚ) * 2 ^ h - a * 2 ^ g = c * 2 ^ g := by
    obtain ⟨k, width⟩ := Int.eq_ofNat_of_zero_le (show 0 ≤ h - g by omega)
    refine ⟨b * 2 ^ k - a, ?_⟩
    have split : (2 : ℚ) ^ h = 2 ^ k * 2 ^ g := by
      rw [← zpow_natCast, ← zpow_add₀ (by norm_num)]
      congr 1
      omega
    rw [split]
    push_cast
    ring
  -- The units of the finer of the two serve for the difference, which is not larger than either.
  have within {c a g : ℤ} (small : |a| < 2 ^ 53) (diff : r - p = c * 2 ^ g) (bound : r - p ≤ a * 2 ^ g) :
      |c| < 2 ^ 53 := by
    have pos : (0 : ℚ) < 2 ^ g := zpow_pos (by norm_num) g
    have le_a : (c : ℚ) ≤ a := by
      rw [diff] at bound
      exact le_of_mul_le_mul_right bound pos
    have nonneg_c : (0 : ℚ) ≤ c := by
      have : 0 ≤ (c : ℚ) * 2 ^ g := by rw [← diff]; linarith
      exact nonneg_of_mul_nonneg_left this pos
    have le_a : c ≤ a := by exact_mod_cast le_a
    have nonneg_c : 0 ≤ c := by exact_mod_cast nonneg_c
    rw [abs_of_nonneg nonneg_c]
    have := lt_of_abs_lt small
    omega
  rcases le_total e f with finer | finer
  · obtain ⟨c, diff⟩ := coarse (a := m) (b := n) finer
    rw [← p_eq, ← r_eq] at diff
    exact ⟨c, e, within small diff (by rw [← p_eq]; linarith), least, diff⟩
  · obtain ⟨c, diff⟩ := coarse (a := n) (b := m) finer
    rw [← p_eq, ← r_eq] at diff
    have diff : r - p = ((-c : ℤ) : ℚ) * 2 ^ f := by
      push_cast
      linarith
    exact ⟨-c, f, within small' diff (by rw [← r_eq]; linarith), least', diff⟩

end Rounding

/-! ### `sum` -/

def fabs : Value → Value
  | nan => nan
  | infinite _ => infinite false
  | finite q => finite |q|

/-- One addition of `sum`, to the sum so far and what was lost in its additions. -/
def sumStep (sofar : Value × Value) (x : Value) : Value × Value :=
  let total := sofar.1 + x
  (total, sofar.2 + if x.fabs ≤ sofar.1.fabs then (sofar.1 - total) + x else (x - total) + sofar.1)

/-- `sum` of floats. -/
def pySum : List Value → Value
  | [] => finite 0
  | x :: rest =>
    match rest.foldl sumStep (x, finite 0) with
    | (total, finite lost) => if lost = 0 then total else total + finite lost
    | (total, _) => total

/-- A float that is not negative, as far as it is a number. -/
structure Nonnegative (x : Value) : Prop where
  sign : x.isNegative = false
  isFloat : ∀ q, x = finite q → IsFloat q

/-- The sum so far, and that no more was lost than it has. -/
structure Summed (sofar : Value × Value) : Prop where
  total : Nonnegative sofar.1
  lost : ∀ p d, sofar = (finite p, finite d) → -p ≤ d

section Sum

variable {p q r d : ℚ} {x y : Value} {sofar : Value × Value} {l : List Value}

theorem finite_add (p q : ℚ) : finite p + finite q = ofRat (p + q) := rfl

/-- Only numbers add up to a number. -/
theorem eq_finite_of_add (sum : x + y = finite r) :
    ∃ p q, x = finite p ∧ y = finite q ∧ ofRat (p + q) = finite r := by
  cases x with
  | nan => cases sum
  | infinite s =>
    cases y with
    | nan => cases sum
    | infinite t =>
      have sum : (if s = t then infinite s else nan) = finite r := sum
      split at sum <;> cases sum
    | finite q => cases sum
  | finite p =>
    cases y with
    | nan => cases sum
    | infinite t => cases sum
    | finite q => exact ⟨p, q, rfl, rfl, sum⟩

theorem IsFloat.neg (float : IsFloat q) : IsFloat (-q) :=
  ⟨float.fits.neg, by rw [abs_neg]; exact float.bounded⟩

theorem Nonnegative.of_finite (nonnegative : Nonnegative (finite q)) : 0 ≤ q := by
  simpa [isNegative] using nonnegative.sign

theorem nonnegative_infinite : Nonnegative (infinite false) := ⟨rfl, nofun⟩

theorem nonnegative_nan : Nonnegative nan := ⟨rfl, nofun⟩

theorem nonnegative_ofRat (nonneg : 0 ≤ q) : Nonnegative (ofRat q) :=
  ⟨isNegative_ofRat nonneg, fun _ rounds => (isFloat_ofRat rounds).1⟩

/-- A product of a value with itself. -/
theorem nonnegative_square (x : Value) : Nonnegative (x * x) := by
  cases x with
  | nan => exact nonnegative_nan
  | infinite s => cases s <;> exact nonnegative_infinite
  | finite q => exact nonnegative_ofRat (mul_self_nonneg q)

theorem Nonnegative.add (left : Nonnegative x) (right : Nonnegative y) : Nonnegative (x + y) := by
  cases x with
  | nan => exact nonnegative_nan
  | infinite s =>
    obtain rfl : s = false := left.sign
    cases y with
    | nan => exact nonnegative_nan
    | infinite t =>
      obtain rfl : t = false := right.sign
      exact nonnegative_infinite
    | finite q => exact nonnegative_infinite
  | finite p =>
    cases y with
    | nan => exact nonnegative_nan
    | infinite t =>
      obtain rfl : t = false := right.sign
      exact nonnegative_infinite
    | finite q => exact nonnegative_ofRat (add_nonneg left.of_finite right.of_finite)

/-- What is lost with one more loss, which is `a` and what is added to it. -/
theorem le_lost {a d' : ℚ} (total : IsFloat r) (float : IsFloat a) (nonneg : 0 ≤ q) (enough : -r ≤ d + a)
    (sum : finite d + (finite a + finite q) = finite d') : -r ≤ d' := by
  obtain ⟨_, s, same, loss, sum⟩ := eq_finite_of_add sum
  obtain rfl := Value.finite.inj same
  have more : a ≤ s := by
    rcases le_ofRat float (show a ≤ a + q by linarith) with large | ⟨s', eq, -, le⟩
    · exact absurd (loss.symm.trans large) nofun
    · exact Value.finite.inj (loss.symm.trans eq) ▸ le
  rcases le_ofRat total.neg (show -r ≤ d + s by linarith) with large | ⟨s', eq, -, le⟩
  · exact absurd (sum.symm.trans large) nofun
  · exact Value.finite.inj (sum.symm.trans eq) ▸ le

theorem Summed.step (summed : Summed sofar) (nonnegative : Nonnegative x) : Summed (sumStep sofar x) := by
  refine ⟨summed.total.add nonnegative, fun r d' sum => ?_⟩
  obtain ⟨total, lost⟩ := sofar
  obtain ⟨sum, lost'⟩ := Prod.mk.inj sum
  obtain ⟨p, q, rfl, rfl, rounds⟩ := eq_finite_of_add sum
  have p_float := summed.total.isFloat p rfl
  have q_float := nonnegative.isFloat q rfl
  have p_nonneg := summed.total.of_finite
  have q_nonneg := nonnegative.of_finite
  obtain ⟨r_float, r_eq⟩ := isFloat_ofRat rounds
  have below {a : ℚ} (float : IsFloat a) (le : a ≤ p + q) : a ≤ r := by
    rw [r_eq, ← rounded_eq_self float.fits]
    exact rounded_mono le
  have above {a : ℚ} (float : IsFloat a) (le : p + q ≤ 2 * a) : r ≤ 2 * a := by
    obtain ⟨m, e, small, least, rfl⟩ := float.fits
    have fits : Fits (2 * (m * 2 ^ e)) :=
      ⟨m, e + 1, small, by omega, by rw [zpow_add_one₀ (by norm_num)]; ring⟩
    rw [r_eq, ← rounded_eq_self fits]
    exact rounded_mono le
  -- The difference of the new sum and the larger of the two numbers is exact.
  have exact_sub {a : ℚ} (float : IsFloat a) (nonneg : 0 ≤ a) (le : a ≤ p + q) (near : p + q ≤ 2 * a) :
      IsFloat (a - r) ∧ finite a - finite r = finite (a - r) := by
    have float' : IsFloat (a - r) := by
      have := (isFloat_sub float r_float nonneg (below float le) (above float near)).neg
      rwa [neg_sub] at this
    refine ⟨float', ?_⟩
    rw [← float'.ofRat, sub_eq_add_neg]
    rfl
  obtain ⟨d, -, rfl, -, -⟩ := eq_finite_of_add lost'
  have enough := summed.lost p d rfl
  by_cases small : (finite q).fabs ≤ (finite p).fabs
  · have le : q ≤ p := by
      have := of_decide_eq_true small
      rwa [abs_of_nonneg p_nonneg, abs_of_nonneg q_nonneg] at this
    obtain ⟨float, sub⟩ := exact_sub p_float p_nonneg (by linarith) (by linarith)
    rw [if_pos small, sum, sub] at lost'
    exact le_lost r_float float q_nonneg (by linarith) lost'
  · have lt : p < q := by
      by_contra le
      refine small (decide_eq_true ?_)
      rw [abs_of_nonneg p_nonneg, abs_of_nonneg q_nonneg]
      exact not_lt.mp le
    obtain ⟨float, sub⟩ := exact_sub q_float q_nonneg (by linarith) (by linarith)
    rw [if_neg small, sum, sub] at lost'
    exact le_lost r_float float p_nonneg (by linarith) lost'

theorem Summed.foldl (summed : Summed sofar) (nonnegative : ∀ x ∈ l, Nonnegative x) :
    Summed (l.foldl sumStep sofar) := by
  induction l generalizing sofar with
  | nil => exact summed
  | cons x l ih =>
    exact ih (summed.step (nonnegative x List.mem_cons_self)) fun y mem =>
      nonnegative y (List.mem_cons_of_mem x mem)

/-- What was lost is added to the sum. -/
theorem Summed.add {total : Value} (summed : Summed (total, finite d)) : Nonnegative (total + finite d) := by
  cases total with
  | nan => exact nonnegative_nan
  | infinite s =>
    obtain rfl : s = false := summed.total.sign
    exact nonnegative_infinite
  | finite p =>
    have enough := summed.lost p d rfl
    exact nonnegative_ofRat (by linarith)

/-- A sum of floats that are not negative is not negative. -/
theorem nonnegative_pySum (nonnegative : ∀ x ∈ l, Nonnegative x) : Nonnegative (pySum l) := by
  cases l with
  | nil =>
    have zero : ofRat 0 = finite 0 := by decide +kernel
    rw [pySum, ← zero]
    exact nonnegative_ofRat (le_refl 0)
  | cons x rest =>
    have first : Summed (x, finite 0) := by
      refine ⟨nonnegative x List.mem_cons_self, fun p d here => ?_⟩
      obtain ⟨rfl, zero⟩ := Prod.mk.inj here
      obtain rfl := Value.finite.inj zero
      have := (nonnegative (finite p) List.mem_cons_self).of_finite
      linarith
    have summed := first.foldl fun y mem => nonnegative y (List.mem_cons_of_mem x mem)
    rw [pySum]
    split
    · rename_i total lost found
      rw [found] at summed
      split
      · exact summed.total
      · exact summed.add
    · rename_i total lost _ found
      rw [found] at summed
      exact summed.total

end Sum

/-! ### `math.sqrt` -/

/-- The square root of a number that is not negative, to 600 binary places, and half a unit more when it has
more places: rounded to a float it is what the square root is. -/
def root (q : ℚ) : ℚ :=
  let scaled := q * 4 ^ 600
  let places := Nat.sqrt ⌊scaled⌋.toNat
  (if (places : ℚ) ^ 2 = scaled then (places : ℚ) else (places : ℚ) + 1 / 2) / 2 ^ 600

/-- `math.sqrt`, which raises for a negative number. -/
def pySqrt : Value → Option Value
  | nan => some nan
  | infinite true => none
  | infinite false => some (infinite false)
  | finite q => if q < 0 then none else some (ofRat (root q))

example : pySqrt (finite 2) = some (finite (6369051672525773 / 2 ^ 52)) := by decide +kernel

/-- Zero, or large enough for a product with another root. -/
def IsRoot (x : Value) : Prop :=
  x = nan ∨ x = infinite false ∨ x = finite 0 ∨ ∃ q, x = finite q ∧ 2 ^ (-537 : ℤ) ≤ q

section Root

variable {q : ℚ} {x y : Value}

/-- To 600 places, the root is not below a number when its square is not below that of the number. -/
theorem le_root_iff (nonneg : 0 ≤ q) (n : ℕ) : (n : ℚ) / 2 ^ 600 ≤ root q ↔ ((n : ℚ) / 2 ^ 600) ^ 2 ≤ q := by
  have nonneg' : 0 ≤ q * 4 ^ 600 := by positivity
  have floor : 0 ≤ ⌊q * 4 ^ 600⌋ := Int.floor_nonneg.mpr nonneg'
  have squares : ((n : ℚ) / 2 ^ 600) ^ 2 ≤ q ↔ n ≤ Nat.sqrt ⌊q * 4 ^ 600⌋.toNat := by
    rw [Nat.le_sqrt', div_pow, div_le_iff₀ (by positivity), Int.le_toNat floor, Int.le_floor]
    have four : ((2 : ℚ) ^ 600) ^ 2 = 4 ^ 600 := by rw [← pow_mul, mul_comm, pow_mul]; norm_num
    rw [four]
    push_cast
    rfl
  have places : (n : ℚ) / 2 ^ 600 ≤ root q ↔ n ≤ Nat.sqrt ⌊q * 4 ^ 600⌋.toNat := by
    simp only [root]
    rw [div_le_div_iff_of_pos_right (by positivity)]
    generalize Nat.sqrt ⌊q * 4 ^ 600⌋.toNat = places
    split
    · exact Nat.cast_le
    · constructor
      · intro le
        by_contra more
        have more : (places : ℚ) + 1 ≤ n := by exact_mod_cast not_le.mp more
        linarith
      · intro le
        have le : (n : ℚ) ≤ places := by exact_mod_cast le
        linarith
  rw [places, squares]

theorem isFloat_two_zpow {e : ℤ} (least : -1074 ≤ e) (top : e < 1024) : IsFloat (2 ^ e) := by
  refine ⟨⟨1, e, by norm_num, least, by norm_num⟩, ?_⟩
  rw [abs_of_pos (zpow_pos (by norm_num) e), ← zpow_natCast]
  exact zpow_lt_zpow_right₀ (by norm_num) top

/-- The smallest positive float. -/
theorem IsFloat.least_le (float : IsFloat q) (pos : 0 < q) : 2 ^ (-1074 : ℤ) ≤ q := by
  obtain ⟨m, e, -, least, rfl⟩ := float.fits
  have pos_m : 0 < m := by
    have := (mul_pos_iff_of_pos_right (zpow_pos (by norm_num) e)).mp pos
    exact_mod_cast this
  have one : (1 : ℚ) ≤ m := by exact_mod_cast pos_m
  calc (2 : ℚ) ^ (-1074 : ℤ) ≤ 2 ^ e := two_zpow_le least
    _ = 1 * 2 ^ e := (one_mul _).symm
    _ ≤ m * 2 ^ e := mul_le_mul_of_nonneg_right one (zpow_pos (by norm_num) e).le

/-- The square root of what is not negative. -/
theorem isRoot_pySqrt (nonnegative : Nonnegative x) : ∃ y, pySqrt x = some y ∧ IsRoot y := by
  cases x with
  | nan => exact ⟨nan, rfl, .inl rfl⟩
  | infinite s =>
    obtain rfl : s = false := nonnegative.sign
    exact ⟨infinite false, rfl, .inr (.inl rfl)⟩
  | finite q =>
    have nonneg := nonnegative.of_finite
    refine ⟨ofRat (root q), if_neg nonneg.not_gt, ?_⟩
    rcases nonneg.lt_or_eq with pos | rfl
    · have least := (nonnegative.isFloat q rfl).least_le pos
      have above : 2 ^ (-537 : ℤ) ≤ root q := by
        have spelled : ((2 ^ 63 : ℕ) : ℚ) / 2 ^ 600 = 2 ^ (-537 : ℤ) := by
          rw [Nat.cast_pow, Nat.cast_ofNat, ← zpow_natCast, ← zpow_natCast, ← zpow_sub₀ (by norm_num)]
          norm_num
        rw [← spelled]
        refine (le_root_iff nonneg _).mpr ?_
        rw [spelled, ← zpow_natCast, ← zpow_mul]
        exact least
      rcases le_ofRat (isFloat_two_zpow (by norm_num) (by norm_num)) above with large | ⟨s, eq, -, le⟩
      · exact .inr (.inl large)
      · exact .inr (.inr (.inr ⟨s, eq, le⟩))
    · have zero : ofRat (root 0) = finite 0 := by decide +kernel
      exact .inr (.inr (.inl zero))

/-- A product of roots is zero only if one of them is. -/
theorem IsRoot.mul_ne_zero (left : IsRoot x) (right : IsRoot y) (some : x ≠ finite 0) (some' : y ≠ finite 0) :
    x * y ≠ finite 0 := by
  have ne_zero {q : ℚ} (large : 2 ^ (-537 : ℤ) ≤ q) : q ≠ 0 :=
    (lt_of_lt_of_le (zpow_pos (by norm_num) _) large).ne'
  rcases left with rfl | rfl | rfl | ⟨p, rfl, large⟩
  · exact nofun
  · rcases right with rfl | rfl | rfl | ⟨q, rfl, large'⟩
    · exact nofun
    · exact nofun
    · exact absurd rfl some'
    · show (if q = 0 then nan else infinite _) ≠ finite 0
      rw [if_neg (ne_zero large')]
      exact nofun
  · exact absurd rfl some
  · rcases right with rfl | rfl | rfl | ⟨q, rfl, large'⟩
    · exact nofun
    · show (if p = 0 then nan else infinite _) ≠ finite 0
      rw [if_neg (ne_zero large)]
      exact nofun
    · exact absurd rfl some'
    · have above : (2 : ℚ) ^ (-1074 : ℤ) ≤ p * q := by
        have split : (2 : ℚ) ^ (-1074 : ℤ) = 2 ^ (-537 : ℤ) * 2 ^ (-537 : ℤ) := by
          rw [← zpow_add₀ (by norm_num)]
          norm_num
        have pos : (0 : ℚ) < 2 ^ (-537 : ℤ) := zpow_pos (by norm_num) _
        rw [split]
        exact mul_le_mul large large' pos.le (pos.le.trans large)
      show ofRat (p * q) ≠ finite 0
      rcases le_ofRat (isFloat_two_zpow (by norm_num) (by norm_num)) above with large | ⟨s, eq, -, le⟩
      · rw [large]
        exact nofun
      · rw [eq]
        intro zero
        obtain rfl := Value.finite.inj zero
        exact absurd le (not_le.mpr (zpow_pos (by norm_num) _))

end Root

end Binary64.Value
