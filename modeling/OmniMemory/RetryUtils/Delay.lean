import OmniMemory.Lib.Floats

/-! `calculate_delay`: an exponential backoff, which is capped, and jitter, which is added to what was
capped. Without jitter the delay is up to the cap, unless the multiplier is not a number, which the
bounds of its field let through. -/

namespace OmniMemory

open Binary64 Value

namespace RetryUtils

/-- `ModelRetryConfig`. A multiplier that is not a number is neither less than its least value nor
greater than its greatest. -/
structure ModelRetryConfig where
  maxAttempts : ℕ := 3
  maxAttempts_mem : 1 ≤ maxAttempts ∧ maxAttempts ≤ 10 := by decide
  baseDelayMs : ℕ := 1000
  baseDelayMs_mem : 100 ≤ baseDelayMs ∧ baseDelayMs ≤ 60000 := by decide
  maxDelayMs : ℕ := 30000
  maxDelayMs_mem : 1000 ≤ maxDelayMs ∧ maxDelayMs ≤ 300000 := by decide
  exponentialMultiplier : Value := finite 2
  exponentialMultiplier_mem : ¬ exponentialMultiplier < finite 1 ∧ ¬ finite 5 < exponentialMultiplier := by
    decide
  jitter : Bool := true
  retryableExceptions : List String :=
    ["ConnectionError", "TimeoutError", "HTTPError", "TemporaryFailure"]

/-- `x ** n` of a float: one for `n = 0` also when `x` is not a number, which otherwise it stays, and
not less than one when `x` is not. -/
structure Power where
  pow : Value → ℕ → Value
  pow_zero : ∀ x, pow x 0 = finite 1
  pow_nan : ∀ n, pow nan (n + 1) = nan
  one_le_pow : ∀ x n, finite 1 ≤ x → finite 1 ≤ pow x n

/-- What `random.random()` gives. -/
structure Draw where
  value : ℚ
  value_mem : 0 ≤ value ∧ value < 1

/-- `random.uniform(a, b)`. -/
def uniform (a b : Value) (draw : Draw) : Value := a + (b - a) * finite draw.value

/-- What `int` raises for a float. -/
inductive ToIntError where
  | valueError
  | overflowError
deriving DecidableEq

/-- `int(x)`. -/
def toInt : Value → Except ToIntError ℤ
  | finite q => .ok (if q < 0 then ⌈q⌉ else ⌊q⌋)
  | nan => .error .valueError
  | infinite _ => .error .overflowError

variable (P : Power) (config : ModelRetryConfig) (draw : Draw) (attempt : ℕ)

/-- The exponential backoff, capped. -/
def backoff : Value :=
  pyMin (finite config.baseDelayMs * P.pow config.exponentialMultiplier (attempt - 2))
    (finite config.maxDelayMs)

/-- The delay with its jitter. -/
def jittered (delay : Value) : Value :=
  let jitterRange := delay * finite (1 / 4)
  delay + uniform (-jitterRange) jitterRange draw

/-- `calculate_delay`. -/
def calculateDelay : Except ToIntError ℤ :=
  if attempt ≤ 1 then .ok 0
  else
    let delay := backoff P config attempt
    toInt (if config.jitter then pyMax (finite 0) (jittered draw delay) else delay)

/-- The delay is up to its maximum: the jitter leaves it less than one millisecond above, or there
is none and the backoff is a number. -/
def Fits : Prop :=
  attempt ≤ 1 ∨
    if config.jitter then ¬ finite (config.maxDelayMs + 1) ≤ jittered draw (backoff P config attempt)
    else config.exponentialMultiplier ≠ nan ∨ attempt = 2

variable {P config draw attempt}

theorem one_le_multiplier (number : config.exponentialMultiplier ≠ nan) :
    finite 1 ≤ config.exponentialMultiplier := by
  have least := config.exponentialMultiplier_mem.1
  refine le_of_not_lt (by decide) ?_ least
  cases multiplier : config.exponentialMultiplier with
  | nan => exact absurd multiplier number
  | infinite negative => cases negative <;> decide
  | finite q => change decide (q ≤ q) = true; simp

theorem ofRat_ne_nan (q : ℚ) : ofRat q ≠ nan := by
  rw [ofRat]
  split <;> simp

/-- A number of milliseconds times a number that is not less than one. -/
theorem mul_of_one_le {base : ℕ} {p : Value} (pos : 1 ≤ base) (least : finite 1 ≤ p) :
    finite base * p ≠ nan ∧ (finite base * p).isNegative = false := by
  have positive : ¬ (base : ℚ) = 0 := by
    have : base ≠ 0 := by omega
    exact_mod_cast this
  have sign : p.isNegative = false := by
    cases p with
    | nan => rfl
    | infinite negative => cases negative <;> first | rfl | cases least
    | finite q =>
      have one : 1 ≤ q := by simpa [LE.le, Value.le] using least
      simpa [isNegative] using (by linarith : 0 ≤ q)
  refine ⟨?_, isNegative_mul (by simp [isNegative]) sign⟩
  change mul _ _ ≠ nan
  cases p with
  | nan => cases least
  | infinite negative => simp [mul, positive]
  | finite q => exact ofRat_ne_nan _

/-- The backoff is a number up to the cap. -/
theorem exists_backoff (number : config.exponentialMultiplier ≠ nan ∨ attempt = 2) :
    ∃ c, backoff P config attempt = finite c ∧ 0 ≤ c ∧ c ≤ config.maxDelayMs := by
  have least : finite 1 ≤ P.pow config.exponentialMultiplier (attempt - 2) := by
    rcases number with number | rfl
    · exact P.one_le_pow _ _ (one_le_multiplier number)
    · rw [Nat.sub_self, P.pow_zero]
      decide
  have base := config.baseDelayMs_mem.1
  obtain ⟨some, sign⟩ := mul_of_one_le (show 1 ≤ config.baseDelayMs by omega) least
  rw [backoff, pyMin]
  split
  · exact ⟨_, rfl, by simp, le_rfl⟩
  · rename_i below
    cases product : finite config.baseDelayMs * P.pow config.exponentialMultiplier (attempt - 2) with
    | nan => exact absurd product some
    | infinite negative =>
      rw [product] at sign below
      cases negative
      · exact absurd rfl below
      · cases sign
    | finite q =>
      rw [product] at sign below
      refine ⟨q, rfl, by simpa [isNegative] using sign, ?_⟩
      exact not_lt.mp fun above => below (show Value.lt _ _ = true from decide_eq_true above)

theorem backoff_nan (nan_ : config.exponentialMultiplier = nan) (later : 2 < attempt) :
    backoff P config attempt = nan := by
  obtain ⟨n, rfl⟩ : ∃ n, attempt = n + 3 := ⟨attempt - 3, by omega⟩
  rw [backoff, nan_, show n + 3 - 2 = n + 1 by omega, P.pow_nan]
  rfl

/-- What jitter is added to stays a number. -/
theorem exists_jittered (draw : Draw) {c : ℚ} (nonneg : 0 ≤ c) (le : c ≤ 300000) :
    ∃ d, jittered draw (finite c) = finite d := by
  obtain ⟨low, high⟩ := draw.value_mem
  obtain ⟨r, range, small, -⟩ := exists_ofRat (q := c * (1 / 4)) (n := 75000)
    (by rw [abs_of_nonneg (by linarith)]; push_cast; linarith) (by norm_num)
  obtain ⟨rangeLow, rangeHigh⟩ := abs_le.mp small
  push_cast at rangeLow rangeHigh
  obtain ⟨s, width, small, -⟩ := exists_ofRat (q := r + - -r) (n := 150000)
    (by rw [abs_le]; push_cast; constructor <;> linarith) (by norm_num)
  obtain ⟨widthLow, widthHigh⟩ := abs_le.mp small
  push_cast at widthLow widthHigh
  obtain ⟨t, part, small, -⟩ := exists_ofRat (q := s * draw.value) (n := 150000)
    (by
      rw [abs_mul, abs_of_nonneg low]
      refine le_trans (mul_le_of_le_one_right (abs_nonneg s) high.le) ?_
      rw [abs_le]
      push_cast
      constructor <;> linarith) (by norm_num)
  obtain ⟨partLow, partHigh⟩ := abs_le.mp small
  push_cast at partLow partHigh
  obtain ⟨j, jitter, small, -⟩ := exists_ofRat (q := -r + t) (n := 225000)
    (by rw [abs_le]; push_cast; constructor <;> linarith) (by norm_num)
  obtain ⟨jitterLow, jitterHigh⟩ := abs_le.mp small
  push_cast at jitterLow jitterHigh
  obtain ⟨d, total, -, -⟩ := exists_ofRat (q := c + j) (n := 525000)
    (by rw [abs_le]; push_cast; constructor <;> linarith) (by norm_num)
  refine ⟨d, ?_⟩
  calc jittered draw (finite c)
    _ = finite c + (-ofRat (c * (1 / 4)) +
        (ofRat (c * (1 / 4)) - -ofRat (c * (1 / 4))) * finite draw.value) := rfl
    _ = finite c + (finite (-r) + ofRat (r + - -r) * finite draw.value) := by rw [range]; rfl
    _ = finite c + (finite (-r) + ofRat (s * draw.value)) := by rw [width]; rfl
    _ = finite c + ofRat (-r + t) := by rw [part]; rfl
    _ = ofRat (c + j) := by rw [jitter]; rfl
    _ = finite d := total

/-- A number of milliseconds that is not negative, as an integer. -/
theorem toInt_finite {d : ℚ} (most : ℕ) (nonneg : 0 ≤ d) :
    ∃ ms : ℤ, toInt (finite d) = .ok ms ∧ 0 ≤ ms ∧ (ms ≤ most ↔ d < most + 1) := by
  refine ⟨⌊d⌋, by rw [toInt, if_neg nonneg.not_gt], Int.floor_nonneg.mpr nonneg, ?_⟩
  rw [← Int.lt_add_one_iff, Int.floor_lt]
  push_cast
  rfl

/-- With jitter there is always a delay. -/
theorem calculateDelay_jitter (P : Power) (draw : Draw) (jitter : config.jitter = true) (later : ¬ attempt ≤ 1) :
    ∃ ms, calculateDelay P config draw attempt = .ok ms ∧ 0 ≤ ms ∧
      (ms ≤ config.maxDelayMs ↔
        ¬ finite (config.maxDelayMs + 1) ≤ jittered draw (backoff P config attempt)) := by
  rw [calculateDelay, if_neg later]
  simp only [jitter, if_true]
  by_cases number : config.exponentialMultiplier ≠ nan ∨ attempt = 2
  · obtain ⟨c, same, nonneg, le⟩ := exists_backoff (P := P) number
    have most := config.maxDelayMs_mem.2
    obtain ⟨d, total⟩ := exists_jittered draw nonneg
      (le.trans (by exact_mod_cast most))
    rw [same, total, pyMax]
    have above : finite (config.maxDelayMs + 1) ≤ finite d ↔ (config.maxDelayMs : ℚ) + 1 ≤ d := by
      change decide _ = true ↔ _
      simp
    rw [above, not_le]
    split
    · rename_i pos
      have pos : 0 < d := of_decide_eq_true pos
      exact toInt_finite _ pos.le
    · rename_i zero
      have zero : ¬ 0 < d := fun pos => zero (decide_eq_true pos)
      have least : (0 : ℚ) ≤ config.maxDelayMs := Nat.cast_nonneg _
      exact ⟨0, by decide, le_rfl, by simp; linarith⟩
  · obtain ⟨nan_, second⟩ := not_or.mp number
    rw [backoff_nan (not_not.mp nan_) (by omega)]
    have same : jittered draw nan = nan := rfl
    rw [same]
    exact ⟨0, by decide +kernel, le_rfl, iff_of_true (by simp) (by rintro ⟨⟩)⟩

/-- The delay is up to its maximum. -/
theorem calculateDelay_of_fits (fits : Fits P config draw attempt) :
    ∃ ms, calculateDelay P config draw attempt = .ok ms ∧ 0 ≤ ms ∧ ms ≤ config.maxDelayMs := by
  by_cases first : attempt ≤ 1
  · exact ⟨0, if_pos first, le_rfl, by simp⟩
  have fits := fits.resolve_left first
  cases jitter : config.jitter with
  | true =>
    rw [jitter, if_pos rfl] at fits
    obtain ⟨ms, same, nonneg, le⟩ := calculateDelay_jitter P draw jitter first
    exact ⟨ms, same, nonneg, le.mpr fits⟩
  | false =>
    rw [jitter, if_neg Bool.false_ne_true] at fits
    obtain ⟨c, same, nonneg, le⟩ := exists_backoff (P := P) fits
    obtain ⟨ms, floor, least, most⟩ := toInt_finite config.maxDelayMs nonneg
    refine ⟨ms, ?_, least, most.mpr (by linarith)⟩
    simp only [calculateDelay, if_neg first, jitter, Bool.false_eq_true, if_false, same, floor]

/-- The jitter takes the delay above its maximum, or there is no delay. -/
theorem calculateDelay_of_not_fits (not : ¬ Fits P config draw attempt) :
    (∃ ms, calculateDelay P config draw attempt = .ok ms ∧ config.maxDelayMs < ms) ∨
      config.jitter = false ∧ config.exponentialMultiplier = nan ∧ 2 < attempt ∧
        calculateDelay P config draw attempt = .error .valueError := by
  obtain ⟨first, not⟩ := not_or.mp not
  cases jitter : config.jitter with
  | true =>
    rw [jitter, if_pos rfl] at not
    obtain ⟨ms, same, -, le⟩ := calculateDelay_jitter P draw jitter first
    exact .inl ⟨ms, same, not_le.mp fun below => not (le.mp below)⟩
  | false =>
    rw [jitter, if_neg Bool.false_ne_true] at not
    obtain ⟨nan_, second⟩ := not_or.mp not
    have later : 2 < attempt := by omega
    refine .inr ⟨rfl, not_not.mp nan_, later, ?_⟩
    simp only [calculateDelay, if_neg first, jitter, Bool.false_eq_true, if_false,
      backoff_nan (not_not.mp nan_) later, toInt]

end RetryUtils

end OmniMemory
