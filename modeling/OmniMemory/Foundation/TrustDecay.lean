import OmniMemory.Foundation.TrustScore
import Mathlib.Analysis.SpecialFunctions.Log.Basic

/-! How a score decays, over the real numbers: it never rises when the base score is not negative,
and when it is the same at two times. -/

namespace OmniMemory

open Binary64

namespace Trust

namespace ModelTrustScore

section Numbers

variable {a b : ℝ}

@[simp] theorem lit_real (q : ℚ) : (lit q : ℝ) = q := rfl

@[simp] theorem pyMax_real : pyMax a b = max a b := by
  rw [pyMax, max_def]
  split <;> split <;> linarith

@[simp] theorem pyMin_real : pyMin a b = min a b := by
  rw [pyMin, min_def]
  split <;> split <;> linarith

@[simp] theorem exp_real : PyMath.real.exp = Real.exp := rfl

@[simp] theorem log_real : PyMath.real.log = Real.log := rfl

/-- What is left of one after `a` or more of it is spent. -/
theorem left_eq_iff (le : a ≤ b) : max 0 (1 - a) = max 0 (1 - b) ↔ a = b ∨ 1 ≤ a := by
  constructor
  · intro same
    refine or_iff_not_imp_right.mpr fun more => ?_
    rw [max_eq_right (by linarith)] at same
    rcases max_cases 0 (1 - b) with ⟨max, -⟩ | ⟨max, -⟩ <;> linarith
  · rintro (rfl | spent)
    · rfl
    · rw [max_eq_left (by linarith), max_eq_left (by linarith)]

end Numbers

variable (s : ModelTrustScore ℝ) {a b : Instant} {d e : ℝ}

/-- The score that is calculated when no cached one is used. -/
noncomputable def score (asOf : Instant) : ℝ := s.decayedScore PyMath.real asOf

/-- What a decay leaves of one after a number of days. -/
noncomputable def share (days : ℝ) : ℝ := s.decayFactor PyMath.real days

/-- How much of the score linear or logarithmic decay takes. -/
noncomputable def spent (days : ℝ) : ℝ :=
  (if s.decayFunction = .linear then days else Real.log (1 + days)) * s.decayRate

theorem rate_nonneg : 0 ≤ s.decayRate := by
  simpa using s.decayRate_mem.1

theorem share_exponential (h : s.decayFunction = .exponential) (d : ℝ) :
    s.share d = Real.exp (-d / s.halfLifeDays * Real.log 2) := by
  simp [share, decayFactor, h]

theorem share_spent (h : s.decayFunction = .linear ∨ s.decayFunction = .logarithmic) (d : ℝ) :
    s.share d = max 0 (1 - s.spent d) := by
  rcases h with h | h <;> simp [share, decayFactor, spent, h]

theorem spent_mono (nonneg : 0 ≤ d) (le : d ≤ e) : s.spent d ≤ s.spent e := by
  refine mul_le_mul_of_nonneg_right ?_ s.rate_nonneg
  split
  · exact le
  · exact Real.log_le_log (by linarith) (by linarith)

theorem spent_inj (nonneg : 0 ≤ d) (less : d < e) : s.spent d = s.spent e ↔ s.decayRate = 0 := by
  rw [spent, spent, mul_eq_mul_right_iff]
  refine or_iff_right ?_
  split
  · exact less.ne
  · exact (Real.log_lt_log (by linarith) (by linarith)).ne

theorem spent_zero : s.spent 0 = 0 := by
  simp [spent]

/-- The decay takes nothing away, however much time passes. -/
def Rateless : Prop :=
  s.decayFunction = .none ∨ s.decayFunction ≠ .exponential ∧ s.decayRate = 0

/-- Linear or logarithmic decay has taken everything away. -/
def Gone (days : ℝ) : Prop :=
  (s.decayFunction = .linear ∨ s.decayFunction = .logarithmic) ∧ 1 ≤ s.spent days

theorem halfLife_pos : (0 : ℝ) < s.halfLifeDays := by
  have := s.halfLifeDays_mem.1
  exact_mod_cast (show 0 < s.halfLifeDays by omega)

/-- The share that is left is from 0 to 1, falls, and stays the same only when nothing is taken or
nothing is left. -/
theorem share_spec (nonneg : 0 ≤ d) (less : d < e) :
    s.share d ≤ 1 ∧ 0 ≤ s.share e ∧ s.share e ≤ s.share d ∧
      (s.share d = s.share e ↔ s.Rateless ∨ s.Gone d) := by
  have log2 : 0 < Real.log 2 := Real.log_pos (by norm_num)
  have spends (h : s.decayFunction = .linear ∨ s.decayFunction = .logarithmic) :
      s.share d ≤ 1 ∧ 0 ≤ s.share e ∧ s.share e ≤ s.share d ∧
        (s.share d = s.share e ↔ s.Rateless ∨ s.Gone d) := by
    have first : 0 ≤ s.spent d := s.spent_zero ▸ s.spent_mono le_rfl nonneg
    have more := s.spent_mono nonneg less.le
    rw [s.share_spent h, s.share_spent h]
    refine ⟨max_le zero_le_one (by linarith), le_max_left _ _, max_le_max_left 0 (by linarith), ?_⟩
    rw [left_eq_iff more, s.spent_inj nonneg less]
    rcases h with h | h <;> simp [Rateless, Gone, h]
  cases function : s.decayFunction with
  | linear => exact spends (.inl function)
  | logarithmic => exact spends (.inr function)
  | none =>
    have one (d : ℝ) : s.share d = 1 := by simp [share, decayFactor, function]
    simp [one, Rateless, function]
  | exponential =>
    have falls : -e / s.halfLifeDays * Real.log 2 < -d / s.halfLifeDays * Real.log 2 := by
      have := s.halfLife_pos
      gcongr
    have start : -d / s.halfLifeDays * Real.log 2 ≤ 0 :=
      mul_nonpos_of_nonpos_of_nonneg
        (div_nonpos_of_nonpos_of_nonneg (by linarith) s.halfLife_pos.le) log2.le
    have lower := Real.exp_lt_exp.mpr falls
    rw [s.share_exponential function, s.share_exponential function]
    refine ⟨Real.exp_le_one_iff.mpr start, (Real.exp_pos _).le, lower.le, ?_⟩
    exact iff_of_false lower.ne' (by simp [Rateless, Gone, function])

theorem share_zero : s.share 0 = 1 := by
  cases function : s.decayFunction <;> simp [share, decayFactor, function]

theorem not_gone_zero : ¬ s.Gone 0 := by
  rw [Gone, spent_zero]
  norm_num

theorem daysElapsed_eq (asOf : Instant) :
    s.daysElapsed asOf = ((asOf - s.lastUpdated : ℤ) : ℝ) / 86400000000 := by
  simp only [daysElapsed, totalSeconds, lit_real]
  push_cast
  ring

theorem daysElapsed_lt : s.daysElapsed a < s.daysElapsed b ↔ a < b := by
  rw [daysElapsed_eq, daysElapsed_eq, div_lt_div_iff_of_pos_right (by norm_num), Int.cast_lt]
  exact sub_lt_sub_iff_right _

theorem daysElapsed_nonpos : s.daysElapsed a ≤ 0 ↔ a ≤ s.lastUpdated := by
  have zero : s.daysElapsed s.lastUpdated = 0 := by rw [daysElapsed_eq]; simp
  rw [← zero, ← not_lt, daysElapsed_lt, not_lt]

theorem daysElapsed_pos (later : s.lastUpdated < a) : 0 < s.daysElapsed a :=
  lt_of_not_ge fun nonpos => not_le.mpr later (s.daysElapsed_nonpos.mp nonpos)

theorem score_start (h : s.decayFunction = .none ∨ a ≤ s.lastUpdated) : s.score a = s.baseScore := by
  rw [score, decayedScore]
  split
  · rfl
  · rename_i decays
    rw [if_pos]
    simpa using s.daysElapsed_nonpos.mpr (h.resolve_left decays)

theorem score_later (decays : s.decayFunction ≠ .none) (later : s.lastUpdated < a) :
    s.score a = max 0 (min 1 (s.baseScore * s.share (s.daysElapsed a))) := by
  have after : ¬ s.daysElapsed a ≤ lit 0 := by simpa using s.daysElapsed_pos later
  rw [score, decayedScore, if_neg decays, if_neg after, pyMax_real, pyMin_real]
  simp [share]

/-- The score is the same at two times, the first before the second. -/
def Flat (a b : Instant) : Prop :=
  s.decayFunction = .none ∨ b ≤ s.lastUpdated ∨
    (a ≤ s.lastUpdated ∧ (s.baseScore = 0 ∨ (0 ≤ s.baseScore ∧ s.baseScore ≤ 1) ∧ s.Rateless)) ∨
    (s.lastUpdated < a ∧ (s.baseScore ≤ 0 ∨ s.Rateless ∨ s.Gone (s.daysElapsed a) ∨
      1 ≤ s.baseScore * s.share (s.daysElapsed b)))

/-- Two numbers are clamped to the same when they are the same, or the less is above one. -/
theorem clamp_eq_iff {x y : ℝ} (le : y ≤ x) (nonneg : 0 ≤ y) :
    max 0 (min 1 x) = max 0 (min 1 y) ↔ x = y ∨ 1 ≤ y := by
  rw [max_eq_right (le_min zero_le_one (nonneg.trans le)), max_eq_right (le_min zero_le_one nonneg)]
  constructor
  · intro same
    refine or_iff_not_imp_right.mpr fun small => ?_
    rw [min_eq_right (not_le.mp small).le] at same
    rcases min_cases 1 x with ⟨min, -⟩ | ⟨min, -⟩ <;> linarith
  · rintro (rfl | large)
    · rfl
    · rw [min_eq_left (large.trans le), min_eq_left large]

theorem clamp_nonpos {x : ℝ} (nonpos : x ≤ 0) : max 0 (min 1 x) = 0 :=
  max_eq_left ((min_le_right _ _).trans nonpos)

/-- A number is what is left of it after the clamp when it is zero, or between zero and one with
nothing taken. -/
theorem eq_clamp_iff {x y : ℝ} (nonneg : 0 ≤ y) (le : y ≤ 1) :
    x = max 0 (min 1 (x * y)) ↔ x = 0 ∨ (0 ≤ x ∧ x ≤ 1) ∧ 1 = y := by
  constructor
  · intro same
    have low : 0 ≤ x := same.trans_ge (le_max_left _ _)
    have high : x ≤ 1 := same.trans_le (max_le zero_le_one (min_le_left _ _))
    rw [min_eq_right (mul_le_one₀ high nonneg le), max_eq_right (mul_nonneg low nonneg)] at same
    refine or_iff_not_imp_left.mpr fun some => ⟨⟨low, high⟩, ?_⟩
    exact mul_left_cancel₀ some (by rw [mul_one, ← same])
  · rintro (rfl | ⟨⟨low, high⟩, rfl⟩)
    · simp
    · rw [mul_one, min_eq_right high, max_eq_right low]

theorem score_eq_iff (less : a < b) : s.score a = s.score b ↔ s.Flat a b := by
  by_cases decays : s.decayFunction = .none
  · rw [s.score_start (.inl decays), s.score_start (.inl decays)]
    exact iff_of_true rfl (.inl decays)
  rcases le_or_gt b s.lastUpdated with before | after
  · rw [s.score_start (.inr (less.le.trans before)), s.score_start (.inr before)]
    exact iff_of_true rfl (.inr (.inl before))
  rw [s.score_later decays after, Flat, or_iff_right decays, or_iff_right after.not_ge]
  rcases le_or_gt a s.lastUpdated with start | later
  · obtain ⟨-, nonneg, below, same⟩ := s.share_spec le_rfl (s.daysElapsed_pos after)
    rw [share_zero, or_iff_left s.not_gone_zero] at same
    rw [share_zero] at below
    rw [s.score_start (.inr start), or_iff_left (fun h => h.1.not_ge start), and_iff_right start,
      ← same]
    exact eq_clamp_iff nonneg below
  · obtain ⟨-, nonneg, below, same⟩ :=
      s.share_spec (s.daysElapsed_pos later).le (s.daysElapsed_lt.mpr less)
    rw [s.score_later decays later, or_iff_right (fun h => later.not_ge h.1), and_iff_right later]
    rcases le_or_gt s.baseScore 0 with nonpos | pos
    · rw [clamp_nonpos (mul_nonpos_of_nonpos_of_nonneg nonpos (nonneg.trans below)),
        clamp_nonpos (mul_nonpos_of_nonpos_of_nonneg nonpos nonneg)]
      exact iff_of_true rfl (.inl nonpos)
    · rw [clamp_eq_iff (mul_le_mul_of_nonneg_left below pos.le) (mul_nonneg pos.le nonneg),
        mul_right_inj' pos.ne', same, or_iff_right pos.not_ge, or_assoc]

/-- The score is the same at a later time, unless that is one of decay. -/
theorem score_cases (le : a ≤ b) :
    s.score b = s.score a ∨ s.decayFunction ≠ .none ∧ s.lastUpdated < b := by
  by_cases before : s.decayFunction = .none ∨ b ≤ s.lastUpdated
  · exact .inl (by rw [s.score_start before, s.score_start (before.imp_right le.trans)])
  · push Not at before
    exact .inr before

theorem score_antitone (base : 0 ≤ s.baseScore) : Antitone s.score := by
  intro a b le
  rcases s.score_cases le with same | ⟨decays, after⟩
  · exact same.le
  rw [s.score_later decays after]
  rcases le_or_gt a s.lastUpdated with start | later
  · obtain ⟨-, nonneg, below, -⟩ := s.share_spec le_rfl (s.daysElapsed_pos after)
    rw [share_zero] at below
    rw [s.score_start (.inr start)]
    exact max_le base ((min_le_right _ _).trans (mul_le_of_le_one_right base below))
  · rw [s.score_later decays later]
    rcases le.lt_or_eq with less | rfl
    · obtain ⟨-, -, below, -⟩ :=
        s.share_spec (s.daysElapsed_pos later).le (s.daysElapsed_lt.mpr less)
      exact max_le_max_left 0 (min_le_min_left 1 (mul_le_mul_of_nonneg_left below base))
    · rfl

/-- A score is at most another when it is not the one of an earlier time, or both are the same. -/
theorem score_le_iff (base : 0 ≤ s.baseScore) : s.score b ≤ s.score a ↔ a ≤ b ∨ s.Flat b a := by
  rcases le_or_gt a b with before | after
  · exact iff_of_true (s.score_antitone base before) (.inl before)
  · rw [or_iff_right after.not_ge, ← s.score_eq_iff after]
    exact ⟨fun le => le_antisymm le (s.score_antitone base after.le), le_of_eq⟩

theorem score_le_base (base : 0 ≤ s.baseScore) : s.score a ≤ s.baseScore := by
  have start : s.score (min a s.lastUpdated) = s.baseScore := s.score_start (.inr (min_le_right _ _))
  exact (s.score_antitone base (min_le_left _ _)).trans_eq start

theorem score_monotone (base : s.baseScore ≤ 0) : Monotone s.score := by
  intro a b le
  rcases s.score_cases le with same | ⟨decays, after⟩
  · exact same.ge
  rw [s.score_later decays after]
  rcases le_or_gt a s.lastUpdated with start | later
  · rw [s.score_start (.inr start)]
    exact base.trans (le_max_left _ _)
  · have := (s.share_spec le_rfl (s.daysElapsed_pos later)).2.1
    rw [s.score_later decays later, clamp_nonpos (mul_nonpos_of_nonpos_of_nonneg base this)]
    exact le_max_left _ _

/-- The score only falls, or the base score is negative and it only rises. -/
theorem score_mono : Antitone s.score ∨ Monotone s.score :=
  (le_total 0 s.baseScore).imp s.score_antitone s.score_monotone

end ModelTrustScore

end Trust

end OmniMemory
