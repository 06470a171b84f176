import OmniMemory.Foundation.TrustCache

/-! When a violation does not help: the penalty lowers the base score, and the decay starts again, so
the score rises when more comes back than the penalty takes. -/

namespace OmniMemory

open Binary64 Expiring

namespace Trust

open ModelTrustScore Update

namespace ModelTrustScore

variable (s : ModelTrustScore ℝ) {a b : ℝ}

/-- The share of the base score that is left at a time. -/
noncomputable def remaining (asOf : Instant) : ℝ :=
  if s.decayFunction = .none ∨ asOf ≤ s.lastUpdated then 1 else s.share (s.daysElapsed asOf)

theorem remaining_mem (asOf : Instant) : 0 ≤ s.remaining asOf ∧ s.remaining asOf ≤ 1 := by
  rw [remaining]
  split
  · exact ⟨zero_le_one, le_rfl⟩
  · rename_i decays
    push Not at decays
    have spec := s.share_spec le_rfl (s.daysElapsed_pos decays.2)
    rw [share_zero] at spec
    exact ⟨spec.2.1, spec.2.2.1⟩

/-- A score within its bounds is the share that is left of it. -/
theorem score_eq_mul (base : 0 ≤ s.baseScore ∧ s.baseScore ≤ 1) (asOf : Instant) :
    s.score asOf = s.baseScore * s.remaining asOf := by
  obtain ⟨nonneg, le⟩ := s.remaining_mem asOf
  by_cases start : s.decayFunction = .none ∨ asOf ≤ s.lastUpdated
  · rw [s.score_start start, remaining, if_pos start, mul_one]
  · rw [remaining, if_neg start] at nonneg le ⊢
    push Not at start
    rw [s.score_later start.1 start.2, min_eq_right (mul_le_one₀ base.2 nonneg le),
      max_eq_right (mul_nonneg base.1 nonneg)]

theorem remaining_exponential (exponential : s.decayFunction = .exponential) {asOf : Instant}
    (later : s.lastUpdated ≤ asOf) :
    s.remaining asOf = Real.exp (-s.daysElapsed asOf / s.halfLifeDays * Real.log 2) := by
  rw [remaining, ← s.share_exponential exponential]
  split
  · rename_i start
    have now : asOf = s.lastUpdated :=
      (start.resolve_left (by rw [exponential]; decide)).antisymm later
    have zero : s.daysElapsed s.lastUpdated = 0 := by rw [daysElapsed_eq]; simp
    rw [now, zero, share_zero]
  · rfl

end ModelTrustScore

section Violation

variable (s : ModelTrustScore ℝ)

/-- The score that is calculated for a query: one that was cached, or one for its time. -/
theorem calculateCurrentScore_fst (query : Query Instant) :
    (s.calculateCurrentScore PyMath.real query.asOf query.force).1 =
      match s.cache.filter fun entry => serves ttl query entry.2 with
      | some (cachedScore, _) => cachedScore
      | none => s.score query.asOf := by
  have answer : (s.calculateCurrentScore PyMath.real query.asOf query.force).1 =
      ((keeper ttl s.score).step s.cache query).1 := (List.cons.inj (scores_answers s [query])).1
  rw [answer]
  rcases s.cache with _ | ⟨cachedScore, stamp⟩
  · rfl
  · by_cases served : serves ttl query stamp = true
    · simp [keeper, Option.filter, served]
    · simp [keeper, Option.filter, served]

/-- The time whose share of the score is left for a query after a violation: the one that the score
in the cache was calculated for, or as much later than the last update as the query is later than
the violation. -/
def restarted (calculatedAt updatedAt : Instant) (query : Query Instant) : Instant :=
  if serves ttl query calculatedAt then calculatedAt
  else s.lastUpdated + (query.asOf - updatedAt)

/-- The penalty takes at least as much, of the share that is left after the violation, as comes back
with this share. -/
def Outweighs (penalty : ℝ) (calculatedAt updatedAt : Instant) (query : Query Instant) : Prop :=
  let share := s.remaining (restarted s calculatedAt updatedAt query)
  match s.cache.filter fun entry => serves ttl query entry.2 with
  | some (cachedScore, _) =>
    0 ≤ cachedScore ∧ s.baseScore * share - cachedScore ≤ taken s penalty * share
  | none => s.baseScore * (share - s.remaining query.asOf) ≤ taken s penalty * share

theorem violated_score (base : 0 ≤ s.baseScore ∧ s.baseScore ≤ 1) {penalty : ℝ}
    (nonneg : 0 ≤ penalty) (t t' : Instant) (query : Query Instant) :
    ((s.recordViolation PyMath.real penalty t t').2.calculateCurrentScore PyMath.real query.asOf
      query.force).1 = penalized s penalty * s.remaining (restarted s t t' query) := by
  have bounds : 0 ≤ penalized s penalty ∧ penalized s penalty ≤ 1 := by
    have some : 0 ≤ taken s penalty := by
      have count : (0 : ℝ) ≤ s.violationCount := Nat.cast_nonneg _
      exact le_min (by positivity) (by norm_num)
    exact ⟨le_max_left _ _, max_le zero_le_one (by linarith [base.2])⟩
  have score (asOf : Instant) : { s with baseScore := penalized s penalty }.decayedScore PyMath.real
      asOf = penalized s penalty * s.remaining asOf :=
    score_eq_mul { s with baseScore := penalized s penalty } bounds asOf
  have cached : (s.recordViolation PyMath.real penalty t t').2.cache =
      some ({ s with baseScore := penalized s penalty }.decayedScore PyMath.real t, t) := by
    rw [recordViolation_real]
    rfl
  rw [calculateCurrentScore_fst, cached, restarted]
  by_cases served : serves ttl query t = true
  · simp only [Option.filter, served, if_true]
    exact score t
  · have later : t' + (s.lastUpdated + (query.asOf - t') - s.lastUpdated) = query.asOf := by ring
    simp only [Option.filter, served, Bool.false_eq_true, if_false]
    rw [← score, rescored_score _ _ t t', later, recordViolation_real]
    rfl

/-- What is left after a penalty is at most `b` when the penalty takes enough. -/
theorem max_sub_mul_le_iff {x k share b : ℝ} (nonneg : 0 ≤ share) :
    max 0 (x - k) * share ≤ b ↔ 0 ≤ b ∧ x * share - b ≤ k * share := by
  constructor
  · intro le
    refine ⟨le_trans (mul_nonneg (le_max_left _ _) nonneg) le, ?_⟩
    have := mul_le_mul_of_nonneg_right (le_max_right 0 (x - k)) nonneg
    linarith
  · rintro ⟨pos, le⟩
    rcases max_cases 0 (x - k) with ⟨max, -⟩ | ⟨max, -⟩
    · rw [max, zero_mul]
      exact pos
    · rw [max]
      linarith

/-- After a violation the score is at most the one without it exactly when the penalty outweighs
what comes back. -/
theorem violation_iff (base : 0 ≤ s.baseScore ∧ s.baseScore ≤ 1) {penalty : ℝ}
    (nonneg : 0 ≤ penalty) (t t' : Instant) (query : Query Instant) :
    ((s.recordViolation PyMath.real penalty t t').2.calculateCurrentScore PyMath.real query.asOf
        query.force).1 ≤ (s.calculateCurrentScore PyMath.real query.asOf query.force).1 ↔
      Outweighs s penalty t t' query := by
  have share := (s.remaining_mem (restarted s t t' query)).1
  rw [violated_score s base nonneg, calculateCurrentScore_fst, penalized, max_sub_mul_le_iff share,
    Outweighs]
  split
  · exact Iff.rfl
  · have left : 0 ≤ s.baseScore * s.remaining query.asOf :=
      mul_nonneg base.1 (s.remaining_mem _).1
    rw [s.score_eq_mul base, and_iff_right left, ← mul_sub]

/-- When nothing is cached, a violation of a record that halves must take what the record has lost
since its last update. -/
theorem outweighs_exponential (exponential : s.decayFunction = .exponential)
    (uncached : s.cache = none) {penalty : ℝ} {t t' : Instant} {query : Query Instant}
    (fresh : serves ttl query t = false) (violated : s.lastUpdated ≤ t') (asked : t' ≤ query.asOf) :
    Outweighs s penalty t t' query ↔
      s.baseScore * (1 - s.remaining t') ≤ taken s penalty := by
  have restart : s.lastUpdated ≤ restarted s t t' query := by
    rw [restarted, fresh]
    exact le_add_of_nonneg_right (sub_nonneg.mpr asked)
  have days : s.daysElapsed query.asOf =
      s.daysElapsed (restarted s t t' query) + s.daysElapsed t' := by
    rw [restarted, fresh, daysElapsed_eq, daysElapsed_eq, daysElapsed_eq]
    simp only [Bool.false_eq_true, if_false]
    push_cast
    ring
  have product : s.remaining query.asOf =
      s.remaining (restarted s t t' query) * s.remaining t' := by
    rw [s.remaining_exponential exponential (violated.trans asked),
      s.remaining_exponential exponential restart, s.remaining_exponential exponential violated,
      ← Real.exp_add, days]
    congr 1
    ring
  have pos : 0 < s.remaining (restarted s t t' query) := by
    rw [s.remaining_exponential exponential restart]
    exact Real.exp_pos _
  rw [Outweighs, uncached]
  change s.baseScore * (s.remaining (restarted s t t' query) - s.remaining query.asOf) ≤
    taken s penalty * s.remaining (restarted s t t' query) ↔ _
  rw [product, ← mul_one_sub, mul_left_comm, mul_comm (taken s penalty), mul_le_mul_iff_right₀ pos]

end Violation

theorem violation_iff_daily : (0 ≤ daily.baseScore ∧ daily.baseScore ≤ 1) ∧ (0 : ℝ) ≤ 1 / 10 ∧
    (((daily.recordViolation PyMath.real (1 / 10) 0 1).2.calculateCurrentScore PyMath.real 2
        false).1 ≤ (daily.calculateCurrentScore PyMath.real 2 false).1 ↔
      Outweighs daily (1 / 10) 0 1 ⟨2, false⟩) := by
  have base : 0 ≤ daily.baseScore ∧ daily.baseScore ≤ 1 := by simp [daily]
  have penalty : (0 : ℝ) ≤ 1 / 10 := by norm_num
  exact ⟨base, penalty, violation_iff daily base penalty 0 1 ⟨2, false⟩⟩

/-- A record that has nothing left after a day has most of its score again after a violation. -/
theorem violation_restores : ¬ ∀ (s : ModelTrustScore ℝ) (penalty : ℝ) (t t' : Instant),
    0 ≤ s.baseScore ∧ s.baseScore ≤ 1 → 0 ≤ penalty → t ≤ t' →
    ((s.recordViolation PyMath.real penalty t t).2.calculateCurrentScore PyMath.real t' false).1 ≤
      (s.calculateCurrentScore PyMath.real t' false).1 := by
  intro holds
  have base : 0 ≤ daily.baseScore ∧ daily.baseScore ≤ 1 := by simp [daily]
  have penalty : (0 : ℝ) ≤ 1 / 10 := by norm_num
  have le := holds daily (1 / 10) 86400000000 86700000000 base penalty (by decide)
  rw [violated_score daily base penalty _ _ ⟨86700000000, false⟩,
    calculateCurrentScore_fst daily ⟨86700000000, false⟩] at le
  change penalized daily (1 / 10) * daily.remaining 300000000 ≤ daily.score 86700000000 at le
  have some (t : Instant) (later : ¬ t ≤ 0) :
      daily.remaining t = max 0 (1 - (t : ℝ) / 86400000000) := by
    rw [remaining, if_neg (by simp [daily, later]), daily_share, daysElapsed_eq]
    simp [daily]
  rw [daily.score_eq_mul base, some _ (by decide), some _ (by decide)] at le
  norm_num [penalized, taken, daily] at le

end Trust

end OmniMemory
