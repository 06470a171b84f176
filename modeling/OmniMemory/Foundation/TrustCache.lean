import OmniMemory.Foundation.TrustDecay
import OmniMemory.Lib.Expiring

/-! What the cached score of a record is worth between two updates. Each score that is returned is
the one of its source, a time that it was calculated for. The score that an update leaves in the
cache was calculated before the decay starts again, as if so much time had passed since the update
as had passed since the one before. -/

namespace OmniMemory

open Sequential Binary64 Expiring

namespace Trust

open ModelTrustScore

/-- The time to live, in microseconds. -/
def ttl : Int := 300000000

/-- A record of real numbers, whose score is calculated. -/
noncomputable def scores : Automaton (Query Instant) ℝ (ModelTrustScore ℝ) where
  step s query := s.calculateCurrentScore PyMath.real query.asOf query.force

theorem totalSeconds_lt (age : Int) : totalSeconds (F := ℝ) age < lit cacheTtlSeconds ↔ age < ttl := by
  rw [totalSeconds, lit_real, lit_real, Rat.cast_lt, div_lt_iff₀ (by norm_num)]
  rw [cacheTtlSeconds, ttl]
  norm_num
  exact_mod_cast Iff.rfl

/-- The record answers as an entry that expires does. -/
theorem scores_answers (s : ModelTrustScore ℝ) (queries : List (Query Instant)) :
    scores.answers s queries = (keeper ttl s.score).answers s.cache queries := by
  refine (Automaton.simulates (R := fun t kept => t = { s with cache := kept }) rfl ?_ queries).1
  rintro _ kept query rfl
  cases kept with
  | none => exact ⟨rfl, rfl⟩
  | some entry =>
    have valid : isCacheValid { s with cache := some entry } query.asOf =
        decide (query.asOf - entry.2 < ttl) := by
      simp only [isCacheValid, totalSeconds_lt]
    rcases served : !query.force && decide (query.asOf - entry.2 < ttl) with _ | _
    · simp only [scores, keeper, calculateCurrentScore, serves, valid, served]
      exact ⟨rfl, rfl⟩
    · simp only [scores, keeper, calculateCurrentScore, serves, valid, served]
      exact ⟨rfl, rfl⟩

/-- What a run between two updates starts with: an update, or nothing in the cache. -/
inductive Update where
  | invalidateCache
  | updateScore (newBaseScore : ℝ) (verified : Bool) (calculatedAt updatedAt verifiedAt : Instant)
  | recordViolation (penalty : ℝ) (calculatedAt updatedAt : Instant)

namespace Update

variable (s : ModelTrustScore ℝ)

noncomputable def apply : Update → ModelTrustScore ℝ
  | invalidateCache => s.invalidateCache
  | updateScore newBaseScore verified calculatedAt updatedAt verifiedAt =>
    s.updateScore PyMath.real newBaseScore verified calculatedAt updatedAt verifiedAt
  | recordViolation penalty calculatedAt updatedAt =>
    (s.recordViolation PyMath.real penalty calculatedAt updatedAt).2

/-- When the clock was read for the score in the cache, and when for the start of the decay. -/
def readings : Update → Option (Instant × Instant)
  | invalidateCache => none
  | updateScore _ _ calculatedAt updatedAt _ | recordViolation _ calculatedAt updatedAt =>
    some (calculatedAt, updatedAt)

/-- As much later than the update as the score in the cache was calculated after the one before. -/
def start (update : Update) : Instant :=
  (readings update).elim 0 fun (calculatedAt, updatedAt) =>
    updatedAt + (calculatedAt - s.lastUpdated)

/-- What a violation takes from the base score, before it is cut off at zero. -/
noncomputable def taken (penalty : ℝ) : ℝ := min (penalty * (s.violationCount + 1)) (1 / 2)

/-- The base score after a violation. -/
noncomputable def penalized (penalty : ℝ) : ℝ := max 0 (s.baseScore - taken s penalty)

theorem recordViolation_real (penalty : ℝ) (t t' : Instant) :
    s.recordViolation PyMath.real penalty t t' =
      (.ok (), { s.rescored PyMath.real (penalized s penalty) t t' with
        violationCount := s.violationCount + 1 }) := by
  have factor : penaltyFactor penalty (s.violationCount + 1) =
      some (taken s penalty) := by
    have half : (lit (5 / 10) : ℝ) = 1 / 2 := by norm_num [lit_real]
    simp [penaltyFactor, Numbers.ofInt, pyMin_real, half, taken]
  rw [recordViolation_some factor, penalized]
  simp only [pyMax_real, lit_real, Rat.cast_zero]

/-- The decay starts again with the update. -/
theorem rescored_score (baseScore : ℝ) (t t' asOf : Instant) :
    { s with baseScore := baseScore }.decayedScore PyMath.real asOf =
      (s.rescored PyMath.real baseScore t t').score (t' + (asOf - s.lastUpdated)) := by
  have days : (s.rescored PyMath.real baseScore t t').daysElapsed (t' + (asOf - s.lastUpdated)) =
      s.daysElapsed asOf := by
    rw [daysElapsed_eq, daysElapsed_eq]
    simp only [rescored]
    congr 2
    omega
  rw [score, decayedScore, decayedScore, days]
  rfl

theorem cache_apply (update : Update) : (update.apply s).cache =
    (update.readings).map fun (t, _) => ((update.apply s).score (update.start s), t) := by
  cases update with
  | invalidateCache => rfl
  | updateScore b verified t t' t'' =>
    have same : (apply s (.updateScore b verified t t' t'')).score (t' + (t - s.lastUpdated)) =
        (s.rescored PyMath.real b t t').score (t' + (t - s.lastUpdated)) := by
      rw [apply, updateScore_eq]
      rfl
    simp only [readings, start, Option.elim_some, Option.map_some, same, ← rescored_score]
    rw [apply, updateScore_eq]
    rfl
  | recordViolation penalty t t' =>
    have same : (apply s (.recordViolation penalty t t')).score (t' + (t - s.lastUpdated)) =
        (s.rescored PyMath.real (penalized s penalty) t t').score (t' + (t - s.lastUpdated)) := by
      rw [apply, recordViolation_real]
      rfl
    simp only [readings, start, Option.elim_some, Option.map_some, same, ← rescored_score]
    rw [apply, recordViolation_real]
    rfl

/-- The times that the scores returned were calculated for, after an update. -/
def times (update : Update) (queries : List (Query Instant)) : List Instant :=
  (sources ttl ((readings update).map Prod.fst) queries).map (·.getD (update.start s))

/-- Each score returned is the one of its time. -/
theorem answers_apply (update : Update) (queries : List (Query Instant)) :
    scores.answers (update.apply s) queries =
      (update.times s queries).map (update.apply s).score := by
  rw [scores_answers, answers_eq, cache_apply, times, List.map_map, start]
  cases readings update with
  | none =>
    refine List.map_congr_left fun source _ => ?_
    cases source <;> rfl
  | some reading =>
    refine List.map_congr_left fun source _ => ?_
    cases source <;> rfl

end Update

open Update

/-- A score of one time is one of a time near another. -/
def Close (s : ModelTrustScore ℝ) (now time : Instant) : Prop :=
  (time ≤ now + ttl ∨ s.Flat (now + ttl) time) ∧ (now - ttl ≤ time ∨ s.Flat time (now - ttl))

theorem close_iff (s : ModelTrustScore ℝ) (now time : Instant) :
    (∃ t, |t - now| ≤ ttl ∧ s.score t = s.score time) ↔ Close s now time := by
  rw [exists_near_iff s.score_mono (by decide), Close]
  refine and_congr (or_congr_right' fun after => ?_) (or_congr_right' fun before => ?_)
  · exact s.score_eq_iff (not_le.mp after)
  · exact s.score_eq_iff (not_le.mp before)

/-- Each score returned after an update is one of a time near that of its query when the time that
it was calculated for is near, or the score does not change in between. -/
theorem stale_iff (s : ModelTrustScore ℝ) (update : Update) (queries : List (Query Instant)) :
    (∀ answer ∈ queries.zip (scores.answers (update.apply s) queries),
      ∃ t, |t - answer.1.asOf| ≤ ttl ∧ (update.apply s).score t = answer.2) ↔
    ∀ answer ∈ queries.zip (update.times s queries),
      Close (update.apply s) answer.1.asOf answer.2 := by
  rw [answers_apply, List.zip_map_right, List.forall_mem_map]
  exact forall₂_congr fun answer _ => close_iff _ _ _

theorem thirty_days : (1 : ℤ) ≤ 30 ∧ (30 : ℤ) ≤ 3650 := by decide

/-- A record of linear decay that has nothing left after a day. -/
def daily : ModelTrustScore ℝ where
  baseScore := 1
  currentScore := 1
  trustLevel := .verified
  decayFunction := .linear
  decayRate := 1
  decayRate_mem := by simp [Within]
  halfLifeDays := 30
  halfLifeDays_mem := thirty_days
  lastUpdated := 0
  lastVerified := none
  verificationCount := 0
  violationCount := 0
  cache := none

theorem daily_share (d : ℝ) : daily.share d = max 0 (1 - d) := by
  rw [share_spent daily (.inl rfl), spent]
  simp [daily]

/-- After a query for tomorrow, one for today is answered with the score of tomorrow. -/
theorem stale_tomorrow : ¬ ∀ (s : ModelTrustScore ℝ) (update : Update)
    (queries : List (Query Instant)),
    ∀ answer ∈ queries.zip (scores.answers (update.apply s) queries),
      ∃ t, |t - answer.1.asOf| ≤ ttl ∧ (update.apply s).score t = answer.2 := by
  intro holds
  have near := holds daily .invalidateCache [⟨86400000000, false⟩, ⟨0, false⟩]
    (⟨0, false⟩, daily.score 86400000000) (by
      rw [answers_apply]
      exact .tail _ (.head _))
  obtain ⟨early | flat, -⟩ := (close_iff daily 0 86400000000).mp near
  · exact absurd early (by decide)
  · rcases flat with none | past | ⟨start, -⟩ | ⟨-, low | less | gone | full⟩
    · cases none
    · exact absurd past (by decide)
    · exact absurd start (by decide)
    · norm_num [daily] at low
    · simp [Rateless, daily] at less
    · have := gone.2
      rw [daysElapsed_eq] at this
      norm_num [spent, daily, ttl] at this
    · rw [daily_share, daysElapsed_eq] at full
      norm_num [daily] at full

section Update

variable (s : ModelTrustScore ℝ) {b : ℝ}

/-- A new score is the current one at once when it is zero, or nothing was spent of it. -/
theorem currentScore_iff (b_mem : 0 ≤ b ∧ b ≤ 1) (verified : Bool) (t t' t'' : Instant) :
    (s.updateScore PyMath.real b verified t t' t'').currentScore = b ↔
      b = 0 ∨ s.Rateless ∨ t ≤ s.lastUpdated := by
  have current : (s.updateScore PyMath.real b verified t t' t'').currentScore =
      (s.rescored PyMath.real b t t').score (t' + (t - s.lastUpdated)) := by
    rw [updateScore_eq, ← rescored_score]
    rfl
  have first : (s.rescored PyMath.real b t t').score t' = b := score_start _ (.inr le_rfl)
  rw [current]
  rcases le_or_gt t s.lastUpdated with before | after
  · refine iff_of_true (score_start _ (.inr ?_)) (.inr (.inr before))
    exact add_le_of_nonpos_right (sub_nonpos.mpr before)
  · have less : t' < t' + (t - s.lastUpdated) := lt_add_of_pos_right _ (sub_pos.mpr after)
    rw [eq_comm]
    nth_rewrite 1 [← first]
    rw [score_eq_iff _ less]
    constructor
    · rintro (none | past | ⟨-, zero | ⟨-, rateless⟩⟩ | ⟨start, -⟩)
      · exact .inr (.inl (.inl none))
      · exact absurd less past.not_gt
      · exact .inl zero
      · exact .inr (.inl rateless)
      · exact absurd start (lt_irrefl _)
    · rintro (zero | rateless | before)
      · exact .inr (.inr (.inl ⟨le_rfl, .inl zero⟩))
      · exact .inr (.inr (.inl ⟨le_rfl, .inr ⟨b_mem, rateless⟩⟩))
      · exact absurd after before.not_gt

/-- Scores that are returned fall with the times that they are asked for. -/
def Falling (s : ModelTrustScore ℝ) (queries : List (Query Instant)) : Prop :=
  ∀ x ∈ queries.zip (scores.answers s queries), ∀ y ∈ queries.zip (scores.answers s queries),
    x.1.asOf ≤ y.1.asOf → y.2 ≤ x.2

/-- Of two scores that are returned, the one for the earlier time was calculated for the earlier
one, or the score does not change in between. -/
def Ordered (update : Update) (queries : List (Query Instant)) : Prop :=
  ∀ x ∈ queries.zip (update.times s queries), ∀ y ∈ queries.zip (update.times s queries),
    x.1.asOf ≤ y.1.asOf → x.2 ≤ y.2 ∨ (update.apply s).Flat y.2 x.2

variable {s} in
theorem falling_iff {update : Update} (base : 0 ≤ (update.apply s).baseScore)
    (queries : List (Query Instant)) :
    Falling (update.apply s) queries ↔ Ordered s update queries := by
  rw [Falling, answers_apply, List.zip_map_right]
  simp only [List.forall_mem_map]
  refine forall₂_congr fun x _ => forall₂_congr fun y _ => imp_congr_right fun _ => ?_
  exact score_le_iff _ base

theorem answers_le {update : Update} (base : 0 ≤ (update.apply s).baseScore)
    (queries : List (Query Instant)) :
    ∀ answer ∈ scores.answers (update.apply s) queries, answer ≤ (update.apply s).baseScore := by
  rw [answers_apply, List.forall_mem_map]
  intro time _
  exact score_le_base _ base

/-- An update sets the current score to the new one, and the scores returned after it fall with the
time and do not exceed the new one, exactly when the new score is zero or nothing was spent since
the update before, and each score for an earlier time was calculated for an earlier one, as far as
that makes a difference. -/
theorem falls_iff (b_mem : 0 ≤ b ∧ b ≤ 1) (verified : Bool) (t t' t'' : Instant)
    (queries : List (Query Instant)) :
    ((s.updateScore PyMath.real b verified t t' t'').currentScore = b ∧
      Falling (s.updateScore PyMath.real b verified t t' t'') queries ∧
      ∀ answer ∈ scores.answers (s.updateScore PyMath.real b verified t t' t'') queries,
        answer ≤ b) ↔
    (b = 0 ∨ s.Rateless ∨ t ≤ s.lastUpdated) ∧
      Ordered s (.updateScore b verified t t' t'') queries := by
  have new : ((Update.updateScore b verified t t' t'').apply s).baseScore = b := by
    rw [apply, updateScore_eq]
    rfl
  have base : 0 ≤ ((Update.updateScore b verified t t' t'').apply s).baseScore :=
    b_mem.1.trans_eq new.symm
  have below := answers_le s base queries
  rw [new] at below
  rw [currentScore_iff s b_mem, ← falling_iff base]
  exact and_congr_right' (and_iff_left below)

end Update

theorem falls_iff_daily : (0 ≤ (1 : ℝ) ∧ (1 : ℝ) ≤ 1) ∧
    (((daily.updateScore PyMath.real 1 true 0 1 2).currentScore = 1 ∧
      Falling (daily.updateScore PyMath.real 1 true 0 1 2) [⟨3, false⟩] ∧
      ∀ answer ∈ scores.answers (daily.updateScore PyMath.real 1 true 0 1 2) [⟨3, false⟩],
        answer ≤ 1) ↔
    ((1 : ℝ) = 0 ∨ daily.Rateless ∨ 0 ≤ daily.lastUpdated) ∧
      Ordered daily (.updateScore 1 true 0 1 2) [⟨3, false⟩]) :=
  ⟨⟨zero_le_one, le_rfl⟩, falls_iff daily ⟨zero_le_one, le_rfl⟩ true 0 1 2 [⟨3, false⟩]⟩

/-- A day after the last update, a new score of 1 gives a current score of 0. -/
theorem update_spent : ¬ ∀ (s : ModelTrustScore ℝ) (b : ℝ) (verified : Bool) (t t' t'' : Instant)
    (queries : List (Query Instant)), 0 ≤ b ∧ b ≤ 1 → (∀ query ∈ queries, t' ≤ query.asOf) →
    (s.updateScore PyMath.real b verified t t' t'').currentScore = b ∧
      Falling (s.updateScore PyMath.real b verified t t' t'') queries ∧
      ∀ answer ∈ scores.answers (s.updateScore PyMath.real b verified t t' t'') queries,
        answer ≤ b := by
  intro holds
  have unit : (0 : ℝ) ≤ 1 ∧ (1 : ℝ) ≤ 1 := ⟨zero_le_one, le_rfl⟩
  have current := (holds daily 1 false 86400000000 86400000000 0 [] unit (by simp)).1
  rcases (currentScore_iff daily unit _ _ _ _).mp current with zero | less | before
  · exact one_ne_zero zero
  · simp [Rateless, daily] at less
  · exact absurd before (by decide)

end Trust

end OmniMemory
