import OmniMemory.Foundation.TrustScore

/-! When the scores of a record stay within their bounds. `update_score` assigns any float, and
`record_violation` with a negative penalty adds to the base score; all else keeps the bounds, and
the level is that of the current score whatever happens. -/

namespace OmniMemory

open Sequential Binary64

namespace Trust

open TrustScoreData ModelTrustScore

/-- A call of a method, with what it reads from the clock. -/
inductive Call where
  | updateScore (newBaseScore : Value) (verified : Bool)
      (calculatedAt updatedAt verifiedAt : Instant)
  | recordViolation (penalty : Value) (calculatedAt updatedAt : Instant)
  | refreshCurrentScore (now : Instant)
  | calculateCurrentScore (asOf : Instant) (forceRecalculate : Bool)

/-- A record, whose methods return nothing or a score, or raise. -/
def methods (math : PyMath Value) :
    Automaton Call (Except OverflowError (Option Value)) (ModelTrustScore Value) where
  step s
    | .updateScore newBaseScore verified calculatedAt updatedAt verifiedAt =>
      (.ok none, s.updateScore math newBaseScore verified calculatedAt updatedAt verifiedAt)
    | .recordViolation penalty calculatedAt updatedAt =>
      (s.recordViolation math penalty calculatedAt updatedAt).map (·.map fun _ => none) id
    | .refreshCurrentScore now => (.ok none, s.refreshCurrentScore math now)
    | .calculateCurrentScore asOf forceRecalculate =>
      (s.calculateCurrentScore math asOf forceRecalculate).map (.ok ∘ some) id

/-- The value is a number from 0 to 1. -/
def InUnit (x : Value) : Prop := lit 0 ≤ x ∧ x ≤ lit 1

instance (x : Value) : Decidable (InUnit x) := inferInstanceAs (Decidable (_ ∧ _))

/-- The scores are within their bounds, with the level of the current one, and the dumped record is
accepted again. -/
structure Sound (s : ModelTrustScore Value) : Prop where
  baseScore : InUnit s.baseScore
  currentScore : InUnit s.currentScore
  trustLevel : s.trustLevel = scoreToLevel s.currentScore
  accepted : ∃ again, s.dump.validate = .ok again

/-- A call gives a score within the bounds, or a penalty that does not lift the base score above
them. -/
def Bounded (s : ModelTrustScore Value) : Call → Prop
  | .updateScore newBaseScore .. => InUnit newBaseScore
  | .recordViolation penalty .. =>
    ∀ factor ∈ penaltyFactor penalty (s.violationCount + 1), ¬ lit 1 < s.baseScore - factor
  | _ => True

section Clamp

variable {x : Value}

theorem lit_zero : (lit 0 : Value) = .finite 0 := by decide +kernel

theorem lit_one : (lit 1 : Value) = .finite 1 := by decide +kernel

theorem inUnit_zero : InUnit (lit 0) := by rw [InUnit, lit_zero, lit_one]; decide

theorem inUnit_one : InUnit (lit 1) := by rw [InUnit, lit_zero, lit_one]; decide

theorem zero_lt_one : (lit 0 : Value) < lit 1 := by rw [lit_zero, lit_one]; decide

theorem within_of_inUnit (bounds : InUnit x) : Within x :=
  ⟨Value.not_lt_of_le bounds.1, Value.not_lt_of_le bounds.2⟩

/-- What is clamped from below is within the bounds unless it was above them. -/
theorem inUnit_pyMax : InUnit (pyMax (lit 0) x) ↔ ¬ lit 1 < x := by
  rw [pyMax]
  split
  · rename_i pos
    refine ⟨fun bounds => Value.not_lt_of_le bounds.2, fun small => ⟨Value.le_of_lt pos, ?_⟩⟩
    exact Value.le_of_not_lt (Value.le_self_of_lt pos) (Value.le_self_of_lt zero_lt_one) small
  · rename_i low
    exact iff_of_true inUnit_zero fun above => low (Value.lt_trans zero_lt_one above)

theorem inUnit_clamp : InUnit (pyMax (lit 0) (pyMin (lit 1) x)) := by
  refine inUnit_pyMax.mpr ?_
  rw [pyMin]
  split
  · rename_i less
    exact Value.not_lt_of_le (Value.le_of_lt less)
  · exact Value.not_lt_of_le inUnit_one.2

end Clamp

section Methods

variable (math : PyMath Value) {s : ModelTrustScore Value}

/-- What is kept from call to call: the scores, the cached one too, are within their bounds. -/
structure Kept (s : ModelTrustScore Value) : Prop where
  baseScore : InUnit s.baseScore
  currentScore : InUnit s.currentScore
  trustLevel : s.trustLevel = scoreToLevel s.currentScore
  cache : ∀ entry ∈ s.cache, InUnit entry.1

theorem Kept.sound (kept : Kept s) : Sound s where
  baseScore := kept.baseScore
  currentScore := kept.currentScore
  trustLevel := kept.trustLevel
  accepted := by
    have passed : s.dump.problems = [] := by
      refine s.dump.problems_eq_nil.mpr ⟨within_of_inUnit kept.baseScore,
        within_of_inUnit kept.currentScore, kept.trustLevel, s.decayRate_mem, s.halfLifeDays_mem,
        ?_, ?_⟩
      · exact Int.natCast_nonneg _
      · exact Int.natCast_nonneg _
    exact ⟨_, dif_pos passed⟩

theorem inUnit_decayedScore (base : InUnit s.baseScore) (asOf : Instant) :
    InUnit (s.decayedScore math asOf) := by
  rw [decayedScore]
  split
  · exact base
  · split
    · exact base
    · exact inUnit_clamp

/-- A score that is calculated is within the bounds when those of the record are. -/
theorem inUnit_calculateCurrentScore (base : InUnit s.baseScore)
    (cache : ∀ entry ∈ s.cache, InUnit entry.1) (asOf : Instant) (force : Bool) :
    InUnit (s.calculateCurrentScore math asOf force).1 ∧
      ∀ entry ∈ (s.calculateCurrentScore math asOf force).2.cache, InUnit entry.1 := by
  have fresh := inUnit_decayedScore math base asOf
  have kept : ∀ entry ∈ (s.updateCache (s.decayedScore math asOf) asOf).cache, InUnit entry.1 := by
    rintro _ ⟨⟩
    exact fresh
  rw [calculateCurrentScore]
  split
  · rename_i cachedScore timestamp cached
    split
    · exact ⟨cache _ cached, cache⟩
    · exact ⟨fresh, kept⟩
  · exact ⟨fresh, kept⟩

theorem kept_rescored {baseScore : Value} (base : InUnit baseScore) (t t' : Instant) :
    Kept (s.rescored math baseScore t t') := by
  have fresh : InUnit ({ s with baseScore := baseScore }.decayedScore math t) :=
    inUnit_decayedScore math base t
  refine ⟨base, fresh, rfl, ?_⟩
  rintro _ ⟨⟩
  exact fresh

/-- A call that is within its bounds keeps those of the record. -/
theorem kept_step {call : Call} (kept : Kept s) (bounded : Bounded s call) :
    Kept ((methods math).step s call).2 := by
  cases call with
  | updateScore b verified t t' t'' =>
    have := kept_rescored math (s := s) bounded t t'
    simp only [methods, updateScore_eq]
    exact ⟨this.baseScore, this.currentScore, this.trustLevel, this.cache⟩
  | recordViolation penalty t t' =>
    rcases penalized : penaltyFactor penalty (s.violationCount + 1) with _ | factor
    · simp only [methods, recordViolation_none penalized]
      exact ⟨kept.baseScore, kept.currentScore, kept.trustLevel, by simp⟩
    · have base : InUnit (pyMax (lit 0) (s.baseScore - factor)) :=
        inUnit_pyMax.mpr (bounded factor penalized)
      have := kept_rescored math (s := s) base t t'
      simp only [methods, recordViolation_some penalized]
      exact ⟨this.baseScore, this.currentScore, this.trustLevel, this.cache⟩
  | refreshCurrentScore now =>
    obtain ⟨score, entries⟩ :=
      inUnit_calculateCurrentScore math kept.baseScore kept.cache now false
    simp only [methods, refreshCurrentScore]
    rw [calculateCurrentScore_snd]
    exact ⟨kept.baseScore, score, rfl, entries⟩
  | calculateCurrentScore asOf force =>
    obtain ⟨-, entries⟩ :=
      inUnit_calculateCurrentScore math kept.baseScore kept.cache asOf force
    simp only [methods, Prod.map_snd, id_eq]
    rw [calculateCurrentScore_snd]
    exact ⟨kept.baseScore, kept.currentScore, kept.trustLevel, entries⟩

/-- A call after which the base score is within its bounds is within its own. -/
theorem bounded_of_step {call : Call} (base : InUnit ((methods math).step s call).2.baseScore) :
    Bounded s call := by
  cases call with
  | updateScore b verified t t' t'' =>
    simp only [methods, updateScore_eq] at base
    exact base
  | recordViolation penalty t t' =>
    intro factor penalized
    simp only [methods, recordViolation_some penalized] at base
    exact inUnit_pyMax.mp base
  | refreshCurrentScore now => trivial
  | calculateCurrentScore asOf force => trivial

theorem of_validate {data : TrustScoreData Value} (validated : data.validate = .ok s) :
    s.trustLevel = scoreToLevel s.currentScore ∧ s.cache = none := by
  rw [validate] at validated
  split at validated
  · rename_i passed
    obtain rfl := Except.ok.inj validated
    exact ⟨(data.problems_eq_nil.mp passed).2.2.1, rfl⟩
  · cases validated

end Methods

/-- A record is sound in every state that it reaches when its scores are numbers at first, and every
call is within its bounds. -/
theorem sound_iff (math : PyMath Value) {data : TrustScoreData Value} {s : ModelTrustScore Value}
    (validated : data.validate = .ok s) (calls : List Call) :
    (∀ before, before <+: calls → Sound ((methods math).run s before)) ↔
      InUnit s.baseScore ∧ InUnit s.currentScore ∧ (methods math).Meets Bounded s calls := by
  obtain ⟨level, uncached⟩ := of_validate validated
  have states : Kept s → ((∀ before, before <+: calls → Sound ((methods math).run s before)) ↔
      (methods math).Meets Bounded s calls) := fun kept =>
    Automaton.all_states_iff kept (fun _ => Kept.sound) (fun _ _ => kept_step math)
      fun _ _ _ sound => bounded_of_step math sound.baseScore
  constructor
  · intro sound
    have first : Sound s := sound [] (List.nil_prefix)
    refine ⟨first.baseScore, first.currentScore, (states ?_).mp sound⟩
    exact ⟨first.baseScore, first.currentScore, level, by simp [uncached]⟩
  · rintro ⟨base, current, meets⟩
    exact (states ⟨base, current, level, by simp [uncached]⟩).mpr meets

section Example

/-- A record that does not decay. -/
def steadyHalf : TrustScoreData Value where
  baseScore := lit (1 / 2)
  currentScore := lit (1 / 2)
  trustLevel := .medium
  decayFunction := .none
  decayRate := lit (1 / 100)
  lastUpdated := 0

/-- `steadyHalf` after its validation. -/
def steadyHalfScore : ModelTrustScore Value where
  baseScore := lit (1 / 2)
  currentScore := lit (1 / 2)
  trustLevel := .medium
  decayFunction := .none
  decayRate := lit (1 / 100)
  decayRate_mem := by decide +kernel
  halfLifeDays := 30
  halfLifeDays_mem := by decide
  lastUpdated := 0
  lastVerified := none
  verificationCount := 0
  violationCount := 0
  cache := none

/-- A `math` that is not called for a record that does not decay. -/
def uncalled : PyMath Value where
  exp := id
  log := id

theorem validate_steadyHalf : steadyHalf.validate = .ok steadyHalfScore := by
  have passed : steadyHalf.problems = [] := by decide +kernel
  exact dif_pos passed

theorem sound_iff_update :
    steadyHalf.validate = .ok steadyHalfScore ∧
      ((∀ before, before <+: [.updateScore (lit 2) false 0 0 0] →
        Sound ((methods uncalled).run steadyHalfScore before)) ↔
      InUnit steadyHalfScore.baseScore ∧ InUnit steadyHalfScore.currentScore ∧
        (methods uncalled).Meets Bounded steadyHalfScore [.updateScore (lit 2) false 0 0 0]) :=
  ⟨validate_steadyHalf, sound_iff uncalled validate_steadyHalf _⟩

/-- A score of 2 is assigned. -/
theorem update_beyond_one : ¬ ∀ (math : PyMath Value) (data : TrustScoreData Value)
    (s : ModelTrustScore Value) (calls : List Call), data.validate = .ok s →
      ∀ before, before <+: calls → Sound ((methods math).run s before) := by
  intro holds
  have base := (holds uncalled _ _ [.updateScore (lit 2) false 0 0 0] validate_steadyHalf _
    List.prefix_rfl).baseScore
  have above : ¬ InUnit (lit 2) := by decide +kernel
  exact above base

end Example

end Trust

end OmniMemory
