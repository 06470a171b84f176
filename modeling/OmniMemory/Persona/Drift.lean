import OmniMemory.Persona.Frame

/-! How far one batch moves the familiarity with a domain and the vocabulary complexity, in exact
arithmetic. Every signal for a domain raises the familiarity, so that a batch may raise it more than
once, and a value that is no finite number counts for the vocabulary complexity as one of its bounds. -/

namespace OmniMemory.Persona

open Binary64 Binary64.Arithmetic Interleave

/-- The value is a number. -/
def finite : Value → Bool
  | .finite _ => true
  | .nan | .infinite _ => false

/-- The values to fold into an average, between zero and one. -/
def clamped (values : List Value) : List ℚ := values.map clamp

/-- The domains of the signals. -/
def exposures (signals : List ModelPersonaSignal) : List String :=
  (ofType "domain_familiarity" signals).map (·.inferredValue)

/-- The running average of the profile's vocabulary complexity with the numbers alone. -/
def averageOfNumbers (existing : ModelUserPersonaV1) (values : List Value) : ℚ :=
  averages exact (1 / 5) existing.vocabularyComplexity (clamped (values.filter finite))

/-- What one session may change: a tenth for each domain, up to one, and a vocabulary complexity that
is the average with the numbers alone, rounded or not, and so close to the range of these. -/
structure DriftsSlowly (values : List Value) (existing persona : ModelUserPersonaV1) : Prop where
  domains : ∀ domain,
    familiarity existing.domainFamiliarity domain ≤ familiarity persona.domainFamiliarity domain ∧
      familiarity persona.domainFamiliarity domain ≤
        familiarity existing.domainFamiliarity domain + 1 / 10 ∧
      familiarity persona.domainFamiliarity domain ≤ 1
  bounds : 0 ≤ persona.vocabularyComplexity ∧ persona.vocabularyComplexity ≤ 1
  between : ∀ low high : ℚ,
    low ≤ existing.vocabularyComplexity ∧ existing.vocabularyComplexity ≤ high →
      (∀ q, .finite q ∈ values → low ≤ max 0 (min 1 q) ∧ max 0 (min 1 q) ≤ high) →
        low - 1 / 2000 ≤ persona.vocabularyComplexity ∧
          persona.vocabularyComplexity ≤ high + 1 / 2000
  ignored : persona.vocabularyComplexity = averageOfNumbers existing values ∨
    persona.vocabularyComplexity = exact.round3 (averageOfNumbers existing values)

/-- The batch names no domain twice, except those that are almost at one, and the weighted average
is the same to three decimals without the values that are no numbers. -/
def Moderate (signals : List ModelPersonaSignal) (values : List Value)
    (existing : ModelUserPersonaV1) : Prop :=
  (∀ domain, (exposures signals).count domain ≤ 1 ∨
      9 / 10 ≤ familiarity existing.domainFamiliarity domain) ∧
    exact.round3 (weighted (1 / 5) existing.vocabularyComplexity (clamped values)) =
      exact.round3 (weighted (1 / 5) existing.vocabularyComplexity (clamped (values.filter finite)))

section Traits

variable {float : String → Option Value} {signals : List ModelPersonaSignal}
  {existing persona : ModelUserPersonaV1} {values : List Value} {domains : Domains} {domain : String}

theorem familiarity_raiseDomain {d : String} :
    familiarity (raiseDomain (.exact float) domains d) domain =
      if domain = d then min (familiarity domains domain + 1 / 10) 1
      else familiarity domains domain := by
  rw [familiarity, find?_raiseDomain]
  by_cases here : domain = d
  · subst here
    rw [if_pos rfl, if_pos rfl]
    rfl
  · rw [if_neg here, if_neg here]
    rfl

/-- Raising a domain several times raises the familiarity as many times, up to one. -/
theorem familiarity_foldl_raiseDomain {raised : List String} (le : familiarity domains domain ≤ 1) :
    familiarity (raised.foldl (raiseDomain (.exact float)) domains) domain =
      min (familiarity domains domain + raised.count domain / 10) 1 := by
  induction raised generalizing domains with
  | nil => simp [le]
  | cons d raised ih =>
    have step : familiarity (raiseDomain (.exact float) domains d) domain = _ := familiarity_raiseDomain
    rw [List.foldl_cons]
    by_cases here : domain = d
    · subst here
      rw [if_pos rfl] at step
      have nonneg : (0 : ℚ) ≤ raised.count domain := Nat.cast_nonneg _
      rw [ih (step.trans_le (min_le_right _ _)), step, List.count_cons_self]
      push_cast
      rcases le_total (familiarity domains domain + 1 / 10) 1 with low | high
      · rw [min_eq_left low]
        congr 1
        ring
      · rw [min_eq_right high, min_eq_right (by linarith), min_eq_right (by linarith)]
    · rw [if_neg here] at step
      rw [ih (step.trans_le le), step, List.count_cons_of_ne (Ne.symm here)]

theorem familiarity_classifyDomains (le : familiarity existing.domainFamiliarity domain ≤ 1) :
    familiarity (classifyDomains (.exact float) signals (some existing)) domain =
      min (familiarity existing.domainFamiliarity domain + (exposures signals).count domain / 10) 1 :=
  familiarity_foldl_raiseDomain le

/-- The familiarity with a domain grows by a tenth at most exactly if the batch names it once at most,
or it is almost at one. -/
theorem le_tenth_iff {old : ℚ} {count : Nat} (le : old ≤ 1) :
    (old ≤ min (old + count / 10) 1 ∧ min (old + count / 10) 1 ≤ old + 1 / 10 ∧
      min (old + (count : ℚ) / 10) 1 ≤ 1) ↔ count ≤ 1 ∨ 9 / 10 ≤ old := by
  have nonneg : (0 : ℚ) ≤ count := Nat.cast_nonneg _
  constructor
  · rintro ⟨-, small, -⟩
    rcases min_le_iff.mp small with small | high
    · have one : (count : ℚ) ≤ 1 := by linarith
      exact .inl (by exact_mod_cast one)
    · exact .inr (by linarith)
  · intro moderate
    refine ⟨le_min (by linarith) le, ?_, min_le_right _ _⟩
    rcases moderate with once | high
    · have one : (count : ℚ) ≤ 1 := by exact_mod_cast once
      exact (min_le_left _ _).trans (by linarith)
    · exact (min_le_right _ _).trans (by linarith)

theorem classifyVocabulary_exact (nonempty : ofType "vocabulary" signals ≠ []) :
    classifyVocabulary (.exact float) signals (some existing) =
      exact.round3 (weighted (1 / 5) existing.vocabularyComplexity
        (clamped (vocabularyValues (.exact float) signals))) := by
  rw [classifyVocabulary, if_neg nonempty, ← averages_exact]
  rfl

/-- The average with the numbers alone is in their range. -/
theorem averageOfNumbers_between {low high : ℚ}
    (first : low ≤ existing.vocabularyComplexity ∧ existing.vocabularyComplexity ≤ high)
    (range : ∀ q, .finite q ∈ values → low ≤ max 0 (min 1 q) ∧ max 0 (min 1 q) ≤ high) :
    low ≤ averageOfNumbers existing values ∧ averageOfNumbers existing values ≤ high := by
  refine averages_exact_mem (by norm_num) first fun v mem => ?_
  obtain ⟨value, here, rfl⟩ := List.mem_map.mp mem
  obtain ⟨here, number⟩ := List.mem_filter.mp here
  cases value with
  | nan => contradiction
  | infinite negative => contradiction
  | finite q => exact range q here

/-- What is an average or this average rounded is as close to its range. -/
theorem between_of_round3 {low high average v : ℚ} (range : low ≤ average ∧ average ≤ high)
    (same : v = average ∨ v = exact.round3 average) : low - 1 / 2000 ≤ v ∧ v ≤ high + 1 / 2000 := by
  obtain ⟨above, below⟩ := range
  rcases same with rfl | rfl
  · constructor <;> linarith
  · have close := abs_le.mp (abs_round3_sub average)
    constructor <;> linarith

/-- The vocabulary complexity is the average with the numbers alone, rounded or not, exactly if it is
the same to three decimals without the others. -/
theorem ignored_iff :
    (classifyVocabulary (.exact float) signals (some existing) =
          averageOfNumbers existing (vocabularyValues (.exact float) signals) ∨
        classifyVocabulary (.exact float) signals (some existing) =
          exact.round3 (averageOfNumbers existing (vocabularyValues (.exact float) signals))) ↔
      exact.round3 (weighted (1 / 5) existing.vocabularyComplexity
          (clamped (vocabularyValues (.exact float) signals))) =
        exact.round3 (weighted (1 / 5) existing.vocabularyComplexity
          (clamped ((vocabularyValues (.exact float) signals).filter finite))) := by
  by_cases empty : ofType "vocabulary" signals = []
  · have none : vocabularyValues (.exact float) signals = [] := by
      rw [vocabularyValues, empty]
      rfl
    rw [classifyVocabulary, if_pos empty, none]
    exact iff_of_true (.inl rfl) rfl
  · rw [classifyVocabulary_exact empty, averageOfNumbers, averages_exact]
    constructor
    · rintro (same | same)
      · rw [← same, round3_round3]
      · exact same
    · exact .inr

end Traits

end OmniMemory.Persona
