import OmniMemory.Lib.Automaton
import OmniMemory.Lib.Floats

/-! `ModelTrustScore`: a score that decays with the time since the last update, and a score that was
calculated and is kept for five minutes. The fields are checked when a record is validated, and no
method checks what it assigns to one. -/

namespace OmniMemory

open Sequential Binary64

namespace Trust

inductive EnumTrustLevel where
  | untrusted
  | low
  | medium
  | high
  | trusted
  | verified
deriving DecidableEq

inductive EnumDecayFunction where
  | linear
  | exponential
  | logarithmic
  | none
deriving DecidableEq

/-- An aware `datetime`, in microseconds. -/
abbrev Instant := Int

def cacheTtlSeconds : ℚ := 300

variable {F : Type} [Numbers F]

/-- A literal of the source. -/
def lit (q : ℚ) : F := Numbers.ofRat q

/-- `timedelta.total_seconds`, which is one division. -/
def totalSeconds (microseconds : Int) : F := lit (microseconds / 1000000)

section Level

variable [LE F] [DecidableLE F]

/-- `_score_to_level`. -/
def scoreToLevel (score : F) : EnumTrustLevel :=
  if lit (95 / 100) ≤ score then .verified
  else if lit (9 / 10) ≤ score then .trusted
  else if lit (7 / 10) ≤ score then .high
  else if lit (5 / 10) ≤ score then .medium
  else if lit (2 / 10) ≤ score then .low
  else .untrusted

end Level

/-- What a field with `ge=0.0` and `le=1.0` lets through, which is refused when it is less or
greater. What is not a number is neither. -/
def Within [LT F] (x : F) : Prop := ¬ x < lit 0 ∧ ¬ lit 1 < x

instance [LT F] [DecidableLT F] (x : F) : Decidable (Within x) :=
  inferInstanceAs (Decidable (_ ∧ _))

/-- The fields of a record that is to be validated. -/
structure TrustScoreData (F : Type) where
  baseScore : F
  currentScore : F
  trustLevel : EnumTrustLevel
  decayFunction : EnumDecayFunction := .exponential
  decayRate : F
  halfLifeDays : Int := 30
  lastUpdated : Instant
  lastVerified : Option Instant := none
  verificationCount : Int := 0
  violationCount : Int := 0

/-- A record after its validation. The fields that no method assigns to keep their bounds. -/
structure ModelTrustScore (F : Type) [Numbers F] [LT F] where
  baseScore : F
  currentScore : F
  trustLevel : EnumTrustLevel
  decayFunction : EnumDecayFunction
  decayRate : F
  decayRate_mem : Within decayRate
  halfLifeDays : Int
  halfLifeDays_mem : 1 ≤ halfLifeDays ∧ halfLifeDays ≤ 3650
  lastUpdated : Instant
  lastVerified : Option Instant
  verificationCount : ℕ
  violationCount : ℕ
  /-- `_cached_score` and `_cache_timestamp`, which are assigned together. -/
  cache : Option (F × Instant)

namespace TrustScoreData

variable [LT F] [DecidableLT F] [LE F] [DecidableLE F] (data : TrustScoreData F)

def check (field : String) (ok : Prop) [Decidable ok] : List String := if ok then [] else [field]

/-- The fields that do not pass. The level is compared only with a score that passed. -/
def problems : List String :=
  check "base_score" (Within data.baseScore) ++
  check "current_score" (Within data.currentScore) ++
  check "trust_level"
    (Within data.currentScore → data.trustLevel = scoreToLevel data.currentScore) ++
  check "decay_rate" (Within data.decayRate) ++
  check "half_life_days" (1 ≤ data.halfLifeDays ∧ data.halfLifeDays ≤ 3650) ++
  check "verification_count" (0 ≤ data.verificationCount) ++
  check "violation_count" (0 ≤ data.violationCount)

theorem check_eq_nil {field : String} {ok : Prop} [Decidable ok] : check field ok = [] ↔ ok := by
  rw [check]
  split <;> simp_all

theorem problems_eq_nil : data.problems = [] ↔
    Within data.baseScore ∧ Within data.currentScore ∧
      data.trustLevel = scoreToLevel data.currentScore ∧ Within data.decayRate ∧
      (1 ≤ data.halfLifeDays ∧ data.halfLifeDays ≤ 3650) ∧
      0 ≤ data.verificationCount ∧ 0 ≤ data.violationCount := by
  simp only [problems, List.append_eq_nil_iff, check_eq_nil]
  tauto

/-- `ModelTrustScore(...)`. -/
def validate : Except (List String) (ModelTrustScore F) :=
  if passed : data.problems = [] then
    .ok { data with
      decayRate_mem := (data.problems_eq_nil.mp passed).2.2.2.1
      halfLifeDays_mem := (data.problems_eq_nil.mp passed).2.2.2.2.1
      verificationCount := data.verificationCount.toNat
      violationCount := data.violationCount.toNat
      cache := none }
  else .error data.problems

end TrustScoreData

/-- What is raised for an integer that is too large for a float. -/
inductive OverflowError where
  | intTooLargeToConvertToFloat

namespace ModelTrustScore

section Dump

variable [LT F] (s : ModelTrustScore F)

/-- `model_dump`. -/
def dump : TrustScoreData F where
  baseScore := s.baseScore
  currentScore := s.currentScore
  trustLevel := s.trustLevel
  decayFunction := s.decayFunction
  decayRate := s.decayRate
  halfLifeDays := s.halfLifeDays
  lastUpdated := s.lastUpdated
  lastVerified := s.lastVerified
  verificationCount := s.verificationCount
  violationCount := s.violationCount

def updateCache (score : F) (timestamp : Instant) : ModelTrustScore F :=
  { s with cache := some (score, timestamp) }

def invalidateCache : ModelTrustScore F := { s with cache := none }

end Dump

variable [Add F] [Sub F] [Neg F] [Mul F] [Div F] [LT F] [LE F] [DecidableLT F] [DecidableLE F]
  (math : PyMath F) (s : ModelTrustScore F)

def isCacheValid (asOf : Instant) : Bool :=
  match s.cache with
  | none => false
  | some (_, timestamp) => totalSeconds (F := F) (asOf - timestamp) < lit cacheTtlSeconds

def daysElapsed (asOf : Instant) : F := totalSeconds (asOf - s.lastUpdated) / lit 86400

def decayFactor (daysElapsed : F) : F :=
  match s.decayFunction with
  | .linear => pyMax (lit 0) (lit 1 - daysElapsed * s.decayRate)
  | .exponential => math.exp (-daysElapsed / lit s.halfLifeDays * math.log (lit 2))
  | .logarithmic => pyMax (lit 0) (lit 1 - math.log (lit 1 + daysElapsed) * s.decayRate)
  | .none => lit 1

/-- The part of `calculate_current_score` after the look at the cache. -/
def decayedScore (asOf : Instant) : F :=
  if s.decayFunction = .none then s.baseScore
  else if s.daysElapsed asOf ≤ lit 0 then s.baseScore
  else pyMax (lit 0) (pyMin (lit 1) (s.baseScore * s.decayFactor math (s.daysElapsed asOf)))

def calculateCurrentScore (asOf : Instant) (forceRecalculate : Bool) : F × ModelTrustScore F :=
  let score := s.decayedScore math asOf
  match s.cache with
  | some (cachedScore, _) =>
    if !forceRecalculate && s.isCacheValid asOf then (cachedScore, s)
    else (score, s.updateCache score asOf)
  | none => (score, s.updateCache score asOf)

/-- `refresh_current_score`, and the end of the two methods below. -/
def refreshCurrentScore (now : Instant) : ModelTrustScore F :=
  let (score, s) := s.calculateCurrentScore math now false
  { s with currentScore := score, trustLevel := scoreToLevel score }

/-- `update_score`, with what it reads from the clock, one after the other. -/
def updateScore (newBaseScore : F) (verified : Bool) (calculatedAt updatedAt verifiedAt : Instant) :
    ModelTrustScore F :=
  let s := { s.invalidateCache with baseScore := newBaseScore }
  let s := { s.refreshCurrentScore math calculatedAt with lastUpdated := updatedAt }
  if verified then
    { s with lastVerified := some verifiedAt, verificationCount := s.verificationCount + 1 }
  else s

/-- `penalty_factor`, when the count of violations has a float. -/
def penaltyFactor (penalty : F) (violationCount : ℕ) : Option F :=
  (Numbers.ofInt violationCount).map fun count => pyMin (penalty * count) (lit (5 / 10))

/-- `record_violation`, with what it reads from the clock. -/
def recordViolation (penalty : F) (calculatedAt updatedAt : Instant) :
    Except OverflowError Unit × ModelTrustScore F :=
  let s := { s.invalidateCache with violationCount := s.violationCount + 1 }
  match penaltyFactor penalty s.violationCount with
  | none => (.error .intTooLargeToConvertToFloat, s)
  | some penaltyFactor =>
    let s := { s with baseScore := pyMax (lit 0) (s.baseScore - penaltyFactor) }
    (.ok (), { s.refreshCurrentScore math calculatedAt with lastUpdated := updatedAt })

variable {math s}

theorem calculateCurrentScore_snd (asOf : Instant) (force : Bool) :
    (s.calculateCurrentScore math asOf force).2 =
      { s with cache := (s.calculateCurrentScore math asOf force).2.cache } := by
  rw [calculateCurrentScore]
  split
  · split <;> rfl
  · rfl

/-- A record with another base score whose score is calculated and kept. -/
def rescored (math : PyMath F) (s : ModelTrustScore F) (baseScore : F)
    (calculatedAt updatedAt : Instant) : ModelTrustScore F :=
  let score := { s with baseScore := baseScore }.decayedScore math calculatedAt
  { s with
    baseScore := baseScore
    currentScore := score
    trustLevel := scoreToLevel score
    lastUpdated := updatedAt
    cache := some (score, calculatedAt) }

theorem updateScore_eq (newBaseScore : F) (verified : Bool) (t t' t'' : Instant) :
    s.updateScore math newBaseScore verified t t' t'' =
      { s.rescored math newBaseScore t t' with
        lastVerified := if verified then some t'' else s.lastVerified
        verificationCount := s.verificationCount + verified.toNat } := by
  cases verified <;> rfl

theorem recordViolation_none {penalty : F} (h : penaltyFactor penalty (s.violationCount + 1) = none)
    (t t' : Instant) : s.recordViolation math penalty t t' =
      (.error .intTooLargeToConvertToFloat,
        { s with violationCount := s.violationCount + 1, cache := none }) := by
  simp only [recordViolation, h, invalidateCache]

theorem recordViolation_some {penalty factor : F}
    (h : penaltyFactor penalty (s.violationCount + 1) = some factor) (t t' : Instant) :
    s.recordViolation math penalty t t' =
      (.ok (), { s.rescored math (pyMax (lit 0) (s.baseScore - factor)) t t' with
        violationCount := s.violationCount + 1 }) := by
  simp only [recordViolation, h, invalidateCache]
  rfl

end ModelTrustScore

end Trust

end OmniMemory
