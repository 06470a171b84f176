import OmniMemory.Lib.Rounding
import OmniMemory.Lib.Tally
import OmniMemory.IsoFormat
import OmniMemory.Persona.Profile

/-! `classify_persona`: the persona that a batch of signals makes of a profile. It uses Python's
`float` to read the values of vocabulary signals and an arithmetic that rounds. -/

namespace OmniMemory.Persona

open Binary64 Interleave Tally

/-- What a classification uses of Python: `float`, which gives nothing where it raises `ValueError`,
and the arithmetic of the numbers. -/
structure Python extends Arithmetic where
  float : String → Option Value

/-- Decimals with a point, and the names of the values that are not finite. -/
def plainFloat (s : String) : Option Value :=
  match s, split s "." with
  | "nan", _ => some .nan
  | "inf", _ => some (.infinite false)
  | "-inf", _ => some (.infinite true)
  | _, [whole, fraction] =>
    if whole = "" ∨ fraction = "" then none
    else (decimalNumber (whole ++ fraction).toList).map fun n => .ofRat (n / 10 ^ fraction.length)
  | _, _ => none

/-- The arithmetic of binary64. -/
def Python.plain : Python where
  toArithmetic := .binary64
  float := plainFloat

/-- Exact arithmetic. -/
def Python.exact (float : String → Option Value) : Python where
  toArithmetic := .exact
  float := float

structure ModelPersonaClassifyRequest where
  userId : String
  signals : List ModelPersonaSignal
  existingProfile : Option ModelUserPersonaV1 := none

inductive Status where
  | success
  | error
  | insufficientData

structure ModelPersonaClassifyResult where
  status : Status
  persona : Option ModelUserPersonaV1 := none
  errorMessage : Option String := none
  signalsProcessed : Nat := 0

/-- The signals of a type. -/
def ofType (signalType : String) (signals : List ModelPersonaSignal) : List ModelPersonaSignal :=
  signals.filter (·.signalType = signalType)

/-! ### The traits -/

section Traits

variable (py : Python) (signals : List ModelPersonaSignal) (existing : Option ModelUserPersonaV1)

/-- The values of the `technical_level` signals whose confidence is high. -/
def techValues : List String :=
  ((ofType "technical_level" signals).filter fun s => py.fl (7 / 10) ≤ s.confidence).map
    (·.inferredValue)

/-- `level_map.get(proposed_level_str, EnumTechnicalLevel.INTERMEDIATE)`. -/
def levelOf (proposedLevelStr : String) : EnumTechnicalLevel :=
  (EnumTechnicalLevel.members.find? (·.value = proposedLevelStr)).getD .intermediate

/-- `proposed_count >= total_high_conf * 0.6`. -/
def Consensus (proposedCount totalHighConf : Nat) : Prop :=
  py.fl (py.fl totalHighConf * py.fl (6 / 10)) ≤ proposedCount

instance (proposedCount totalHighConf : Nat) : Decidable (Consensus py proposedCount totalHighConf) :=
  inferInstanceAs (Decidable (_ ≤ _))

def classifyTechnicalLevel : EnumTechnicalLevel :=
  let values := techValues py signals
  match leader values with
  | none => existing.elim .intermediate (·.technicalLevel)
  | some proposedLevelStr =>
    let proposedLevel := levelOf proposedLevelStr
    match existing with
    | none => proposedLevel
    | some existing =>
      if existing.sessionCount < 3 then proposedLevel
      else if proposedLevel ≠ existing.technicalLevel then
        if Consensus py (values.count proposedLevelStr) values.length then proposedLevel
        else existing.technicalLevel
      else proposedLevel

/-- `max(0.0, min(1.0, new_value))`. -/
def clamp : Value → ℚ
  | .nan | .infinite false => 1
  | .infinite true => 0
  | .finite q => max 0 (min 1 q)

/-- The values of the `vocabulary` signals that `float` reads. -/
def vocabularyValues : List Value :=
  (ofType "vocabulary" signals).filterMap fun s => py.float s.inferredValue

def classifyVocabulary : ℚ :=
  if ofType "vocabulary" signals = [] then existing.elim (1 / 2) (·.vocabularyComplexity)
  else
    py.round3 (py.averages (1 / 5) (existing.elim (1 / 2) (·.vocabularyComplexity))
      ((vocabularyValues py signals).map clamp))

/-- `tone_map.get(tone_str, EnumPreferredTone.EXPLANATORY)`. -/
def toneOf (toneStr : String) : EnumPreferredTone :=
  (EnumPreferredTone.members.find? (·.value = toneStr)).getD .explanatory

def classifyTone : EnumPreferredTone :=
  let recent := ((ofType "preferred_tone" signals).insertionSort fun s s' =>
    s'.emittedAt ≤ s.emittedAt).take 10
  (leader (recent.map (·.inferredValue))).elim .explanatory toneOf

/-- `domains.get(domain, 0.0)`. -/
def familiarity (domains : Domains) (domain : String) : ℚ :=
  (domains.find? domain).elim 0 Prod.snd

def raiseDomain (domains : Domains) (domain : String) : Domains :=
  domains.put (domain, min (py.fl (familiarity domains domain + py.fl (1 / 10))) 1)

def classifyDomains : Domains :=
  ((ofType "domain_familiarity" signals).map (·.inferredValue)).foldl (raiseDomain py)
    (existing.elim .empty (·.domainFamiliarity))

end Traits

/-! ### The persona -/

variable (py : Python) (request : ModelPersonaClassifyRequest) (now : Instant)

/-- `classify_persona`. The model of the persona checks the vocabulary complexity. -/
def classifyPersona : Except PyError ModelPersonaClassifyResult :=
  let signals := request.signals
  let existing := request.existingProfile
  if signals = [] then
    match existing with
    | some existing => .ok { status := .success, persona := some existing }
    | none => .ok { status := .insufficientData }
  else
    let vocabulary := classifyVocabulary py signals existing
    if bounds : 0 ≤ vocabulary ∧ vocabulary ≤ 1 then
      .ok
        { status := .success
          persona := some
            { userId := request.userId
              agentId := existing.elim none (·.agentId)
              technicalLevel := classifyTechnicalLevel py signals existing
              vocabularyComplexity := vocabulary
              preferredTone := classifyTone signals
              domainFamiliarity := classifyDomains py signals existing
              sessionCount := existing.elim 0 (·.sessionCount) + 1
              personaVersion := existing.elim 0 (·.personaVersion) + 1
              createdAt := now
              rebuiltFromSignals := signals.length
              vocabularyComplexity_bounds := bounds
              personaVersion_pos := Nat.le_add_left 1 _ }
          signalsProcessed := signals.length }
    else .error (.valueError "1 validation error for ModelUserPersonaV1: vocabulary_complexity")

/-- The persona that `classify_persona` returns. -/
def Classifies (persona : ModelUserPersonaV1) : Prop :=
  ∃ result, classifyPersona py request now = .ok result ∧ result.persona = some persona

theorem clamp_mem (v : Value) : 0 ≤ clamp v ∧ clamp v ≤ 1 := by
  cases v with
  | nan => norm_num [clamp]
  | infinite negative => cases negative <;> norm_num [clamp]
  | finite q => exact ⟨le_max_left _ _, max_le (by norm_num) (min_le_left _ _)⟩

theorem classifyVocabulary_mem (signals : List ModelPersonaSignal)
    (existing : Option ModelUserPersonaV1) :
    0 ≤ classifyVocabulary py signals existing ∧ classifyVocabulary py signals existing ≤ 1 := by
  have first : 0 ≤ existing.elim (1 / 2) (·.vocabularyComplexity) ∧
      existing.elim (1 / 2) (·.vocabularyComplexity) ≤ 1 := by
    cases existing with
    | none => norm_num
    | some existing => exact existing.vocabularyComplexity_bounds
  unfold classifyVocabulary
  split
  · exact first
  · have values : ∀ v ∈ (vocabularyValues py signals).map clamp, 0 ≤ v ∧ v ≤ 1 := by
      intro v mem
      obtain ⟨value, -, rfl⟩ := List.mem_map.mp mem
      exact clamp_mem value
    have average := Arithmetic.averages_mem (A := py.toArithmetic) values
      ⟨first.1, first.2.trans (by norm_num)⟩
    exact Arithmetic.round3_mem average.1 (average.2.trans (by norm_num))

/-- The traits of the persona, when there are signals. -/
structure HasTraits (persona : ModelUserPersonaV1) : Prop where
  technicalLevel :
    persona.technicalLevel = classifyTechnicalLevel py request.signals request.existingProfile
  vocabularyComplexity :
    persona.vocabularyComplexity = classifyVocabulary py request.signals request.existingProfile
  preferredTone : persona.preferredTone = classifyTone request.signals
  domainFamiliarity :
    persona.domainFamiliarity = classifyDomains py request.signals request.existingProfile
  sessionCount : persona.sessionCount = request.existingProfile.elim 0 (·.sessionCount) + 1
  personaVersion : persona.personaVersion = request.existingProfile.elim 0 (·.personaVersion) + 1

/-- With signals, `classify_persona` returns a persona, which has these traits. -/
theorem exists_classifies (some : request.signals ≠ []) :
    ∃ persona, Classifies py request now persona ∧ HasTraits py request persona := by
  have bounds := classifyVocabulary_mem py request.signals request.existingProfile
  simp only [Classifies, classifyPersona, if_neg some, dif_pos bounds]
  exact ⟨_, ⟨_, rfl, rfl⟩, ⟨rfl, rfl, rfl, rfl, rfl, rfl⟩⟩

variable {py request now}

theorem Classifies.unique {p q : ModelUserPersonaV1} (first : Classifies py request now p)
    (second : Classifies py request now q) : p = q := by
  obtain ⟨result, returns, persona⟩ := first
  obtain ⟨result', returns', persona'⟩ := second
  obtain rfl := Except.ok.inj (returns.symm.trans returns')
  exact Option.some.inj (persona.symm.trans persona')

/-- What the persona that is returned has is decided by any persona that is. -/
theorem Classifies.exists_iff {persona : ModelUserPersonaV1} {P : ModelUserPersonaV1 → Prop}
    (classifies : Classifies py request now persona) :
    (∃ p, Classifies py request now p ∧ P p) ↔ P persona :=
  ⟨fun ⟨_, other, holds⟩ => classifies.unique other ▸ holds, fun holds => ⟨_, classifies, holds⟩⟩

/-- Without signals, the profile is returned as it is. -/
theorem classifies_existing {existing : ModelUserPersonaV1} (none : request.signals = [])
    (profile : request.existingProfile = some existing) : Classifies py request now existing := by
  simp only [Classifies, classifyPersona, if_pos none, profile]
  exact ⟨_, rfl, rfl⟩

/-- For a profile, with signals or without, the traits that are made from the profile. -/
theorem exists_classifies_profile (py : Python) (userId : String) (signals : List ModelPersonaSignal)
    (existing : ModelUserPersonaV1) (now : Instant) :
    ∃ persona, Classifies py ⟨userId, signals, some existing⟩ now persona ∧
      persona.technicalLevel = classifyTechnicalLevel py signals (some existing) ∧
      persona.vocabularyComplexity = classifyVocabulary py signals (some existing) ∧
      persona.domainFamiliarity = classifyDomains py signals (some existing) := by
  by_cases empty : signals = []
  · subst empty
    exact ⟨existing, classifies_existing rfl rfl, rfl, rfl, rfl⟩
  · obtain ⟨persona, classifies, traits⟩ := exists_classifies py
      ⟨userId, signals, some existing⟩ now empty
    exact ⟨persona, classifies, traits.technicalLevel, traits.vocabularyComplexity,
      traits.domainFamiliarity⟩

end OmniMemory.Persona
