import OmniMemory.Lib.Table
import Mathlib.Algebra.Order.Ring.Rat
import Mathlib.Tactic.NormNum

/-! The persona of a user: the snapshot that is derived from the signals of the user's sessions, and
the signals. -/

namespace OmniMemory.Persona

open Interleave

inductive EnumTechnicalLevel where
  | beginner
  | intermediate
  | advanced
  | expert
deriving DecidableEq

inductive EnumPreferredTone where
  | explanatory
  | concise
  | formal
  | casual
deriving DecidableEq

namespace EnumTechnicalLevel

def members : List EnumTechnicalLevel := [beginner, intermediate, advanced, expert]

def value : EnumTechnicalLevel → String
  | beginner => "beginner"
  | intermediate => "intermediate"
  | advanced => "advanced"
  | expert => "expert"

end EnumTechnicalLevel

namespace EnumPreferredTone

def members : List EnumPreferredTone := [explanatory, concise, formal, casual]

def value : EnumPreferredTone → String
  | explanatory => "explanatory"
  | concise => "concise"
  | formal => "formal"
  | casual => "casual"

end EnumPreferredTone

/-- An aware `datetime`, in microseconds. -/
abbrev Instant := Int

/-- A `dict` from the domains to the familiarity with them. -/
abbrev Domains := Table (Prod.fst : String × ℚ → String)

/-- `ModelPersonaSignal`, as far as a classification reads it. -/
structure ModelPersonaSignal where
  signalType : String
  inferredValue : String
  confidence : ℚ
  emittedAt : Instant
  confidence_bounds : 0 ≤ confidence ∧ confidence ≤ 1 := by norm_num

structure ModelUserPersonaV1 where
  userId : String
  agentId : Option String := none
  technicalLevel : EnumTechnicalLevel := .intermediate
  vocabularyComplexity : ℚ := 1 / 2
  preferredTone : EnumPreferredTone := .explanatory
  domainFamiliarity : Domains := .empty
  sessionCount : Nat := 0
  personaVersion : Nat := 1
  createdAt : Instant
  rebuiltFromSignals : Nat := 0
  vocabularyComplexity_bounds : 0 ≤ vocabularyComplexity ∧ vocabularyComplexity ≤ 1 := by norm_num
  personaVersion_pos : 1 ≤ personaVersion := by decide

end OmniMemory.Persona
