import OmniMemory.Python
import Mathlib.Algebra.Order.Ring.Rat

/-! The entities that are found in a text, with the places where they are found. -/

namespace OmniMemory.Semantic

inductive EnumSemanticEntityType where
  | person
  | organization
  | location
  | date
  | time
  | money
  | percent
  | quantity
  | cardinal
  | ordinal
  | product
  | event
  | workOfArt
  | law
  | language
  | norp
  | gpe
  | facility
  | misc
  | unknown
deriving DecidableEq

namespace EnumSemanticEntityType

def members : List EnumSemanticEntityType :=
  [person, organization, location, date, time, money, percent, quantity, cardinal, ordinal, product,
    event, workOfArt, law, language, norp, gpe, facility, misc, unknown]

def value : EnumSemanticEntityType → String
  | person => "person"
  | organization => "organization"
  | location => "location"
  | date => "date"
  | time => "time"
  | money => "money"
  | percent => "percent"
  | quantity => "quantity"
  | cardinal => "cardinal"
  | ordinal => "ordinal"
  | product => "product"
  | event => "event"
  | workOfArt => "work_of_art"
  | law => "law"
  | language => "language"
  | norp => "norp"
  | gpe => "gpe"
  | facility => "facility"
  | misc => "misc"
  | unknown => "unknown"

end EnumSemanticEntityType

/-- A number between zero and one. -/
abbrev Confidence := {q : ℚ // 0 ≤ q ∧ q ≤ 1}

structure ModelSemanticEntity where
  entityType : EnumSemanticEntityType
  text : String
  confidence : Confidence
  spanStart : Int
  spanEnd : Int
  text_ne_empty : text ≠ ""
  spanStart_nonneg : 0 ≤ spanStart
  span_ordering : spanStart < spanEnd
  span_length : spanEnd - spanStart = text.length

/-- `ModelSemanticEntity(...)`, which raises a `ValidationError` for values that are not valid. -/
def ModelSemanticEntity.make (entityType : EnumSemanticEntityType) (text : String) (confidence : ℚ)
    (spanStart spanEnd : Int) : Except PyError ModelSemanticEntity :=
  if valid : text ≠ "" ∧ (0 ≤ confidence ∧ confidence ≤ 1) ∧ 0 ≤ spanStart ∧ 0 ≤ spanEnd ∧
      ¬ spanEnd ≤ spanStart ∧ spanEnd - spanStart = text.length then
    .ok
      { entityType, text, spanStart, spanEnd
        confidence := ⟨confidence, valid.2.1⟩
        text_ne_empty := valid.1
        spanStart_nonneg := valid.2.2.1
        span_ordering := not_le.mp valid.2.2.2.2.1
        span_length := valid.2.2.2.2.2 }
  else .error (.valueError "validation error for ModelSemanticEntity")

theorem ModelSemanticEntity.make_of_valid (entityType : EnumSemanticEntityType) {text : String}
    (confidence : Confidence) {spanStart spanEnd : Int} (some : text ≠ "") (nonneg : 0 ≤ spanStart)
    (length : spanEnd - spanStart = text.length) :
    ∃ entity, make entityType text confidence spanStart spanEnd = .ok entity ∧
      entity.text = text ∧ entity.spanStart = spanStart ∧ entity.spanEnd = spanEnd := by
  have pos : 0 < text.length := by
    rw [← String.length_toList]
    exact List.length_pos_iff.mpr (by simpa using some)
  have valid : text ≠ "" ∧ (0 ≤ confidence.1 ∧ confidence.1 ≤ 1) ∧ 0 ≤ spanStart ∧ 0 ≤ spanEnd ∧
      ¬ spanEnd ≤ spanStart ∧ spanEnd - spanStart = text.length :=
    ⟨some, confidence.2, nonneg, by omega, by omega, length⟩
  rw [make, dif_pos valid]
  exact ⟨_, rfl, rfl, rfl, rfl⟩

end OmniMemory.Semantic
