import OmniMemory.Lib.Regex
import OmniMemory.Pii.Matches
import Mathlib.Data.List.Dedup

/-! `PIIDetector`: the patterns of each type, the scan with its limit for each type, and the content
in which the matches that are kept are replaced by their masks. -/

namespace OmniMemory

open Regular

namespace Pii

structure ModelPIIDetectorConfig where
  highConfidence : ℚ := 98 / 100
  mediumHighConfidence : ℚ := 95 / 100
  mediumConfidence : ℚ := 9 / 10
  reducedConfidence : ℚ := 75 / 100
  lowConfidence : ℚ := 6 / 10
  maxTextLength : ℕ := 50000
  maxMatchesPerType : ℕ := 100
  confidence_mem : ∀ c ∈ [highConfidence, mediumHighConfidence, mediumConfidence,
    reducedConfidence, lowConfidence], 0 ≤ c ∧ c ≤ 1 := by decide +kernel
  maxTextLength_ge : 1000 ≤ maxTextLength := by decide
  maxMatchesPerType_ge : 1 ≤ maxMatchesPerType := by decide

structure ModelPIIPatternConfig where
  pattern : Regex
  confidence : ℚ
  maskTemplate : String

/-! ### The characters of the patterns -/

def letter (c : Char) : Bool := ('A' ≤ c && c ≤ 'Z') || ('a' ≤ c && c ≤ 'z')

def alnum (c : Char) : Bool := letter c || ('0' ≤ c && c ≤ '9')

def hex (c : Char) : Bool := ('0' ≤ c && c ≤ '9') || ('a' ≤ c && c ≤ 'f') || ('A' ≤ c && c ≤ 'F')

section Patterns

variable (A : Alphabet) (config : ModelPIIDetectorConfig)

/-- `[-.\s]?`. -/
def gap : Regex := .opt (.set fun c => c == '-' || c == '.' || A.space c)

/-- `["\s]*[:=]["\s]*`. -/
def assigned : Regex :=
  .sequence [.star (.set fun c => c == '"' || A.space c), .set fun c => c == ':' || c == '=',
    .star (.set fun c => c == '"' || A.space c)]

/-- `\b[A-Za-z0-9._%+-]+@[A-Za-z0-9.-]+\.[A-Z|a-z]{2,}\b`. -/
def emailPattern : Regex :=
  .sequence [.boundary,
    .plus (A.anyCase fun c => alnum c || c == '.' || c == '_' || c == '%' || c == '+' || c == '-'),
    .oneOf '@', .plus (A.anyCase fun c => alnum c || c == '.' || c == '-'), .oneOf '.',
    .atLeast 2 (A.anyCase fun c => letter c || c == '|'), .boundary]

/-- `(\+1[-.\s]?)?\(?\d{3}\)?[-.\s]?\d{3}[-.\s]?\d{4}`. -/
def phonePattern : Regex :=
  .sequence [.opt (.sequence [.oneOf '+', .oneOf '1', gap A]), .opt (.oneOf '('), A.digits 3,
    .opt (.oneOf ')'), gap A, A.digits 3, gap A, A.digits 4]

/-- `\+\d{1,3}[-.\s]?\d{1,4}[-.\s]?\d{1,4}[-.\s]?\d{1,9}`. -/
def internationalPhonePattern : Regex :=
  .sequence [.oneOf '+', .between 1 3 (.set A.digit), gap A, .between 1 4 (.set A.digit), gap A,
    .between 1 4 (.set A.digit), gap A, .between 1 9 (.set A.digit)]

/-- `\b\d{3}-\d{2}-\d{4}\b`. -/
def ssnPattern : Regex :=
  .sequence [.boundary, A.digits 3, .oneOf '-', A.digits 2, .oneOf '-', A.digits 4, .boundary]

/-- `_build_ssn_validation_pattern`. -/
def buildSsnValidationPattern : Regex :=
  let invalidAreas : Regex :=
    .notAhead (.alt (A.literal "000") (.alt (A.literal "666") (.seq (.oneOf '9') (A.digits 2))))
  .sequence [.boundary, invalidAreas, A.digits 3, .notAhead (A.literal "00"), A.digits 2,
    .notAhead (A.literal "0000"), A.digits 4, .boundary]

/-- `\b4\d{15}\b|\b5[1-5]\d{14}\b|\b3[47]\d{13}\b`. -/
def creditCardPattern : Regex :=
  .alt (.sequence [.boundary, .oneOf '4', A.digits 15, .boundary])
    (.alt
      (.sequence [.boundary, .oneOf '5', .set fun c => '1' ≤ c && c ≤ '5', A.digits 14, .boundary])
      (.sequence [.boundary, .oneOf '3', .set fun c => c == '4' || c == '7', A.digits 13,
        .boundary]))

/-- `\b(?:\d{1,3}\.){3}\d{1,3}\b`. -/
def ipv4Pattern : Regex :=
  .sequence [.boundary, .exactly 3 (.seq (.between 1 3 (.set A.digit)) (.oneOf '.')),
    .between 1 3 (.set A.digit), .boundary]

/-- `\b[0-9a-fA-F]{1,4}(:[0-9a-fA-F]{1,4}){7}\b`. -/
def ipv6Pattern : Regex :=
  .sequence [.boundary, .between 1 4 (A.anyCase hex),
    .exactly 7 (.seq (.oneOf ':') (.between 1 4 (A.anyCase hex))), .boundary]

/-- A word, one of the ways to assign to it, and at least so many of some characters. -/
def assignment (name : Regex) (least : ℕ) (chars : Char → Bool) : Regex :=
  .sequence [name, assigned A, .atLeast least (A.anyCase chars)]

/-- `[Aa]pi[_-]?[Kk]ey["\s]*[:=]["\s]*([A-Za-z0-9\-_]{16,})`. -/
def apiKeyPattern : Regex :=
  assignment A (.sequence [A.anyCase fun c => c == 'A' || c == 'a', A.literal "pi",
    .opt (.set fun c => c == '_' || c == '-'), A.anyCase fun c => c == 'K' || c == 'k',
    A.literal "ey"]) 16 fun c => alnum c || c == '-' || c == '_'

/-- `[Tt]oken["\s]*[:=]["\s]*([A-Za-z0-9\-_]{20,})`. -/
def tokenPattern : Regex :=
  assignment A (.seq (A.anyCase fun c => c == 'T' || c == 't') (A.literal "oken")) 20
    fun c => alnum c || c == '-' || c == '_'

/-- `[Pp]assword["\s]*[:=]["\s]*([A-Za-z0-9\-_\$\.\/]{20,})`. -/
def passwordPattern : Regex :=
  assignment A (.seq (A.anyCase fun c => c == 'P' || c == 'p') (A.literal "assword")) 20
    fun c => alnum c || c == '-' || c == '_' || c == '$' || c == '.' || c == '/'

/-- `_initialize_patterns`. -/
def initializePatterns : List (PIIType × List ModelPIIPatternConfig) :=
  [(.email, [⟨emailPattern A, config.mediumHighConfidence, "***@***.***"⟩]),
   (.phone,
    [⟨phonePattern A, config.mediumConfidence, "***-***-****"⟩,
     ⟨internationalPhonePattern A, config.reducedConfidence, "+***-***-***"⟩]),
   (.ssn,
    [⟨ssnPattern A, config.highConfidence, "***-**-****"⟩,
     ⟨buildSsnValidationPattern A, config.reducedConfidence, "*********"⟩]),
   (.creditCard, [⟨creditCardPattern A, config.mediumConfidence, "****-****-****-****"⟩]),
   (.ipAddress,
    [⟨ipv4Pattern A, config.mediumConfidence, "***.***.***.***"⟩,
     ⟨ipv6Pattern A, config.mediumConfidence, "****:****:****:****"⟩]),
   (.apiKey,
    [⟨apiKeyPattern A, config.mediumHighConfidence, "api_key=***REDACTED***"⟩,
     ⟨tokenPattern A, config.mediumConfidence, "token=***REDACTED***"⟩,
     ⟨.seq (A.literal "sk-") (.atLeast 32 (A.anyCase alnum)), config.highConfidence,
      "sk-***REDACTED***"⟩,
     ⟨.seq (A.literal "ghp_") (.exactly 36 (A.anyCase alnum)), config.highConfidence,
      "ghp_***REDACTED***"⟩,
     ⟨.seq (A.literal "AIza") (.exactly 35 (A.anyCase fun c => alnum c || c == '-' || c == '_')),
      config.highConfidence, "AIza***REDACTED***"⟩,
     ⟨.seq (A.literal "AWS")
        (.atLeast 16 (A.anyCase fun c => ('A' ≤ c && c ≤ 'Z') || ('0' ≤ c && c ≤ '9'))),
      config.mediumHighConfidence, "AWS***REDACTED***"⟩]),
   (.passwordHash, [⟨passwordPattern A, config.mediumConfidence, "password=***REDACTED***"⟩])]

end Patterns

/-! ### The scan -/

section Scan

variable (A : Alphabet) (config : ModelPIIDetectorConfig)

def confidenceThreshold (sensitivityLevel : String) : ℚ :=
  if sensitivityLevel = "low" then config.mediumHighConfidence
  else if sensitivityLevel = "medium" then config.reducedConfidence
  else if sensitivityLevel = "high" then config.lowConfidence
  else config.reducedConfidence

/-- The matches of one pattern, from left to right. -/
def matchesOf (content : Text) (piiType : PIIType) (p : ModelPIIPatternConfig) :
    List ModelPIIMatch :=
  (findings 0 (p.pattern.pieces A.word none content)).map fun (start, value) =>
    { piiType := piiType
      value := value
      startIndex := start
      endIndex := start + value.length
      confidence := p.confidence
      maskedValue := p.maskTemplate.toList }

/-- The matches of the patterns of one type, of which no more are taken than are still allowed. -/
def scanType (content : Text) (threshold : ℚ) (piiType : PIIType) :
    List ModelPIIPatternConfig → List ModelPIIMatch :=
  List.foldl (fun found p =>
    if p.confidence < threshold then found
    else found ++ (matchesOf A content piiType p).take (config.maxMatchesPerType - found.length)) []

def scanContent (content : Text) (threshold : ℚ) : List ModelPIIMatch :=
  (initializePatterns A config).flatMap fun (piiType, patterns) =>
    scanType A config content threshold piiType patterns

end Scan

/-- `s[:i]`. -/
def sliceTo (s : Text) (i : Int) : Text := s.take (if i < 0 then i + s.length else i).toNat

/-- `s[i:]`. -/
def sliceFrom (s : Text) (i : Int) : Text := s.drop (if i < 0 then i + s.length else i).toNat

/-- One turn of the loop of `_sanitize_content`. -/
def replaceMatch (sanitized : Text) (m : ModelPIIMatch) : Text :=
  sliceTo sanitized m.startIndex ++ m.maskedValue ++ sliceFrom sanitized m.endIndex

/-- `_sanitize_content`. -/
def sanitizeContent (content : Text) (found : List ModelPIIMatch) : Text :=
  (found.insertionSort fun a b => b.startIndex ≤ a.startIndex).foldl replaceMatch content

/-- `ModelPIIDetectionResult`, which checks that `has_pii` tells of its lists. -/
structure ModelPIIDetectionResult where
  hasPii : Bool
  found : List ModelPIIMatch
  sanitizedContent : Text
  piiTypesDetected : List PIIType
  consistent : hasPii = (!found.isEmpty || !piiTypesDetected.isEmpty)

structure ValueError where
  message : String

theorem deduplicateMatches_isEmpty (found : List ModelPIIMatch) :
    (deduplicateMatches found).isEmpty = found.isEmpty := by
  rw [Bool.eq_iff_iff, List.isEmpty_iff, List.isEmpty_iff, deduplicateMatches, Greedy.keep_eq_nil,
    ← List.length_eq_zero_iff, List.length_insertionSort, List.length_eq_zero_iff]

/-- `detect_pii`. -/
def detectPii (A : Alphabet) (config : ModelPIIDetectorConfig) (content : Text)
    (sensitivityLevel : String) : Except ValueError ModelPIIDetectionResult :=
  if content.length > config.maxTextLength then
    .error ⟨"Content length " ++ toString content.length ++ " exceeds max " ++
      toString config.maxTextLength⟩
  else
    let scanned := scanContent A config content (confidenceThreshold config sensitivityLevel)
    let found := (deduplicateMatches scanned).insertionSort fun a b => a.startIndex ≤ b.startIndex
    .ok {
      hasPii := !found.isEmpty
      found := found
      sanitizedContent := if found.isEmpty then content else sanitizeContent content found
      piiTypesDetected := (scanned.map (·.piiType)).dedup
      consistent := by
        have same : found.isEmpty = scanned.isEmpty := by
          rw [← deduplicateMatches_isEmpty scanned]
          exact ((deduplicateMatches scanned).perm_insertionSort _).isEmpty_eq
        have types : (scanned.map (·.piiType)).dedup.isEmpty = scanned.isEmpty := by
          rw [Bool.eq_iff_iff, List.isEmpty_iff, List.isEmpty_iff, List.dedup_eq_nil,
            List.map_eq_nil_iff]
        rw [types, same, Bool.or_self] }

end Pii

end OmniMemory
