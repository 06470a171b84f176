import OmniMemory.Lib.Tally
import OmniMemory.Lib.Words
import OmniMemory.Semantic.Entity

/-! The heuristics of `HandlerSemanticCompute`: the entities and the topics of a text, found by its
words. -/

namespace OmniMemory.Semantic

open Words

/-- What the heuristics use of the cases of letters: `str.lower` and `c.isupper()`. A text that is
made of characters of lower-cased texts stays as it is when it is lower-cased. -/
structure Unicode where
  lower : String → String
  isUpper : Char → Bool
  lower_lower : ∀ s t : String, (∀ c ∈ t.toList, c ∈ (lower s).toList) → lower t = t

theorem toLower_of_not_isUpper {c : Char} (upper : ¬ c.isUpper = true) : c.toLower = c := by
  unfold Char.isUpper at upper
  unfold Char.toLower
  rw [dif_neg fun h => upper (by simpa using h)]

theorem toLower_toLower (c : Char) : c.toLower.toLower = c.toLower := by
  refine toLower_of_not_isUpper fun upper => ?_
  unfold Char.isUpper at upper
  have upper : 'A'.val ≤ c.toLower.val ∧ c.toLower.val ≤ 'Z'.val := by simpa using upper
  unfold Char.toLower at upper
  split at upper
  · rename_i here
    have low : 65 ≤ c.val.toNat := UInt32.le_iff_toNat_le.mp here.1
    have high : (c.val + 32).toNat ≤ 90 := UInt32.le_iff_toNat_le.mp upper.2
    have small : c.val.toNat ≤ 90 := UInt32.le_iff_toNat_le.mp here.2
    rw [UInt32.toNat_add, show (32 : UInt32).toNat = 32 from rfl] at high
    omega
  · contradiction

/-- The cases of the letters of ASCII. -/
def Unicode.ascii : Unicode where
  lower s := String.ofList (s.toList.map Char.toLower)
  isUpper := Char.isUpper
  lower_lower s t inside := by
    have fixed : ∀ c ∈ t.toList, c.toLower = c := by
      intro c mem
      obtain ⟨d, -, rfl⟩ := List.mem_map.mp (by simpa using inside c mem)
      exact toLower_toLower d
    rw [List.map_congr_left fixed, List.map_id', String.ofList_toList]

/-! ### Strings -/

/-- `s.split()`. -/
def splitWords (s : String) : List String := (words isSpace s.toList).map String.ofList

/-- `s.strip(chars)`. -/
def stripChars (s chars : String) : String := String.ofList (trim (chars.toList.contains ·) s.toList)

/-- `s.index(part, start)`, which gives nothing where it raises `ValueError`. -/
def index (s part : String) (start : Nat) : Option Nat :=
  (index? part.toList (s.toList.drop start)).map (start + ·)

/-- `s.find(part)`. -/
def find (s part : String) : Int := (index? part.toList s.toList).elim (-1) fun i => (i : Int)

/-- `s[start:stop]`, from a place in the text on. -/
def slice (s : String) (start stop : Int) : String :=
  String.ofList ((s.toList.take stop.toNat).drop start.toNat)

def startsWith (s start : String) : Bool := start.toList.isPrefixOf s.toList

def endsWith (s suffix : String) : Bool := suffix.toList.isSuffixOf s.toList

/-- `part in s`, for one character. -/
def hasChar (s : String) (c : Char) : Bool := s.toList.contains c

/-- The full stop, the comma, the marks, the quotes and the brackets that are stripped of a word. -/
def punctuation : String := ".,!?;:\x22\x27()[]\x7b\x7d"

def sentenceStartingStopwords : List String :=
  ["The", "A", "An", "This", "That", "These", "Those", "It", "He", "She", "We", "They", "I", "You",
    "However", "Therefore", "Furthermore", "Moreover", "Nevertheless", "Meanwhile", "Additionally",
    "Consequently", "Subsequently", "Otherwise", "Accordingly", "Similarly", "Likewise", "Indeed",
    "Hence", "Thus", "Regardless", "Nonetheless", "Notwithstanding", "What", "When", "Where",
    "Who", "Why", "How", "Which", "There", "Here", "If", "As", "So", "But", "And", "Or", "Yet",
    "For", "Nor", "After", "Before", "Because", "Although", "While", "Since", "Until", "Unless",
    "Once", "Now", "Then", "Also", "First", "Second", "Third", "Finally", "Next", "Last", "Many",
    "Most", "Some", "All", "Any", "Each", "Every", "Both", "Few", "Several", "Such", "No", "Not",
    "Only", "Just", "Even", "Still", "Already", "Recently", "Currently", "Actually", "Basically",
    "Essentially", "Generally", "Usually", "Obviously", "Clearly", "Certainly", "Probably",
    "Perhaps", "Maybe", "Possibly", "Today", "Tomorrow", "Yesterday"]

def topicExtractionStopwords : List String :=
  ["the", "a", "an", "is", "are", "was", "were", "be", "been", "being", "have", "has", "had", "do",
    "does", "did", "will", "would", "could", "should", "may", "might", "must", "shall", "can",
    "need", "dare", "ought", "used", "to", "of", "in", "for", "on", "with", "at", "by", "from",
    "as", "into", "through", "during", "before", "after", "above", "below", "between", "under",
    "again", "further", "then", "once", "and", "but", "or", "nor", "so", "yet", "both", "either",
    "neither", "not", "only", "own", "same", "than", "too", "very", "just", "this", "that",
    "these", "those", "it", "its"]

/-! ### Entities -/

/-- `_classify_entity_heuristic`. -/
def classifyEntityHeuristic (u : Unicode) (word : String) : EnumSemanticEntityType :=
  let wordLower := u.lower word
  if ["inc", "corp", "llc", "ltd", "company", "co", "group"].any (endsWith wordLower ·) then
    .organization
  else if wordLower ∈ ["street", "avenue", "road", "city", "state", "country", "park", "building"] then
    .location
  else if startsWith word "$" || ["USD", "EUR", "GBP"].any (endsWith word ·) then .money
  else if hasChar word '%' then .percent
  else if word.toList.head?.any u.isUpper then .misc
  else .unknown

/-- A word without the punctuation around it. -/
def cleanWord (word : String) : String := strip (stripChars word punctuation)

/-- The word has a character that ends a sentence. -/
def endsSentence (word : String) : Bool := ".!?".toList.any (hasChar word ·)

section Entities

variable (u : Unicode) (heuristicEntityConfidence : Confidence) (content : String)

/-- The entity that a word at a place of the text makes, if it does. -/
def entityOf (word : String) (wordStart : Nat) (isSentenceStart : Bool) :
    Except PyError (Option ModelSemanticEntity) :=
  let clean := cleanWord word
  let spanStart := wordStart + find word clean
  let spanEnd := spanStart + clean.length
  if clean = "" then .ok none
  else if clean.toList.head?.any u.isUpper && decide (1 < clean.length) then
    if isSentenceStart && decide (clean ∈ sentenceStartingStopwords) then .ok none
    else
      let entityType := classifyEntityHeuristic u clean
      if entityType ≠ .unknown then
        (ModelSemanticEntity.make entityType clean heuristicEntityConfidence spanStart spanEnd).map some
      else .ok none
  else .ok none

/-- Whether the next word starts a sentence. -/
def nextSentenceStart (word : String) (isSentenceStart : Bool) : Bool :=
  if cleanWord word = "" then endsSentence word || isSentenceStart else endsSentence word

/-- The loop of `_extract_entities_heuristic`, from the place `i` of the text on. -/
def extractFrom : (i : Nat) → (isSentenceStart : Bool) → List String →
    Except PyError (List ModelSemanticEntity)
  | _, _, [] => .ok []
  | i, isSentenceStart, word :: words =>
    match index content word i with
    | none => extractFrom i isSentenceStart words
    | some wordStart => do
      let entity ← entityOf u heuristicEntityConfidence word wordStart isSentenceStart
      let entities ← extractFrom (wordStart + word.length) (nextSentenceStart word isSentenceStart) words
      return entity.toList ++ entities

/-- `_extract_entities_heuristic`. -/
def extractEntitiesHeuristic : Except PyError (List ModelSemanticEntity) :=
  extractFrom u heuristicEntityConfidence content 0 true (splitWords content)

end Entities

/-! ### Topics -/

section Topics

variable (u : Unicode) (content : String)

/-- `filtered_words`. -/
def filteredWords : List String :=
  ((splitWords (u.lower content)).filter fun w =>
    decide (3 < w.length) && decide (u.lower w ∉ topicExtractionStopwords)).map
      fun w => u.lower (stripChars w punctuation)

/-- `_extract_topics_heuristic`. -/
def extractTopicsHeuristic : List String :=
  ((Tally.mostCommon (filteredWords u content)).take 5).map Prod.fst

end Topics

end OmniMemory.Semantic
