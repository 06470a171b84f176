import OmniMemory.Semantic.Heuristics

/-! When the topics are the most frequent of the words that the documentation counts. The words are
filtered with the punctuation around them, so that short words and stopwords are counted too where
there is some. -/

namespace OmniMemory.Semantic

open Tally Words

/-- The words that are documented to count: at least four characters, and no stopword. -/
def Documented (w : String) : Prop := 4 ≤ w.length ∧ w ∉ topicExtractionStopwords

instance : DecidablePred Documented := fun _ => inferInstanceAs (Decidable (_ ∧ _))

/-- The lower-cased words of a text without the punctuation around them, as far as they count. -/
def documentedWords (u : Unicode) (content : String) : List String :=
  ((splitWords (u.lower content)).map (stripChars · punctuation)).filter fun w => decide (Documented w)

section Words

variable {u : Unicode} {content s w : String} {c : Char}

theorem mem_of_mem_splitWords (mem : w ∈ splitWords s) (inside : c ∈ w.toList) : c ∈ s.toList := by
  obtain ⟨word, here, rfl⟩ := List.mem_map.mp mem
  rw [String.toList_ofList] at inside
  exact ((spaced_words isSpace s.toList).sublist word here).subset inside

theorem stripChars_sublist (s chars : String) : (stripChars s chars).toList.Sublist s.toList := by
  rw [stripChars, String.toList_ofList]
  exact trim_sublist _ _

theorem length_stripChars_le (s chars : String) : (stripChars s chars).length ≤ s.length := by
  rw [← String.length_toList, ← String.length_toList]
  exact (stripChars_sublist s chars).length_le

theorem stripChars_stopword : ∀ w ∈ topicExtractionStopwords, stripChars w punctuation = w := by
  decide +kernel

/-- What is counted, without lower-casing once more. -/
theorem filteredWords_eq : filteredWords u content =
    ((splitWords (u.lower content)).filter fun w =>
      decide (3 < w.length) && decide (w ∉ topicExtractionStopwords)).map
        (stripChars · punctuation) := by
  have lower : ∀ w ∈ splitWords (u.lower content), u.lower w = w := fun w mem =>
    u.lower_lower content w fun c inside => mem_of_mem_splitWords mem inside
  have lower_strip : ∀ w ∈ splitWords (u.lower content),
      u.lower (stripChars w punctuation) = stripChars w punctuation := fun w mem =>
    u.lower_lower content _ fun c inside =>
      mem_of_mem_splitWords mem ((stripChars_sublist w punctuation).subset inside)
  rw [filteredWords, List.filter_congr fun w mem => by rw [lower w mem]]
  exact List.map_congr_left fun w mem => lower_strip w (List.mem_filter.mp mem).1

/-- The words that are documented to count are those of the counted ones. -/
theorem documentedWords_eq :
    documentedWords u content = (filteredWords u content).filter fun w => decide (Documented w) := by
  rw [documentedWords, filteredWords_eq, List.filter_map, List.filter_map, List.filter_filter]
  refine congrArg (List.map _) (List.filter_congr fun w _ => ?_)
  simp only [Function.comp_apply]
  by_cases counts : Documented (stripChars w punctuation)
  · have long := counts.1.trans (length_stripChars_le w punctuation)
    have other : w ∉ topicExtractionStopwords := fun stop => by
      have same := counts.2
      rw [stripChars_stopword w stop] at same
      exact same stop
    have enough : 3 < w.length := by omega
    simp [counts, enough, other]
  · simp [counts]

theorem extractTopicsHeuristic_eq (u : Unicode) (content : String) :
    extractTopicsHeuristic u content = (ranked (filteredWords u content)).take 5 := by
  rw [extractTopicsHeuristic, ranked, List.map_take]

end Words

end OmniMemory.Semantic
