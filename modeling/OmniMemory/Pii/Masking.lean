import OmniMemory.Pii.Detector

/-! What the sanitized content is: the content with each match that is kept replaced by its mask. Of
every match within the limit of its type at least the first character is replaced, and all of it
unless it overlaps one kept before. -/

namespace OmniMemory

open Regular

namespace Pii

/-- A text from an index on with the values of matches replaced by their masks, and all that is
between them as it was. -/
inductive Masked : Int → Text → List ModelPIIMatch → Text → Prop where
  | rest (i : Int) (text : Text) : Masked i text [] text
  | mask {i : Int} {between text out : Text} {m : ModelPIIMatch} {later : List ModelPIIMatch}
      (starts : m.startIndex = i + between.length)
      (ends : m.endIndex = m.startIndex + m.value.length)
      (masked : Masked m.endIndex text later out) :
      Masked i (between ++ m.value ++ text) (m :: later) (between ++ m.maskedValue ++ out)

/-- A match that stands in a content where it says. -/
structure Stands (content : Text) (m : ModelPIIMatch) : Prop where
  some : m.value ≠ []
  ends : m.endIndex = m.startIndex + m.value.length
  text : ∃ before after, content = before ++ m.value ++ after ∧ m.startIndex = before.length

section Splice

variable {content text out before : Text} {found : List ModelPIIMatch} {i : Int}

theorem sliceTo_append {n : Int} (same : n = before.length) : sliceTo (before ++ text) n = before := by
  rw [sliceTo, same, if_neg (by omega), Int.toNat_natCast, List.take_left]

theorem sliceFrom_append {n : Int} (same : n = before.length) :
    sliceFrom (before ++ text) n = text := by
  rw [sliceFrom, same, if_neg (by omega), Int.toNat_natCast, List.drop_left]

/-- The masks are put in from right to left. -/
theorem Masked.foldr (masked : Masked i text found out) (at_ : i = before.length) :
    found.foldr (fun m sanitized => replaceMatch sanitized m) (before ++ text) = before ++ out := by
  induction masked generalizing before with
  | rest i text => rfl
  | @mask i between text out m later starts ends masked ih =>
    have start : m.startIndex = (before ++ between).length := by
      rw [List.length_append]
      omega
    have stop : m.endIndex = (before ++ between ++ m.value).length := by
      rw [List.length_append]
      omega
    have inner : later.foldr (fun m sanitized => replaceMatch sanitized m)
        (before ++ (between ++ m.value ++ text)) = before ++ between ++ m.value ++ out := by
      rw [← ih stop]
      simp only [List.append_assoc]
    rw [List.foldr_cons, inner, replaceMatch, sliceFrom_append stop, List.append_assoc _ m.value,
      sliceTo_append start]
    simp only [List.append_assoc]

/-- Matches that stand in a content, one after the other, are masked in it. -/
theorem exists_masked (stands : ∀ m ∈ found, Stands content m)
    (ordered : found.Pairwise fun a b => a.endIndex ≤ b.startIndex)
    (split : content = before ++ text) (at_ : i = before.length)
    (after : ∀ m ∈ found, i ≤ m.startIndex) : ∃ out, Masked i text found out := by
  induction found generalizing i before text with
  | nil => exact ⟨text, .rest i text⟩
  | cons m later ih =>
    obtain ⟨first, rest⟩ := List.pairwise_cons.mp ordered
    obtain ⟨-, ends, front, back, whole, start⟩ := stands m (by simp)
    have reach : before.length ≤ front.length := by
      have := after m (by simp)
      omega
    have same : before ++ text = front ++ (m.value ++ back) := by
      rw [← split, whole, List.append_assoc]
    obtain ⟨between, rfl, rfl⟩ : ∃ between, front = before ++ between ∧
        text = between ++ (m.value ++ back) := by
      have initial : before <+: front := List.prefix_of_prefix_length_le
        ⟨text, same⟩ (List.prefix_append _ _) reach
      obtain ⟨between, rfl⟩ := initial
      exact ⟨between, rfl, List.append_cancel_left (same.trans (List.append_assoc _ _ _))⟩
    have place : content = (before ++ between ++ m.value) ++ back := whole
    obtain ⟨out, masked⟩ := ih (fun m mem => stands m (by simp [mem])) rest place
      (i := m.endIndex) (by simp only [List.length_append] at *; omega) first
    refine ⟨between ++ m.maskedValue ++ out, ?_⟩
    rw [← List.append_assoc]
    refine .mask ?_ ends masked
    rw [List.length_append] at start
    omega

end Splice

section Scan

variable {A : Alphabet} {config : ModelPIIDetectorConfig} {content : Text} {threshold : ℚ}
  {m : ModelPIIMatch} {piiType : PIIType} {p : ModelPIIPatternConfig}
  {patterns : List ModelPIIPatternConfig}

theorem matchesOf_stands (mem : m ∈ matchesOf A content piiType p) : Stands content m := by
  obtain ⟨⟨start, value⟩, member, rfl⟩ := List.mem_map.mp mem
  obtain ⟨piece, before, after, split, rfl⟩ := exists_findings member
  refine ⟨scan_found piece, rfl, before, after, ?_, by simp⟩
  rw [← split]
  exact (scan_text (c := ⟨none, content⟩) le_rfl).symm

variable (A config content threshold piiType patterns) in
/-- All matches of the patterns of a type whose confidence is not below a threshold. -/
def enabledMatches : List ModelPIIMatch :=
  (patterns.filter fun p => decide (threshold ≤ p.confidence)).flatMap
    (matchesOf A content piiType)

/-- The limit of a type is one on all its matches. -/
theorem scanType_eq : scanType A config content threshold piiType patterns =
    (enabledMatches A content threshold piiType patterns).take config.maxMatchesPerType := by
  have from_found (found : List ModelPIIMatch) :
      patterns.foldl (fun found p =>
        if p.confidence < threshold then found
        else found ++ (matchesOf A content piiType p).take
          (config.maxMatchesPerType - found.length)) found =
      found ++ (enabledMatches A content threshold piiType patterns).take
        (config.maxMatchesPerType - found.length) := by
    induction patterns generalizing found with
    | nil => simp [enabledMatches]
    | cons p patterns ih =>
      rw [List.foldl_cons, ih]
      by_cases disabled : p.confidence < threshold
      · have enabled : ¬ threshold ≤ p.confidence := disabled.not_ge
        simp [disabled, enabled, enabledMatches]
      · have enabled : threshold ≤ p.confidence := not_lt.mp disabled
        have left : config.maxMatchesPerType - (found ++ (matchesOf A content piiType p).take
            (config.maxMatchesPerType - found.length)).length =
            config.maxMatchesPerType - found.length - (matchesOf A content piiType p).length := by
          simp only [List.length_append, List.length_take]
          omega
        rw [if_neg disabled, left]
        simp only [enabledMatches, List.filter_cons, enabled, decide_true, if_true,
          List.flatMap_cons, List.take_append, List.append_assoc]
  exact from_found []

variable (A config content) in
/-- All matches of the patterns that are enabled at a level. -/
def allMatches (sensitivityLevel : String) : List ModelPIIMatch :=
  (initializePatterns A config).flatMap fun (piiType, patterns) =>
    enabledMatches A content (confidenceThreshold config sensitivityLevel) piiType patterns

variable (A config content) in
/-- Of the matches of each type the first ones, up to the limit. -/
def limitedMatches (sensitivityLevel : String) : List ModelPIIMatch :=
  (initializePatterns A config).flatMap fun (piiType, patterns) =>
    (enabledMatches A content (confidenceThreshold config sensitivityLevel) piiType patterns).take
      config.maxMatchesPerType

theorem scanContent_eq (sensitivityLevel : String) :
    scanContent A config content (confidenceThreshold config sensitivityLevel) =
      limitedMatches A config content sensitivityLevel := by
  simp only [scanContent, limitedMatches, scanType_eq]

theorem limitedMatches_stands {sensitivityLevel : String}
    (mem : m ∈ limitedMatches A config content sensitivityLevel) : Stands content m := by
  obtain ⟨⟨piiType, patterns⟩, -, mem⟩ := List.mem_flatMap.mp mem
  obtain ⟨p, -, mem⟩ := List.mem_flatMap.mp (List.mem_of_mem_take mem)
  exact matchesOf_stands mem

end Scan

section Kept

variable {content : Text} {found : List ModelPIIMatch} {m : ModelPIIMatch}

theorem Stands.lt (stands : Stands content m) : m.startIndex < m.endIndex := by
  have := List.length_pos_of_ne_nil stands.some
  have := stands.ends
  omega

theorem overlaps_eq_false {a b : ModelPIIMatch} : overlaps a b = false ↔
    b.endIndex ≤ a.startIndex ∨ a.endIndex ≤ b.startIndex := by
  simp only [overlaps, decide_eq_false_iff_not]
  omega

variable (found) in
/-- The matches that are kept, by where they start. -/
def kept : List ModelPIIMatch :=
  (deduplicateMatches found).insertionSort fun a b => a.startIndex ≤ b.startIndex

theorem mem_kept : m ∈ kept found ↔ m ∈ deduplicateMatches found := List.mem_insertionSort _

/-- The matches kept come one after the other. -/
theorem kept_ordered (stands : ∀ m ∈ found, Stands content m) :
    (kept found).Pairwise fun a b => a.endIndex ≤ b.startIndex := by
  have : Std.Total fun a b : ModelPIIMatch => a.startIndex ≤ b.startIndex :=
    ⟨fun a b => le_total a.startIndex b.startIndex⟩
  have : IsTrans ModelPIIMatch fun a b => a.startIndex ≤ b.startIndex :=
    ⟨fun _ _ _ => le_trans⟩
  have sorted : (kept found).Pairwise fun a b => a.startIndex ≤ b.startIndex :=
    List.pairwise_insertionSort _ _
  have apart : (kept found).Pairwise fun a b => overlaps a b = false := by
    refine ((List.perm_insertionSort _ _).pairwise_iff ?_).mpr (deduplicateMatches_apart found)
    intro a b apart
    rw [overlaps_comm, apart]
  refine (sorted.and apart).imp_of_mem fun {a b} _ mem ⟨before, apart⟩ => ?_
  rcases overlaps_eq_false.mp apart with early | done
  · have := (stands b (deduplicateMatches_mem b (mem_kept.mp mem))).lt
    omega
  · exact done

/-- The loop goes through the matches from right to left. -/
theorem sanitizeContent_eq (stands : ∀ m ∈ found, Stands content m) :
    sanitizeContent content (kept found) =
      (kept found).foldr (fun m sanitized => replaceMatch sanitized m) content := by
  have starts : (kept found).Pairwise fun a b => a.startIndex < b.startIndex :=
    (kept_ordered stands).imp_of_mem fun {a b} mem _ done =>
      (stands a (deduplicateMatches_mem a (mem_kept.mp mem))).lt.trans_le done
  have inj : ∀ a ∈ kept found, ∀ b ∈ kept found, a.startIndex = b.startIndex → a = b := by
    refine List.inj_on_of_nodup_map (List.pairwise_map.mpr (starts.imp ?_))
    exact fun less => less.ne
  have : Std.Total fun a b : ModelPIIMatch => b.startIndex ≤ a.startIndex :=
    ⟨fun a b => le_total b.startIndex a.startIndex⟩
  have : IsTrans ModelPIIMatch fun a b => b.startIndex ≤ a.startIndex :=
    ⟨fun _ _ _ left right => right.trans left⟩
  have backwards : (kept found).insertionSort (fun a b => b.startIndex ≤ a.startIndex) =
      (kept found).reverse := by
    refine List.Perm.eq_of_pairwise (fun a b left right le ge => ?_)
      (List.pairwise_insertionSort _ _) (List.pairwise_reverse.mpr (starts.imp le_of_lt))
      ((List.perm_insertionSort _ _).trans (List.reverse_perm _).symm)
    exact inj a ((List.mem_insertionSort _).mp left) b (List.mem_reverse.mp right)
      (ge.antisymm le)
  rw [sanitizeContent, backwards, List.foldl_reverse]

/-- Of a match that is found at least the first character is in one that is kept. -/
theorem exists_kept (stands : ∀ m ∈ found, Stands content m) (mem : m ∈ found) :
    ∃ k ∈ kept found, k.startIndex ≤ m.startIndex ∧ m.startIndex < k.endIndex := by
  have sorted : m ∈ found.insertionSort Before := (List.mem_insertionSort _).mpr mem
  rcases Greedy.exists_keep (List.pairwise_insertionSort Before found) sorted with
    itself | ⟨k, kept, overlap, before⟩
  · exact ⟨m, mem_kept.mpr itself, le_rfl, (stands m mem).lt⟩
  · refine ⟨k, mem_kept.mpr kept, before.le, ?_⟩
    rw [overlaps, decide_eq_true_eq] at overlap
    exact overlap.1

end Kept

/-- The sanitized content is the content with the matches that were found replaced by their masks,
all of them within the limits, and every match within the limits begins in one of them. -/
structure Masks (A : Alphabet) (config : ModelPIIDetectorConfig) (content : Text)
    (sensitivityLevel : String) (result : ModelPIIDetectionResult) : Prop where
  masked : Masked 0 content result.found result.sanitizedContent
  limited : ∀ k ∈ result.found, k ∈ limitedMatches A config content sensitivityLevel
  begins : ∀ m ∈ limitedMatches A config content sensitivityLevel,
    ∃ k ∈ result.found, k.startIndex ≤ m.startIndex ∧ m.startIndex < k.endIndex

/-- The sanitized content is the content with the matches that were found replaced by their masks,
and every character of a match is in one of them. -/
structure Covers (A : Alphabet) (config : ModelPIIDetectorConfig) (content : Text)
    (sensitivityLevel : String) (result : ModelPIIDetectionResult) : Prop where
  masked : Masked 0 content result.found result.sanitizedContent
  covered : ∀ m ∈ allMatches A config content sensitivityLevel, ∀ i : Int,
    m.startIndex ≤ i → i < m.endIndex →
      ∃ k ∈ result.found, k.startIndex ≤ i ∧ i < k.endIndex

/-- Matches that stand in a content are masked in it. -/
theorem masked_kept {content : Text} {found : List ModelPIIMatch}
    (stands : ∀ m ∈ found, Stands content m) : Masked 0 content (kept found)
      (if (kept found).isEmpty then content else sanitizeContent content (kept found)) := by
  have inside : ∀ m ∈ kept found, Stands content m := fun m mem =>
    stands m (deduplicateMatches_mem m (mem_kept.mp mem))
  have begins : ∀ m ∈ kept found, 0 ≤ m.startIndex := by
    intro m mem
    obtain ⟨-, -, before, -, -, start⟩ := inside m mem
    omega
  obtain ⟨out, masked⟩ := exists_masked inside (kept_ordered stands)
    (List.nil_append content).symm rfl begins
  have folded : (kept found).foldr (fun m sanitized => replaceMatch sanitized m) ([] ++ content) =
      [] ++ out := masked.foldr rfl
  have replaced : sanitizeContent content (kept found) = out :=
    (sanitizeContent_eq stands).trans folded
  split
  · rename_i empty
    rw [List.isEmpty_iff.mp empty]
    exact .rest 0 content
  · rw [replaced]
    exact masked

section Example

/-- The number of a credit card, which is taken for a telephone number first. -/
def card : Text := "4111111111111111".toList

/-- At most one match of a type is looked for. -/
def single : ModelPIIDetectorConfig where
  maxMatchesPerType := 1

def twoMails : Text := "a@b.co c@d.co".toList

/-- A character of a match that is in none of those found. -/
theorem not_covers {A : Alphabet} {config : ModelPIIDetectorConfig} {content : Text}
    {sensitivityLevel : String} {m : ModelPIIMatch} {i : Int} {l : List ModelPIIMatch}
    (detected : (detectPii A config content sensitivityLevel).toOption.map (·.found) = some l)
    (mem : m ∈ allMatches A config content sensitivityLevel)
    (inside : m.startIndex ≤ i ∧ i < m.endIndex)
    (outside : ∀ k ∈ l, ¬ (k.startIndex ≤ i ∧ i < k.endIndex)) :
    ∃ result, detectPii A config content sensitivityLevel = .ok result ∧
      ¬ Covers A config content sensitivityLevel result := by
  rcases returned : detectPii A config content sensitivityLevel with error | result
  · rw [returned] at detected
    cases detected
  · rw [returned] at detected
    obtain rfl : result.found = l := Option.some.inj detected
    refine ⟨result, rfl, fun covers => ?_⟩
    obtain ⟨k, kept, covered⟩ := covers.covered m mem i inside.1 inside.2
    exact outside k kept covered

end Example

end Pii

end OmniMemory
