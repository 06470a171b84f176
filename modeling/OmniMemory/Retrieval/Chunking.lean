import OmniMemory.Retrieval.Qdrant
import OmniMemory.Strings

/-! The chunks of a document. No character but white space is lost, and a chunk that is too long is
one sentence. A paragraph is cut at one kind of separator only, the first one that occurs in it, so a
sentence that is too long may have a separator of another kind. -/

namespace OmniMemory

namespace Retrieval

open HandlerQdrant

/-- What ends a sentence. -/
def separators : List String := [". ", "? ", "! "]

/-- The text has the separator at a place after which more than white space follows. -/
def Breaks (separator : String) (text : String) : Prop :=
  ∃ before after, text.toList = before ++ separator.toList ++ after ∧ ink after ≠ []

/-- The chunks of a text: they are not empty, they have its characters but for white space, and one
that is longer than `max` lies in one paragraph and has no place to be cut at. -/
structure Chunks (max : Nat) (text : String) (chunks : List String) : Prop where
  nonempty : ∀ chunk ∈ chunks, chunk ≠ ""
  content : ink (chunks.flatMap (·.toList)) = ink text.toList
  long : ∀ chunk ∈ chunks, max < chunk.length →
    (∃ paragraph ∈ split text "\n\n", chunk.toList <:+: paragraph.toList) ∧
      ∀ separator ∈ separators, ¬ Breaks separator chunk

/-- The kind of separator at which a paragraph is cut. -/
def firstSeparator (paragraph : String) : Option String :=
  separators.find? fun separator => 1 < (split paragraph separator).length

/-- Cut at its first kind of separator, a paragraph leaves no sentence that is longer than `max` and
could be cut at another kind. -/
def CutsAtOneKind (max : Nat) (paragraph : String) : Prop :=
  ∀ separator, firstSeparator paragraph = some separator → ∀ sentence ∈ sentences paragraph,
    max < (strip sentence).length →
      ∀ other ∈ separators, other ≠ separator → ¬ Breaks other (strip sentence)

/-- The paragraphs of a text that are not blank. -/
def paragraphs (text : String) : List String := ((split text "\n\n").map strip).filter (· ≠ "")

/-! ### Sentences -/

section Sentences

variable {paragraph sentence : String}

theorem separator_ne {separator : String} (mem : separator ∈ separators) : separator ≠ "" := by
  rintro rfl
  exact absurd mem (by decide)

theorem Breaks.of_strip {separator text : String} (breaks : Breaks separator (strip text)) :
    Breaks separator text := by
  obtain ⟨before, after, same, more⟩ := breaks
  obtain ⟨start, rest, whole, -, -⟩ := toList_strip text
  refine ⟨start ++ before, after ++ rest, ?_, ?_⟩
  · rw [whole, same]
    simp only [List.append_assoc]
  · rw [ink_append]
    exact List.append_ne_nil_of_left_ne_nil more _

/-- A paragraph is cut into sentences that the separator ends, or left as it is. -/
theorem sentences_cases (paragraph : String) :
    (∃ separator ends last, firstSeparator paragraph = some separator ∧ separator ∈ separators ∧
      Parts separator.toList paragraph.toList ends last ∧
      sentences paragraph = ends.map (fun part => String.ofList (part ++ separator.toList)) ++
        [String.ofList last]) ∨
    firstSeparator paragraph = none ∧ sentences paragraph = [paragraph] ∧
      ∀ separator ∈ separators, ¬ separator.toList <:+: paragraph.toList := by
  cases first : firstSeparator paragraph with
  | none =>
    refine .inr ⟨rfl, ?_, fun separator mem => ?_⟩
    · unfold firstSeparator separators at first
      rw [sentences, first]
    · obtain ⟨ends, last, split, parts⟩ := split_parts paragraph separator (separator_ne mem)
      have single := List.find?_eq_none.mp first separator mem
      rw [← parts.ends_eq_nil (by simpa using separator_ne mem)]
      simpa [split] using single
  | some separator =>
    have mem := List.mem_of_find?_eq_some first
    obtain ⟨ends, last, split, parts⟩ := split_parts paragraph separator (separator_ne mem)
    refine .inl ⟨separator, ends, last, rfl, mem, parts, ?_⟩
    unfold firstSeparator separators at first
    rw [sentences, first]
    simp [split, Function.comp_def, String.ofList_append]

/-- The sentences of a paragraph, joined. -/
theorem sentences_join (paragraph : String) :
    (sentences paragraph).flatMap (·.toList) = paragraph.toList := by
  rcases sentences_cases paragraph with ⟨separator, ends, last, -, -, parts, same⟩ | ⟨-, same, -⟩
  · rw [same, ← parts.join]
    simp [List.flatMap_map]
  · simp [same]

theorem isInfix_sentence (mem : sentence ∈ sentences paragraph) :
    sentence.toList <:+: paragraph.toList := by
  obtain ⟨before, after, same⟩ := List.append_of_mem mem
  rw [← sentences_join paragraph, same, List.flatMap_append, List.flatMap_cons]
  exact ⟨_, _, List.append_assoc ..⟩

/-- No sentence can be cut at the separator that ends them. -/
theorem not_breaks_first {separator : String} (first : firstSeparator paragraph = some separator)
    (mem : sentence ∈ sentences paragraph) : ¬ Breaks separator sentence := by
  rcases sentences_cases paragraph with
    ⟨separator', ends, last, here, kind, parts, same⟩ | ⟨here, -, -⟩
  · obtain rfl := Option.some.inj (first.symm.trans here)
    have some : separator.toList ≠ [] := by simpa using separator_ne kind
    rintro ⟨before, after, cut, more⟩
    rw [same] at mem
    have later : after ≠ [] := fun none => more (by rw [none]; rfl)
    rcases List.mem_append.mp mem with mem | mem
    · obtain ⟨part, from_ends, rfl⟩ := List.mem_map.mp mem
      rw [String.toList_ofList] at cut
      -- The separator would start within the part, before the one that ends it.
      have shorter : before.length < part.length := by
        have lengths := congrArg List.length cut
        have := List.length_pos_iff.mpr later
        simp only [List.length_append] at lengths
        omega
      have tail : part.drop before.length ++ separator.toList = separator.toList ++ after := by
        have dropped := congrArg (List.drop before.length) cut
        rwa [List.drop_append_of_le_length shorter.le, List.append_assoc, List.drop_left] at dropped
      refine parts.ends part from_ends (part.drop before.length) ?_ (List.drop_suffix _ _) ?_
      · exact List.ne_nil_of_length_pos (by rw [List.length_drop]; omega)
      · rw [tail]
        exact List.prefix_append _ _
    · obtain rfl := List.mem_singleton.mp mem
      rw [String.toList_ofList] at cut
      refine parts.last (separator.toList ++ after) (by simp [some]) ?_ (List.prefix_append _ _)
      exact ⟨before, by rw [cut, List.append_assoc]⟩
  · cases here.symm.trans first

/-- A sentence can be cut at no separator exactly if it can be cut at none of another kind. -/
theorem cutsAtOneKind_iff {max : Nat} : CutsAtOneKind max paragraph ↔
    ∀ sentence ∈ sentences paragraph, max < (strip sentence).length →
      ∀ separator ∈ separators, ¬ Breaks separator (strip sentence) := by
  constructor
  · intro cuts sentence mem long other kind breaks
    cases first : firstSeparator paragraph with
    | none =>
      rcases sentences_cases paragraph with ⟨separator, _, _, here, -⟩ | ⟨-, same, none⟩
      · cases first.symm.trans here
      · rw [same] at mem
        obtain rfl := List.mem_singleton.mp mem
        obtain ⟨before, after, cut, -⟩ := breaks.of_strip
        exact none other kind ⟨before, after, cut.symm⟩
    | some separator =>
      by_cases same : other = separator
      · subst same
        exact not_breaks_first first mem breaks.of_strip
      · exact cuts separator first sentence mem long other kind same breaks
  · intro none separator _ sentence mem long other kind _
    exact none sentence mem long other kind

end Sentences

/-! ### Joining sentences -/

section Joining

variable (self : HandlerQdrant)

/-- The chunks when `current` ends. -/
def closed (r : List String × String) : List String :=
  if strip r.2 ≠ "" then r.1 ++ [strip r.2] else r.1

/-- What the loop has made of the sentences taken so far. -/
structure Joined (max : Nat) (taken : List String) (r : List String × String) : Prop where
  content : ink (r.1.flatMap (·.toList) ++ r.2.toList) = ink (taken.flatMap (·.toList))
  chunks : ∀ chunk ∈ r.1,
    chunk ≠ "" ∧ (chunk.length ≤ max ∨ ∃ sentence ∈ taken, chunk = strip sentence)
  current : r.2.length ≤ max ∨ r.2 ∈ taken
  long : ∀ sentence ∈ taken, max < (strip sentence).length →
    strip sentence ∈ r.1 ∨ sentence = r.2

variable {self} {max : Nat} {taken : List String} {r : List String × String}

theorem mem_closed {chunk : String} :
    chunk ∈ closed r ↔ chunk ∈ r.1 ∨ chunk = strip r.2 ∧ chunk ≠ "" := by
  unfold closed
  split
  · rename_i some
    rw [List.mem_append, List.mem_singleton]
    exact or_congr_right ⟨fun same => ⟨same, same ▸ some⟩, And.left⟩
  · rename_i none
    rw [not_not] at none
    refine ⟨.inl, ?_⟩
    rintro (mem | ⟨rfl, some⟩)
    · exact mem
    · exact absurd none some

theorem ink_closed (r : List String × String) :
    ink ((closed r).flatMap (·.toList)) = ink (r.1.flatMap (·.toList) ++ r.2.toList) := by
  unfold closed
  split
  · simp
  · rename_i none
    rw [ink_append, strip_eq_empty.mp (not_not.mp none), List.append_nil]

theorem addSentence_eq (r : List String × String) (sentence : String) :
    self.addSentence r sentence =
      if r.2 ≠ "" ∧ self.maxChunkChars < r.2.length + sentence.length then (closed r, sentence)
      else (r.1, r.2 ++ sentence) := rfl

theorem Joined.closed (joined : Joined max taken r) :
    ∀ chunk ∈ closed r,
      chunk ≠ "" ∧ (chunk.length ≤ max ∨ ∃ sentence ∈ taken, chunk = strip sentence) := by
  intro chunk mem
  rcases mem_closed.mp mem with mem | ⟨rfl, some⟩
  · exact joined.chunks chunk mem
  · refine ⟨some, ?_⟩
    rcases joined.current with short | mem
    · exact .inl ((length_strip_le r.2).trans short)
    · exact .inr ⟨r.2, mem, rfl⟩

theorem Joined.mem_closed (joined : Joined max taken r) {sentence : String}
    (mem : sentence ∈ taken) (long : max < (strip sentence).length) :
    strip sentence ∈ Retrieval.closed r := by
  refine Retrieval.mem_closed.mpr ?_
  rcases joined.long sentence mem long with mem | rfl
  · exact .inl mem
  · refine .inr ⟨rfl, fun empty => ?_⟩
    rw [empty] at long
    exact absurd long (Nat.not_lt_zero _)

theorem Joined.addSentence (joined : Joined self.maxChunkChars taken r) (sentence : String) :
    Joined self.maxChunkChars (taken ++ [sentence]) (self.addSentence r sentence) := by
  have widen : ∀ chunk : String,
      chunk ≠ "" ∧ (chunk.length ≤ self.maxChunkChars ∨ ∃ s ∈ taken, chunk = strip s) →
        chunk ≠ "" ∧
          (chunk.length ≤ self.maxChunkChars ∨ ∃ s ∈ taken ++ [sentence], chunk = strip s) := by
    intro chunk ⟨nonempty, origin⟩
    rcases origin with short | ⟨s, mem, same⟩
    · exact ⟨nonempty, .inl short⟩
    · exact ⟨nonempty, .inr ⟨s, List.mem_append_left _ mem, same⟩⟩
  have content : ink ((taken ++ [sentence]).flatMap (·.toList)) =
      ink (r.1.flatMap (·.toList) ++ r.2.toList) ++ ink sentence.toList := by
    rw [joined.content]
    simp
  rw [addSentence_eq]
  split
  · refine ⟨?_, ?_, .inr (by simp), ?_⟩
    · rw [ink_append, ink_closed, content]
    · intro chunk mem
      dsimp only at mem
      exact widen chunk (joined.closed chunk mem)
    · intro s mem long
      dsimp only
      rcases List.mem_append.mp mem with mem | mem
      · exact .inl (joined.mem_closed mem long)
      · exact .inr (List.mem_singleton.mp mem)
  · rename_i joins
    have fits : r.2 = "" ∨ r.2.length + sentence.length ≤ self.maxChunkChars := by
      by_cases empty : r.2 = ""
      · exact .inl empty
      · exact .inr (Nat.le_of_not_lt fun wide => joins ⟨empty, wide⟩)
    refine ⟨?_, ?_, ?_, ?_⟩
    · rw [content]
      simp
    · intro chunk mem
      exact widen chunk (joined.chunks chunk mem)
    · rcases fits with empty | fits
      · refine .inr ?_
        simp [empty]
      · exact .inl (by rw [String.length_append]; exact fits)
    · intro s mem long
      have longer := long.trans_le (length_strip_le s)
      rcases List.mem_append.mp mem with mem | mem
      · rcases joined.long s mem long with mem | rfl
        · exact .inl mem
        · -- A long sentence is not joined to the next one.
          rcases fits with empty | fits
          · rw [empty] at longer
            exact absurd longer (Nat.not_lt_zero _)
          · omega
      · obtain rfl := List.mem_singleton.mp mem
        rcases fits with empty | fits
        · exact .inr (by simp [empty])
        · omega

theorem Joined.foldl (joined : Joined self.maxChunkChars taken r) (sentences : List String) :
    Joined self.maxChunkChars (taken ++ sentences) (sentences.foldl self.addSentence r) := by
  induction sentences generalizing taken r with
  | nil => simpa using joined
  | cons sentence sentences ih =>
    have next := ih (joined.addSentence sentence)
    rwa [List.append_assoc, List.singleton_append] at next

theorem joined_sentences (self : HandlerQdrant) (sentences : List String) :
    Joined self.maxChunkChars sentences (sentences.foldl self.addSentence ([], "")) := by
  have none : Joined self.maxChunkChars [] ([], "") :=
    ⟨rfl, by simp, .inl (Nat.zero_le _), by simp⟩
  exact none.foldl sentences

end Joining

/-! ### Paragraphs -/

section Paragraphs

variable {self : HandlerQdrant} {paragraph : String}

theorem chunkParagraph_eq (paragraph : String) :
    self.chunkParagraph paragraph =
      if paragraph.length ≤ self.maxChunkChars then [paragraph]
      else closed ((sentences paragraph).foldl self.addSentence ([], "")) := rfl

theorem ink_chunkParagraph (paragraph : String) :
    ink ((self.chunkParagraph paragraph).flatMap (·.toList)) = ink paragraph.toList := by
  rw [chunkParagraph_eq]
  split
  · simp
  · rw [ink_closed, (joined_sentences _ _).content, sentences_join]

theorem chunkParagraph_nonempty (some : paragraph ≠ "") :
    ∀ chunk ∈ self.chunkParagraph paragraph, chunk ≠ "" := by
  intro chunk mem
  rw [chunkParagraph_eq] at mem
  split at mem
  · rwa [List.mem_singleton.mp mem]
  · exact ((joined_sentences _ _).closed chunk mem).1

/-- The chunks of a paragraph that are too long are its sentences that are too long. -/
theorem long_chunk_iff {chunk : String} (long : self.maxChunkChars < chunk.length) :
    chunk ∈ self.chunkParagraph paragraph ↔
      ∃ sentence ∈ sentences paragraph, chunk = strip sentence := by
  rw [chunkParagraph_eq]
  split
  · rename_i short
    refine iff_of_false (fun mem => ?_) ?_
    · rw [List.mem_singleton.mp mem] at long
      omega
    · rintro ⟨sentence, mem, rfl⟩
      have within := (isInfix_sentence mem).length_le
      have stripped := length_strip_le sentence
      simp only [String.length_toList] at within
      omega
  · have joined := joined_sentences self (sentences paragraph)
    constructor
    · intro mem
      rcases (joined.closed chunk mem).2 with short | sentence
      · omega
      · exact sentence
    · rintro ⟨sentence, mem, rfl⟩
      exact joined.mem_closed mem long

theorem ink_paragraphs (text : String) :
    ink ((paragraphs text).flatMap (·.toList)) = ink text.toList := by
  have stripped : ∀ parts : List String,
      ink (((parts.map strip).filter (· ≠ "")).flatMap (·.toList)) =
        ink (parts.flatMap (·.toList)) := by
    intro parts
    induction parts with
    | nil => rfl
    | cons part parts ih =>
      rw [List.map_cons, List.flatMap_cons, ink_append, ← ih, ← ink_strip part]
      by_cases empty : strip part = ""
      · simp [empty]
      · rw [List.filter_cons_of_pos (by simpa using empty), List.flatMap_cons, ink_append]
  have separated : ∀ ends : List (List Char),
      ink (ends.flatMap (· ++ "\n\n".toList)) = ink (ends.flatMap id) := by
    intro ends
    induction ends with
    | nil => rfl
    | cons part ends ih =>
      rw [List.flatMap_cons, List.flatMap_cons, ink_append, ink_append, ink_append, ih,
        show ink "\n\n".toList = [] by decide, List.append_nil, id]
  obtain ⟨ends, last, split, parts⟩ := split_parts text "\n\n" (by decide)
  rw [paragraphs, stripped, split, ← parts.join, ink_append, separated]
  simp [List.flatMap_map]

theorem paragraphs_eq_nil {text : String} : paragraphs text = [] ↔ ink text.toList = [] := by
  refine ⟨fun none => by rw [← ink_paragraphs, none]; rfl, fun blank => ?_⟩
  refine List.eq_nil_iff_forall_not_mem.mpr fun paragraph mem => ?_
  obtain ⟨before, after, same⟩ := List.append_of_mem mem
  have whole := ink_paragraphs text
  rw [blank, same, List.flatMap_append, List.flatMap_cons, ink_append, ink_append] at whole
  obtain ⟨mem, some⟩ := List.mem_filter.mp mem
  obtain ⟨part, -, rfl⟩ := List.mem_map.mp mem
  simp only [List.append_eq_nil_iff, ink_strip] at whole
  exact absurd (strip_eq_empty.mpr whole.2.1) (by simpa using some)

end Paragraphs

/-! ### Documents -/

section Documents

variable {self : HandlerQdrant} {text : String}

theorem chunkText_eq (text : String) : self.chunkText text =
    if (paragraphs text).flatMap self.chunkParagraph = [] then [text]
    else (paragraphs text).flatMap self.chunkParagraph := rfl

theorem ink_flatMap_chunkParagraph (self : HandlerQdrant) (paragraphs : List String) :
    ink ((paragraphs.flatMap self.chunkParagraph).flatMap (·.toList)) =
      ink (paragraphs.flatMap (·.toList)) := by
  induction paragraphs with
  | nil => rfl
  | cons paragraph paragraphs ih =>
    rw [List.flatMap_cons, List.flatMap_append, ink_append, ink_chunkParagraph, ih,
      List.flatMap_cons, ink_append]

/-- A blank text is its own chunk. -/
theorem chunkText_blank (blank : ink text.toList = []) : self.chunkText text = [text] := by
  rw [chunkText_eq, paragraphs_eq_nil.mpr blank]
  rfl

theorem chunkText_ink (some : ink text.toList ≠ []) :
    self.chunkText text = (paragraphs text).flatMap self.chunkParagraph := by
  rw [chunkText_eq, if_neg]
  intro none
  have same := ink_flatMap_chunkParagraph self (paragraphs text)
  rw [none, ink_paragraphs] at same
  exact some same.symm

theorem chunks_blank (some : text ≠ "") (blank : ink text.toList = []) (max : Nat) :
    Chunks max text [text] ↔ (text.length ≤ max ∨ ¬ "\n\n".toList <:+: text.toList) := by
  obtain ⟨ends, last, split, parts⟩ := split_parts text "\n\n" (by decide)
  have newlines : "\n\n".toList ≠ [] := by decide
  constructor
  · intro chunks
    by_cases long : max < text.length
    · refine .inr fun inside => ?_
      obtain ⟨⟨paragraph, mem, within⟩, -⟩ := chunks.long text (by simp) long
      rw [split, ← List.map_singleton, ← List.map_append] at mem
      obtain ⟨part, from_text, rfl⟩ := List.mem_map.mp mem
      rw [String.toList_ofList] at within
      exact parts.not_infix newlines from_text (inside.trans within)
    · exact .inl (Nat.le_of_not_lt long)
  · intro one
    refine ⟨by simpa using some, by simp, ?_⟩
    simp only [List.mem_singleton, forall_eq]
    intro long
    refine ⟨?_, fun separator _ breaks => ?_⟩
    · have none := one.resolve_left (Nat.not_le_of_lt long)
      obtain rfl := (parts.ends_eq_nil newlines).mpr none
      have whole : last = text.toList := parts.join
      exact ⟨text, by simp [split, whole], List.infix_rfl⟩
    · obtain ⟨before, after, same, more⟩ := breaks
      rw [same, ink_append, List.append_eq_nil_iff] at blank
      exact more blank.2

theorem chunks_ink (some : ink text.toList ≠ []) :
    Chunks self.maxChunkChars text (self.chunkText text) ↔
      ∀ paragraph ∈ paragraphs text, CutsAtOneKind self.maxChunkChars paragraph := by
  rw [chunkText_ink some]
  constructor
  · intro chunks paragraph mem
    refine cutsAtOneKind_iff.mpr fun sentence inside long => ?_
    have chunk := (long_chunk_iff long).mpr ⟨sentence, inside, rfl⟩
    exact (chunks.long _ (List.mem_flatMap.mpr ⟨paragraph, mem, chunk⟩) long).2
  · intro cuts
    have part : ∀ paragraph ∈ paragraphs text,
        paragraph ≠ "" ∧ ∃ whole ∈ split text "\n\n", paragraph = strip whole := by
      intro paragraph mem
      obtain ⟨mem, some⟩ := List.mem_filter.mp mem
      obtain ⟨whole, from_text, rfl⟩ := List.mem_map.mp mem
      exact ⟨by simpa using some, whole, from_text, rfl⟩
    refine ⟨?_, by rw [ink_flatMap_chunkParagraph, ink_paragraphs], ?_⟩
    · intro chunk mem
      obtain ⟨paragraph, from_text, mem⟩ := List.mem_flatMap.mp mem
      exact chunkParagraph_nonempty (part paragraph from_text).1 chunk mem
    · intro chunk mem long
      obtain ⟨paragraph, from_text, mem⟩ := List.mem_flatMap.mp mem
      obtain ⟨sentence, inside, rfl⟩ := (long_chunk_iff long).mp mem
      refine ⟨?_, cutsAtOneKind_iff.mp (cuts paragraph from_text) sentence inside long⟩
      obtain ⟨-, whole, place, rfl⟩ := part paragraph from_text
      refine ⟨whole, place, ?_⟩
      exact ((isInfix_strip sentence).trans (isInfix_sentence inside)).trans (isInfix_strip whole)

/-- The chunks of a text are as they should be exactly if each paragraph is cut at one kind of
separator only, and a blank text that is too long has no empty line. -/
theorem chunkText_chunks_iff (some : text ≠ "") :
    Chunks self.maxChunkChars text (self.chunkText text) ↔
      (ink text.toList = [] →
        text.length ≤ self.maxChunkChars ∨ ¬ "\n\n".toList <:+: text.toList) ∧
      ∀ paragraph ∈ paragraphs text, CutsAtOneKind self.maxChunkChars paragraph := by
  by_cases blank : ink text.toList = []
  · rw [chunkText_blank blank, chunks_blank some blank, paragraphs_eq_nil.mpr blank]
    simp [blank]
  · rw [chunks_ink blank]
    simp [blank]

theorem chunkText_chunks_iff_two_kinds :
    let self : HandlerQdrant := ⟨true, 5, by decide⟩
    "a. bbbb? cccc" ≠ "" ∧ (Chunks self.maxChunkChars "a. bbbb? cccc"
        (self.chunkText "a. bbbb? cccc") ↔
      (ink "a. bbbb? cccc".toList = [] →
        "a. bbbb? cccc".length ≤ self.maxChunkChars ∨
          ¬ "\n\n".toList <:+: "a. bbbb? cccc".toList) ∧
      ∀ paragraph ∈ paragraphs "a. bbbb? cccc", CutsAtOneKind self.maxChunkChars paragraph) :=
  ⟨by decide, chunkText_chunks_iff (by decide)⟩

/-- The second sentence is too long and is not cut at its question mark. -/
theorem not_chunks_two_kinds :
    ¬ ∀ (self : HandlerQdrant) (text : String), text ≠ "" →
      Chunks self.maxChunkChars text (self.chunkText text) := by
  intro holds
  have chunks := holds ⟨true, 5, by decide⟩ "a. bbbb? cccc" (by decide)
  have result : (⟨true, 5, by decide⟩ : HandlerQdrant).chunkText "a. bbbb? cccc" =
      ["a.", "bbbb? cccc"] := by decide +kernel
  rw [result] at chunks
  obtain ⟨-, whole⟩ := chunks.long "bbbb? cccc" (by simp) (by decide)
  exact whole "? " (by simp [separators])
    ⟨"bbbb".toList, "cccc".toList, by decide +kernel, by decide +kernel⟩

end Documents

end Retrieval

end OmniMemory
