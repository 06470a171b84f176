import OmniMemory.Semantic.Heuristics
import OmniMemory.Strings

/-! The entities of the heuristics are where they say that they are: each word is found at its own
place, since only white space comes before it, and the word without punctuation is found in it where
the punctuation ends. -/

namespace OmniMemory.Semantic

open Words

/-- The entity is a part of the text between two places. -/
structure Spells (content : String) (start stop : Nat) (entity : ModelSemanticEntity) : Prop where
  start_le : start ≤ entity.spanStart
  le_stop : entity.spanEnd ≤ stop
  text : slice content entity.spanStart entity.spanEnd = entity.text

/-- The entities are parts of the text between two places, one after the other. -/
structure Spans (content : String) (start stop : Nat) (entities : List ModelSemanticEntity) :
    Prop where
  increasing : entities.Pairwise fun e e' => e.spanStart < e'.spanStart ∧ e.spanEnd ≤ e'.spanStart
  spells : ∀ e ∈ entities, Spells content start stop e

section Spans

variable (u : Unicode) (heuristicEntityConfidence : Confidence) {content : String}
  {start stop start' stop' middle : Nat} (isSentenceStart : Bool)
  {before word after rest : List Char} {ws : List (List Char)} {entity : ModelSemanticEntity}
  {entities : List ModelSemanticEntity}

theorem Spells.mono (spells : Spells content start stop entity) (lower : start' ≤ start)
    (upper : stop ≤ stop') : Spells content start' stop' entity := by
  obtain ⟨start_le, le_stop, text⟩ := spells
  exact ⟨by omega, by omega, text⟩

theorem Spans.nil : Spans content start stop [] := ⟨.nil, by simp⟩

/-- What comes from one place on, after at most one entity up to it. -/
theorem Spans.append {first : Option ModelSemanticEntity}
    (here : ∀ e ∈ first, Spells content start middle e) (later : Spans content middle stop entities)
    (lower : start ≤ middle) (upper : middle ≤ stop) :
    Spans content start stop (first.toList ++ entities) := by
  have spells : ∀ e ∈ entities, Spells content start stop e := fun e mem =>
    (later.spells e mem).mono lower (Nat.le_refl _)
  cases first with
  | none => exact ⟨later.increasing, spells⟩
  | some entity =>
    have first := here entity rfl
    refine ⟨List.pairwise_cons.mpr ⟨fun e mem => ?_, later.increasing⟩,
      List.forall_mem_cons.mpr ⟨first.mono (Nat.le_refl _) upper, spells⟩⟩
    have stops := first.le_stop
    have starts := (later.spells e mem).start_le
    have order := entity.span_ordering
    constructor <;> omega

/-- Stripping a text without white space changes nothing. -/
theorem strip_of_not_space {s : String} (inside : ∀ c ∈ s.toList, isSpace c = false) :
    strip s = s :=
  strip_eq_self.mpr ⟨fun c first => inside c (List.mem_of_mem_head? first),
    fun c last => inside c (List.mem_of_getLast? last)⟩

/-- Where the word without punctuation is found in the word. -/
theorem exists_cleanWord (inside : ∀ c ∈ word, isSpace c = false) :
    ∃ left right, word = left ++ (cleanWord (String.ofList word)).toList ++ right ∧
      (cleanWord (String.ofList word) ≠ "" →
        find (String.ofList word) (cleanWord (String.ofList word)) = left.length) := by
  have clean : cleanWord (String.ofList word) =
      String.ofList (trim (punctuation.toList.contains ·) word) := by
    rw [cleanWord, stripChars, String.toList_ofList]
    refine strip_of_not_space fun c mem => inside c ?_
    rw [String.toList_ofList] at mem
    exact (trim_sublist _ word).subset mem
  obtain ⟨left, right, same, lefts, first⟩ := exists_trim (punctuation.toList.contains ·) word
  rw [clean, String.toList_ofList]
  refine ⟨left, right, same, fun some => ?_⟩
  have found := index?_append right lefts first fun empty => some (by rw [empty])
  rw [← same] at found
  rw [find, String.toList_ofList, String.toList_ofList, found]
  rfl

/-- The part of a text that stands after another. -/
theorem slice_append {left part right : List Char} (same : content.toList = left ++ part ++ right) :
    slice content left.length (left.length + part.length) = String.ofList part := by
  have place : ((left.length : Int) + part.length).toNat = (left ++ part).length := by
    rw [List.length_append]
    omega
  rw [slice, same, place, List.take_left, Int.toNat_natCast, List.drop_left]

/-- An entity with the text and the place of a part of a word. -/
theorem spells_of_part {left right : List Char} {clean : String}
    (same : content.toList = before ++ word ++ after) (parts : word = left ++ clean.toList ++ right)
    (text : entity.text = clean) (spanStart : entity.spanStart = before.length + left.length)
    (spanEnd : entity.spanEnd = before.length + left.length + clean.length) :
    Spells content before.length (before.length + word.length) entity := by
  have lengths := congrArg List.length parts
  simp only [List.length_append, String.length_toList] at lengths
  refine ⟨by omega, by omega, ?_⟩
  have whole : content.toList = before ++ left ++ clean.toList ++ (right ++ after) := by
    rw [same, parts]
    simp only [List.append_assoc]
  have sliced := slice_append whole
  rw [List.length_append, String.length_toList, String.ofList_toList] at sliced
  push_cast at sliced
  rw [text, spanStart, spanEnd, sliced]

/-- A word makes an entity that is a part of it, or none. -/
theorem entityOf_spells (same : content.toList = before ++ word ++ after)
    (inside : ∀ c ∈ word, isSpace c = false) :
    ∃ entity, entityOf u heuristicEntityConfidence (String.ofList word) before.length
        isSentenceStart = .ok entity ∧
      ∀ e ∈ entity, Spells content before.length (before.length + word.length) e := by
  obtain ⟨left, right, parts, found⟩ := exists_cleanWord inside
  rw [entityOf]
  generalize cleanWord (String.ofList word) = clean at parts found ⊢
  split
  · exact ⟨none, rfl, by simp⟩
  rename_i some
  split
  · split
    · exact ⟨none, rfl, by simp⟩
    · by_cases kind : classifyEntityHeuristic u clean = .unknown
      · refine ⟨none, ?_, by simp⟩
        simp only [kind, ne_eq, not_true_eq_false, if_false]
      · have start : 0 ≤ (before.length : Int) + find (String.ofList word) clean := by
          rw [found some]
          omega
        obtain ⟨entity, valid, text, spanStart, spanEnd⟩ := ModelSemanticEntity.make_of_valid
          (classifyEntityHeuristic u clean) heuristicEntityConfidence some start
          (add_sub_cancel_left _ (clean.length : Int))
        simp only [ne_eq, kind, not_false_eq_true, if_true]
        rw [valid]
        refine ⟨.some entity, rfl, fun e mem => ?_⟩
        obtain rfl := Option.some.inj mem
        rw [found some] at spanStart spanEnd
        exact spells_of_part same parts text spanStart spanEnd
  · exact ⟨none, rfl, by simp⟩

/-- Each word is found at its place. -/
theorem index_eq {gap : List Char} (same : content.toList = before ++ (gap ++ word ++ rest))
    (spaces : ∀ c ∈ gap, isSpace c = true) (some : word ≠ [])
    (inside : ∀ c ∈ word, isSpace c = false) :
    index content (String.ofList word) before.length = .some (before ++ gap).length := by
  have first : ∀ c ∈ word.head?, isSpace c = false := fun c mem =>
    inside c (List.mem_of_head? mem)
  rw [index, same, List.drop_left, String.toList_ofList, index?_append rest spaces first some,
    List.length_append]
  rfl

theorem extractFrom_spans (spaced : Spaced isSpace rest ws) (same : content.toList = before ++ rest) :
    ∃ entities, extractFrom u heuristicEntityConfidence content before.length isSentenceStart
        (ws.map String.ofList) = .ok entities ∧
      Spans content before.length content.length entities := by
  induction spaced generalizing before isSentenceStart with
  | nil => exact ⟨[], rfl, .nil⟩
  | @cons gap word rest ws spaces some inside tail ih =>
    have here : content.toList = (before ++ gap) ++ word ++ rest := by
      rw [same]
      simp only [List.append_assoc]
    obtain ⟨entity, made, spells⟩ := entityOf_spells u heuristicEntityConfidence isSentenceStart
      here inside
    obtain ⟨entities, returns, spans⟩ := ih (nextSentenceStart (String.ofList word) isSentenceStart)
      here
    have place : (before ++ gap ++ word).length = (before ++ gap).length + word.length :=
      List.length_append
    have long := congrArg List.length here
    rw [String.length_toList, List.length_append] at long
    have lower : before.length ≤ (before ++ gap).length := by simp
    refine ⟨entity.toList ++ entities, ?_, Spans.append (fun e mem => ?_) spans ?_ ?_⟩
    · rw [place] at returns
      rw [List.map_cons, extractFrom, index_eq same spaces some inside]
      simp only [made, String.length_ofList, returns, Bind.bind, Except.bind, pure, Except.pure]
    · exact (spells e mem).mono lower place.ge
    · omega
    · omega

end Spans

end OmniMemory.Semantic
