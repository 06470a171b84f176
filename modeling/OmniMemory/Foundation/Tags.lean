import Mathlib.Algebra.Order.Ring.Rat
import Mathlib.Data.List.Nodup
import OmniMemory.Lowercase
import OmniMemory.Strings

/-! Tags. The length of a name is checked before the name is normalised, so a blank name becomes the
empty one, and a name whose lower case is longer can become longer than allowed. The list of a
collection is changed in place, by methods that keep its names apart. -/

namespace OmniMemory

namespace Tags

variable (T : CaseTable)

/-- `l.replace(old, new)`, for one character. -/
def replaceChar (old new : Char) (l : List Char) : List Char := l.map fun c => if c = old then new else c

def normalizeTagName (name : String) : String :=
  String.ofList (replaceChar '-' '_' (replaceChar ' ' '_' (T.lowered (strip name).toList)))

/-- The characters that a name must not have. -/
def invalidChars : List Char := "!@#$%^&*()+=\x7b\x7d[]|\\:\";'<>?,/\x60~".toList

/-- What a `ModelTag` is built from, or its dump. -/
structure TagData where
  name : String
  category : Option String
  createdAt : DateTime
  createdBy : Option UUID
  weight : ℚ
deriving DecidableEq

/-- A `ModelTag`, whose fields have been validated. -/
structure ModelTag where
  data : TagData
deriving DecidableEq

def ModelTag.name (self : ModelTag) : String := self.data.name

/-- `validate_tag_name`. -/
def validateTagName (v : String) : Except PyError String :=
  let v := normalizeTagName T v
  if invalidChars.any v.toList.contains then
    .error (.valueError s!"Tag name contains invalid characters: {v}")
  else .ok v

/-- A `ModelTag` is built. -/
def ModelTag.init (data : TagData) : Except PyError ModelTag :=
  if data.name.length < 1 then
    .error (.valueError "String should have at least 1 character")
  else if 100 < data.name.length then
    .error (.valueError "String should have at most 100 characters")
  else
    match validateTagName T data.name with
    | .error e => .error e
    | .ok name =>
      if data.category.any (50 < ·.length) then
        .error (.valueError "String should have at most 50 characters")
      else if data.weight < 0 then
        .error (.valueError "Input should be greater than or equal to 0")
      else if 10 < data.weight then
        .error (.valueError "Input should be less than or equal to 10")
      else .ok ⟨{ data with name }⟩

/-- A `ModelTagCollection`. -/
structure ModelTagCollection where
  tags : List ModelTag
  autoGenerated : Bool
  lastUpdated : DateTime
deriving DecidableEq

namespace ModelTagCollection

def getTagNames (self : ModelTagCollection) : List String := self.tags.map (·.name)

/-- A `ModelTagCollection` is built from tags. -/
def init (tags : List ModelTag) (autoGenerated : Bool) (lastUpdated : DateTime) :
    Except PyError ModelTagCollection :=
  if 100 < tags.length then
    .error (.valueError
      s!"List should have at most 100 items after validation, not {tags.length}")
  else if ¬ (tags.map (·.name)).Nodup then
    .error (.valueError "Duplicate tag names are not allowed")
  else .ok ⟨tags, autoGenerated, lastUpdated⟩

/-- `add_tag`; the two times are those of the tag and of the update. -/
def addTag (self : ModelTagCollection) (name : String) (category : Option String) (weight : ℚ)
    (createdBy : Option UUID) (createdAt now : DateTime) : Except PyError ModelTagCollection :=
  if 100 ≤ self.tags.length then
    .error (.valueError "Maximum of 100 tags allowed")
  else
    let normalizedName := normalizeTagName T name
    if self.tags.any (·.name = normalizedName) then .ok self
    else
      match ModelTag.init T ⟨normalizedName, category, createdAt, createdBy, weight⟩ with
      | .error e => .error e
      | .ok newTag => .ok { self with tags := self.tags ++ [newTag], lastUpdated := now }

/-- `remove_tag`. -/
def removeTag (self : ModelTagCollection) (name : String) (now : DateTime) :
    Bool × ModelTagCollection :=
  let normalizedName := normalizeTagName T name
  match self.tags.findIdx? (·.name = normalizedName) with
  | some i => (true, { self with tags := self.tags.eraseIdx i, lastUpdated := now })
  | none => (false, self)

/-- The loop of `from_string_list`; each name comes with the two times of its `add_tag`. -/
def addAll (createdBy : Option UUID) :
    ModelTagCollection → List (String × DateTime × DateTime) → Except PyError ModelTagCollection
  | self, [] => .ok self
  | self, (name, createdAt, now) :: rest =>
    match self.addTag T name none 1 createdBy createdAt now with
    | .error e => .error e
    | .ok self => addAll createdBy self rest

/-- `from_string_list`. -/
def fromStringList (tagNames : List (String × DateTime × DateTime)) (createdBy : Option UUID)
    (now : DateTime) : Except PyError ModelTagCollection :=
  addAll T createdBy ⟨[], false, now⟩ tagNames

/-- `model_dump`. -/
def modelDump (self : ModelTagCollection) : List TagData × Bool × DateTime :=
  (self.tags.map (·.data), self.autoGenerated, self.lastUpdated)

/-- `model_validate`, of a dump. -/
def modelValidate (dump : List TagData × Bool × DateTime) : Except PyError ModelTagCollection :=
  match dump.1.mapM (ModelTag.init T) with
  | .error e => .error e
  | .ok tags => init tags dump.2.1 dump.2.2

end ModelTagCollection

section Names

variable {T} {name : String} {l : List Char} {c : Char}

/-- What a character of a lowered name becomes. -/
def swapped (c : Char) : Char := if c = ' ' ∨ c = '-' then '_' else c

theorem toList_normalizeTagName :
    (normalizeTagName T name).toList = (T.lowered (strip name).toList).map swapped := by
  rw [normalizeTagName, String.toList_ofList, replaceChar, replaceChar, List.map_map]
  refine List.map_congr_left fun c _ => ?_
  unfold swapped
  by_cases blank : c = ' '
  · subst blank
    decide
  · simp [blank]

theorem length_normalizeTagName :
    (normalizeTagName T name).length = (T.lowered (strip name).toList).length := by
  rw [← String.length_toList, toList_normalizeTagName, List.length_map]

theorem isSpace_swapped (other : isSpace c = false) : isSpace (swapped c) = false := by
  unfold swapped
  split
  · decide
  · exact other

theorem swapped_swapped : swapped (swapped c) = swapped c := by
  unfold swapped
  split
  · decide
  · rfl

/-- No white space is at the ends of a normalised name. -/
theorem strip_normalizeTagName : strip (normalizeTagName T name) = normalizeTagName T name := by
  obtain ⟨first, last⟩ := strip_ends name
  rw [strip_eq_self, toList_normalizeTagName]
  constructor
  · intro c mem
    rw [List.head?_map] at mem
    obtain ⟨d, here, rfl⟩ := Option.map_eq_some_iff.mp mem
    obtain ⟨e, start, same⟩ := CaseTable.head?_lowerFrom here
    exact isSpace_swapped (same.trans (first e start))
  · intro c mem
    rw [List.getLast?_map] at mem
    obtain ⟨d, here, rfl⟩ := Option.map_eq_some_iff.mp mem
    obtain ⟨e, stop, same⟩ := CaseTable.getLast?_lowerFrom here
    exact isSpace_swapped (same.trans (last e stop))

/-- The characters of a normalised name are their own lower case. -/
theorem settled_of_mem (mem : c ∈ (normalizeTagName T name).toList) :
    T.lower c = [c] ∧ c ≠ 'Σ' := by
  rw [toList_normalizeTagName] at mem
  obtain ⟨d, here, rfl⟩ := List.mem_map.mp mem
  unfold swapped
  split
  · exact ⟨T.lower_underscore, by decide⟩
  · exact CaseTable.settled_of_mem_lowerFrom here

/-- Normalising a name again changes nothing. -/
theorem normalizeTagName_idem : normalizeTagName T (normalizeTagName T name) =
    normalizeTagName T name := by
  apply String.toList_injective
  rw [toList_normalizeTagName, strip_normalizeTagName, CaseTable.lowered,
    CaseTable.lowerFrom_eq_self fun c mem => settled_of_mem mem, toList_normalizeTagName,
    List.map_map]
  exact List.map_congr_left fun c _ => swapped_swapped

end Names

/-- A name is not blank, and its lower case is not longer than a name may be. -/
def Fits (name : String) : Prop :=
  isBlank name = false ∧ (T.lowered (strip name).toList).length ≤ 100

/-- The name of a tag is normal, and between 1 and 100 characters long. -/
structure Named (tag : ModelTag) : Prop where
  normal : normalizeTagName T tag.name = tag.name
  some : 1 ≤ tag.name.length
  short : tag.name.length ≤ 100

section Tag

variable {T} {data : TagData} {tag : ModelTag} {name stored : String}

theorem one_le_length_normalizeTagName :
    1 ≤ (normalizeTagName T name).length ↔ isBlank name = false := by
  have empty : T.lowered (strip name).toList = [] ↔ strip name = "" := by
    constructor
    · intro nothing
      by_contra some
      exact CaseTable.lowerFrom_ne_nil (fun none => some (String.toList_eq_nil_iff.mp none)) nothing
    · intro none
      rw [none]
      rfl
  have blank : strip name = "" ↔ isBlank name = true := by
    rw [strip_eq_empty, ink_eq_nil, isBlank]
  rw [length_normalizeTagName, Nat.one_le_iff_ne_zero, ne_eq, List.length_eq_zero_iff, empty, blank,
    Bool.not_eq_true]

theorem validateTagName_eq_ok : validateTagName T name = .ok stored ↔
    invalidChars.any (normalizeTagName T name).toList.contains = false ∧
      stored = normalizeTagName T name := by
  unfold validateTagName
  dsimp only
  split
  · rename_i invalid
    rw [invalid]
    simp
  · rename_i valid
    rw [Bool.not_eq_true] at valid
    rw [valid, Except.ok.injEq, eq_comm (a := stored)]
    simp

/-- When a tag is built, and what it is. -/
theorem init_eq_ok : ModelTag.init T data = .ok tag ↔
    1 ≤ data.name.length ∧ data.name.length ≤ 100 ∧
      invalidChars.any (normalizeTagName T data.name).toList.contains = false ∧
      data.category.any (50 < ·.length) = false ∧ 0 ≤ data.weight ∧ data.weight ≤ 10 ∧
      tag = ⟨{ data with name := normalizeTagName T data.name }⟩ := by
  constructor
  · intro built
    unfold ModelTag.init at built
    split at built
    · cases built
    split at built
    · cases built
    split at built
    · cases built
    rename_i some short name valid
    obtain ⟨clean, rfl⟩ := validateTagName_eq_ok.mp valid
    split at built
    · cases built
    split at built
    · cases built
    split at built
    · cases built
    rename_i category least most
    exact ⟨by omega, by omega, clean, by simpa using category, not_lt.mp least, not_lt.mp most,
      (Except.ok.inj built).symm⟩
  · rintro ⟨some, short, clean, category, least, most, rfl⟩
    rw [ModelTag.init, if_neg (by omega), if_neg (by omega), validateTagName_eq_ok.mpr ⟨clean, rfl⟩]
    dsimp only
    rw [if_neg (by simpa using category), if_neg (not_lt.mpr least), if_neg (not_lt.mpr most)]

/-- The name of a tag that is built is as it should be just when the given name fits. -/
theorem named_iff (built : ModelTag.init T data = .ok tag) : Named T tag ↔ Fits T data.name := by
  obtain ⟨-, -, -, -, -, -, rfl⟩ := init_eq_ok.mp built
  have length : (normalizeTagName T data.name).length ≤ 100 ↔
      (T.lowered (strip data.name).toList).length ≤ 100 := by rw [length_normalizeTagName]
  constructor
  · intro named
    exact ⟨one_le_length_normalizeTagName.mp named.some, length.mp named.short⟩
  · rintro ⟨some, short⟩
    exact ⟨normalizeTagName_idem, one_le_length_normalizeTagName.mpr some, length.mpr short⟩

/-- A tag with a name as it should be is built again from its dump. -/
theorem init_dump (built : ModelTag.init T data = .ok tag) (named : Named T tag) :
    ModelTag.init T tag.data = .ok tag := by
  obtain ⟨-, -, clean, category, least, most, rfl⟩ := init_eq_ok.mp built
  have normal : normalizeTagName T (normalizeTagName T data.name) = normalizeTagName T data.name :=
    normalizeTagName_idem
  have again : invalidChars.any
      (normalizeTagName T (normalizeTagName T data.name)).toList.contains = false := by
    rw [normal]
    exact clean
  refine init_eq_ok.mpr ⟨named.some, named.short, again, category, least, most, ?_⟩
  show _ = (⟨{ data with name := normalizeTagName T (normalizeTagName T data.name) }⟩ : ModelTag)
  rw [normal]

end Tag

/-- The collections that are reached when every tag given at construction was built from a name as
`P` says. -/
inductive Reachable (P : String → Prop) : ModelTagCollection → Prop where
  | init {tags : List ModelTag} {autoGenerated : Bool} {lastUpdated : DateTime}
      {c : ModelTagCollection}
      (given : ∀ tag ∈ tags, ∃ data, P data.name ∧ ModelTag.init T data = .ok tag)
      (built : ModelTagCollection.init tags autoGenerated lastUpdated = .ok c) : Reachable P c
  | addTag {c c' : ModelTagCollection} {name : String} {category : Option String} {weight : ℚ}
      {createdBy : Option UUID} {createdAt now : DateTime} (reach : Reachable P c)
      (added : c.addTag T name category weight createdBy createdAt now = .ok c') : Reachable P c'
  | removeTag {c : ModelTagCollection} (reach : Reachable P c) (name : String) (now : DateTime) :
      Reachable P (c.removeTag T name now).2
  | fromStringList {tagNames : List (String × DateTime × DateTime)} {createdBy : Option UUID}
      {now : DateTime} {c : ModelTagCollection}
      (built : ModelTagCollection.fromStringList T tagNames createdBy now = .ok c) : Reachable P c

/-- The names are distinct and as they should be, there are at most 100 tags, and the dump of the
collection validates to it. -/
structure Sound (c : ModelTagCollection) : Prop where
  distinct : c.getTagNames.Nodup
  named : ∀ tag ∈ c.tags, Named T tag
  bounded : c.tags.length ≤ 100
  roundTrip : ModelTagCollection.modelValidate T c.modelDump = .ok c

section Collection

variable {T} {c c' : ModelTagCollection} {name : String} {category : Option String} {weight : ℚ}
  {createdBy : Option UUID} {createdAt now : DateTime} {tags : List ModelTag}

/-- What holds of a collection while it is changed. -/
structure Invariant (T : CaseTable) (c : ModelTagCollection) : Prop where
  distinct : c.getTagNames.Nodup
  built : ∀ tag ∈ c.tags, Named T tag ∧ ∃ data, ModelTag.init T data = .ok tag
  bounded : c.tags.length ≤ 100

theorem collection_init_eq_ok {autoGenerated : Bool} :
    ModelTagCollection.init tags autoGenerated now = .ok c ↔
      tags.length ≤ 100 ∧ (tags.map (·.name)).Nodup ∧ c = ⟨tags, autoGenerated, now⟩ := by
  unfold ModelTagCollection.init
  split
  · rename_i many
    exact iff_of_false (by simp) fun fits => absurd fits.1 (not_le.mpr many)
  split
  · rename_i few twice
    exact iff_of_false (by simp) fun fits => twice fits.2.1
  · rename_i few distinct
    rw [not_lt] at few
    rw [not_not] at distinct
    rw [Except.ok.injEq, eq_comm (a := c)]
    simp [few, distinct]

theorem Invariant.sound (inv : Invariant T c) : Sound T c where
  distinct := inv.distinct
  named tag mem := (inv.built tag mem).1
  bounded := inv.bounded
  roundTrip := by
    have all : (c.tags.map (·.data)).mapM (ModelTag.init T) = .ok c.tags := by
      have built := inv.built
      generalize c.tags = tags at built
      induction tags with
      | nil => rfl
      | cons tag tags ih =>
        obtain ⟨⟨named, data, first⟩, rest⟩ := List.forall_mem_cons.mp built
        rw [List.map_cons, List.mapM_cons, init_dump first named, ih rest]
        rfl
    unfold ModelTagCollection.modelValidate ModelTagCollection.modelDump
    dsimp only
    rw [all]
    exact collection_init_eq_ok.mpr ⟨inv.bounded, inv.distinct, rfl⟩

theorem Invariant.addTag (inv : Invariant T c)
    (added : c.addTag T name category weight createdBy createdAt now = .ok c') :
    Invariant T c' := by
  unfold ModelTagCollection.addTag at added
  split at added
  · cases added
  rename_i room
  dsimp only at added
  split at added
  · obtain rfl := Except.ok.inj added
    exact inv
  rename_i new
  split at added
  · cases added
  rename_i tag built
  obtain rfl := Except.ok.inj added
  obtain ⟨some, short, -, -, -, -, same⟩ := init_eq_ok.mp built
  have name_ : tag.name = normalizeTagName T name := by
    rw [same]
    exact normalizeTagName_idem
  refine ⟨?_, fun other mem => ?_, ?_⟩
  · show ((c.tags ++ [tag]).map (·.name)).Nodup
    rw [List.map_append, List.map_singleton]
    refine List.Nodup.append inv.distinct (List.nodup_singleton _) fun n mem here => ?_
    obtain ⟨other, there, rfl⟩ := List.mem_map.mp mem
    refine new (List.any_eq_true.mpr ⟨other, there, decide_eq_true ?_⟩)
    rw [List.mem_singleton.mp here, name_]
  · rcases List.mem_append.mp mem with mem | mem
    · exact inv.built other mem
    · obtain rfl := List.mem_singleton.mp mem
      exact ⟨⟨by rw [name_, normalizeTagName_idem], by rw [name_]; exact some,
        by rw [name_]; exact short⟩, _, built⟩
  · show (c.tags ++ [tag]).length ≤ 100
    rw [List.length_append, List.length_singleton]
    omega

theorem Invariant.removeTag (inv : Invariant T c) : Invariant T (c.removeTag T name now).2 := by
  unfold ModelTagCollection.removeTag
  dsimp only
  split
  · rename_i i _
    have part : (c.tags.eraseIdx i).Sublist c.tags := List.eraseIdx_sublist _ _
    exact ⟨inv.distinct.sublist (part.map _), fun tag mem => inv.built tag (part.subset mem),
      part.length_le.trans inv.bounded⟩
  · exact inv

theorem Invariant.addAll {names : List (String × DateTime × DateTime)} (inv : Invariant T c)
    (added : ModelTagCollection.addAll T createdBy c names = .ok c') : Invariant T c' := by
  induction names generalizing c with
  | nil =>
    obtain rfl := Except.ok.inj added
    exact inv
  | cons first rest ih =>
    obtain ⟨name, createdAt, now⟩ := first
    unfold ModelTagCollection.addAll at added
    split at added
    · cases added
    · rename_i next one
      exact ih (inv.addTag one) added

/-- Every collection reached keeps the invariant, when the names of the tags given fit. -/
theorem Reachable.invariant (reach : Reachable T (Fits T) c) : Invariant T c := by
  induction reach with
  | init given built =>
    obtain ⟨few, distinct, rfl⟩ := collection_init_eq_ok.mp built
    refine ⟨distinct, fun tag mem => ?_, few⟩
    obtain ⟨data, fits, init⟩ := given tag mem
    exact ⟨(named_iff init).mpr fits, data, init⟩
  | addTag _ added ih => exact ih.addTag added
  | removeTag _ name now ih => exact ih.removeTag
  | fromStringList built =>
    have empty (now : DateTime) : Invariant T ⟨[], false, now⟩ :=
      ⟨List.nodup_nil, fun tag mem => absurd mem List.not_mem_nil, Nat.zero_le _⟩
    exact (empty _).addAll built

end Collection

/-- A tag has a name as it should be just when the name it is built from fits; and when those of the
tags given do, every collection reached is sound. -/
theorem tags_sound (T : CaseTable) :
    (∀ data tag, ModelTag.init T data = .ok tag → (Named T tag ↔ Fits T data.name)) ∧
      ∀ c, Reachable T (Fits T) c → Sound T c :=
  ⟨fun _ _ built => named_iff built, fun _ reach => reach.invariant.sound⟩

/-- A tag with two words for a name. -/
def twoWords : TagData := ⟨" Two-Words", none, ⟨2026, 1, 1, 0⟩, none, 1⟩

def twoWordsTag : ModelTag := ⟨{ twoWords with name := "two_words" }⟩

theorem fits_twoWords : Fits CaseTable.ofCapitals twoWords.name := by
  unfold Fits
  decide +kernel

theorem init_twoWords : ModelTag.init CaseTable.ofCapitals twoWords = .ok twoWordsTag := by
  decide +kernel

theorem tags_sound_twoWords :
    Named CaseTable.ofCapitals twoWordsTag ∧
      Sound CaseTable.ofCapitals ⟨[twoWordsTag], false, ⟨2026, 1, 1, 0⟩⟩ := by
  have built : ModelTagCollection.init [twoWordsTag] false ⟨2026, 1, 1, 0⟩ =
      .ok ⟨[twoWordsTag], false, ⟨2026, 1, 1, 0⟩⟩ := by decide +kernel
  have given (tag : ModelTag) (mem : tag ∈ [twoWordsTag]) : ∃ data : TagData,
      Fits CaseTable.ofCapitals data.name ∧ ModelTag.init CaseTable.ofCapitals data = .ok tag := by
    obtain rfl := List.mem_singleton.mp mem
    exact ⟨twoWords, fits_twoWords, init_twoWords⟩
  exact ⟨((tags_sound CaseTable.ofCapitals).1 _ _ init_twoWords).mpr fits_twoWords,
    (tags_sound CaseTable.ofCapitals).2 _ (.init given built)⟩

/-- The name of a tag may be empty: that of the one built from a blank is. -/
theorem not_named_blank :
    ¬ ∀ data tag, ModelTag.init CaseTable.ofCapitals data = .ok tag →
      Named CaseTable.ofCapitals tag := by
  intro all
  have built : ModelTag.init CaseTable.ofCapitals { twoWords with name := " " } =
      .ok ⟨{ twoWords with name := "" }⟩ := by decide +kernel
  have some : 1 ≤ "".length := (all _ _ built).some
  exact absurd some (by decide)

end Tags

end OmniMemory
