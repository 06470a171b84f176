import OmniMemory.Lib.Binary64
import OmniMemory.Semantic.Entity
import Mathlib.Algebra.Order.Floor.Ring

/-! `_parse_llm_entity_response`: the entities of a response of a language model, item by item. An
item whose conversion raises a `ValueError` is skipped; other exceptions end the parsing, as that of
a number that is too large for a float or of an infinite span. -/

namespace OmniMemory.Semantic

open Binary64

/-- What a JSON parser of Python delivers. -/
inductive PyJson where
  | null
  | bool (b : Bool)
  | int (n : Int)
  | float (value : Value)
  | negativeZero
  | str (s : String)
  | list (items : List PyJson)
  | dict (members : List (String × PyJson))

namespace PyJson

/-- `bool(value)`. -/
def truthy : PyJson → Bool
  | null | negativeZero => false
  | bool b => b
  | int n => n ≠ 0
  | float value => value ≠ .finite 0
  | str s => s ≠ ""
  | list items => !items.isEmpty
  | dict members => !members.isEmpty

/-- The number, if `isinstance(value, int | float)`. -/
def number : PyJson → Option (Int ⊕ Value)
  | bool b => some (.inl b.toInt)
  | int n => some (.inl n)
  | float value => some (.inr value)
  | negativeZero => some (.inr (.finite 0))
  | null | str _ | list _ | dict _ => none

end PyJson

abbrev EntityData := List (String × PyJson)

/-- `data.get(key, default)`. -/
def EntityData.get (data : EntityData) (key : String) (default : PyJson) : PyJson :=
  (data.find? (·.1 = key)).elim default Prod.snd

/-- `try: x`, and `except ValueError: return default`. -/
def exceptValueError {α : Type} (x : Except PyError α) (default : α) : Except PyError α :=
  match x with
  | .ok a => .ok a
  | .error e => if e.isValueError then .ok default else .error e

/-- `float(value) if isinstance(value, int | float) else 0.8`. -/
def toFloat (value : PyJson) : Except PyError Value :=
  match value.number with
  | none => .ok (.ofRat (4 / 5))
  | some (.inr value) => .ok value
  | some (.inl n) =>
    match Value.ofRat n with
    | .infinite _ => .error (.other "OverflowError: int too large to convert to float")
    | value => .ok value

/-- `min(1.0, max(0.0, value))`. -/
def clamp : Value → ℚ
  | .nan | .infinite true => 0
  | .infinite false => 1
  | .finite q => min 1 (max 0 q)

/-- `int(value) if isinstance(value, int | float) else 0`. -/
def toInt (value : PyJson) : Except PyError Int :=
  match value.number with
  | none => .ok 0
  | some (.inl n) => .ok n
  | some (.inr .nan) => .error (.valueError "cannot convert float NaN to integer")
  | some (.inr (.infinite _)) => .error (.other "OverflowError: cannot convert float infinity to integer")
  | some (.inr (.finite q)) => .ok (if q < 0 then ⌈q⌉ else ⌊q⌋)

/-- `EnumSemanticEntityType(value)`. -/
def EnumSemanticEntityType.ofValue (value : String) : Except PyError EnumSemanticEntityType :=
  match members.find? (·.value = value) with
  | some kind => .ok kind
  | none => .error (.valueError s!"{value} is not a valid EnumSemanticEntityType")

section Parse

variable (lower : String → String) (str : PyJson → Except PyError String)

/-- `str(value) if value else default`. -/
def strOr (value : PyJson) (default : String) : Except PyError String :=
  if value.truthy then str value else .ok default

/-- The type of an item, which is `MISC` after a `ValueError`. -/
def entityType (data : EntityData) : Except PyError EnumSemanticEntityType :=
  exceptValueError
    (do
      let entityTypeStr ← strOr (fun value => (str value).map lower) (data.get "type" (.str "misc")) "misc"
      EnumSemanticEntityType.ofValue entityTypeStr)
    .misc

/-- The entity of an item. -/
def buildEntity (data : EntityData) (entityType : EnumSemanticEntityType) :
    Except PyError ModelSemanticEntity := do
  let text ← strOr str (data.get "text" (.str "")) ""
  let confidence ← toFloat (data.get "confidence" (.float (.ofRat (4 / 5))))
  let spanStart ← toInt (data.get "start" (.int 0))
  let spanEnd ← toInt (data.get "end" (.int 0))
  ModelSemanticEntity.make entityType text (clamp confidence) spanStart spanEnd

/-- The entities of an item: none if it is no `dict`, or if building one raises a `ValueError`. -/
def parseItem : PyJson → Except PyError (List ModelSemanticEntity)
  | .dict data => do
    let entityType ← entityType lower str data
    exceptValueError ((buildEntity str data entityType).map ([·])) []
  | _ => .ok []

def parseItems : List PyJson → Except PyError (List ModelSemanticEntity)
  | [] => .ok []
  | item :: items => do
    let first ← parseItem lower str item
    let rest ← parseItems items
    return first ++ rest

/-- The items of a response, if it has a list of them. -/
def rawEntities (response : EntityData) : List PyJson :=
  match response.get "entities" (.list []) with
  | .list items => items
  | _ => []

/-- `_parse_llm_entity_response`. -/
def parseLlmEntityResponse (response : EntityData) : Except PyError (List ModelSemanticEntity) :=
  parseItems lower str (rawEntities response)

end Parse

/-! ### Exceptions that are not caught -/

/-- An exception other than a `ValueError` is raised. -/
def Escapes {α : Type} (x : Except PyError α) : Prop := ∃ e, x = .error e ∧ e.isValueError = false

/-- Every exception that is raised is another than a `ValueError`. -/
def Caught {α : Type} (x : Except PyError α) : Prop := ∀ e, x = .error e → e.isValueError = false

section Escapes

variable {α β : Type} {x : Except PyError α} {f : α → Except PyError β} {a : α} {e : PyError}

@[simp] theorem not_escapes_ok : ¬ Escapes (.ok a : Except PyError α) := by
  intro ⟨e, same, _⟩
  contradiction

@[simp] theorem escapes_error : Escapes (.error e : Except PyError α) ↔ e.isValueError = false := by
  simp [Escapes]

/-- A sequence raises what its first part raises, or the rest. -/
theorem escapes_bind : Escapes (x >>= f) ↔ Escapes x ∨ ∃ a, x = .ok a ∧ Escapes (f a) := by
  cases x with
  | error e =>
    show Escapes (.error e) ↔ _
    simp
  | ok a =>
    show Escapes (f a) ↔ _
    simp

theorem escapes_map {g : α → β} : Escapes (x.map g) ↔ Escapes x := by
  cases x with
  | error e => simp [Except.map]
  | ok a => simp [Except.map]

theorem escapes_exceptValueError : Escapes (exceptValueError x a) ↔ Escapes x := by
  cases x with
  | ok b => simp [exceptValueError]
  | error e =>
    rw [exceptValueError, escapes_error]
    cases value : e.isValueError with
    | true => simp
    | false => simp [value]

theorem caught_exceptValueError : Caught (exceptValueError x a) := by
  intro e raised
  cases x with
  | ok b => contradiction
  | error e' =>
    simp only [exceptValueError] at raised
    split at raised
    · contradiction
    · rename_i other
      obtain rfl := Except.error.inj raised
      simpa using other

theorem Caught.bind (first : Caught x) (rest : ∀ a, Caught (f a)) : Caught (x >>= f) := by
  cases x with
  | error e =>
    intro e' raised
    obtain rfl := Except.error.inj raised
    exact first e rfl
  | ok a => exact rest a

theorem Caught.exists_ok_iff (caught : Caught x) : (∃ a, x = .ok a) ↔ ¬ Escapes x := by
  cases x with
  | ok a => simp
  | error e => simp [caught e rfl]

end Escapes

/-! ### What an item must not have -/

section Items

variable (str : PyJson → Except PyError String)

/-- The number is an integer that is too large for a float. -/
def Huge (value : PyJson) : Prop :=
  ∃ n negative, value.number = some (.inl n) ∧ Value.ofRat n = .infinite negative

def Infinite (value : PyJson) : Prop := ∃ negative, value.number = some (.inr (.infinite negative))

def NotANumber (value : PyJson) : Prop := value.number = some (.inr .nan)

/-- `str` is called with the value, and raises an exception other than a `ValueError`. -/
def Unprintable (value : PyJson) : Prop := value.truthy = true ∧ Escapes (str value)

/-- `str` is not called with the value, or returns its text. -/
def Printable (value : PyJson) : Prop := value.truthy = true → ∃ text, str value = .ok text

/-- The type or the text of the item is not printable at all, or the text is printable, and the
confidence is a huge integer, the start is infinite, or the end is, and the start a number. -/
def Malformed (data : EntityData) : Prop :=
  Unprintable str (data.get "type" (.str "misc")) ∨ Unprintable str (data.get "text" (.str "")) ∨
    Printable str (data.get "text" (.str "")) ∧
      (Huge (data.get "confidence" (.float (.ofRat (4 / 5)))) ∨
        Infinite (data.get "start" (.int 0)) ∨
        ¬ NotANumber (data.get "start" (.int 0)) ∧ Infinite (data.get "end" (.int 0)))

variable {str} {lower : String → String} {data : EntityData} {value : PyJson} {default : String}

theorem escapes_strOr : Escapes (strOr str value default) ↔ Unprintable str value := by
  unfold strOr Unprintable
  split
  · rename_i truthy
    rw [and_iff_right truthy]
  · rename_i falsy
    simp [falsy]

theorem exists_strOr : (∃ text, strOr str value default = .ok text) ↔ Printable str value := by
  unfold strOr Printable
  split
  · rename_i truthy
    rw [imp_iff_right truthy]
  · rename_i falsy
    simp [falsy]

theorem escapes_toFloat : Escapes (toFloat value) ↔ Huge value := by
  unfold toFloat Huge
  split
  · rename_i none
    simp [none]
  · rename_i float
    simp [float]
  · rename_i n int
    split
    · rename_i negative large
      simp [int, large, PyError.isValueError]
    · rename_i small
      simpa [int] using small

theorem caught_toFloat (value : PyJson) : Caught (toFloat value) := by
  intro e raised
  unfold toFloat at raised
  split at raised
  · contradiction
  · contradiction
  · split at raised
    · obtain rfl := Except.error.inj raised
      rfl
    · contradiction

theorem escapes_toInt : Escapes (toInt value) ↔ Infinite value := by
  unfold toInt Infinite
  split <;> rename_i number <;> simp [number, PyError.isValueError]

theorem exists_toInt : (∃ n, toInt value = .ok n) ↔ ¬ Infinite value ∧ ¬ NotANumber value := by
  unfold toInt Infinite NotANumber
  split <;> rename_i number <;> simp [number]

theorem not_escapes_ofValue (value : String) : ¬ Escapes (EnumSemanticEntityType.ofValue value) := by
  unfold EnumSemanticEntityType.ofValue
  split
  · exact not_escapes_ok
  · simp [PyError.isValueError]

theorem not_escapes_make (kind : EnumSemanticEntityType) (text : String) (confidence : ℚ)
    (spanStart spanEnd : Int) :
    ¬ Escapes (ModelSemanticEntity.make kind text confidence spanStart spanEnd) := by
  rw [ModelSemanticEntity.make]
  split
  · exact not_escapes_ok
  · simp [PyError.isValueError]

theorem escapes_entityType :
    Escapes (entityType lower str data) ↔ Unprintable str (data.get "type" (.str "misc")) := by
  rw [entityType, escapes_exceptValueError, escapes_bind, escapes_strOr]
  simp only [not_escapes_ofValue, and_false, exists_false, or_false, Unprintable, escapes_map]

theorem exists_entityType : (∃ kind, entityType lower str data = .ok kind) ↔
    ¬ Unprintable str (data.get "type" (.str "misc")) := by
  have escapes : Escapes (entityType lower str data) ↔ _ := escapes_entityType
  rw [← escapes]
  exact caught_exceptValueError.exists_ok_iff

theorem escapes_buildEntity {kind : EnumSemanticEntityType} :
    Escapes (buildEntity str data kind) ↔ Unprintable str (data.get "text" (.str "")) ∨
      Printable str (data.get "text" (.str "")) ∧
        (Huge (data.get "confidence" (.float (.ofRat (4 / 5)))) ∨
          Infinite (data.get "start" (.int 0)) ∨
          ¬ NotANumber (data.get "start" (.int 0)) ∧ Infinite (data.get "end" (.int 0))) := by
  have confident := (caught_toFloat (data.get "confidence" (.float (.ofRat (4 / 5))))).exists_ok_iff
  rw [escapes_toFloat] at confident
  simp only [buildEntity, escapes_bind, not_escapes_make, and_false, exists_false, or_false,
    exists_and_right, escapes_strOr, exists_strOr, escapes_toFloat, confident, escapes_toInt,
    exists_toInt]
  tauto

/-- A `dict` ends the parsing exactly if it is malformed. -/
theorem exists_parseItem_dict :
    (∃ entities, parseItem lower str (.dict data) = .ok entities) ↔ ¬ Malformed str data := by
  have caught : Caught (parseItem lower str (.dict data)) :=
    caught_exceptValueError.bind fun _ => caught_exceptValueError
  rw [caught.exists_ok_iff, not_iff_not, parseItem, escapes_bind, escapes_entityType]
  simp only [escapes_exceptValueError, escapes_map, escapes_buildEntity, exists_and_right,
    exists_entityType, Malformed]
  tauto

theorem exists_parseItem {item : PyJson} : (∃ entities, parseItem lower str item = .ok entities) ↔
    ∀ data, item = .dict data → ¬ Malformed str data := by
  cases item with
  | dict data =>
    rw [exists_parseItem_dict]
    simp
  | _ => exact iff_of_true ⟨[], rfl⟩ (by simp)

end Items

/-! ### The response -/

section Response

variable (lower : String → String) (str : PyJson → Except PyError String)

/-- The entities of a response with one item. -/
def entitiesOf (item : PyJson) : List ModelSemanticEntity :=
  (parseLlmEntityResponse lower str [("entities", .list [item])]).toOption.getD []

/-- The entities are valid, and are those that each item gives alone. -/
structure Robust (response : EntityData) (entities : List ModelSemanticEntity) : Prop where
  returns : parseLlmEntityResponse lower str response = .ok entities
  valid : ∀ e ∈ entities, (0 ≤ e.confidence.1 ∧ e.confidence.1 ≤ 1) ∧
    0 ≤ e.spanStart ∧ e.spanStart < e.spanEnd ∧ e.spanEnd - e.spanStart = e.text.length
  each : entities = (rawEntities response).flatMap (entitiesOf lower str)

variable {lower str} {item : PyJson} {items : List PyJson} {entities : List ModelSemanticEntity}

theorem parseItems_cons : parseItems lower str (item :: items) = .ok entities ↔
    ∃ first rest, parseItem lower str item = .ok first ∧ parseItems lower str items = .ok rest ∧
      first ++ rest = entities := by
  rw [parseItems]
  cases parseItem lower str item with
  | error e => simp [Bind.bind, Except.bind]
  | ok first =>
    cases parseItems lower str items with
    | error e => simp [Bind.bind, Except.bind]
    | ok rest => simp [Bind.bind, Except.bind, pure, Except.pure]

theorem entitiesOf_eq {first : List ModelSemanticEntity} (parsed : parseItem lower str item = .ok first) :
    entitiesOf lower str item = first := by
  have alone : parseLlmEntityResponse lower str [("entities", .list [item])] = .ok (first ++ []) :=
    parseItems_cons.mpr ⟨first, [], parsed, rfl, rfl⟩
  rw [entitiesOf, alone, List.append_nil]
  rfl

/-- What is returned are the entities of each item. -/
theorem flatMap_entitiesOf (returns : parseItems lower str items = .ok entities) :
    entities = items.flatMap (entitiesOf lower str) := by
  induction items generalizing entities with
  | nil => exact (Except.ok.inj returns).symm
  | cons item items ih =>
    obtain ⟨first, rest, parsed, later, rfl⟩ := parseItems_cons.mp returns
    rw [List.flatMap_cons, entitiesOf_eq parsed, ← ih later]

/-- All items are parsed exactly if none is a malformed `dict`. -/
theorem exists_parseItems : (∃ entities, parseItems lower str items = .ok entities) ↔
    ∀ data, .dict data ∈ items → ¬ Malformed str data := by
  induction items with
  | nil => exact iff_of_true ⟨[], rfl⟩ (by simp)
  | cons item items ih =>
    have split : (∃ entities, parseItems lower str (item :: items) = .ok entities) ↔
        (∃ first, parseItem lower str item = .ok first) ∧
          ∃ rest, parseItems lower str items = .ok rest := by
      simp only [parseItems_cons]
      constructor
      · intro ⟨_, first, rest, parsed, later, _⟩
        exact ⟨⟨first, parsed⟩, rest, later⟩
      · intro ⟨⟨first, parsed⟩, rest, later⟩
        exact ⟨_, first, rest, parsed, later, rfl⟩
    rw [split, ih, exists_parseItem]
    simp only [List.mem_cons]
    constructor
    · intro ⟨here, later⟩ data mem
      exact mem.elim (fun same => here data same.symm) (later data)
    · intro all
      exact ⟨fun data same => all data (.inl same.symm), fun data mem => all data (.inr mem)⟩

end Response

/-- The parsing of a response is robust exactly if no item of it is malformed. -/
theorem parseLlmEntityResponse_robust_iff (lower : String → String)
    (str : PyJson → Except PyError String) (response : EntityData) :
    (∃ entities, Robust lower str response entities) ↔
      ∀ data, .dict data ∈ rawEntities response → ¬ Malformed str data := by
  have parsed : (∃ entities, parseItems lower str (rawEntities response) = .ok entities) ↔ _ :=
    exists_parseItems
  rw [← parsed]
  constructor
  · intro ⟨entities, robust⟩
    exact ⟨entities, robust.returns⟩
  · intro ⟨entities, returns⟩
    refine ⟨entities, returns, fun e _ => ?_, flatMap_entitiesOf returns⟩
    exact ⟨e.confidence.2, e.spanStart_nonneg, e.span_ordering, e.span_length⟩

/-- An item with an infinite start, after one that is an entity. -/
theorem not_robust_infinite : ¬ ∀ (lower : String → String) (str : PyJson → Except PyError String)
    (response : EntityData), ∃ entities, Robust lower str response entities := by
  intro all
  let str : PyJson → Except PyError String
    | .str s => .ok s
    | _ => .ok ""
  obtain ⟨entities, robust⟩ := all id str
    [("entities", .list
      [.dict [("type", .str "person"), ("text", .str "Ada"), ("start", .int 0), ("end", .int 3)],
        .dict [("text", .str "x"), ("start", .float (.infinite false)), ("end", .int 1)]])]
  obtain ⟨first, rest, -, later, -⟩ := parseItems_cons.mp robust.returns
  obtain ⟨first, rest, parsed, -, -⟩ := parseItems_cons.mp later
  have overflow : parseItem id str
      (.dict [("text", .str "x"), ("start", .float (.infinite false)), ("end", .int 1)]) =
        .error (.other "OverflowError: cannot convert float infinity to integer") := by
    rfl
  rw [overflow] at parsed
  contradiction

end OmniMemory.Semantic
