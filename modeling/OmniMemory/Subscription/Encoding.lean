import OmniMemory.IsoFormat
import OmniMemory.Lib.Json
import OmniMemory.Subscription.Coherence

/-! How a subscription is written to the database and the cache and read from there: the parameters of
the INSERT, what the database and its driver make of them, and pydantic's JSON. A `dict` is equal to
another one with the same items in any order. -/

namespace OmniMemory

open Interleave
open Json hiding Value

/-! ### Hexadecimal digits -/

theorem hexValue_digitChar {d : Nat} (less : d < 16) : hexValue d.digitChar = some d := by
  have all : ∀ d < 16, hexValue d.digitChar = some d := by decide
  exact all d less

theorem hexNumber_hexDigits {width n : Nat} (less : n < 16 ^ width) :
    hexNumber (hexDigits width n) = some n := by
  induction width generalizing n with
  | zero =>
    obtain rfl : n = 0 := by simpa using less
    rfl
  | succ width ih =>
    have high := @ih (n / 16) (by omega)
    have digit := hexValue_digitChar (Nat.mod_lt n (show 0 < 16 by omega))
    unfold hexNumber at high ⊢
    rw [hexDigits_succ, List.foldlM_append, high]
    simp only [Option.bind_eq_bind, Option.bind_some, List.foldlM_cons, List.foldlM_nil, digit,
      Option.map_some, Option.pure_def]
    exact congrArg some (by omega)

/-- The UUID of a text that `str` makes. -/
def UUID.ofStr (s : String) : Option UUID := do
  let n ← hexNumber (s.toList.filter (· ≠ '-'))
  if UUID.str (BitVec.ofNat 128 n) = s then some (BitVec.ofNat 128 n) else none

@[simp] theorem UUID.ofStr_str (u : UUID) : UUID.ofStr (UUID.str u) = some u := by
  have number : hexNumber (hexDigits 32 u.toNat) = some u.toNat := hexNumber_hexDigits u.isLt
  rw [UUID.ofStr, UUID.filter_str, number]
  simp

namespace Subscription

/-! ### Texts -/

/-- A character in a text of `json.dumps`, which is ASCII. -/
def escapeChar (c : Char) : List Char :=
  if c = '"' then ['\\', '"']
  else if c = '\\' then ['\\', '\\']
  else if c = '\n' then ['\\', 'n']
  else if c = '\r' then ['\\', 'r']
  else if c = '\t' then ['\\', 't']
  else if c = '\x0c' then ['\\', 'f']
  else if c = '\x08' then ['\\', 'b']
  else if 0x20 ≤ c.toNat ∧ c.toNat ≤ 0x7e then [c]
  else if c.toNat < 0x10000 then '\\' :: 'u' :: hexDigits 4 c.toNat
  else
    '\\' :: 'u' :: (hexDigits 4 (0xd800 + (c.toNat - 0x10000) / 0x400) ++
      '\\' :: 'u' :: hexDigits 4 (0xdc00 + (c.toNat - 0x10000) % 0x400))

def quote (s : String) : List Char := '"' :: (s.toList.flatMap escapeChar ++ ['"'])

/-- An object with these names and texts of values, with `item` and `key` as separators. -/
def writeObject (item key : List Char) (members : List (String × List Char)) : List Char :=
  '{' :: (item.intercalate (members.map fun (k, text) => quote k ++ (key ++ text)) ++ ['}'])

/-- `json.dumps(metadata)`. -/
def dumps (metadata : Metadata) : String :=
  String.ofList (writeObject [',', ' '] [':', ' '] (metadata.rows.map fun (k, v) => (k, quote v)))

example : dumps ⟨[("a", "é\n"), ("b", "")], by decide⟩ =
    "\x7b\"a\": \"\\u00e9\\n\", \"b\": \"\"\x7d" := by decide +kernel

/-- The object that a `dict` is written as. -/
def jsonOf (metadata : Metadata) : Json.Value :=
  .object (metadata.rows.map fun (k, v) => (k, .string v))

/-- The `dict` of the members of an object; the last one of a name counts. -/
def dict {β : Type} (members : List (String × β)) : Table (Prod.fst : String × β → String) :=
  members.foldl Table.put Table.empty

def asString : Json.Value → Option String
  | .string s => some s
  | _ => none

/-- The `dict[str, str]` or `None` that a value is. -/
def asMetadata : Json.Value → Option (Option Metadata)
  | .null => some none
  | .object members => do
    let items ← (dict members).rows.mapM fun r => (asString r.2).map (r.1, ·)
    some (some (dict items))
  | _ => none

/-- `json.loads(text)`, and then the check of the model. -/
def loads (text : String) : Except PyError (Option Metadata) :=
  match Json.read text with
  | none => .error (.valueError "Expecting value")
  | some v =>
    match asMetadata v with
    | some metadata => .ok metadata
    | none => .error (.valueError "Input should be a valid dictionary")

/-! ### What the texts stand for -/

theorem spells_escapeChar {text s : List Char} (c : Char) (rest : Spells text s) :
    Spells (escapeChar c ++ text) (c :: s) := by
  unfold escapeChar
  -- Seven characters have an escape of their own.
  iterate 7
    split
    · rename_i same
      subst same
      exact .escape (by decide) rest
  split
  · rename_i quote backslash _ _ _ _ _ printed
    exact .plain quote backslash printed.1 rest
  split
  · rename_i short
    exact .unicode (length_hexDigits 4 _) (hexNumber_hexDigits short) rest
  · rename_i long
    have last : c.toNat < 0x110000 := by
      have valid := c.valid
      simp only [UInt32.isValidChar, Nat.isValidChar] at valid
      have : c.toNat = c.val.toNat := rfl
      omega
    rw [List.cons_append, List.cons_append, List.append_assoc]
    refine .pair (length_hexDigits 4 _) (hexNumber_hexDigits ?_) ?_ (length_hexDigits 4 _)
      (hexNumber_hexDigits ?_) ?_ ?_ rest
    · omega
    · omega
    · omega
    · omega
    · unfold surrogates
      omega

theorem spells_quote (s : List Char) : Spells (s.flatMap escapeChar) s := by
  induction s with
  | nil => exact .nil
  | cons c s ih => exact spells_escapeChar c ih

theorem renders_quote (s : String) : Renders (.value (.string s)) (quote s) :=
  .string (spells_quote s.toList)

theorem space_nil : Space [] := nofun

theorem space_blank : Space [' '] := List.forall_mem_singleton.mpr rfl

/-- A text of the members, with white space before it. -/
theorem renders_members {w w' w₀ : List Char} (space : Space w) (space' : Space w')
    {m : String × Json.Value × List Char} {ms : List (String × Json.Value × List Char)}
    (texts : ∀ m' ∈ m :: ms, Renders (.value m'.2.1) m'.2.2) (space₀ : Space w₀) :
    Renders (.members ((m :: ms).map fun m => (m.1, m.2.1)))
      (w₀ ++ (',' :: w).intercalate
        ((m :: ms).map fun m => quote m.1 ++ (':' :: w' ++ m.2.2))) := by
  induction ms generalizing m w₀ with
  | nil =>
    have only := Renders.lastMember space₀ (spells_quote m.1.toList) space_nil space'
      (texts m List.mem_cons_self) space_nil
    simpa [quote] using only
  | cons m' ms ih =>
    obtain ⟨first, others⟩ := List.forall_mem_cons.mp texts
    have more := Renders.member space₀ (spells_quote m.1.toList) space_nil space' first space_nil
      (ih others space)
    simpa [quote, List.intercalate_cons_cons] using more

theorem renders_writeObject {w w' : List Char} (space : Space w) (space' : Space w')
    {ms : List (String × Json.Value × List Char)}
    (texts : ∀ m ∈ ms, Renders (.value m.2.1) m.2.2) :
    Renders (.value (.object (ms.map fun m => (m.1, m.2.1))))
      (writeObject (',' :: w) (':' :: w') (ms.map fun m => (m.1, m.2.2))) := by
  unfold writeObject
  cases ms with
  | nil => exact .emptyObject space_nil
  | cons m ms =>
    have members := renders_members space space' texts space_nil
    rw [List.map_map]
    exact .object members

theorem renders_jsonOf {w w' : List Char} (space : Space w) (space' : Space w')
    (metadata : Metadata) : Renders (.value (jsonOf metadata))
      (writeObject (',' :: w) (':' :: w') (metadata.rows.map fun r => (r.1, quote r.2))) := by
  have texts : ∀ m ∈ metadata.rows.map fun r => (r.1, Json.Value.string r.2, quote r.2),
      Renders (.value m.2.1) m.2.2 := by
    rintro m mem
    obtain ⟨r, -, rfl⟩ := List.mem_map.mp mem
    exact renders_quote r.2
  have renders := renders_writeObject space space' texts
  rwa [List.map_map, List.map_map] at renders

theorem isText_dumps (metadata : Metadata) : IsText (jsonOf metadata) (dumps metadata) :=
  ⟨[], _, [], space_nil, renders_jsonOf space_blank space_blank metadata, space_nil,
    by simp [dumps]⟩

/-! ### Reading a `dict` -/

theorem rows_dict {β : Type} {members : List (String × β)}
    (distinct : (members.map Prod.fst).Nodup) : (dict members).rows = members :=
  Table.rows_foldl_put distinct

theorem dict_rows (metadata : Metadata) : dict metadata.rows = metadata := by
  have rows := rows_dict metadata.distinct
  generalize dict metadata.rows = table at rows
  obtain ⟨items, distinct⟩ := table
  subst rows
  rfl

theorem mapM_asString (items : List (String × String)) :
    (items.map fun r => (r.1, Json.Value.string r.2)).mapM
      (fun r => (asString r.2).map (r.1, ·)) = some items := by
  induction items with
  | nil => rfl
  | cons r items ih =>
    rw [List.map_cons, List.mapM_cons, ih]
    rfl

@[simp] theorem asMetadata_jsonOf (metadata : Metadata) :
    asMetadata (jsonOf metadata) = some (some metadata) := by
  have names : ((metadata.rows.map fun r => (r.1, Json.Value.string r.2)).map Prod.fst).Nodup := by
    rw [List.map_map]
    exact metadata.distinct
  simp only [jsonOf, asMetadata, rows_dict names, mapM_asString, dict_rows, Option.bind_eq_bind,
    Option.bind_some]

theorem loads_of_isText {metadata : Metadata} {text : String}
    (isText : IsText (jsonOf metadata) text) : loads text = .ok (some metadata) := by
  simp only [loads, read_eq isText, asMetadata_jsonOf]

end Subscription

end OmniMemory
