import OmniMemory.Lib.Automaton
import OmniMemory.Lib.Keyed
import OmniMemory.Strings

/-! The keyed collections. A call of a `set` method compares the key as it is passed with the keys
that are stored, which are stripped: it edits the first entry that has the key, or adds one. So the
entry of a key with white space around it is never found again. -/

namespace OmniMemory

open Sequential

namespace TypedCollections

/-- The white space of Unicode; `str.isspace` is true of the four separators below the blank, too. -/
def isWhiteSpace (c : Char) : Bool := isSpace c && !(0x1c ≤ c.toNat && c.toNat ≤ 0x1f)

/-- What `str_strip_whitespace` makes of a string. -/
def stripWhitespace (s : String) : String := String.ofList (Words.trim isWhiteSpace s.toList)

/-- The validator of keys and names, after the white space is stripped. -/
def validateKey (message key : String) : Except PyError String :=
  let v := stripWhitespace key
  if v = "" ∨ strip v = "" then .error (.valueError message) else .ok (strip v)

/-- A class of collections: what its entries are, what a new one is and how one is edited, and which
of its attributes an edit must leave when the caller does not pass them. -/
structure Collection (Row Args : Type) where
  key : Row → String
  value : Row → String
  passed : Args → String
  message : String
  create : String → Args → Row
  edit : Args → Row → Row
  /-- The attributes that are not passed are the same. -/
  Leaves : Args → Row → Row → Prop
  /-- The attributes that are not passed are the defaults of the method. -/
  Harmless : Args → Row → Prop
  key_create : ∀ k a, key (create k a) = k
  key_edit : ∀ a row, key (edit a row) = key row
  value_create : ∀ k a, value (create k a) = stripWhitespace (passed a)
  value_edit : ∀ a row, value (edit a row) = stripWhitespace (passed a)
  leaves_edit : ∀ a row, Leaves a row (edit a row) ↔ Harmless a row

namespace Collection

variable {Row Args : Type} (K : Collection Row Args)

/-- `get_value`, `get_field_value`, `get_option`. -/
def get (rows : List Row) (key : String) : Option String := (Keyed.find? K.key rows key).map K.value

/-- `set_value`, `set_field_value`, `set_option`. -/
def set (rows : List Row) (key : String) (args : Args) : Except PyError (List Row) :=
  match Keyed.find? K.key rows key with
  | some _ => .ok (Keyed.editFirst K.key key (K.edit args) rows)
  | none => (validateKey K.message key).map fun stored => rows ++ [K.create stored args]

/-- A collection as its calls come in. -/
def automaton : Automaton (String × Args) (Except PyError Unit) (List Row) where
  step rows call :=
    match K.set rows call.1 call.2 with
    | .ok rows => (.ok (), rows)
    | .error e => (.error e, rows)

/-- The entries after calls on an empty collection. -/
def after (calls : List (String × Args)) : List Row := K.automaton.run [] calls

end Collection

/-! ### The classes -/

structure ModelKeyValuePair where
  key : String
  value : String

/-- The `pairs` of a `ModelMetadata`. -/
abbrev ModelMetadata := List ModelKeyValuePair

def metadata : Collection ModelKeyValuePair String where
  key := (·.key)
  value := (·.value)
  passed value := value
  message := "key cannot be empty"
  create key value := ⟨key, stripWhitespace value⟩
  edit value pair := { pair with value := stripWhitespace value }
  Leaves _ _ _ := True
  Harmless _ _ := True
  key_create _ _ := rfl
  key_edit _ _ := rfl
  value_create _ _ := rfl
  value_edit _ _ := rfl
  leaves_edit _ _ := Iff.rfl

/-- `ModelMetadata.get_value`. -/
def ModelMetadata.getValue (self : ModelMetadata) (key : String) : Option String :=
  metadata.get self key

/-- `ModelMetadata.set_value`. -/
def ModelMetadata.setValue (self : ModelMetadata) (key value : String) :
    Except PyError ModelMetadata := metadata.set self key value

/-- `ModelMetadata.to_dict`: of pairs with one key the last value stays, in the first one's place. -/
def ModelMetadata.toDict (self : ModelMetadata) : List (String × String) :=
  self.foldl (fun dict pair => Keyed.put Prod.fst dict (pair.key, pair.value)) []

structure ModelStructuredField where
  name : String
  value : String
  fieldType : String
deriving DecidableEq

/-- The arguments of `set_field_value` after the name; a field type that is not passed is `none`. -/
structure FieldArgs where
  value : String
  fieldType : Option String := none

def structuredData : Collection ModelStructuredField FieldArgs where
  key := (·.name)
  value := (·.value)
  passed := (·.value)
  message := "name cannot be empty"
  create name args :=
    ⟨name, stripWhitespace args.value, stripWhitespace (args.fieldType.getD "string")⟩
  edit args field :=
    { field with
      value := stripWhitespace args.value
      fieldType := stripWhitespace (args.fieldType.getD "string") }
  Leaves args field field' := args.fieldType = none → field'.fieldType = field.fieldType
  Harmless args field := args.fieldType = none → field.fieldType = "string"
  key_create _ _ := rfl
  key_edit _ _ := rfl
  value_create _ _ := rfl
  value_edit _ _ := rfl
  leaves_edit args field := by
    refine forall_congr' fun absent => ?_
    have same : stripWhitespace "string" = "string" := by decide +kernel
    rw [absent, Option.getD_none, same, eq_comm]

structure ModelConfigurationOption where
  key : String
  value : String
  description : Option String
  isSensitive : Bool
deriving DecidableEq

/-- The arguments of `set_option` after the key; those that are not passed are `none`. -/
structure OptionArgs where
  value : String
  description : Option String := none
  isSensitive : Option Bool := none

def configuration : Collection ModelConfigurationOption OptionArgs where
  key := (·.key)
  value := (·.value)
  passed := (·.value)
  message := "key cannot be empty"
  create key args :=
    ⟨key, stripWhitespace args.value, args.description.map stripWhitespace,
      args.isSensitive.getD false⟩
  edit args option :=
    { option with
      value := stripWhitespace args.value
      description := (args.description.map stripWhitespace).or option.description
      isSensitive := args.isSensitive.getD false }
  Leaves args option option' :=
    (args.description = none → option'.description = option.description) ∧
      (args.isSensitive = none → option'.isSensitive = option.isSensitive)
  Harmless args option := args.isSensitive = none → option.isSensitive = false
  key_create _ _ := rfl
  key_edit _ _ := rfl
  value_create _ _ := rfl
  value_edit _ _ := rfl
  leaves_edit args option := by
    have description : args.description = none →
        (args.description.map stripWhitespace).or option.description = option.description := by
      intro absent
      rw [absent, Option.map_none, Option.none_or]
    refine (and_iff_right description).trans (forall_congr' fun absent => ?_)
    rw [absent, Option.getD_none, eq_comm]

/-! ### Stored keys -/

/-- A string without white space around it is stored as it is. -/
theorem stripWhitespace_of_strip {s : String} (stripped : strip s = s) : stripWhitespace s = s := by
  obtain ⟨first, last⟩ := strip_eq_self.mp stripped
  have kept : Words.trim isWhiteSpace s.toList = s.toList :=
    Words.trim_eq_self.mpr ⟨fun c mem => by rw [isWhiteSpace, first c mem, Bool.false_and],
      fun c mem => by rw [isWhiteSpace, last c mem, Bool.false_and]⟩
  rw [stripWhitespace, kept, String.ofList_toList]

theorem strip_of_validateKey {message key stored : String}
    (valid : validateKey message key = .ok stored) : strip stored = stored := by
  unfold validateKey at valid
  dsimp only at valid
  split at valid
  · contradiction
  · rw [← Except.ok.inj valid, strip_strip]

/-- A key that is not blank and has no white space around it is valid as it is. -/
theorem validateKey_of_strip {message key : String} (named : isBlank key = false)
    (stripped : strip key = key) : validateKey message key = .ok key := by
  have some_ : key ≠ "" := by
    rintro rfl
    cases named
  unfold validateKey
  dsimp only
  rw [stripWhitespace_of_strip stripped, stripped, if_neg (by simpa using some_)]

namespace Collection

variable {Row Args : Type} {K : Collection Row Args} {rows : List Row} {row : Row} {key key' : String}
  {args : Args} {calls before : List (String × Args)} {call : String × Args}

theorem set_of_find (found : Keyed.find? K.key rows key = some row) :
    K.set rows key args = .ok (Keyed.editFirst K.key key (K.edit args) rows) := by
  rw [set, found]

theorem set_of_absent (absent : Keyed.find? K.key rows key = none) :
    K.set rows key args =
      (validateKey K.message key).map fun stored => rows ++ [K.create stored args] := by
  rw [set, absent]

theorem after_concat : K.after (calls ++ [call]) = (K.automaton.step (K.after calls) call).2 :=
  Automaton.run_concat

theorem after_of_find (found : Keyed.find? K.key (K.after calls) key = some row) :
    K.after (calls ++ [(key, args)]) =
      Keyed.editFirst K.key key (K.edit args) (K.after calls) := by
  rw [after_concat, automaton]
  dsimp only
  rw [set_of_find found]

/-- No stored key has white space around it. -/
theorem strip_key (mem : row ∈ K.after calls) : strip (K.key row) = K.key row := by
  suffices all : ∀ k ∈ (K.after calls).map K.key, strip k = k from
    all _ (List.mem_map_of_mem mem)
  clear mem
  induction calls using List.reverseRecOn with
  | nil => simp [after]
  | append_singleton calls call ih =>
    obtain ⟨key, args⟩ := call
    cases found : Keyed.find? K.key (K.after calls) key with
    | some row => rwa [after_of_find found, Keyed.map_editFirst (K.key_edit args)]
    | none =>
      rw [after_concat, automaton]
      dsimp only
      rw [set_of_absent found]
      cases valid : validateKey K.message key with
      | error e => exact ih
      | ok stored =>
        intro k mem
        simp only [Except.map, List.map_append, List.map_singleton, K.key_create] at mem
        rcases List.mem_append.mp mem with mem | mem
        · exact ih k mem
        · rw [List.mem_singleton.mp mem, strip_of_validateKey valid]

/-- The arguments that a key, as it is written, was last set with. -/
def lastArgs (calls : List (String × Args)) (key : String) : Option Args :=
  (calls.reverse.find? fun call => call.1 = key).map Prod.snd

theorem lastArgs_concat : lastArgs (calls ++ [(key, args)]) key' =
    if key' = key then some args else lastArgs calls key' := by
  rw [lastArgs, List.reverse_append, List.reverse_singleton, List.singleton_append]
  split
  · rename_i same
    rw [List.find?_cons_of_pos (by simpa using same.symm), Option.map_some]
  · rename_i other
    rw [List.find?_cons_of_neg (by simpa using Ne.symm other), lastArgs]

/-- A collection is a map along calls: its keys are distinct, a key gets the value it was last set
with, and setting a key that is there leaves what was not passed, and all other keys. -/
structure IsMap (K : Collection Row Args) (calls : List (String × Args)) : Prop where
  distinct : ∀ before, before <+: calls → ((K.after before).map K.key).Nodup
  get : ∀ before key args, before <+: calls → lastArgs before key = some args →
    K.get (K.after before) key = some (stripWhitespace (K.passed args))
  leaves : ∀ before key args row, before ++ [(key, args)] <+: calls →
    Keyed.find? K.key (K.after before) key = some row →
      ∃ row', Keyed.find? K.key (K.after (before ++ [(key, args)])) key = some row' ∧
        K.Leaves args row row'
  others : ∀ before key args key', before ++ [(key, args)] <+: calls → key' ≠ key →
    Keyed.find? K.key (K.after (before ++ [(key, args)])) key' =
      Keyed.find? K.key (K.after before) key'

/-- A call has a key without white space around it, and what it does not pass of an entry that is
there is the default. -/
def Plain (K : Collection Row Args) (rows : List Row) (call : String × Args) : Prop :=
  strip call.1 = call.1 ∧
    ∀ row, Keyed.find? K.key rows call.1 = some row → K.Harmless call.2 row

/-- A plain call with a key that is not blank, for which there is no entry, adds one for it. -/
theorem after_of_absent (named : isBlank key = false) (stripped : strip key = key)
    (absent : Keyed.find? K.key (K.after calls) key = none) :
    K.after (calls ++ [(key, args)]) = K.after calls ++ [K.create key args] := by
  rw [after_concat, automaton]
  dsimp only
  rw [set_of_absent absent, validateKey_of_strip named stripped]
  rfl

/-- What is found after a plain call. -/
theorem find?_after (named : isBlank key = false) (stripped : strip key = key) :
    Keyed.find? K.key (K.after (calls ++ [(key, args)])) key' =
      if key' = key then
        some (((Keyed.find? K.key (K.after calls) key).map (K.edit args)).getD (K.create key args))
      else Keyed.find? K.key (K.after calls) key' := by
  cases found : Keyed.find? K.key (K.after calls) key with
  | some row =>
    rw [after_of_find found, Keyed.find?_editFirst (K.key_edit args), found]
    rfl
  | none =>
    rw [after_of_absent named stripped found, Keyed.find?_append, K.key_create]
    by_cases same : key' = key
    · subst same
      rw [found, if_pos rfl, if_pos rfl]
      rfl
    · rw [if_neg same, if_neg (Ne.symm same), Option.or_none]

theorem distinct_after (named : isBlank key = false) (stripped : strip key = key)
    (distinct : ((K.after calls).map K.key).Nodup) :
    ((K.after (calls ++ [(key, args)])).map K.key).Nodup := by
  cases found : Keyed.find? K.key (K.after calls) key with
  | some row => rwa [after_of_find found, Keyed.map_editFirst (K.key_edit args)]
  | none =>
    rw [after_of_absent named stripped found, List.map_append, List.map_singleton, K.key_create]
    refine distinct.append (List.nodup_singleton _) fun k mem here => ?_
    obtain rfl := List.mem_singleton.mp here
    exact Keyed.find?_eq_none.mp found mem

/-- Along plain calls the keys stay distinct, and a key gets the value it was last set with. -/
theorem stored_of_plain (named : ∀ call ∈ calls, isBlank call.1 = false)
    (plain : ∀ call ∈ calls, strip call.1 = call.1) :
    ((K.after calls).map K.key).Nodup ∧ ∀ key args, lastArgs calls key = some args →
      K.get (K.after calls) key = some (stripWhitespace (K.passed args)) := by
  induction calls using List.reverseRecOn with
  | nil => exact ⟨List.nodup_nil, fun key args last => by cases last⟩
  | append_singleton calls call ih =>
    obtain ⟨key, args⟩ := call
    have named_ : isBlank key = false := named (key, args) (by simp)
    have stripped : strip key = key := plain (key, args) (by simp)
    obtain ⟨distinct, found⟩ := ih (fun call mem => named call (by simp [mem]))
      fun call mem => plain call (by simp [mem])
    refine ⟨distinct_after named_ stripped distinct, fun key' args' last => ?_⟩
    rw [lastArgs_concat] at last
    rw [get, find?_after named_ stripped]
    split at last
    · rename_i same
      cases last
      rw [if_pos same, Option.map_some]
      cases Keyed.find? K.key (K.after calls) key with
      | some row => rw [Option.map_some, Option.getD_some, K.value_edit]
      | none => rw [Option.map_none, Option.getD_none, K.value_create]
    · rename_i other
      rw [if_neg other]
      exact found key' args' last

/-- A collection is a map along calls just when the calls are plain. -/
theorem isMap_iff (named : ∀ call ∈ calls, isBlank call.1 = false) :
    K.IsMap calls ↔ K.automaton.Meets K.Plain [] calls := by
  rw [Automaton.meets_iff_forall_prefix]
  have earlier {before call} (initial : before ++ [call] <+: calls) :
      isBlank (call : String × Args).1 = false :=
    named call (initial.subset (by simp))
  constructor
  · rintro law before ⟨key, args⟩ initial
    constructor
    · have last : lastArgs (before ++ [(key, args)]) key = some args := by
        rw [lastArgs_concat, if_pos rfl]
      obtain ⟨row, found, -⟩ := Option.map_eq_some_iff.mp (law.get _ key args initial last)
      have stored := strip_key (List.mem_of_find?_eq_some found)
      rwa [Keyed.key_of_find? found] at stored
    · intro row found
      obtain ⟨row', edited, leaves⟩ := law.leaves before key args row initial found
      rw [after_of_find found, Keyed.find?_editFirst (K.key_edit args), if_pos rfl,
        show Keyed.find? K.key (K.after before) key = some row from found, Option.map_some] at edited
      cases edited
      exact (K.leaves_edit args row).mp leaves
  · intro plain
    have stripped {before} (initial : before <+: calls) :
        ∀ call ∈ before, strip (call : String × Args).1 = call.1 := by
      intro call mem
      obtain ⟨front, rest, rfl⟩ := List.append_of_mem mem
      have short : front ++ [call] <+: front ++ call :: rest := ⟨rest, by simp⟩
      exact (plain front call (short.trans initial)).1
    have stored {before} (initial : before <+: calls) :=
      stored_of_plain (K := K) (fun call mem => named call (initial.subset mem)) (stripped initial)
    refine ⟨fun before initial => (stored initial).1, fun before key args initial =>
      (stored initial).2 key args, fun before key args row initial found => ?_,
      fun before key args key' initial other => ?_⟩
    · refine ⟨K.edit args row, ?_, (K.leaves_edit args row).mpr ((plain _ _ initial).2 row found)⟩
      rw [after_of_find found, Keyed.find?_editFirst (K.key_edit args), if_pos rfl, found,
        Option.map_some]
    · rw [find?_after (earlier initial) (plain _ _ initial).1, if_neg other]

end Collection

open Collection

/-- The three collections are maps along calls, and `to_dict` has what `get_value` gets. -/
structure AreMaps (m : List (String × String)) (d : List (String × FieldArgs))
    (c : List (String × OptionArgs)) : Prop where
  metadata : metadata.IsMap m
  toDict : ∀ before, before <+: m → ∀ key,
    (Keyed.find? Prod.fst (ModelMetadata.toDict (TypedCollections.metadata.after before)) key).map
      Prod.snd = ModelMetadata.getValue (TypedCollections.metadata.after before) key
  structuredData : structuredData.IsMap d
  configuration : configuration.IsMap c

/-- With distinct keys, `to_dict` has the pairs. -/
theorem toDict_eq {pairs : ModelMetadata} (distinct : (pairs.map (·.key)).Nodup) :
    pairs.toDict = pairs.map fun pair => (pair.key, pair.value) := by
  have dict := @Keyed.foldl_put _ _ Prod.fst _ (pairs.map fun pair => (pair.key, pair.value))
    (by rwa [List.map_map])
  rw [List.foldl_map] at dict
  exact dict

theorem areMaps_iff (m : List (String × String)) (d : List (String × FieldArgs))
    (c : List (String × OptionArgs)) (hm : ∀ call ∈ m, isBlank call.1 = false)
    (hd : ∀ call ∈ d, isBlank call.1 = false) (hc : ∀ call ∈ c, isBlank call.1 = false) :
    AreMaps m d c ↔ metadata.automaton.Meets metadata.Plain [] m ∧
      structuredData.automaton.Meets structuredData.Plain [] d ∧
      configuration.automaton.Meets configuration.Plain [] c := by
  constructor
  · intro law
    exact ⟨(isMap_iff hm).mp law.metadata, (isMap_iff hd).mp law.structuredData,
      (isMap_iff hc).mp law.configuration⟩
  · rintro ⟨plain, plainData, plainOptions⟩
    have law := (isMap_iff hm).mpr plain
    refine ⟨law, fun before initial key => ?_, (isMap_iff hd).mpr plainData,
      (isMap_iff hc).mpr plainOptions⟩
    rw [toDict_eq (law.distinct before initial), Keyed.find?, List.find?_map, Option.map_map]
    rfl

theorem areMaps_updated : AreMaps [("a", "1"), ("a", "2")]
    [("size", { value := "1" }), ("size", { value := "2" })]
    [("token", { value := "x", isSensitive := some true }),
      ("token", { value := "y", isSensitive := some true })] := by
  refine (areMaps_iff _ _ _ (by decide +kernel) (by decide +kernel) (by decide +kernel)).mpr
    ⟨⟨⟨by decide +kernel, fun _ _ => trivial⟩, ⟨by decide +kernel, fun _ _ => trivial⟩, trivial⟩,
      ⟨⟨by decide +kernel, fun row found => by cases found⟩,
        ⟨by decide +kernel, fun row found _ => ?_⟩, trivial⟩,
      ⟨⟨by decide +kernel, fun row found => by cases found⟩,
        ⟨by decide +kernel, fun _ _ absent => by cases absent⟩, trivial⟩⟩
  have stored : Keyed.find? structuredData.key (structuredData.after [("size", { value := "1" })])
      "size" = some ⟨"size", "1", "string"⟩ := by decide +kernel
  rw [← Option.some.inj (stored.symm.trans found)]

/-- A value that is set again without a word about its sensitivity is no longer sensitive. -/
theorem not_areMaps_sensitive : ¬ ∀ m d c, (∀ call ∈ m, isBlank (call : String × String).1 = false) →
    (∀ call ∈ d, isBlank (call : String × FieldArgs).1 = false) →
      (∀ call ∈ c, isBlank (call : String × OptionArgs).1 = false) → AreMaps m d c := by
  intro all
  let c : List (String × OptionArgs) :=
    [("token", { value := "x", isSensitive := some true }), ("token", { value := "y" })]
  have named : ∀ call ∈ c, isBlank call.1 = false := by decide +kernel
  have plain := (isMap_iff named).mp (all [] [] c (by simp) (by simp) named).configuration
  have harmless := plain.2.1.2 ⟨"token", "x", none, true⟩ (by decide +kernel) rfl
  cases harmless

end TypedCollections

end OmniMemory
