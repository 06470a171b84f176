import OmniMemory.Sanitizer.Patterns

/-! `sanitize_dict`: the values under sensitive keys are replaced, dictionaries are gone through, and
all other values are copied, lists too with what is in them. -/

namespace OmniMemory

open Regular

namespace Sanitizer

/-- The values of data: texts, other scalars, lists, and dictionaries as their items. -/
inductive Data (Scalar : Type) where
  | str (text : Text)
  | scalar (value : Scalar)
  | list (items : List (Data Scalar))
  | dict (items : List (Text × Data Scalar))

def defaultKeys : List Text :=
  ["password", "secret", "token", "key", "auth", "credential", "api_key", "access_key",
   "private_key", "session_id"].map (·.toList)

section Sanitize

variable {Scalar : Type} (A : Alphabet) (lower : Text → Text) (keysToSanitize : List Text)

/-- `any(sensitive in key.lower() for sensitive in keys_to_sanitize)`. -/
def isMasked (key : Text) : Bool := keysToSanitize.any fun word => decide (word <:+: lower key)

mutual

def sanitizeValue : Data Scalar → Data Scalar
  | .dict items => .dict (sanitizeItems items)
  | .str text => .str (applyPatterns A text)
  | .list items => .list items
  | .scalar value => .scalar value

/-- The loop over `data.items()`. -/
def sanitizeItems : List (Text × Data Scalar) → List (Text × Data Scalar)
  | [] => []
  | (key, value) :: rest =>
    (key, if isMasked lower keysToSanitize key then .str "[REDACTED]".toList
      else sanitizeValue value) :: sanitizeItems rest

end

/-- `sanitize_dict`. -/
def sanitizeDict (data : List (Text × Data Scalar)) (keys : Option (List Text)) :
    List (Text × Data Scalar) :=
  sanitizeItems A lower (keys.getD defaultKeys) data

end Sanitize

section Hidden

variable {Scalar : Type} (A : Alphabet) (lower : Text → Text) (keysToSanitize : List Text)

/-- A key contains a sensitive word, when case is ignored. -/
def IsSensitive (key : Text) : Prop := ∃ word ∈ keysToSanitize, lower word <:+: lower key

mutual

/-- Two values differ under sensitive keys only, at any depth. -/
inductive Alike : Data Scalar → Data Scalar → Prop where
  | str (text : Text) : Alike (.str text) (.str text)
  | scalar (value : Scalar) : Alike (.scalar value) (.scalar value)
  | list {xs ys : List (Data Scalar)} (all : AllAlike xs ys) : Alike (.list xs) (.list ys)
  | dict {xs ys : List (Text × Data Scalar)} (items : ItemsAlike xs ys) :
    Alike (.dict xs) (.dict ys)

inductive AllAlike : List (Data Scalar) → List (Data Scalar) → Prop where
  | nil : AllAlike [] []
  | cons {x y : Data Scalar} {xs ys : List (Data Scalar)} (first : Alike x y)
      (rest : AllAlike xs ys) : AllAlike (x :: xs) (y :: ys)

inductive ItemsAlike : List (Text × Data Scalar) → List (Text × Data Scalar) → Prop where
  | nil : ItemsAlike [] []
  | sensitive {key : Text} {v w : Data Scalar} {xs ys : List (Text × Data Scalar)}
      (sensitive : IsSensitive lower keysToSanitize key) (rest : ItemsAlike xs ys) :
      ItemsAlike ((key, v) :: xs) ((key, w) :: ys)
  | cons {key : Text} {v w : Data Scalar} {xs ys : List (Text × Data Scalar)}
      (first : Alike v w) (rest : ItemsAlike xs ys) :
      ItemsAlike ((key, v) :: xs) ((key, w) :: ys)

end

mutual

/-- Two values differ under keys that are masked only, which are reached through dictionaries, or in
texts that the patterns make the same. -/
inductive Hidden : Data Scalar → Data Scalar → Prop where
  | str {t u : Text} (same : applyPatterns A t = applyPatterns A u) : Hidden (.str t) (.str u)
  | scalar (value : Scalar) : Hidden (.scalar value) (.scalar value)
  | list (items : List (Data Scalar)) : Hidden (.list items) (.list items)
  | dict {xs ys : List (Text × Data Scalar)} (items : ItemsHidden xs ys) :
    Hidden (.dict xs) (.dict ys)

inductive ItemsHidden : List (Text × Data Scalar) → List (Text × Data Scalar) → Prop where
  | nil : ItemsHidden [] []
  | masked {key : Text} {v w : Data Scalar} {xs ys : List (Text × Data Scalar)}
      (masked : isMasked lower keysToSanitize key = true) (rest : ItemsHidden xs ys) :
      ItemsHidden ((key, v) :: xs) ((key, w) :: ys)
  | cons {key : Text} {v w : Data Scalar} {xs ys : List (Text × Data Scalar)}
      (first : Hidden v w) (rest : ItemsHidden xs ys) :
      ItemsHidden ((key, v) :: xs) ((key, w) :: ys)

end

variable {A lower keysToSanitize}

mutual

theorem Hidden.same {v w : Data Scalar} (hidden : Hidden A lower keysToSanitize v w) :
    sanitizeValue A lower keysToSanitize v = sanitizeValue A lower keysToSanitize w := by
  cases hidden with
  | str same => rw [sanitizeValue, sanitizeValue, same]
  | scalar value => rfl
  | list items => rfl
  | dict items => rw [sanitizeValue, sanitizeValue, items.same]

theorem ItemsHidden.same {xs ys : List (Text × Data Scalar)}
    (hidden : ItemsHidden A lower keysToSanitize xs ys) :
    sanitizeItems A lower keysToSanitize xs = sanitizeItems A lower keysToSanitize ys := by
  cases hidden with
  | nil => rfl
  | masked masked rest => rw [sanitizeItems, sanitizeItems, if_pos masked, if_pos masked, rest.same]
  | cons first rest => rw [sanitizeItems, sanitizeItems, first.same, rest.same]

end

mutual

theorem hidden_of_same : (v w : Data Scalar) →
    sanitizeValue A lower keysToSanitize v = sanitizeValue A lower keysToSanitize w →
      Hidden A lower keysToSanitize v w
  | .str t, w, same => by
    cases w <;> simp only [sanitizeValue, reduceCtorEq, Data.str.injEq] at same
    exact .str same
  | .scalar x, w, same => by
    cases w <;> simp only [sanitizeValue, reduceCtorEq, Data.scalar.injEq] at same
    exact same ▸ .scalar x
  | .list xs, w, same => by
    cases w <;> simp only [sanitizeValue, reduceCtorEq, Data.list.injEq] at same
    exact same ▸ .list xs
  | .dict xs, w, same => by
    cases w <;> simp only [sanitizeValue, reduceCtorEq, Data.dict.injEq] at same
    exact .dict (itemsHidden_of_same xs _ same)

theorem itemsHidden_of_same : (xs ys : List (Text × Data Scalar)) →
    sanitizeItems A lower keysToSanitize xs = sanitizeItems A lower keysToSanitize ys →
      ItemsHidden A lower keysToSanitize xs ys
  | [], ys, same => by
    cases ys with
    | nil => exact .nil
    | cons y ys => simp only [sanitizeItems, reduceCtorEq] at same
  | (key, v) :: xs, ys, same => by
    cases ys with
    | nil => simp only [sanitizeItems, reduceCtorEq] at same
    | cons y ys =>
      obtain ⟨key', w⟩ := y
      rw [sanitizeItems, sanitizeItems] at same
      obtain ⟨first, rest⟩ := List.cons.inj same
      obtain ⟨rfl, value⟩ := Prod.mk.inj first
      by_cases masked : isMasked lower keysToSanitize key = true
      · exact .masked masked (itemsHidden_of_same xs ys rest)
      · rw [if_neg masked, if_neg masked] at value
        exact .cons (hidden_of_same v w value) (itemsHidden_of_same xs ys rest)

end

end Hidden

/-- The results for two dictionaries are equal exactly when what they differ in is hidden. -/
theorem sanitizeDict_iff {Scalar : Type} (A : Alphabet) (lower : Text → Text)
    (keys : Option (List Text)) (xs ys : List (Text × Data Scalar)) :
    sanitizeDict A lower xs keys = sanitizeDict A lower ys keys ↔
      ItemsHidden A lower (keys.getD defaultKeys) xs ys :=
  ⟨itemsHidden_of_same xs ys, ItemsHidden.same⟩

/-- A list of one dictionary with a password. -/
def accounts (password : Text) : List (Text × Data Unit) :=
  [("accounts".toList, .list [.dict [("password".toList, .str password)]])]

/-- A password in a list is copied. -/
theorem not_hidden_accounts : ¬ ∀ (A : Alphabet) (lower : Text → Text) (keys : Option (List Text))
    (xs ys : List (Text × Data Unit)), ItemsAlike lower (keys.getD defaultKeys) xs ys →
      sanitizeDict A lower xs keys = sanitizeDict A lower ys keys := by
  intro holds
  have password : IsSensitive id defaultKeys "password".toList :=
    ⟨"password".toList, by simp [defaultKeys], List.infix_rfl⟩
  have alike : ItemsAlike id defaultKeys (accounts ['a']) (accounts ['b']) :=
    .cons (.list (.cons (.dict (.sensitive password .nil)) .nil)) .nil
  have same := holds .ascii id none _ _ alike
  cases (itemsHidden_of_same _ _ same) with
  | masked masked rest => exact absurd masked (by decide +kernel)
  | cons first rest => cases first

end Sanitizer

end OmniMemory
