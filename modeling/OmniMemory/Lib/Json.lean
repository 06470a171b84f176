import Mathlib.Data.List.DropRight

/-! JSON: the texts that stand for a value, with any white space and any escapes, and a reader, which
finds the value of every such text. A number is kept as it is written. -/

namespace Json

inductive Value where
  | null
  | bool (b : Bool)
  | number (token : List Char)
  | string (s : String)
  | array (items : List Value)
  | object (members : List (String × Value))

/-! ### Characters -/

def isSpace (c : Char) : Bool := c == ' ' || c == '\t' || c == '\n' || c == '\r'

def skip (l : List Char) : List Char := l.dropWhile isSpace

/-- The characters after a backslash that stand for one character. -/
def escapes : List (Char × Char) :=
  [('"', '"'), ('\\', '\\'), ('/', '/'), ('b', '\x08'), ('f', '\x0c'), ('n', '\n'), ('r', '\r'),
    ('t', '\t')]

def hexValue (c : Char) : Option Nat :=
  if '0' ≤ c ∧ c ≤ '9' then some (c.toNat - 48)
  else if 'a' ≤ c ∧ c ≤ 'f' then some (c.toNat - 87)
  else if 'A' ≤ c ∧ c ≤ 'F' then some (c.toNat - 55)
  else none

def hexNumber (digits : List Char) : Option Nat :=
  digits.foldlM (fun n c => (hexValue c).map (16 * n + ·)) 0

/-- The code point of two surrogates. -/
def surrogates (high low : Nat) : Nat := 0x10000 + (high - 0xd800) * 0x400 + (low - 0xdc00)

/-! ### Numbers and names -/

def isTokenChar (c : Char) : Bool := c.isAlphanum || c == '-' || c == '+' || c == '.'

/-- What one or more digits leave. -/
def dropDigits : List Char → Option (List Char)
  | c :: rest => if c.isDigit then some (rest.dropWhile Char.isDigit) else none
  | [] => none

def dropInteger : List Char → Option (List Char)
  | '-' :: '0' :: rest | '0' :: rest => some rest
  | '-' :: rest | rest => dropDigits rest

def dropFraction : List Char → Option (List Char)
  | '.' :: rest => dropDigits rest
  | rest => some rest

def dropExponent : List Char → Option (List Char)
  | 'e' :: '-' :: rest | 'e' :: '+' :: rest | 'E' :: '-' :: rest | 'E' :: '+' :: rest
  | 'e' :: rest | 'E' :: rest => dropDigits rest
  | rest => some rest

/-- The token is a number, or one of the names that Python reads as one. -/
def isNumber (token : List Char) : Bool :=
  ((dropInteger token).bind dropFraction).bind dropExponent == some [] ||
    ["NaN", "Infinity", "-Infinity"].any fun name => token == name.toList

/-- The value of a token. -/
def scalar (token : List Char) : Option Value :=
  if token = "null".toList then some .null
  else if token = "true".toList then some (.bool true)
  else if token = "false".toList then some (.bool false)
  else if isNumber token then some (.number token)
  else none

example : isNumber "-0.5e+10".toList = true := by decide +kernel

/-! ### The texts of a value -/

/-- The text between two quotes stands for the characters. -/
inductive Spells : (text s : List Char) → Prop where
  | nil : Spells [] []
  | plain {c : Char} {text s : List Char} (quote : c ≠ '"') (backslash : c ≠ '\\')
      (printed : 0x20 ≤ c.toNat) (rest : Spells text s) : Spells (c :: text) (c :: s)
  | escape {e c : Char} {text s : List Char} (known : escapes.lookup e = some c)
      (rest : Spells text s) : Spells ('\\' :: e :: text) (c :: s)
  | unicode {digits text s : List Char} {c : Char} (length : digits.length = 4)
      (number : hexNumber digits = some c.toNat) (rest : Spells text s) :
      Spells ('\\' :: 'u' :: (digits ++ text)) (c :: s)
  | pair {digits digits' text s : List Char} {high low : Nat} {c : Char}
      (length : digits.length = 4) (number : hexNumber digits = some high)
      (isHigh : 0xd800 ≤ high ∧ high ≤ 0xdbff) (length' : digits'.length = 4)
      (number' : hexNumber digits' = some low) (isLow : 0xdc00 ≤ low ∧ low ≤ 0xdfff)
      (code : c.toNat = surrogates high low) (rest : Spells text s) :
      Spells ('\\' :: 'u' :: (digits ++ '\\' :: 'u' :: (digits' ++ text))) (c :: s)

def Space (l : List Char) : Prop := ∀ c ∈ l, isSpace c = true

inductive Part where
  | value (v : Value)
  | items (vs : List Value)
  | members (ms : List (String × Value))

/-- The text stands for a value, for the items of an array that has some, or for the members of an
object that has some. -/
inductive Renders : Part → List Char → Prop where
  | scalar {token : List Char} {v : Value} (chars : ∀ c ∈ token, isTokenChar c = true)
      (value : scalar token = some v) : Renders (.value v) token
  | string {text : List Char} {s : String} (spells : Spells text s.toList) :
      Renders (.value (.string s)) ('"' :: (text ++ ['"']))
  | emptyArray {w : List Char} (space : Space w) : Renders (.value (.array [])) ('[' :: (w ++ [']']))
  | array {vs : List Value} {text : List Char} (items : Renders (.items vs) text) :
      Renders (.value (.array vs)) ('[' :: (text ++ [']']))
  | emptyObject {w : List Char} (space : Space w) :
      Renders (.value (.object [])) ('{' :: (w ++ ['}']))
  | object {ms : List (String × Value)} {text : List Char} (members : Renders (.members ms) text) :
      Renders (.value (.object ms)) ('{' :: (text ++ ['}']))
  | lastItem {v : Value} {w text w' : List Char} (space : Space w) (value : Renders (.value v) text)
      (space' : Space w') : Renders (.items [v]) (w ++ (text ++ w'))
  | item {v : Value} {vs : List Value} {w text w' more : List Char} (space : Space w)
      (value : Renders (.value v) text) (space' : Space w') (rest : Renders (.items vs) more) :
      Renders (.items (v :: vs)) (w ++ (text ++ (w' ++ ',' :: more)))
  | lastMember {k : String} {v : Value} {w₀ name w₁ w₂ text w₃ : List Char} (space₀ : Space w₀)
      (spells : Spells name k.toList) (space₁ : Space w₁) (space₂ : Space w₂)
      (value : Renders (.value v) text) (space₃ : Space w₃) :
      Renders (.members [(k, v)]) (w₀ ++ '"' :: (name ++ '"' :: (w₁ ++ ':' :: (w₂ ++ (text ++ w₃)))))
  | member {k : String} {v : Value} {ms : List (String × Value)}
      {w₀ name w₁ w₂ text w₃ more : List Char} (space₀ : Space w₀) (spells : Spells name k.toList)
      (space₁ : Space w₁) (space₂ : Space w₂) (value : Renders (.value v) text)
      (space₃ : Space w₃) (rest : Renders (.members ms) more) :
      Renders (.members ((k, v) :: ms))
        (w₀ ++ '"' :: (name ++ '"' :: (w₁ ++ ':' :: (w₂ ++ (text ++ (w₃ ++ ',' :: more))))))

/-- The text stands for the value. -/
def IsText (v : Value) (s : String) : Prop :=
  ∃ w text w', Space w ∧ Renders (.value v) text ∧ Space w' ∧ s.toList = w ++ (text ++ w')

/-! ### The reader -/

def readUnicode (l : List Char) : Option (Nat × List Char) :=
  if l.length < 4 then none else (hexNumber (l.take 4)).map (·, l.drop 4)

/-- The character of an escape, after the backslash. A surrogate alone is no character. -/
def readEscape : List Char → Option (Char × List Char)
  | [] => none
  | 'u' :: rest => do
    let (high, rest) ← readUnicode rest
    if 0xd800 ≤ high ∧ high ≤ 0xdbff then
      match rest with
      | '\\' :: 'u' :: rest =>
        let (low, rest) ← readUnicode rest
        if 0xdc00 ≤ low ∧ low ≤ 0xdfff then some (Char.ofNat (surrogates high low), rest) else none
      | _ => none
    else if 0xdc00 ≤ high ∧ high ≤ 0xdfff then none
    else some (Char.ofNat high, rest)
  | e :: rest => (escapes.lookup e).map (·, rest)

/-- The characters up to the closing quote. -/
def readString : (fuel : Nat) → List Char → Option (List Char × List Char)
  | 0, _ | _, [] => none
  | fuel + 1, c :: rest =>
    if c = '"' then some ([], rest)
    else if c = '\\' then do
      let (c, rest) ← readEscape rest
      let (s, rest) ← readString fuel rest
      some (c :: s, rest)
    else if c.toNat < 0x20 then none
    else do
      let (s, rest) ← readString fuel rest
      some (c :: s, rest)

mutual

def readValue : (fuel : Nat) → List Char → Option (Value × List Char)
  | 0, _ => none
  | fuel + 1, '"' :: rest => do
    let (s, rest) ← readString (fuel + 1) rest
    some (.string (String.ofList s), rest)
  | fuel + 1, '[' :: rest =>
    match skip rest with
    | ']' :: rest => some (.array [], rest)
    | rest => do
      let (vs, rest) ← readItems fuel rest
      some (.array vs, rest)
  | fuel + 1, '{' :: rest =>
    match skip rest with
    | '}' :: rest => some (.object [], rest)
    | rest => do
      let (ms, rest) ← readMembers fuel rest
      some (.object ms, rest)
  | _ + 1, l => do
    let v ← scalar (l.takeWhile isTokenChar)
    some (v, l.dropWhile isTokenChar)

def readItems : (fuel : Nat) → List Char → Option (List Value × List Char)
  | 0, _ => none
  | fuel + 1, l => do
    let (v, rest) ← readValue fuel (skip l)
    match skip rest with
    | ',' :: rest =>
      let (vs, rest) ← readItems fuel rest
      some (v :: vs, rest)
    | ']' :: rest => some ([v], rest)
    | _ => none

def readMembers : (fuel : Nat) → List Char → Option (List (String × Value) × List Char)
  | 0, _ => none
  | fuel + 1, l =>
    match skip l with
    | '"' :: rest => do
      let (k, rest) ← readString (fuel + 1) rest
      match skip rest with
      | ':' :: rest =>
        let (v, rest) ← readValue fuel (skip rest)
        match skip rest with
        | ',' :: rest =>
          let (ms, rest) ← readMembers fuel rest
          some ((String.ofList k, v) :: ms, rest)
        | '}' :: rest => some ([(String.ofList k, v)], rest)
        | _ => none
      | _ => none
    | _ => none

end

/-- The value of a text. -/
def read (s : String) : Option Value := do
  let (v, rest) ← readValue (s.toList.length + 1) (skip s.toList)
  if skip rest = [] then some v else none

/-! ### Reading a text -/

section Read

variable {l rest text s digits : List Char} {c : Char} {n fuel : Nat}

theorem skip_append {w : List Char} (space : Space w) (l : List Char) : skip (w ++ l) = skip l :=
  List.dropWhile_append_of_pos space

@[simp] theorem skip_cons (space : isSpace c = false) : skip (c :: l) = c :: l := by
  rw [skip, List.dropWhile_cons_of_neg (by simp [space])]

theorem skip_skip (l : List Char) : skip (skip l) = skip l := List.dropWhile_idempotent _ _

theorem readItems_skip : readItems fuel (skip l) = readItems fuel l := by
  cases fuel with
  | zero => rfl
  | succ fuel => rw [readItems, readItems, skip_skip]

theorem readMembers_skip : readMembers fuel (skip l) = readMembers fuel l := by
  cases fuel with
  | zero => rfl
  | succ fuel => rw [readMembers, readMembers, skip_skip]

theorem readValue_array (some : ∃ c tail, skip l = c :: tail ∧ c ≠ ']') :
    readValue (fuel + 1) ('[' :: l) = (readItems fuel l).map fun (vs, rest) => (.array vs, rest) := by
  obtain ⟨c, tail, start, other⟩ := some
  rw [readValue, ← readItems_skip, start]
  split
  · rename_i same
    exact absurd (List.cons.inj same).1 other
  · cases readItems fuel (c :: tail) <;> rfl

theorem readValue_object (some : ∃ tail, skip l = '"' :: tail) :
    readValue (fuel + 1) ('{' :: l) =
      (readMembers fuel l).map fun (ms, rest) => (.object ms, rest) := by
  obtain ⟨tail, start⟩ := some
  rw [readValue, ← readMembers_skip, start]
  split
  · rename_i same
    exact absurd (List.cons.inj same).1 (by decide)
  · cases readMembers fuel ('"' :: tail) <;> rfl

theorem readUnicode_append (length : digits.length = 4) (number : hexNumber digits = some n) :
    readUnicode (digits ++ rest) = some (n, rest) := by
  have long : ¬ (digits ++ rest).length < 4 := by
    rw [List.length_append]
    omega
  rw [readUnicode, if_neg long, ← length, List.take_left, List.drop_left, number, Option.map_some]

theorem not_surrogate (c : Char) : ¬ (0xd800 ≤ c.toNat ∧ c.toNat ≤ 0xdfff) := by
  have valid := c.valid
  simp only [UInt32.isValidChar, Nat.isValidChar] at valid
  have : c.toNat = c.val.toNat := rfl
  omega

section Escape

attribute [local simp] readEscape

theorem readEscape_unicode (length : digits.length = 4)
    (number : hexNumber digits = some c.toNat) :
    readEscape ('u' :: (digits ++ rest)) = some (c, rest) := by
  have outside := not_surrogate c
  have high : ¬ (0xd800 ≤ c.toNat ∧ c.toNat ≤ 0xdbff) := by omega
  have low : ¬ (0xdc00 ≤ c.toNat ∧ c.toNat ≤ 0xdfff) := by omega
  simp [readUnicode_append length number, high, low]

theorem readEscape_pair {digits' : List Char} {high low : Nat} (length : digits.length = 4)
    (number : hexNumber digits = some high) (isHigh : 0xd800 ≤ high ∧ high ≤ 0xdbff)
    (length' : digits'.length = 4) (number' : hexNumber digits' = some low)
    (isLow : 0xdc00 ≤ low ∧ low ≤ 0xdfff) (code : c.toNat = surrogates high low) :
    readEscape ('u' :: (digits ++ '\\' :: 'u' :: (digits' ++ rest))) = some (c, rest) := by
  simp [readUnicode_append length number, readUnicode_append length' number', isHigh, isLow, ← code]

theorem readEscape_escape {e : Char} (known : escapes.lookup e = some c) :
    readEscape (e :: rest) = some (c, rest) := by
  have other : e ≠ 'u' := by
    rintro rfl
    have unknown : escapes.lookup 'u' = none := by decide
    rw [unknown] at known
    contradiction
  rw [readEscape.eq_3 _ _ (by simpa using other), known, Option.map_some]

end Escape

theorem readString_eq (spells : Spells text s) (fuel : Nat) (rest : List Char)
    (long : text.length < fuel) : readString fuel (text ++ '"' :: rest) = some (s, rest) := by
  induction spells generalizing fuel with
  | nil =>
    obtain ⟨fuel, rfl⟩ := Nat.exists_eq_succ_of_ne_zero (Nat.ne_of_gt long)
    simp [readString]
  | plain quote backslash printed _ ih =>
    obtain ⟨fuel, rfl⟩ : ∃ n, fuel = n + 1 := ⟨fuel - 1, by omega⟩
    have more := ih fuel (by simpa using long)
    simp [readString, quote, backslash, Nat.not_lt.mpr printed, more]
  | escape known _ ih =>
    obtain ⟨fuel, rfl⟩ : ∃ n, fuel = n + 1 := ⟨fuel - 1, by omega⟩
    have more := ih fuel (by simp at long; omega)
    simp [readString, readEscape_escape known, more]
  | unicode length number _ ih =>
    obtain ⟨fuel, rfl⟩ : ∃ n, fuel = n + 1 := ⟨fuel - 1, by omega⟩
    have more := ih fuel (by simp at long; omega)
    simp [readString, readEscape_unicode length number, more]
  | pair length number isHigh length' number' isLow code _ ih =>
    obtain ⟨fuel, rfl⟩ : ∃ n, fuel = n + 1 := ⟨fuel - 1, by omega⟩
    have more := ih fuel (by simp at long; omega)
    simp [readString, readEscape_pair length number isHigh length' number' isLow code, more]

/-- The text does not go on with a character of a token. -/
def Ends (l : List Char) : Prop := ∀ c ∈ l.head?, isTokenChar c = false

theorem not_isTokenChar (space : isSpace c = true) : isTokenChar c = false := by
  simp only [isSpace, Bool.or_eq_true, beq_iff_eq] at space
  rcases space with ((rfl | rfl) | rfl) | rfl <;> decide

theorem ends_cons (other : isTokenChar c = false) : Ends (c :: l) := by
  rintro d here
  rwa [← Option.some.inj here]

theorem ends_append {w : List Char} (space : Space w) (ends : Ends l) : Ends (w ++ l) := by
  cases w with
  | nil => exact ends
  | cons d w => exact ends_cons (not_isTokenChar (space d List.mem_cons_self))

theorem ends_nil : Ends [] := nofun

theorem scalar_nil : scalar [] = none := by decide

/-- A value starts with a character that is no white space and closes nothing. -/
theorem Renders.head {v : Value} (renders : Renders (.value v) text) :
    ∃ c tail, text = c :: tail ∧ isSpace c = false ∧ c ≠ ']' ∧ c ≠ '}' := by
  cases renders with
  | scalar chars value =>
    cases text with
    | nil => exact absurd value (by simp [scalar_nil])
    | cons c tail =>
      have token := chars c List.mem_cons_self
      refine ⟨c, tail, rfl, ?_, ?_, ?_⟩
      · cases space : isSpace c
        · rfl
        · rw [not_isTokenChar space] at token
          contradiction
      · rintro rfl
        exact absurd token (by decide)
      · rintro rfl
        exact absurd token (by decide)
  | string | emptyArray | array | emptyObject | object =>
    exact ⟨_, _, rfl, by decide, by decide, by decide⟩

theorem Renders.head_items {vs : List Value} (renders : Renders (.items vs) text) (l : List Char) :
    ∃ c tail, skip (text ++ l) = c :: tail ∧ c ≠ ']' := by
  cases renders with
  | lastItem space value | item space value =>
    obtain ⟨c, tail, rfl, plain, other, -⟩ := value.head
    rw [List.append_assoc, skip_append space]
    exact ⟨c, _, skip_cons plain, other⟩

theorem Renders.head_members {ms : List (String × Value)} (renders : Renders (.members ms) text)
    (l : List Char) : ∃ tail, skip (text ++ l) = '"' :: tail := by
  cases renders with
  | lastMember space | member space =>
    rw [List.append_assoc, skip_append space]
    exact ⟨_, skip_cons (by decide)⟩

theorem readValue_scalar {token : List Char} {v : Value} (chars : ∀ c ∈ token, isTokenChar c = true)
    (value : scalar token = some v) (ends : Ends rest) :
    readValue (fuel + 1) (token ++ rest) = some (v, rest) := by
  have stop : rest.takeWhile isTokenChar = [] ∧ rest.dropWhile isTokenChar = rest := by
    cases rest with
    | nil => exact ⟨rfl, rfl⟩
    | cons c rest => simp [ends c rfl]
  cases token with
  | nil => exact absurd value (by simp [scalar_nil])
  | cons c tail =>
    have first := chars c List.mem_cons_self
    have plain : c ≠ '"' ∧ c ≠ '[' ∧ c ≠ '{' := by
      refine ⟨?_, ?_, ?_⟩ <;> rintro rfl <;> exact absurd first (by decide)
    rw [List.cons_append, readValue.eq_5 _ _ (by simp [plain]) (by simp [plain]) (by simp [plain]),
      ← List.cons_append, List.takeWhile_append_of_pos chars, List.dropWhile_append_of_pos chars,
      stop.1, stop.2, List.append_nil, value]
    rfl

/-- What the reader finds. -/
def Reads : Part → List Char → Prop
  | .value v, text => ∀ fuel rest, text.length < fuel → Ends rest →
    readValue fuel (text ++ rest) = some (v, rest)
  | .items vs, text => ∀ fuel rest, text.length + 1 < fuel →
    readItems fuel (text ++ ']' :: rest) = some (vs, rest)
  | .members ms, text => ∀ fuel rest, text.length + 1 < fuel →
    readMembers fuel (text ++ '}' :: rest) = some (ms, rest)

theorem Renders.reads {part : Part} (renders : Renders part text) : Reads part text := by
  induction renders with
  | scalar chars value =>
    intro fuel rest long ends
    obtain ⟨fuel, rfl⟩ : ∃ n, fuel = n + 1 := ⟨fuel - 1, by omega⟩
    exact readValue_scalar chars value ends
  | @string text s spells =>
    intro fuel rest long _
    obtain ⟨fuel, rfl⟩ : ∃ n, fuel = n + 1 := ⟨fuel - 1, by omega⟩
    have body := readString_eq spells (fuel + 1) rest (by simp at long; omega)
    simp [readValue, body]
  | emptyArray space =>
    intro fuel rest long _
    obtain ⟨fuel, rfl⟩ : ∃ n, fuel = n + 1 := ⟨fuel - 1, by omega⟩
    have close : isSpace ']' = false := by decide
    simp [readValue, skip_append space, close]
  | @array vs text items ih =>
    intro fuel rest long _
    obtain ⟨fuel, rfl⟩ : ∃ n, fuel = n + 1 := ⟨fuel - 1, by omega⟩
    have inner := ih fuel rest (by simp at long; omega)
    have start := items.head_items (']' :: rest)
    simp only [List.cons_append, List.append_assoc, List.nil_append]
    rw [readValue_array start, inner, Option.map_some]
  | emptyObject space =>
    intro fuel rest long _
    obtain ⟨fuel, rfl⟩ : ∃ n, fuel = n + 1 := ⟨fuel - 1, by omega⟩
    have close : isSpace '}' = false := by decide
    simp [readValue, skip_append space, close]
  | @object ms text members ih =>
    intro fuel rest long _
    obtain ⟨fuel, rfl⟩ : ∃ n, fuel = n + 1 := ⟨fuel - 1, by omega⟩
    have inner := ih fuel rest (by simp at long; omega)
    have start := members.head_members ('}' :: rest)
    simp only [List.cons_append, List.append_assoc, List.nil_append]
    rw [readValue_object start, inner, Option.map_some]
  | @lastItem v w text w' space value space' ih =>
    intro fuel rest long
    obtain ⟨fuel, rfl⟩ : ∃ n, fuel = n + 1 := ⟨fuel - 1, by omega⟩
    obtain ⟨c, tail, start, plain, -⟩ := value.head
    have first := ih fuel (w' ++ ']' :: rest) (by simp at long; omega)
      (ends_append space' (ends_cons (by decide)))
    have close : isSpace ']' = false := by decide
    have opened : skip (text ++ (w' ++ ']' :: rest)) = text ++ (w' ++ ']' :: rest) := by
      rw [start, List.cons_append, skip_cons plain]
    simp [readItems, skip_append space, skip_append space', opened, first, close]
  | @item v vs w text w' more space value space' _ ih ih' =>
    intro fuel rest long
    obtain ⟨fuel, rfl⟩ : ∃ n, fuel = n + 1 := ⟨fuel - 1, by omega⟩
    obtain ⟨c, tail, start, plain, -⟩ := value.head
    have first := ih fuel (w' ++ ',' :: (more ++ ']' :: rest)) (by simp at long; omega)
      (ends_append space' (ends_cons (by decide)))
    have others := ih' fuel rest (by simp at long; omega)
    have comma : isSpace ',' = false := by decide
    have opened : skip (text ++ (w' ++ ',' :: (more ++ ']' :: rest))) =
        text ++ (w' ++ ',' :: (more ++ ']' :: rest)) := by
      rw [start, List.cons_append, skip_cons plain]
    simp [readItems, skip_append space, skip_append space', opened, first, comma, others]
  | @lastMember k v w₀ name w₁ w₂ text w₃ space₀ spells space₁ space₂ value space₃ ih =>
    intro fuel rest long
    obtain ⟨fuel, rfl⟩ : ∃ n, fuel = n + 1 := ⟨fuel - 1, by omega⟩
    obtain ⟨c, tail, start, plain, -⟩ := value.head
    have key := readString_eq spells (fuel + 1)
      (w₁ ++ ':' :: (w₂ ++ (text ++ (w₃ ++ '}' :: rest)))) (by simp at long; omega)
    have first := ih fuel (w₃ ++ '}' :: rest) (by simp at long; omega)
      (ends_append space₃ (ends_cons (by decide)))
    have quote : isSpace '"' = false := by decide
    have colon : isSpace ':' = false := by decide
    have close : isSpace '}' = false := by decide
    have opened : skip (text ++ (w₃ ++ '}' :: rest)) = text ++ (w₃ ++ '}' :: rest) := by
      rw [start, List.cons_append, skip_cons plain]
    simp [readMembers, skip_append space₀, skip_append space₁, skip_append space₂,
      skip_append space₃, quote, key, colon, opened, first, close]
  | @member k v ms w₀ name w₁ w₂ text w₃ more space₀ spells space₁ space₂ value space₃ _ ih ih' =>
    intro fuel rest long
    obtain ⟨fuel, rfl⟩ : ∃ n, fuel = n + 1 := ⟨fuel - 1, by omega⟩
    obtain ⟨c, tail, start, plain, -⟩ := value.head
    have key := readString_eq spells (fuel + 1)
      (w₁ ++ ':' :: (w₂ ++ (text ++ (w₃ ++ ',' :: (more ++ '}' :: rest)))))
      (by simp at long; omega)
    have first := ih fuel (w₃ ++ ',' :: (more ++ '}' :: rest)) (by simp at long; omega)
      (ends_append space₃ (ends_cons (by decide)))
    have others := ih' fuel rest (by simp at long; omega)
    have quote : isSpace '"' = false := by decide
    have colon : isSpace ':' = false := by decide
    have comma : isSpace ',' = false := by decide
    have opened : skip (text ++ (w₃ ++ ',' :: (more ++ '}' :: rest))) =
        text ++ (w₃ ++ ',' :: (more ++ '}' :: rest)) := by
      rw [start, List.cons_append, skip_cons plain]
    simp [readMembers, skip_append space₀, skip_append space₁, skip_append space₂,
      skip_append space₃, quote, key, colon, opened, first, comma, others]

/-- The reader finds the value of every text. -/
theorem read_eq {v : Value} {s : String} (isText : IsText v s) : read s = some v := by
  obtain ⟨w, text, w', space, renders, space', same⟩ := isText
  obtain ⟨c, tail, start, plain, -⟩ := renders.head
  have opened : skip (text ++ w') = text ++ w' := by rw [start, List.cons_append, skip_cons plain]
  have value := renders.reads ((w ++ (text ++ w')).length + 1) w' (by simp; omega)
    (List.append_nil w' ▸ ends_append space' ends_nil)
  have closed : skip w' = [] := List.append_nil w' ▸ skip_append space' []
  rw [read, same, skip_append space, opened, value]
  simp [closed]

end Read

end Json
