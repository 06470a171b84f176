import Mathlib.Data.List.Basic
import Mathlib.Data.List.Infix
import Mathlib.Data.List.TakeDrop

/-! Regular expressions that backtrack. `ways` lists the ends of the matches of an expression, in the
order in which they are tried, so that the first one is the match. `scan` cuts a text into the
matches that are found from left to right, none of them empty, and the characters in between. -/

namespace Regular

/-- What an engine knows of the characters of texts. -/
structure Alphabet where
  word : Char → Bool
  digit : Char → Bool
  space : Char → Bool
  /-- The other characters that one is taken for when case is ignored. -/
  variants : Char → List Char

inductive Regex where
  | empty
  | set (chars : Char → Bool)
  | seq (r s : Regex)
  | alt (r s : Regex)
  | star (r : Regex)
  | boundary
  | notAhead (r : Regex)

/-- A place in a text: the character before it, and the text after it. -/
structure Cursor where
  before : Option Char
  after : List Char

namespace Cursor

/-- A place after the first characters of the text that follows a cursor. -/
def skip (c : Cursor) (n : Nat) : Cursor where
  before := (c.after.take n).getLast?.or c.before
  after := c.after.drop n

end Cursor

/-- The places that are reached by taking steps for as long as they lead on, the longest way first. -/
def iterate (step : Cursor → List Cursor) : Nat → Cursor → List Cursor
  | 0, c => [c]
  | n + 1, c =>
    ((step c).filter fun next => next.after.length < c.after.length).flatMap (iterate step n) ++ [c]

namespace Regex

variable (word : Char → Bool)

/-- One of the characters beside a place is a character of words, and the other is not. -/
def atBoundary (c : Cursor) : Bool := c.before.any word != c.after.head?.any word

/-- The ends of the matches that begin at a place, in the order in which they are tried. -/
def ways : Regex → Cursor → List Cursor
  | empty, c => [c]
  | set chars, ⟨_, x :: rest⟩ => if chars x then [⟨some x, rest⟩] else []
  | set _, ⟨_, []⟩ => []
  | seq r s, c => (ways r c).flatMap (ways s)
  | alt r s, c => ways r c ++ ways s c
  | star r, c => iterate (ways r) c.after.length c
  | boundary, c => if atBoundary word c then [c] else []
  | notAhead r, c => if (ways r c).isEmpty then [c] else []

/-- How many characters the match takes that begins at a place. -/
def taken (r : Regex) (c : Cursor) : Option Nat :=
  (ways word r c).head?.map fun last => c.after.length - last.after.length

section Ways

variable {word} {r s : Regex} {c : Cursor}

theorem ways_set_cons {chars : Char → Bool} {before : Option Char} {x : Char} {rest : List Char} :
    (set chars).ways word ⟨before, x :: rest⟩ = if chars x then [⟨some x, rest⟩] else [] := rfl

theorem ways_seq : (seq r s).ways word c = (r.ways word c).flatMap (s.ways word) := rfl

theorem ways_alt : (alt r s).ways word c = r.ways word c ++ s.ways word c := rfl

theorem ways_star : (star r).ways word c = iterate (r.ways word) c.after.length c := rfl

theorem ways_boundary : boundary.ways word c = if atBoundary word c then [c] else [] := rfl

end Ways

end Regex

/-- A part of a text that was scanned. -/
inductive Piece where
  | char (c : Char)
  | found (text : List Char)

namespace Piece

def text : Piece → List Char
  | char c => [c]
  | found text => text

/-- The text that a piece is replaced by. -/
def replaced (repl : List Char) : Piece → List Char
  | char c => [c]
  | found _ => repl

end Piece

namespace Regex

variable (word : Char → Bool) (r : Regex)

/-- The pieces of what follows a place, when there are at most `n` characters. -/
def scan : Nat → Cursor → List Piece
  | 0, _ => []
  | n + 1, c =>
    match c.after, taken word r c with
    | [], _ => []
    | x :: rest, none | x :: rest, some 0 => .char x :: scan n ⟨some x, rest⟩
    | _ :: _, some (k + 1) => .found (c.after.take (k + 1)) :: scan n (c.skip (k + 1))

/-- The pieces of a text. -/
def pieces (before : Option Char) (text : List Char) : List Piece :=
  scan word r text.length ⟨before, text⟩

/-- `pattern.sub(repl, text)`, for a text that is not a template. -/
def sub (repl text : List Char) : List Char :=
  (pieces word r none text).flatMap (Piece.replaced repl)

end Regex

/-- What was found in pieces that begin at an index, with the index of each. -/
def findings : Nat → List Piece → List (Nat × List Char)
  | _, [] => []
  | i, .char _ :: rest => findings (i + 1) rest
  | i, .found text :: rest => (i, text) :: findings (i + text.length) rest

namespace Regex

/-! ### Expressions that are made of others -/

def opt (r : Regex) : Regex := alt r empty

def plus (r : Regex) : Regex := seq r (star r)

def exactly : Nat → Regex → Regex
  | 0, _ => empty
  | n + 1, r => seq r (exactly n r)

def upTo : Nat → Regex → Regex
  | 0, _ => empty
  | n + 1, r => opt (seq r (upTo n r))

def atLeast (n : Nat) (r : Regex) : Regex := seq (exactly n r) (star r)

def between (least most : Nat) (r : Regex) : Regex := seq (exactly least r) (upTo (most - least) r)

def sequence : List Regex → Regex
  | [] => empty
  | r :: rs => seq r (sequence rs)

def oneOf (c : Char) : Regex := set (· == c)

end Regex

namespace Alphabet

variable (A : Alphabet)

/-- One of the characters, when case is ignored. -/
def anyCase (chars : Char → Bool) : Regex :=
  .set fun c => chars c || (A.variants c).any chars

def literal (text : String) : Regex :=
  .sequence (text.toList.map fun c => A.anyCase (· == c))

def digits (n : Nat) : Regex := .exactly n (.set A.digit)

/-- The alphabet of texts of ASCII characters. -/
def ascii : Alphabet where
  word c := c.isAlphanum || c == '_'
  digit c := c.isDigit
  space c := c == ' ' || ('\t' ≤ c && c ≤ '\r') || ('\x1c' ≤ c && c ≤ '\x1f')
  variants c := if c.isUpper then [c.toLower] else if c.isLower then [c.toUpper] else []

end Alphabet

section Scan

variable {word : Char → Bool} {r : Regex} {n i j : Nat} {c : Cursor} {text before : List Char}

/-- The pieces of a text are all of it. -/
theorem scan_text (enough : c.after.length ≤ n) : (r.scan word n c).flatMap Piece.text = c.after := by
  induction n generalizing c with
  | zero =>
    rw [List.length_eq_zero_iff.mp (Nat.le_zero.mp enough)]
    rfl
  | succ n ih =>
    rw [Regex.scan]
    split
    · rename_i empty
      rw [empty]
      rfl
    · rename_i x rest after _
      rw [after] at enough ⊢
      rw [List.flatMap_cons, ih (by simpa using enough)]
      rfl
    · rename_i x rest after _
      rw [after] at enough ⊢
      rw [List.flatMap_cons, ih (by simpa using enough)]
      rfl
    · rename_i x rest k after _
      have fewer : (c.skip (k + 1)).after.length ≤ n := by
        rw [Cursor.skip, List.length_drop]
        omega
      rw [List.flatMap_cons, ih fewer]
      exact List.take_append_drop _ _

/-- What is found is not empty. -/
theorem scan_found (mem : Piece.found text ∈ r.scan word n c) : text ≠ [] := by
  induction n generalizing c with
  | zero => exact absurd mem (by simp [Regex.scan])
  | succ n ih =>
    rw [Regex.scan] at mem
    split at mem
    · exact absurd mem (by simp)
    · exact ih (by simpa using mem)
    · exact ih (by simpa using mem)
    · rename_i x rest k after _
      rcases List.mem_cons.mp mem with same | mem
      · rw [Piece.found.inj same, after]
        simp
      · exact ih mem

/-- What is found in pieces stands at its index in their text. -/
theorem exists_findings {ps : List Piece} (mem : (j, text) ∈ findings i ps) :
    .found text ∈ ps ∧ ∃ before after, ps.flatMap Piece.text = before ++ text ++ after ∧
      j = i + before.length := by
  induction ps generalizing i with
  | nil => exact absurd mem (by simp [findings])
  | cons p ps ih =>
    cases p with
    | char x =>
      obtain ⟨piece, before, after, split, rfl⟩ := ih mem
      refine ⟨by simp [piece], x :: before, after, ?_, by simp; omega⟩
      rw [List.flatMap_cons, split]
      rfl
    | found part =>
      rcases List.mem_cons.mp mem with same | mem
      · obtain ⟨rfl, rfl⟩ := Prod.mk.inj same
        exact ⟨by simp, [], ps.flatMap Piece.text, rfl, rfl⟩
      · obtain ⟨piece, before, after, split, rfl⟩ := ih mem
        refine ⟨by simp [piece], part ++ before, after, ?_, by simp; omega⟩
        rw [List.flatMap_cons, split]
        simp [Piece.text]

end Scan

end Regular
