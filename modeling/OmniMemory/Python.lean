import Mathlib.Algebra.Group.Nat.Defs
import Mathlib.Data.List.Basic
import Mathlib.Data.List.Infix

/-! What the modelled code uses of Python: exceptions, byte strings and their UTF-8 form, blank
strings and the parts of strings, UUIDs, times, and hexadecimal digits. -/

namespace OmniMemory

/-- The exceptions that the handlers tell apart. `clientError` stands for asyncpg's
`InterfaceError` and `InternalClientError`, which every handler treats alike, and `other` for any
exception that no clause names. -/
inductive PyError where
  | postgresError (text : String)
  | clientError (text : String)
  | timeoutError (text : String)
  | osError (text : String)
  | valueError (text : String)
  | runtimeError (text : String)
  | circuitBreakerOpenError (text : String)
  | other (text : String)
deriving DecidableEq

namespace PyError

/-- `str(e)`. -/
def text : PyError → String
  | postgresError t | clientError t | timeoutError t | osError t | valueError t | runtimeError t
  | circuitBreakerOpenError t | other t => t

/-- Caught by `except OSError`; `TimeoutError` is a subclass. -/
def isOSError : PyError → Bool
  | osError _ | timeoutError _ => true
  | _ => false

def isValueError : PyError → Bool
  | valueError _ => true
  | _ => false

end PyError

abbrev Bytes := List UInt8

/-- `s.encode("utf-8")`. -/
def encodeUtf8 (s : String) : Bytes := s.toByteArray.data.toList

/-- `bytes.decode("utf-8")`. -/
def decodeUtf8 (bytes : Bytes) : Option String := String.fromUTF8? ⟨bytes.toArray⟩

@[simp] theorem decodeUtf8_encodeUtf8 (s : String) : decodeUtf8 (encodeUtf8 s) = some s := by
  have bytes : (⟨s.toByteArray.data.toList.toArray⟩ : ByteArray) = s.toByteArray := by simp
  unfold decodeUtf8 encodeUtf8 String.fromUTF8?
  rw [bytes, dif_pos s.isValidUTF8]
  rfl

/-- What a byte that starts a character asks for: how many bytes follow it, and the least and the
greatest value of the first of them. -/
def continuation (b : UInt8) : Option (Nat × UInt8 × UInt8) :=
  if b < 0x80 then some (0, 0x80, 0xbf)
  else if 0xc2 ≤ b ∧ b ≤ 0xdf then some (1, 0x80, 0xbf)
  else if b = 0xe0 then some (2, 0xa0, 0xbf)
  else if b = 0xed then some (2, 0x80, 0x9f)
  else if 0xe1 ≤ b ∧ b ≤ 0xef then some (2, 0x80, 0xbf)
  else if b = 0xf0 then some (3, 0x90, 0xbf)
  else if b = 0xf4 then some (3, 0x80, 0x8f)
  else if 0xf1 ≤ b ∧ b ≤ 0xf3 then some (3, 0x80, 0xbf)
  else none

/-- `len(bytes.decode("utf-8", errors="replace"))`, when `missing` bytes of a character are still to
come and the first of them is between `least` and `greatest`. A character that is not completed
counts as one, and so does a byte that starts no character. -/
def decodedLength : (missing : Nat) → (least greatest : UInt8) → Bytes → Nat
  | 0, _, _, [] => 0
  | _ + 1, _, _, [] => 1
  | missing, least, greatest, b :: rest =>
    if missing ≠ 0 ∧ least ≤ b ∧ b ≤ greatest then
      (if missing = 1 then 1 else 0) + decodedLength (missing - 1) 0x80 0xbf rest
    else
      (if missing = 0 then 0 else 1) +
        match continuation b with
        | none => 1 + decodedLength 0 0x80 0xbf rest
        | some (0, _, _) => 1 + decodedLength 0 0x80 0xbf rest
        | some (following, least, greatest) => decodedLength following least greatest rest

example : decodedLength 0 0 0 [0x61, 0xe2, 0x82, 0xac, 0xe2, 0x82, 0x62, 0xff] = 5 := by decide

/-- The newlines of a text file as `read` returns them. -/
def universalNewlines : List Char → List Char
  | '\r' :: '\n' :: rest => '\n' :: universalNewlines rest
  | '\r' :: rest => '\n' :: universalNewlines rest
  | c :: rest => c :: universalNewlines rest
  | [] => []

theorem universalNewlines_of_not_mem {l : List Char} (plain : '\r' ∉ l) :
    universalNewlines l = l := by
  induction l using universalNewlines.induct with
  | case1 rest _ => simp at plain
  | case2 rest _ _ => simp at plain
  | case3 c rest _ _ ih =>
    rw [universalNewlines, ih fun h => plain (List.mem_cons_of_mem _ h)]
    · assumption
    · assumption
  | case4 => rfl

/-- The last `width` hexadecimal digits of a number. -/
def hexDigits : (width : Nat) → Nat → List Char
  | 0, _ => []
  | width + 1, n => hexDigits width (n / 16) ++ [(n % 16).digitChar]

theorem hexDigits_zero (n : Nat) : hexDigits 0 n = [] := rfl

theorem hexDigits_succ (width n : Nat) :
    hexDigits (width + 1) n = hexDigits width (n / 16) ++ [(n % 16).digitChar] := rfl

/-- A `uuid.UUID`. -/
abbrev UUID := BitVec 128

/-- `str(uuid)`: 32 hexadecimal digits in groups of 8, 4, 4, 4 and 12. -/
def UUID.str (u : UUID) : String :=
  let digits := hexDigits 32 u.toNat
  let group (start length : Nat) := String.ofList ((digits.drop start).take length)
  "-".intercalate [group 0 8, group 8 4, group 12 4, group 16 4, group 20 12]

example : UUID.str 0x1f = "00000000-0000-0000-0000-00000000001f" := by decide +kernel

/-- `c.isspace()`. -/
def isSpace (c : Char) : Bool :=
  c.toNat ∈ [0x85, 0xa0, 0x1680, 0x2028, 0x2029, 0x202f, 0x205f, 0x3000] ||
    [(0x9, 0xd), (0x1c, 0x20), (0x2000, 0x200a)].any fun (first, last) =>
      first ≤ c.toNat && c.toNat ≤ last

/-- `not s.strip()`. -/
def isBlank (s : String) : Bool := s.toList.all isSpace

/-- `s.strip()`. -/
def strip (s : String) : String :=
  String.ofList ((s.toList.dropWhile isSpace).reverse.dropWhile isSpace).reverse

/-- The parts between the occurrences of a separator, from the left; `skip` characters of the one
found last are still to come, and `part` has the characters since then, the last one first. -/
def splitParts (separator : List Char) : (skip : Nat) → (part : List Char) → List Char →
    List (List Char)
  | _, part, [] => [part.reverse]
  | skip + 1, part, _ :: rest => splitParts separator skip part rest
  | 0, part, c :: rest =>
    if separator.isPrefixOf (c :: rest) then
      part.reverse :: splitParts separator (separator.length - 1) [] rest
    else splitParts separator 0 (c :: part) rest

/-- `s.split(separator)`, for a separator that is not empty. -/
def split (s separator : String) : List String :=
  (splitParts separator.toList 0 [] s.toList).map String.ofList

example : split "a\n\n\nb\n\n" "\n\n" = ["a", "\nb", ""] := by decide +kernel

/-- `part in s`. -/
def hasSubstring (s part : String) : Bool := s.toList.tails.any (part.toList.isPrefixOf ·)

theorem hasSubstring_char {s part : String} {c : Char} (single : part.toList = [c]) :
    hasSubstring s part = true ↔ c ∈ s.toList := by
  rw [hasSubstring, single]
  generalize s.toList = l
  induction l with
  | nil => simp
  | cons d l ih =>
    rw [List.tails, List.any_cons, Bool.or_eq_true, ih, List.mem_cons, List.isPrefixOf_cons_cons]
    simp

theorem mem_of_hasSubstring {s part : String} {c : Char} (inside : hasSubstring s part = true)
    (mem : c ∈ part.toList) : c ∈ s.toList := by
  obtain ⟨tail, suffix, starts⟩ := List.any_eq_true.mp inside
  exact ((List.mem_tails _ _).mp suffix).subset ((List.isPrefixOf_iff_prefix.mp starts).subset mem)

/-- A timezone-aware `datetime` in UTC: its date and the microseconds since midnight. -/
structure DateTime where
  year : Nat
  month : Nat
  day : Nat
  time : Nat
deriving DecidableEq

theorem digitChar_inj {m n : Nat} (hm : m < 16) (hn : n < 16)
    (same : m.digitChar = n.digitChar) : m = n := by
  have all : ∀ m < 16, ∀ n < 16, m.digitChar = n.digitChar → m = n := by decide
  exact all m hm n hn same

theorem digitChar_ne_newline {n : Nat} (hn : n < 16) :
    n.digitChar ≠ '\n' ∧ n.digitChar ≠ '\r' := by
  revert n
  decide

theorem hexDigits_inj {width m n : Nat} (hm : m < 16 ^ width) (hn : n < 16 ^ width)
    (same : hexDigits width m = hexDigits width n) : m = n := by
  induction width generalizing m n with
  | zero => omega
  | succ width ih =>
    obtain ⟨high, low⟩ := List.append_inj' same rfl
    have low : m % 16 = n % 16 := digitChar_inj (Nat.mod_lt _ (by omega)) (Nat.mod_lt _ (by omega))
      (List.singleton_inj.mp low)
    have high : m / 16 = n / 16 := ih (by omega) (by omega) high
    omega

theorem not_mem_hexDigits (width n : Nat) :
    '\n' ∉ hexDigits width n ∧ '\r' ∉ hexDigits width n := by
  induction width generalizing n with
  | zero => simp [hexDigits_zero]
  | succ width ih =>
    have last := digitChar_ne_newline (Nat.mod_lt n (show 0 < 16 by omega))
    simp only [hexDigits_succ, List.mem_append, List.mem_singleton, not_or]
    exact ⟨⟨(ih _).1, last.1.symm⟩, (ih _).2, last.2.symm⟩

@[simp] theorem length_hexDigits (width n : Nat) : (hexDigits width n).length = width := by
  induction width generalizing n with
  | zero => rfl
  | succ width ih => simp [hexDigits_succ, ih]

theorem ne_hyphen_of_mem_hexDigits {width n : Nat} {c : Char} (mem : c ∈ hexDigits width n) :
    c ≠ '-' := by
  induction width generalizing n with
  | zero => simp [hexDigits_zero] at mem
  | succ width ih =>
    rcases List.mem_append.mp mem with mem | mem
    · exact ih mem
    · have digits : ∀ d < 16, d.digitChar ≠ '-' := by decide
      rw [List.mem_singleton.mp mem]
      exact digits _ (Nat.mod_lt n (by omega))

theorem mem_of_mem_hexDigits {width n : Nat} {c : Char} (mem : c ∈ hexDigits width n) :
    c ∈ "0123456789abcdef".toList := by
  induction width generalizing n with
  | zero => simp [hexDigits_zero] at mem
  | succ width ih =>
    rcases List.mem_append.mp mem with mem | mem
    · exact ih mem
    · have digits : ∀ d < 16, d.digitChar ∈ "0123456789abcdef".toList := by decide
      rw [List.mem_singleton.mp mem]
      exact digits _ (Nat.mod_lt n (by omega))

/-- Without its hyphens, a UUID is its digits. -/
theorem UUID.filter_str (u : UUID) :
    (UUID.str u).toList.filter (· ≠ '-') = hexDigits 32 u.toNat := by
  have digits : ∀ c ∈ hexDigits 32 u.toNat, decide (c ≠ '-') = true := fun c mem =>
    decide_eq_true (ne_hyphen_of_mem_hexDigits mem)
  have long := length_hexDigits 32 u.toNat
  simp only [UUID.str, String.toList_intercalate, List.map, String.toList_ofList]
  generalize hexDigits 32 u.toNat = all at digits long ⊢
  have kept : ∀ i k, ((all.drop i).take k).filter (· ≠ '-') = (all.drop i).take k := fun i k =>
    List.filter_eq_self.mpr fun c mem => digits c (List.mem_of_mem_drop (List.mem_of_mem_take mem))
  have join : ∀ i k, (all.drop i).take k ++ all.drop (i + k) = all.drop i := fun i k => by
    rw [← List.drop_drop, List.take_append_drop]
  have last : (all.drop 20).take 12 = all.drop 20 := List.take_of_length_le (by simp [long])
  have hyphens : "-".toList.filter (· ≠ '-') = [] := rfl
  simp only [List.intercalate_cons_cons, List.intercalate_singleton, List.filter_append, kept,
    hyphens, List.nil_append, List.append_assoc]
  rw [last, join 16 4, join 12 4, join 8 4, join 0 8, List.drop_zero]

/-- The characters of a UUID are hexadecimal digits and hyphens. -/
theorem UUID.mem_str {u : UUID} {c : Char} (mem : c ∈ (UUID.str u).toList) :
    c ∈ "-0123456789abcdef".toList := by
  by_cases hyphen : c = '-'
  · rw [hyphen]
    decide
  · have kept : c ∈ (UUID.str u).toList.filter (· ≠ '-') :=
      List.mem_filter.mpr ⟨mem, decide_eq_true hyphen⟩
    rw [UUID.filter_str] at kept
    exact List.mem_cons_of_mem _ (mem_of_mem_hexDigits kept)

theorem UUID.str_ne_empty (u : UUID) : UUID.str u ≠ "" := by
  intro empty
  have long := congrArg List.length (UUID.filter_str u)
  simp [empty] at long

theorem UUID.str_inj {u v : UUID} (same : UUID.str u = UUID.str v) : u = v := by
  have bound (w : UUID) : w.toNat < 16 ^ 32 := w.isLt
  refine BitVec.eq_of_toNat_eq (hexDigits_inj (bound u) (bound v) ?_)
  rw [← UUID.filter_str, ← UUID.filter_str, same]

end OmniMemory
