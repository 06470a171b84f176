import Mathlib.Data.List.Forall2
import OmniMemory.Sanitizer.Redaction

/-! A credential in a message. Its own pattern replaces it, when no pattern up to that one matches a
text that goes over the beginning of the keyword or the end of the value, and the value has no white
space and no quote. -/

namespace OmniMemory

open Regular Regex

namespace Sanitizer

variable {A : Alphabet} {k k' : Keyword} {before : Option Char} {s t u w x pre value post gap : Text}
  {c h : Char}

section Open

variable (A k) in
/-- A keyword and what may be the beginning of its value. -/
def Opens (w : Text) : Prop :=
  ∃ name gap run, w = name ++ gap ++ run ∧ IsName A k name ∧ Gap A gap ∧
    ∀ c ∈ run, unquoted A c = true

variable (A k) in
/-- The pattern of a keyword matches at a place and over the end of the text after it. -/
def RunsOver (before : Option Char) (w t : Text) : Prop :=
  ∃ n, (k.pattern A).taken A.word ⟨before, w ++ t⟩ = some n ∧ w.length < n

variable (A k) in
/-- No assignment that begins in a text is open at its end. -/
def Sealed (before : Option Char) (s : Text) : Prop :=
  ∀ u w, s = u ++ w → w ≠ [] → atBoundary A.word ⟨u.getLast?.or before, w⟩ = true → ¬ Opens A k w

theorem IsAssignment.opens {m : Text} (assignment : IsAssignment A k m) : Opens A k m := by
  obtain ⟨name, gap, run, rfl, isName, isGap, -, all⟩ := assignment
  exact ⟨name, gap, run, rfl, isName, isGap, all⟩

/-- A bracket in what is open is in its value, which goes on after it. -/
theorem not_opens_bracket (lawful : Lawful A) (bracket : c = '[' ∨ c = ']')
    (opens : Opens A k (u ++ c :: h :: t)) : unquoted A h = true := by
  obtain ⟨name, gap, run, same, isName, isGap, all⟩ := opens
  rcases List.append_eq_append_iff.mp same with ⟨z, split, rest⟩ | ⟨z, split, rest⟩
  · cases z with
    | nil =>
      rw [List.nil_append] at rest
      exact all h (by rw [← rest]; simp)
    | cons y z =>
      obtain ⟨rfl, -⟩ := List.cons.inj rest
      exact absurd (by rw [split]; simp) (bracket_not_mem lawful isName isGap bracket)
  · exact all h (by rw [rest]; simp)

/-- What is open begins with the letters of its keyword. -/
theorem Opens.initials (opens : Opens A k w) : ∃ x y rest, w = x :: y :: rest ∧
    reads A k.initials.1 x = true ∧ reads A k.initials.2 y = true := by
  obtain ⟨name, gap, run, rfl, isName, -, -⟩ := opens
  obtain ⟨x, y, rest, rfl, first, second⟩ := exists_initials isName
  exact ⟨x, y, rest ++ gap ++ run, by simp, first, second⟩

/-- The first character of what is open is one of words. -/
theorem word_of_opens (lawful : Lawful A) (opens : Opens A k (c :: t)) : A.word c = true := by
  obtain ⟨x, y, rest, same, first, -⟩ := opens.initials
  obtain ⟨rfl, -⟩ := List.cons.inj same
  exact word_of_reads lawful (by cases k <;> decide) (by cases k <;> decide) first

/-- Nothing open begins with what ends a value. -/
theorem not_opens_of_ends (lawful : Lawful A) (ends : unquoted A c = false) :
    ¬ Opens A k (c :: t) := by
  intro opens
  rw [unquoted_of_word lawful (word_of_opens lawful opens)] at ends
  cases ends

theorem Sealed.tail (closed : Sealed A k before (c :: t)) : Sealed A k (some c) t := by
  intro u w split ne boundary
  refine closed (c :: u) w (by rw [split]; rfl) ne ?_
  rwa [getLast?_cons_or]

theorem Sealed.drop {m rest : Text} (closed : Sealed A k before (m ++ rest)) (ne : m ≠ []) :
    Sealed A k m.getLast? rest := by
  intro u w split ne' boundary
  refine closed (m ++ u) w (by rw [split, List.append_assoc]) ne' ?_
  rwa [getLast?_append_or ne]

theorem sealed_cons (here : atBoundary A.word ⟨before, c :: t⟩ = true → ¬ Opens A k (c :: t))
    (later : Sealed A k (some c) t) : Sealed A k before (c :: t) := by
  intro u w split ne boundary
  cases u with
  | nil =>
    rw [List.nil_append] at split
    subst split
    exact here boundary
  | cons d u =>
    obtain ⟨rfl, rfl⟩ := List.cons.inj split
    rw [getLast?_cons_or] at boundary
    exact later u w rfl ne boundary

/-- What follows an assignment is not empty in a text that is sealed. -/
theorem Sealed.ne_nil {m rest : Text} (closed : Sealed A k before (m ++ rest))
    (starts : Starts A k before m rest) : rest ≠ [] := by
  rintro rfl
  refine closed [] m (by simp) starts.assignment.ne_nil ?_ starts.assignment.opens
  simpa using starts.boundary

/-- What ends a value stays in its place, whatever is before it. -/
theorem redact_of_ends (lawful : Lawful A) (ends : unquoted A c = false) :
    redact A k before (c :: t) = c :: redact A k (some c) t := by
  refine redact_char lawful fun m rest split starts => ?_
  obtain ⟨d, m, rfl⟩ := List.exists_cons_of_ne_nil starts.assignment.ne_nil
  obtain ⟨rfl, -⟩ := List.cons.inj split
  exact not_opens_of_ends lawful ends starts.assignment.opens

/-- What the pattern makes of a sealed text is that text, or a bracket is in it before what ends a
value. -/
theorem redact_sealed (lawful : Lawful A) (closed : Sealed A k before s) :
    redact A k before s = s ∨ ∃ t h rest, redact A k before s = t ++ ']' :: h :: rest ∧
      unquoted A h = false := by
  revert closed
  induction before, s using redact_induction (k := k) (A := A) with
  | nil before => exact fun _ => .inl rfl
  | char before c t not ih =>
    intro closed
    rw [redact_char lawful not]
    rcases ih closed.tail with same | ⟨t', h, rest, same, ends⟩
    · exact .inl (by rw [same])
    · exact .inr ⟨c :: t', h, rest, by rw [same]; rfl, ends⟩
  | found before m rest starts ih =>
    intro closed
    obtain ⟨h, rest, rfl⟩ := List.exists_cons_of_ne_nil (closed.ne_nil starts)
    have ends := starts.ends h rfl
    rw [redact_found lawful starts, redact_of_ends lawful ends]
    exact .inr ⟨"[REDACTED".toList, h, _, rfl, ends⟩

theorem getLast?_redact (lawful : Lawful A) (closed : Sealed A k before s) :
    (redact A k before s).getLast? = s.getLast? := by
  revert closed
  induction before, s using redact_induction (k := k) (A := A) with
  | nil before => exact fun _ => rfl
  | char before c t not ih =>
    intro closed
    rw [redact_char lawful not, List.getLast?_cons, List.getLast?_cons, ih closed.tail]
  | found before m rest starts ih =>
    intro closed
    have ne := closed.ne_nil starts
    have later := closed.drop starts.assignment.ne_nil
    rw [redact_found lawful starts, List.getLast?_append, List.getLast?_append, ih later]
    obtain ⟨c, rest, rfl⟩ := List.exists_cons_of_ne_nil ne
    rw [List.getLast?_cons]
    rfl

/-- Nothing before a bracket is open after it, when what ends a value follows it. -/
theorem sealed_bracket (lawful : Lawful A) (ends : unquoted A h = false)
    (closed : Sealed A k before (h :: t)) {before' : Option Char} :
    Sealed A k before' (s ++ ']' :: h :: t) := by
  have stuck {u : Text} : ¬ Opens A k (u ++ ']' :: h :: t) := fun opens => by
    rw [not_opens_bracket lawful (.inr rfl) opens] at ends
    cases ends
  induction s generalizing before' with
  | nil =>
    refine sealed_cons (fun _ => stuck (u := [])) (sealed_cons (fun _ => ?_) closed.tail)
    exact not_opens_of_ends lawful ends
  | cons c s ih => exact sealed_cons (fun _ => stuck (u := c :: s)) ih

/-- Nothing is open after the pattern of a keyword that was not open before. -/
theorem sealed_redact (lawful : Lawful A) (closed : Sealed A k before s)
    (closed' : Sealed A k' before s) : Sealed A k' before (redact A k before s) := by
  revert closed closed'
  induction before, s using redact_induction (k := k) (A := A) with
  | nil before => exact fun _ closed' => closed'
  | char before c t not ih =>
    intro closed closed'
    rw [redact_char lawful not]
    refine sealed_cons (fun boundary opens => ?_) (ih closed.tail closed'.tail)
    rcases redact_sealed lawful closed.tail with same | ⟨t', h, rest, same, ends⟩
    · rw [same] at opens
      exact closed' [] (c :: t) rfl (by simp) boundary opens
    · rw [same, ← List.cons_append] at opens
      rw [not_opens_bracket lawful (.inr rfl) opens] at ends
      cases ends
  | found before m rest starts ih =>
    intro closed closed'
    obtain ⟨h, rest, rfl⟩ := List.exists_cons_of_ne_nil (closed.ne_nil starts)
    have ends := starts.ends h rfl
    have later := ih (closed.drop starts.assignment.ne_nil) (closed'.drop starts.assignment.ne_nil)
    rw [redact_found lawful starts, redact_of_ends lawful ends]
    rw [redact_of_ends lawful ends] at later
    exact sealed_bracket lawful ends later (s := "[REDACTED".toList)

/-- A name goes over the end of a text whose last character is in no word only after the sign of an
API key. -/
theorem reads_of_name_over (lawful : Lawful A) (isName : IsName A k (w ++ h :: x)) (ne : w ≠ [])
    (last : ∀ c ∈ w.getLast?, A.word c = false) : reads A 'k' h = true := by
  obtain ⟨w, c, rfl⟩ := List.eq_nil_or_concat w |>.resolve_left ne |>.imp fun _ => id
  have other : A.word c = false := last c (by simp)
  obtain rfl : c = '-' := by
    rcases word_of_mem_name lawful isName (c := c) (by simp) with word | same
    · rw [word] at other
      cases other
    · exact same
  have literal {lit name : Text}
      (letters : lit.all (fun p => p.toNat < 128 && Alphabet.ascii.word p) = true)
      (all : Reads A lit name) : '-' ∉ name := fun mem => by
    rw [word_of_mem_reads lawful letters all mem] at other
    cases other
  cases k
  case apiKey =>
    obtain ⟨api, sign, key, same, readsApi, signs, readsKey⟩ := isName
    have api_ := literal (by decide) readsApi
    have key_ := literal (by decide) readsKey
    have mem : '-' ∈ api ++ sign ++ key := by
      rw [← same]
      simp
    have sign_ : '-' ∈ sign := by
      simpa [api_, key_] using mem
    obtain rfl : sign = ['-'] := by
      rcases signs with rfl | rfl | rfl
      · cases sign_
      · exact absurd sign_ (by decide)
      · rfl
    have split : w ++ '-' :: (h :: x) = api ++ '-' :: key := by simpa using same
    obtain ⟨-, -, rfl⟩ := (List.append_cons_inj_of_notMem api_ key_).mp split.symm
    cases readsKey with
    | cons first _ => exact first
  all_goals exact absurd (by simp) (literal (by decide) isName)

/-- An assignment goes over the end of a text whose last character is in no word, and over a letter,
only with its value. -/
theorem opens_of_over (lawful : Lawful A) (assignment : IsAssignment A k (w ++ h :: x)) (ne : w ≠ [])
    (last : ∀ c ∈ w.getLast?, A.word c = false) (letter : A.word h = true)
    (other : reads A 'k' h = false) : Opens A k w := by
  obtain ⟨name, gap, run, same, isName, isGap, -, all⟩ := assignment
  have stuck (mem : h ∈ gap) : False := by
    rw [word_of_mem_gap lawful isGap mem] at letter
    cases letter
  rw [List.append_assoc] at same
  rcases List.append_eq_append_iff.mp same with ⟨z, rfl, rest⟩ | ⟨z, rfl, rest⟩
  · cases z with
    | nil =>
      obtain ⟨g, gap, rfl⟩ := List.exists_cons_of_ne_nil isGap.ne_nil
      obtain ⟨rfl, -⟩ := List.cons.inj rest
      exact (stuck (by simp)).elim
    | cons y z =>
      obtain ⟨rfl, -⟩ := List.cons.inj rest
      rw [reads_of_name_over lawful isName ne last] at other
      cases other
  · rcases List.append_eq_append_iff.mp rest with ⟨y, rfl, rest'⟩ | ⟨y, rfl, rest'⟩
    · exact ⟨name, gap, y, by simp, isName, isGap, fun c mem => all c (by rw [rest']; simp [mem])⟩
    · cases y with
      | nil => exact ⟨name, z, [], by simp, isName, by simpa using isGap, by simp⟩
      | cons y ys =>
        obtain ⟨rfl, -⟩ := List.cons.inj rest'
        exact (stuck (by simp)).elim

/-- What is open at the end of a text goes over it when a letter follows. -/
theorem runsOver_of_opens (lawful : Lawful A) (opens : Opens A k w) (ne : w ≠ [])
    (boundary : atBoundary A.word ⟨before, w⟩ = true) (letter : unquoted A h = true) :
    RunsOver A k before w (h :: t) := by
  obtain ⟨name, gap, run, same, isName, isGap, all⟩ := opens
  have taken : (h :: t).takeWhile (unquoted A) = h :: t.takeWhile (unquoted A) :=
    List.takeWhile_cons_of_pos letter
  have split : w ++ h :: t =
      (w ++ (h :: t).takeWhile (unquoted A)) ++ (h :: t).dropWhile (unquoted A) := by
    rw [List.append_assoc, List.takeWhile_append_dropWhile]
  refine ⟨_, (taken_pattern lawful).mpr ⟨_, _, split, ⟨?_, ?_, ends_dropWhile⟩, rfl⟩, ?_⟩
  · rw [← split]
    obtain ⟨c, w, rfl⟩ := List.exists_cons_of_ne_nil ne
    exact boundary
  · refine ⟨name, gap, run ++ (h :: t).takeWhile (unquoted A), by simp [same], isName, isGap, ?_, ?_⟩
    · simp [taken]
    · intro c mem
      exact (List.mem_append.mp mem).elim (all c) fun mem => List.mem_takeWhile_imp mem
  · rw [taken, List.length_append]
    simp

/-- No match that begins in a text goes over into a word that follows, when the text is sealed. -/
theorem sealed_of_not_runsOver (lawful : Lawful A) (letter : unquoted A h = true)
    (not : ∀ u w, s = u ++ w → w ≠ [] → ¬ RunsOver A k (u.getLast?.or before) w (h :: t)) :
    Sealed A k before s :=
  fun u w split ne boundary opens =>
    not u w split ne (runsOver_of_opens lawful opens ne boundary letter)

/-- A sealed text is redacted on its own, when a word follows. -/
theorem redact_append_of_sealed (lawful : Lawful A) (closed : Sealed A k before s)
    (last : ∀ c ∈ s.getLast?, A.word c = false) (letter : A.word h = true)
    (other : reads A 'k' h = false) : redact A k before (s ++ h :: t) =
      redact A k before s ++ redact A k (s.getLast?.or before) (h :: t) := by
  refine redact_append lawful fun u w m rest split ne same starts => ?_
  by_contra beyond
  rcases List.append_eq_append_iff.mp same with ⟨x, rfl, rest_⟩ | ⟨x, rfl, -⟩
  · cases x with
    | nil => simp at beyond
    | cons y x =>
      obtain ⟨rfl, rfl⟩ := List.cons.inj rest_
      refine closed u w split ne ?_ (opens_of_over lawful starts.assignment ne ?_ letter other)
      · have boundary := starts.boundary
        obtain ⟨c, w, rfl⟩ := List.exists_cons_of_ne_nil ne
        exact boundary
      · intro c mem
        refine last c ?_
        rw [split, List.getLast?_append, Option.mem_def.mp mem]
        rfl
  · simp at beyond

end Open

section Within

/-- A text in which nothing begins stays as it is. -/
theorem redact_of_not_starts (lawful : Lawful A) (not : ∀ u w m rest, s = u ++ w → w ≠ [] →
      w ++ t = m ++ rest → ¬ Starts A k (u.getLast?.or before) m rest) :
    redact A k before (s ++ t) = s ++ redact A k (s.getLast?.or before) t := by
  induction s generalizing before with
  | nil => simp
  | cons c s ih =>
    have here : ∀ m rest, c :: (s ++ t) = m ++ rest → ¬ Starts A k before m rest :=
      fun m rest split => not [] (c :: s) m rest rfl (by simp) split
    rw [List.cons_append, redact_char lawful here, ih, getLast?_cons_or]
    · rfl
    · intro u w m rest split ne same starts
      refine not (c :: u) w m rest (by rw [split]; rfl) ne same ?_
      rwa [getLast?_cons_or]

theorem word_of_mem_text (lawful : Lawful A) (mem : c ∈ k.text) : A.word c = true := by
  have letters : k.text.all (fun c => c.toNat < 128 && Alphabet.ascii.word c) = true := by
    cases k <;> decide
  have letter := List.all_eq_true.mp letters c mem
  rw [Bool.and_eq_true, decide_eq_true_eq] at letter
  rw [lawful.word c letter.1, letter.2]

/-- The letters of one keyword are not read for those of another. -/
theorem not_opens_text (lawful : Lawful A) (ne : k' ≠ k) {rest : Text}
    (same : k.text ++ t = w ++ rest) : ¬ Opens A k' w := by
  intro opens
  obtain ⟨x, y, rest, rfl, first, second⟩ := opens.initials
  have text : ∃ rest, k.text = k.initials.1 :: k.initials.2 :: rest := by
    cases k <;> exact ⟨_, rfl⟩
  obtain ⟨rest', text⟩ := text
  rw [text, List.cons_append, List.cons_append, List.cons_append, List.cons_append] at same
  obtain ⟨one, same⟩ := List.cons.inj same
  obtain ⟨two, -⟩ := List.cons.inj same
  rw [← one, reads_ascii lawful (by cases k <;> decide) (by cases k' <;> decide)] at first
  rw [← two, reads_ascii lawful (by cases k <;> decide) (by cases k' <;> decide)] at second
  revert ne first second
  cases k <;> cases k' <;> decide

/-- The pattern of another keyword leaves a keyword and what stands before its value. -/
theorem redact_keyword (lawful : Lawful A) (ne : k' ≠ k) (isGap : Gap A gap) :
    redact A k' before ((k.text ++ gap) ++ t) =
      (k.text ++ gap) ++ redact A k' gap.getLast? t := by
  have last : (k.text ++ gap).getLast?.or before = gap.getLast? := by
    rw [getLast?_append_or (by cases k <;> decide)]
    obtain ⟨c, same⟩ := Option.isSome_iff_exists.mp (List.getLast?_isSome.mpr isGap.ne_nil)
    rw [same]
    rfl
  rw [redact_of_not_starts lawful, last]
  intro u w m rest split some_ same starts
  obtain ⟨c, w, rfl⟩ := List.exists_cons_of_ne_nil some_
  obtain ⟨d, m, rfl⟩ := List.exists_cons_of_ne_nil starts.assignment.ne_nil
  obtain ⟨rfl, same⟩ := List.cons.inj same
  have word := word_of_opens lawful starts.assignment.opens
  rcases List.append_eq_append_iff.mp split with ⟨z, rfl, inGap⟩ | ⟨z, inText, inGap⟩
  · rw [word_of_mem_gap lawful isGap (by rw [inGap]; simp)] at word
    cases word
  · cases z with
    | nil =>
      rw [word_of_mem_gap lawful isGap (c := c) (by rw [← List.nil_append gap, ← inGap]; simp)] at word
      cases word
    | cons e z =>
      obtain ⟨rfl, inGap⟩ := List.cons.inj inGap
      cases u using List.reverseRecOn with
      | nil =>
        -- The keyword itself would be the name of another.
        have keyword : k.text ++ (gap ++ t) = c :: m ++ rest := by
          rw [← same, inGap, inText]
          simp
        exact not_opens_text lawful ne keyword starts.assignment.opens
      | append_singleton u b =>
        -- The place is inside of the keyword, where no word begins.
        have before_ : A.word b = true := word_of_mem_text (k := k) lawful (by rw [inText]; simp)
        have boundary := starts.boundary
        rw [List.getLast?_concat, Option.some_or] at boundary
        simp [atBoundary, before_, word] at boundary

variable (A k) in
/-- No match that begins in a value goes over its end. -/
def Held (before : Option Char) (value post : Text) : Prop :=
  ∀ u w, value = u ++ w → w ≠ [] → ¬ RunsOver A k (u.getLast?.or before) w post

theorem redact_append_of_held (lawful : Lawful A) (held : Held A k before value post) :
    redact A k before (value ++ post) =
      redact A k before value ++ redact A k (value.getLast?.or before) post := by
  refine redact_append lawful fun u w m rest split ne same starts => ?_
  by_contra beyond
  refine held u w split ne ⟨m.length, ?_, by omega⟩
  rw [same]
  exact taken_of_starts lawful starts

/-- A value stays as it is, or ends with a bracket afterwards, and has no white space and no quote. -/
theorem redact_value (lawful : Lawful A) (before : Option Char) (all : ∀ c ∈ s, unquoted A c = true) :
    (redact A k before s = s ∨ ∃ t, redact A k before s = t ++ [']']) ∧
      (∀ c ∈ redact A k before s, unquoted A c = true) ∧ (s ≠ [] → redact A k before s ≠ []) := by
  have bracketed : ∀ c ∈ "[REDACTED]".toList, unquoted A c = true := by
    have ascii : "[REDACTED]".toList.all (fun c => c.toNat < 128 && !Alphabet.ascii.space c &&
        !isQuote c) = true := by decide
    intro c mem
    have plain := List.all_eq_true.mp ascii c mem
    simp only [Bool.and_eq_true, decide_eq_true_eq, Bool.not_eq_true'] at plain
    obtain ⟨⟨small, space⟩, quote⟩ := plain
    exact unquoted_eq_true.mpr ⟨by rw [lawful.space c small, space], quote⟩
  revert all
  induction before, s using redact_induction (k := k) (A := A) with
  | nil before => exact fun _ => ⟨.inl rfl, by simp, fun ne => absurd rfl ne⟩
  | char before c t not ih =>
    intro all
    obtain ⟨same, all', -⟩ := ih fun c mem => all c (List.mem_cons_of_mem _ mem)
    rw [redact_char lawful not]
    refine ⟨?_, List.forall_mem_cons.mpr ⟨all c List.mem_cons_self, all'⟩, by simp⟩
    rcases same with same | ⟨t', same⟩
    · exact .inl (by rw [same])
    · exact .inr ⟨c :: t', by rw [same]; rfl⟩
  | found before m rest starts ih =>
    intro all
    obtain rfl : rest = [] := by
      cases rest with
      | nil => rfl
      | cons c rest =>
        have ends := starts.ends c rfl
        rw [all c (by simp)] at ends
        cases ends
    rw [redact_found lawful starts, redact_nil, List.append_nil]
    exact ⟨.inr ⟨"[REDACTED".toList, rfl⟩, bracketed, by simp⟩

/-- What ends a value is what ended it. -/
theorem ends_redact (lawful : Lawful A) (before : Option Char) (ends : Ends A post) : Ends A (redact A k before post) := by
  cases post with
  | nil => exact ends
  | cons c post =>
    rw [redact_of_ends lawful (ends c rfl)]
    exact ends

/-- What stands in a text after a pattern was applied, and before the first bracket, stood there. -/
theorem exists_of_redact (lawful : Lawful A) {r : Char} {z y : Text} (value : unquoted A r = true)
    (bracket : '[' ∉ z) (same : redact A k before s = z ++ r :: y) :
    ∃ r' y', s = z ++ r' :: y' ∧ unquoted A r' = true := by
  induction before, s using redact_induction (k := k) (A := A) generalizing z with
  | nil before => simp at same
  | char before c t not ih =>
    rw [redact_char lawful not] at same
    cases z with
    | nil =>
      obtain ⟨rfl, -⟩ := List.cons.inj same
      exact ⟨c, t, rfl, value⟩
    | cons d z =>
      obtain ⟨rfl, same'⟩ := List.cons.inj same
      obtain ⟨r', y', rfl, value'⟩ := ih (fun mem => bracket (List.mem_cons_of_mem _ mem)) same'
      exact ⟨r', y', rfl, value'⟩
  | found before m rest starts ih =>
    rw [redact_found lawful starts] at same
    cases z with
    | nil =>
      obtain ⟨c, m, rfl⟩ := List.exists_cons_of_ne_nil starts.assignment.ne_nil
      exact ⟨c, m ++ rest, rfl, unquoted_of_word lawful (word_of_opens lawful starts.assignment.opens)⟩
    | cons d z =>
      obtain ⟨rfl, -⟩ := List.cons.inj same
      exact absurd List.mem_cons_self bracket

/-- No match goes over the end of a value after the pattern of a keyword that did not before. -/
theorem held_redact (lawful : Lawful A) (all : ∀ c ∈ value, unquoted A c = true)
    (ends : Ends A post) (held : Held A k' before value post) {before' : Option Char} :
    Held A k' before (redact A k before value) (redact A k before' post) := by
  have ends' := ends_redact (k := k) lawful before' ends
  intro u w split ne beyond
  obtain ⟨n, taken, longer⟩ := beyond
  obtain ⟨m, rest, same, starts, rfl⟩ := (taken_pattern lawful).mp taken
  -- The match ends with something of what follows the value, which begins with what ended it.
  obtain ⟨d, x, rfl, rest_⟩ : ∃ d x, m = w ++ d :: x ∧ redact A k before' post = d :: x ++ rest := by
    rcases List.append_eq_append_iff.mp same with ⟨x, rfl, rest_⟩ | ⟨x, rfl, -⟩
    · cases x with
      | nil => simp at longer
      | cons d x => exact ⟨d, x, rfl, rest_⟩
    · rw [List.length_append] at longer
      omega
  have quoted : unquoted A d = false := ends' d (by rw [rest_]; rfl)
  rcases (redact_value (k := k) lawful before all).1 with kept | ⟨t, bracketed⟩
  · rw [kept] at split
    have inValue : ∀ c ∈ w, unquoted A c = true := fun c mem => all c (by rw [split]; simp [mem])
    obtain ⟨name, gap, run, parts, isName, isGap, some_, value_⟩ := starts.assignment
    -- The value of the match begins after that.
    obtain ⟨z, front, run_⟩ : ∃ z, name ++ gap = w ++ z ∧ d :: x = z ++ run := by
      rcases List.append_eq_append_iff.mp parts with ⟨z, front, run_⟩ | ⟨z, front, run_⟩
      · exact ⟨z, front, run_⟩
      · rw [value_ d (by rw [run_]; simp)] at quoted
        cases quoted
    obtain ⟨r, run, rfl⟩ := List.exists_cons_of_ne_nil some_
    have bracket : '[' ∉ z := fun mem =>
      bracket_not_mem lawful isName isGap (.inl rfl) (by rw [front]; simp [mem])
    have after : redact A k before' post = z ++ r :: (run ++ rest) := by
      rw [rest_, run_]
      simp
    obtain ⟨r', y, rfl, value'⟩ := exists_of_redact lawful (value_ r (by simp)) bracket after
    have boundary : atBoundary A.word ⟨u.getLast?.or before, w ++ z⟩ = true := by
      have boundary := starts.boundary
      obtain ⟨c, w, rfl⟩ := List.exists_cons_of_ne_nil ne
      exact boundary
    obtain ⟨n, found, long⟩ := runsOver_of_opens (t := y) lawful
      ⟨name, gap, [], by rw [front, List.append_nil], isName, isGap, by simp⟩ (by simp [ne])
      boundary value'
    refine held u w split ne ⟨n, by rwa [List.append_assoc] at found, ?_⟩
    rw [List.length_append] at long
    omega
  · -- The bracket would be in a match, before what ends a value.
    obtain ⟨w, c, rfl⟩ := List.eq_nil_or_concat w |>.resolve_left ne
    obtain rfl : c = ']' := by
      rw [bracketed] at split
      have last := congrArg List.getLast? split
      simpa [List.concat_eq_append] using last.symm
    have opens := starts.assignment.opens
    rw [List.concat_eq_append, List.append_assoc, List.singleton_append] at opens
    rw [not_opens_bracket lawful (.inr rfl) opens] at quoted
    cases quoted

end Within

section Message

variable {value' : Text} {errorType : Text} {context : Option String} {level : SanitizationLevel}

/-- A message with a credential: a keyword, what stands before the value, and the value. -/
def messageOf (k : Keyword) (pre gap value post : Text) : Text :=
  pre ++ ((k.text ++ gap) ++ (value ++ post))

variable (A k) in
/-- A credential that its own pattern takes: the keyword begins a word, the value has no white space
and no quote and goes up to one, and no pattern that is applied until then matches over the beginning
of the keyword, or from within the value over its end. -/
structure Redactable (pre gap value post : Text) : Prop where
  boundary : ∀ c ∈ pre.getLast?, A.word c = false
  isGap : Gap A gap
  some : value ≠ []
  plain : ∀ c ∈ value, unquoted A c = true
  ends : Ends A post
  before : ∀ k' ∈ k :: k.earlier, ∀ u w, pre = u ++ w → w ≠ [] →
    ¬ RunsOver A k' u.getLast? w ((k.text ++ gap) ++ (value ++ post))
  within : ∀ k' ∈ k.earlier, Held A k' gap.getLast? value post

variable (A k) in
/-- A credential before its own pattern is applied, in a message that others were applied to. -/
structure Ready (pre gap value post : Text) : Prop where
  boundary : ∀ c ∈ pre.getLast?, A.word c = false
  isGap : Gap A gap
  some : value ≠ []
  plain : ∀ c ∈ value, unquoted A c = true
  ends : Ends A post
  closed : ∀ k' ∈ k :: k.earlier, Sealed A k' none pre
  held : ∀ k' ∈ k.earlier, Held A k' gap.getLast? value post

theorem exists_letter (lawful : Lawful A) (k : Keyword) : ∃ h rest, k.text = h :: rest ∧
    A.word h = true ∧ reads A 'k' h = false := by
  have first : ∃ rest, k.text = k.initials.1 :: rest := by cases k <;> exact ⟨_, rfl⟩
  obtain ⟨rest, text⟩ := first
  refine ⟨_, rest, text, word_of_mem_text (k := k) lawful (by rw [text]; simp), ?_⟩
  rw [reads_ascii lawful (by cases k <;> decide) (by decide)]
  cases k <;> decide

theorem Redactable.ready (lawful : Lawful A) (r : Redactable A k pre gap value post) :
    Ready A k pre gap value post := by
  refine ⟨r.boundary, r.isGap, r.some, r.plain, r.ends, fun k' mem => ?_, r.within⟩
  obtain ⟨h, rest, text, word, -⟩ := exists_letter lawful k
  refine sealed_of_not_runsOver (h := h) (t := rest ++ gap ++ (value ++ post)) lawful
    (unquoted_of_word lawful word) fun u w split ne beyond => r.before k' mem u w split ne ?_
  rw [Option.or_none] at beyond
  rw [text]
  exact beyond

theorem redact_before (lawful : Lawful A) (ends : Ends A post) :
    redact A k before post = redact A k none post := by
  cases post with
  | nil => rfl
  | cons c post => rw [redact_of_ends lawful (ends c rfl), redact_of_ends lawful (ends c rfl)]

/-- A pattern that is applied before changes the parts of a message on their own. -/
theorem Ready.step (lawful : Lawful A) (r : Ready A k pre gap value post) (mem : k' ∈ k.earlier) :
    redact A k' none (messageOf k pre gap value post) =
        messageOf k (redact A k' none pre) gap (redact A k' gap.getLast? value)
          (redact A k' none post) ∧
      Ready A k (redact A k' none pre) gap (redact A k' gap.getLast? value)
        (redact A k' none post) := by
  obtain ⟨h, rest, text, word, key⟩ := exists_letter lawful k
  have other : k' ≠ k := by
    rintro rfl
    cases k' <;> exact absurd mem (by decide)
  have closed := r.closed k' (List.mem_cons_of_mem _ mem)
  constructor
  · have front : redact A k' none (messageOf k pre gap value post) = redact A k' none pre ++
        redact A k' (pre.getLast?.or none) ((k.text ++ gap) ++ (value ++ post)) := by
      rw [messageOf, text]
      exact redact_append_of_sealed lawful closed r.boundary word key
    rw [front, redact_keyword lawful other r.isGap, redact_append_of_held lawful (r.held k' mem),
      redact_before lawful r.ends, messageOf]
  · obtain ⟨-, all, some_⟩ := redact_value (k := k') lawful gap.getLast? r.plain
    refine ⟨?_, r.isGap, some_ r.some, all, ends_redact lawful none r.ends, fun k'' mem' => ?_,
      fun k'' mem' => ?_⟩
    · rw [getLast?_redact lawful closed]
      exact r.boundary
    · exact sealed_redact lawful closed (r.closed k'' mem')
    · exact held_redact lawful r.plain r.ends (r.held k'' mem')

/-- The patterns that are applied before leave the credential with another value. -/
theorem Ready.run (lawful : Lawful A) (ks : List Keyword) (all : ∀ k' ∈ ks, k' ∈ k.earlier)
    (r : Ready A k pre gap value post) : ∃ value',
      subAll A "[REDACTED]" (ks.map (·.pattern A)) (messageOf k pre gap value post) =
          messageOf k (subAll A "[REDACTED]" (ks.map (·.pattern A)) pre) gap value'
            (subAll A "[REDACTED]" (ks.map (·.pattern A)) post) ∧
        Ready A k (subAll A "[REDACTED]" (ks.map (·.pattern A)) pre) gap value'
          (subAll A "[REDACTED]" (ks.map (·.pattern A)) post) := by
  induction ks generalizing pre value post with
  | nil => exact ⟨value, rfl, r⟩
  | cons k' ks ih =>
    obtain ⟨same, later⟩ := r.step lawful (all k' List.mem_cons_self)
    obtain ⟨value', run, ready⟩ := ih (fun k'' mem => all k'' (List.mem_cons_of_mem _ mem)) later
    refine ⟨value', ?_, ready⟩
    rw [← same] at run
    exact run

theorem isName_text (k : Keyword) : IsName A k k.text := by
  have self (lit : Text) : Reads A lit lit := by
    refine List.forall₂_same.mpr fun p _ => ?_
    simp [reads]
  cases k
  case apiKey => exact ⟨"api".toList, ['_'], "key".toList, rfl, self _, .inr (.inl rfl), self _⟩
  all_goals exact self _

/-- The pattern of the keyword takes the credential. -/
theorem Ready.own (lawful : Lawful A) (r : Ready A k pre gap value post) :
    redact A k none (messageOf k pre gap value post) =
      redact A k none pre ++ "[REDACTED]".toList ++ redact A k none post := by
  obtain ⟨h, rest, text, word, key⟩ := exists_letter lawful k
  have front : redact A k none (messageOf k pre gap value post) = redact A k none pre ++
      redact A k (pre.getLast?.or none) ((k.text ++ gap) ++ (value ++ post)) := by
    rw [messageOf, text]
    exact redact_append_of_sealed lawful (r.closed k List.mem_cons_self) r.boundary word key
  have starts : Starts A k (pre.getLast?.or none) (k.text ++ gap ++ value) post := by
    refine ⟨?_, ⟨k.text, gap, value, rfl, isName_text k, r.isGap, r.some, r.plain⟩, r.ends⟩
    rw [text, Option.or_none]
    have last := r.boundary
    cases end_ : pre.getLast? with
    | none => simp [atBoundary, word]
    | some c =>
      rw [end_] at last
      simp [atBoundary, word, last c rfl]
  rw [front, ← List.append_assoc (k.text ++ gap), redact_found lawful starts,
    redact_before lawful r.ends, List.append_assoc]

/-- The result does not depend on the value. -/
theorem exists_redacted (lawful : Lawful A) (k : Keyword) (pre gap post : Text) : ∃ out, ∀ value,
    Redactable A k pre gap value post →
      subAll A "[REDACTED]" (credentialPatterns A) (messageOf k pre gap value post) = out := by
  obtain ⟨later, patterns⟩ := exists_credentialPatterns A k
  let front := subAll A "[REDACTED]" (k.earlier.map (·.pattern A)) pre
  let back := subAll A "[REDACTED]" (k.earlier.map (·.pattern A)) post
  refine ⟨subAll A "[REDACTED]" later
    (redact A k none front ++ "[REDACTED]".toList ++ redact A k none back), fun value r => ?_⟩
  obtain ⟨value', same, ready⟩ := (r.ready lawful).run lawful k.earlier fun _ mem => mem
  rw [patterns, subAll, List.foldl_append]
  change subAll A "[REDACTED]" later (redact A k none (subAll A "[REDACTED]" _ _)) = _
  rw [same, ready.own lawful]

theorem not_word_of_space_ascii {c : Char} (space : Alphabet.ascii.space c = true) :
    Alphabet.ascii.word c = false := by
  have small : c.toNat ≤ 32 := by
    simp only [Alphabet.ascii, Bool.or_eq_true, Bool.and_eq_true, decide_eq_true_eq, beq_iff_eq] at space
    rcases space with (rfl | ⟨-, le⟩) | ⟨-, le⟩
    · decide
    · exact Nat.le_trans (UInt32.le_iff_toNat_le.mp le) (by decide)
    · exact Nat.le_trans (UInt32.le_iff_toNat_le.mp le) (by decide)
  by_contra word
  simp only [Alphabet.ascii] at word
  unfold Char.isAlphanum Char.isAlpha Char.isUpper Char.isLower Char.isDigit at word
  simp [UInt32.le_iff_toNat_le] at word
  obtain rfl := word (by omega) (by omega) (by omega)
  exact absurd small (by decide)

theorem lawful_ascii : Lawful Alphabet.ascii where
  word _ _ := rfl
  space _ _ := rfl
  variants _ _ _ _ := Iff.rfl
  word_of_variant c d _ mem := by
    simp only [Alphabet.ascii] at mem ⊢
    split at mem
    · rename_i upper
      unfold Char.isAlphanum Char.isAlpha
      simp [upper]
    · split at mem
      · rename_i lower
        unfold Char.isAlphanum Char.isAlpha
        simp [lower]
      · cases mem
  not_word_of_space _ space := not_word_of_space_ascii space

end Message

end Sanitizer

end OmniMemory
