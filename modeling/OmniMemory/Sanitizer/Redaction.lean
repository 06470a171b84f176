import OmniMemory.Sanitizer.Assignment

/-! What the pattern of a keyword makes of a text: assignments are found from left to right, each up
to the end of its value, and what stands in another part of the text is not touched when none goes
over. -/

namespace OmniMemory

open Regular Regex

namespace Sanitizer

variable {A : Alphabet} {k : Keyword} {before : Option Char} {s t u w m rest : Text} {c : Char}

section Starts

variable (A k) in
/-- A keyword with the value that is assigned to it. -/
def IsAssignment (m : Text) : Prop :=
  ∃ name gap run, m = name ++ gap ++ run ∧ IsName A k name ∧ Gap A gap ∧ run ≠ [] ∧
    ∀ c ∈ run, unquoted A c = true

variable (A k) in
/-- An assignment begins a word, and its value goes up to what follows. -/
structure Starts (before : Option Char) (m rest : Text) : Prop where
  boundary : atBoundary A.word ⟨before, m ++ rest⟩ = true
  assignment : IsAssignment A k m
  ends : Ends A rest

/-- The pattern of a keyword takes one assignment. -/
theorem taken_pattern (lawful : Lawful A) {n : ℕ} :
    (k.pattern A).taken A.word ⟨before, t⟩ = some n ↔
      ∃ m rest, t = m ++ rest ∧ Starts A k before m rest ∧ n = m.length := by
  have blind : (seq (k.name A) (assignedValue A)).isBlind = true := by
    rw [isBlind, isBlind_name, isBlind_assignedValue]
    rfl
  obtain ⟨r, names, isName⟩ := rests_name (k := k) (t := t) lawful
  have head : (rests A.word (seq (k.name A) (assignedValue A)) t).head? =
      r.bind fun t => (rests A.word (assignedValue A) t).head? := by
    rw [rests_seq isBlind_assignedValue, names]
    cases r with
    | none => rfl
    | some t => rw [Option.toList_some, List.flatMap_singleton, Option.bind_some]
  rw [Keyword.pattern, assignmentPattern, taken_boundary blind]
  dsimp only
  rw [head]
  constructor
  · intro found
    split at found
    · rename_i boundary
      obtain ⟨rest, bound, rfl⟩ := Option.map_eq_some_iff.mp found
      obtain ⟨t', name_, value⟩ := Option.bind_eq_some_iff.mp bound
      obtain ⟨name, rfl, isName_⟩ := (isName t').mp name_
      obtain ⟨gap, run, rfl, isGap, ne, all, ends⟩ := (head?_rests_assignedValue lawful).mp value
      refine ⟨name ++ gap ++ run, rest, by simp, ⟨?_, ⟨name, gap, run, rfl, isName_, isGap, ne, all⟩,
        ends⟩, by simp; omega⟩
      simpa using boundary
    · cases found
  · rintro ⟨m, rest, rfl, ⟨boundary, ⟨name, gap, run, rfl, isName_, isGap, ne, all⟩, ends⟩, rfl⟩
    have value := (head?_rests_assignedValue lawful).mpr ⟨gap, run, rfl, isGap, ne, all, ends⟩
    have name_ := (isName (gap ++ run ++ rest)).mpr ⟨name, by simp, isName_⟩
    rw [if_pos boundary, name_, Option.bind_some, value]
    simp
    omega

theorem taken_of_starts (lawful : Lawful A) (starts : Starts A k before m rest) :
    (k.pattern A).taken A.word ⟨before, m ++ rest⟩ = some m.length :=
  (taken_pattern lawful).mpr ⟨m, rest, rfl, starts, rfl⟩

theorem taken_eq_none (lawful : Lawful A)
    (not : ∀ m rest, t = m ++ rest → ¬ Starts A k before m rest) :
    (k.pattern A).taken A.word ⟨before, t⟩ = none := by
  rw [Option.eq_none_iff_forall_ne_some]
  intro n found
  obtain ⟨m, rest, split, starts, -⟩ := (taken_pattern lawful).mp found
  exact not m rest split starts

/-- At most one assignment begins at a place. -/
theorem Starts.unique (lawful : Lawful A) {m' rest' : Text} (starts : Starts A k before m rest)
    (starts' : Starts A k before m' rest') (same : m ++ rest = m' ++ rest') : m = m' := by
  have length := taken_of_starts lawful starts
  rw [same, taken_of_starts lawful starts', Option.some.injEq] at length
  exact List.append_inj_left same length.symm

theorem IsAssignment.ne_nil (assignment : IsAssignment A k m) : m ≠ [] := by
  obtain ⟨name, gap, run, rfl, -, -, ne, -⟩ := assignment
  simp [ne]

/-- The value of an assignment may be longer. -/
theorem IsAssignment.append (assignment : IsAssignment A k m)
    (all : ∀ c ∈ t, unquoted A c = true) : IsAssignment A k (m ++ t) := by
  obtain ⟨name, gap, run, rfl, isName, isGap, ne, value⟩ := assignment
  refine ⟨name, gap, run ++ t, by simp, isName, isGap, by simp [ne], fun c mem => ?_⟩
  exact (List.mem_append.mp mem).elim (value c) (all c)

theorem ends_dropWhile : Ends A (t.dropWhile (unquoted A)) := by
  intro c mem
  have last := List.head?_dropWhile_not (unquoted A) t
  rw [Option.mem_def.mp mem] at last
  exact last

theorem ends_append (ne : s ≠ []) : Ends A (s ++ t) ↔ Ends A s := by
  obtain ⟨c, s, rfl⟩ := List.exists_cons_of_ne_nil ne
  rfl

end Starts

section Redact

variable (A k) in
/-- What the pattern of a keyword makes of the text after a character. -/
def redact (before : Option Char) (t : Text) : Text :=
  ((k.pattern A).pieces A.word before t).flatMap (Piece.replaced "[REDACTED]".toList)

@[simp] theorem redact_nil : redact A k before [] = [] := rfl

theorem redact_char (lawful : Lawful A)
    (not : ∀ m rest, c :: t = m ++ rest → ¬ Starts A k before m rest) :
    redact A k before (c :: t) = c :: redact A k (some c) t := by
  rw [redact, pieces_char (.inl (taken_eq_none lawful not))]
  rfl

theorem redact_found (lawful : Lawful A) (starts : Starts A k before m rest) :
    redact A k before (m ++ rest) = "[REDACTED]".toList ++ redact A k m.getLast? rest := by
  rw [redact, pieces_found (taken_of_starts lawful starts) starts.assignment.ne_nil]
  rfl

/-- Induction along what the pattern finds. -/
theorem redact_induction {motive : Option Char → Text → Prop} (nil : ∀ before, motive before [])
    (char : ∀ before c t, (∀ m rest, c :: t = m ++ rest → ¬ Starts A k before m rest) →
      motive (some c) t → motive before (c :: t))
    (found : ∀ before m rest, Starts A k before m rest → motive m.getLast? rest →
      motive before (m ++ rest)) (before : Option Char) (t : Text) : motive before t := by
  induction length : t.length using Nat.strong_induction_on generalizing before t with
  | _ n ih =>
    cases t with
    | nil => exact nil before
    | cons c t =>
      by_cases starts : ∃ m rest, c :: t = m ++ rest ∧ Starts A k before m rest
      · obtain ⟨m, rest, split, starts⟩ := starts
        have pos := List.length_pos_iff.mpr starts.assignment.ne_nil
        rw [split] at length ⊢
        exact found before m rest starts (ih rest.length (by simp at length; omega) _ _ rfl)
      · refine char before c t (fun m rest split begins => starts ⟨m, rest, split, begins⟩) ?_
        exact ih t.length (by simp at length; omega) _ _ rfl

/-- A text out of which no assignment goes is redacted on its own. -/
theorem redact_append (lawful : Lawful A) (within : ∀ u w m rest, s = u ++ w → w ≠ [] →
      w ++ t = m ++ rest → Starts A k (u.getLast?.or before) m rest → m.length ≤ w.length) :
    redact A k before (s ++ t) = redact A k before s ++ redact A k (s.getLast?.or before) t := by
  rw [redact, pieces_append, List.flatMap_append]
  · rfl
  intro u w split ne
  have boundary : atBoundary A.word ⟨u.getLast?.or before, w ++ t⟩ =
      atBoundary A.word ⟨u.getLast?.or before, w⟩ := by
    obtain ⟨c, w, rfl⟩ := List.exists_cons_of_ne_nil ne
    rfl
  refine Option.ext fun n => ?_
  rw [taken_pattern lawful, taken_pattern lawful]
  constructor
  · rintro ⟨m, rest, same, starts, rfl⟩
    have le := within u w m rest split ne same starts
    obtain ⟨z, rfl, rfl⟩ : ∃ z, w = m ++ z ∧ rest = z ++ t := by
      rcases List.append_eq_append_iff.mp same with ⟨z, split, rest_⟩ | ⟨z, split, rest_⟩
      · rw [split, List.length_append] at le
        obtain rfl := List.length_eq_zero_iff.mp (show z.length = 0 by omega)
        exact ⟨[], by rw [split, List.append_nil, List.append_nil], by simpa using rest_.symm⟩
      · exact ⟨z, split, rest_⟩
    refine ⟨m, z, rfl, ⟨?_, starts.assignment, ?_⟩, rfl⟩
    · rw [← boundary, List.append_assoc]
      exact starts.boundary
    · cases z with
      | nil => exact fun c mem => by cases mem
      | cons c z => exact starts.ends
  · rintro ⟨m, rest, rfl, ⟨begins, assignment, ends⟩, rfl⟩
    rw [← boundary] at begins
    by_cases goesOn : rest = [] ∧ ¬ Ends A t
    · obtain ⟨rfl, goesOn⟩ := goesOn
      -- The value would go on, and the assignment over the end of the text.
      have longer := within u (m ++ []) (m ++ t.takeWhile (unquoted A)) (t.dropWhile (unquoted A))
        split ne (by simp [List.takeWhile_append_dropWhile])
        ⟨by simpa [List.takeWhile_append_dropWhile] using begins,
          assignment.append fun c mem => List.mem_takeWhile_imp mem, ends_dropWhile⟩
      rw [List.append_nil, List.length_append] at longer
      have none_ := List.length_eq_zero_iff.mp
        (show (t.takeWhile (unquoted A)).length = 0 by omega)
      refine absurd ?_ goesOn
      rw [← List.takeWhile_append_dropWhile (p := unquoted A) (l := t), none_]
      exact ends_dropWhile
    · refine ⟨m, rest ++ t, by simp, ⟨by simpa using begins, assignment, ?_⟩, rfl⟩
      by_cases empty : rest = []
      · subst empty
        exact not_not.mp fun goes => goesOn ⟨rfl, goes⟩
      · exact (ends_append empty).mpr ends

end Redact

section Letters

variable {name gap : Text} {p : Char}

/-- What is read for a letter is a character of words. -/
theorem word_of_reads (lawful : Lawful A) (ascii : p.toNat < 128)
    (letter : Alphabet.ascii.word p = true) (reads_ : reads A p c = true) : A.word c = true := by
  rw [reads, Bool.or_eq_true, beq_iff_eq, List.any_beq', List.contains_iff_mem] at reads_
  rcases reads_ with rfl | variant
  · rw [lawful.word _ ascii, letter]
  · exact lawful.word_of_variant c p ascii variant

theorem word_of_mem_reads (lawful : Lawful A) {lit : Text}
    (letters : lit.all (fun p => p.toNat < 128 && Alphabet.ascii.word p) = true)
    (all : Reads A lit name) (mem : c ∈ name) : A.word c = true := by
  induction all with
  | nil => cases mem
  | cons first _ ih =>
    rw [List.all_cons, Bool.and_eq_true, Bool.and_eq_true, decide_eq_true_eq] at letters
    obtain ⟨letter, letters⟩ := letters
    rcases List.mem_cons.mp mem with rfl | mem
    · exact word_of_reads lawful letter.1 letter.2 first
    · exact ih letters mem

/-- The letters that a name begins with. -/
def Keyword.initials : Keyword → Char × Char
  | .password => ('p', 'a')
  | .apiKey => ('a', 'p')
  | .secret => ('s', 'e')
  | .token => ('t', 'o')
  | .auth => ('a', 'u')

theorem exists_initials (isName : IsName A k name) : ∃ x y rest, name = x :: y :: rest ∧
    reads A k.initials.1 x = true ∧ reads A k.initials.2 y = true := by
  have begins {p q : Char} {lit name : Text} (all : Reads A (p :: q :: lit) name) :
      ∃ x y rest, name = x :: y :: rest ∧ reads A p x = true ∧ reads A q y = true := by
    cases all with
    | cons first all =>
      cases all with
      | cons second all => exact ⟨_, _, _, rfl, first, second⟩
  cases k
  case apiKey =>
    obtain ⟨api, sign, key, rfl, readsApi, -, -⟩ := isName
    obtain ⟨x, y, rest, rfl, first, second⟩ := begins readsApi
    exact ⟨x, y, rest ++ sign ++ key, by simp, first, second⟩
  all_goals exact begins isName

/-- The characters of a name are those of words, and the sign of an API key. -/
theorem word_of_mem_name (lawful : Lawful A) (isName : IsName A k name) (mem : c ∈ name) :
    A.word c = true ∨ c = '-' := by
  cases k
  case apiKey =>
    obtain ⟨api, sign, key, rfl, readsApi, signs, readsKey⟩ := isName
    rcases List.mem_append.mp mem with mem | mem
    · rcases List.mem_append.mp mem with mem | mem
      · exact .inl (word_of_mem_reads lawful (by decide) readsApi mem)
      · rcases signs with rfl | rfl | rfl
        · cases mem
        · obtain rfl := List.mem_singleton.mp mem
          exact .inl (by rw [lawful.word _ (by decide)]; decide)
        · exact .inr (List.mem_singleton.mp mem)
    · exact .inl (word_of_mem_reads lawful (by decide) readsKey mem)
  all_goals exact .inl (word_of_mem_reads lawful (by decide) isName mem)

/-- No character of what stands before a value is one of words. -/
theorem word_of_mem_gap (lawful : Lawful A) (isGap : Gap A gap) (mem : c ∈ gap) :
    A.word c = false := by
  obtain ⟨spaces, separator, spaces', quote, rfl, all, separates, all', one⟩ := isGap
  simp only [List.mem_append, List.mem_cons] at mem
  rcases mem with mem | rfl | mem | mem
  · exact lawful.not_word_of_space c (all c mem)
  · rw [isSeparator, Bool.or_eq_true, beq_iff_eq, beq_iff_eq] at separates
    rcases separates with rfl | rfl <;> rw [lawful.word _ (by decide)] <;> decide
  · exact lawful.not_word_of_space c (all' c mem)
  · rcases one with rfl | ⟨q, isQuote_, rfl⟩
    · cases mem
    · obtain rfl := List.mem_singleton.mp mem
      rw [isQuote, Bool.or_eq_true, beq_iff_eq, beq_iff_eq] at isQuote_
      rcases isQuote_ with rfl | rfl <;> rw [lawful.word _ (by decide)] <;> decide

theorem Gap.ne_nil (isGap : Gap A gap) : gap ≠ [] := by
  obtain ⟨spaces, separator, spaces', quote, rfl, -⟩ := isGap
  simp

/-- A bracket is neither in a name nor between it and a value. -/
theorem bracket_not_mem (lawful : Lawful A) (isName : IsName A k name) (isGap : Gap A gap)
    (bracket : c = '[' ∨ c = ']') : c ∉ name ++ gap := by
  have other : A.word c = false := by
    rcases bracket with rfl | rfl <;> rw [lawful.word _ (by decide)] <;> decide
  intro mem
  rcases List.mem_append.mp mem with mem | mem
  · rcases word_of_mem_name lawful isName mem with word | rfl
    · rw [word] at other
      cases other
    · rcases bracket with same | same <;> cases same
  · obtain ⟨spaces, separator, spaces', quote, rfl, all, separates, all', one⟩ := isGap
    have space : A.space c = false := by
      rcases bracket with rfl | rfl <;> rw [lawful.space _ (by decide)] <;> decide
    simp only [List.mem_append, List.mem_cons] at mem
    rcases mem with mem | rfl | mem | mem
    · rw [all c mem] at space
      cases space
    · rcases bracket with rfl | rfl <;> exact absurd separates (by decide)
    · rw [all' c mem] at space
      cases space
    · rcases one with rfl | ⟨q, isQuote_, rfl⟩
      · cases mem
      · obtain rfl := List.mem_singleton.mp mem
        rcases bracket with rfl | rfl <;> exact absurd isQuote_ (by decide)

/-- A character of words is no white space and no quote. -/
theorem unquoted_of_word (lawful : Lawful A) (word : A.word c = true) : unquoted A c = true := by
  refine unquoted_eq_true.mpr ⟨?_, ?_⟩
  · by_contra space
    rw [lawful.not_word_of_space c (by simpa using space)] at word
    cases word
  · by_contra quote
    rw [Bool.not_eq_false, isQuote, Bool.or_eq_true, beq_iff_eq, beq_iff_eq] at quote
    rcases quote with rfl | rfl <;> rw [lawful.word _ (by decide)] at word <;>
      exact absurd word (by decide)

end Letters

end Sanitizer

end OmniMemory
