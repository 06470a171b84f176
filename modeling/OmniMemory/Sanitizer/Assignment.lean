import Mathlib.Data.List.TakeWhile
import OmniMemory.Lib.Remainders
import OmniMemory.Sanitizer.Patterns

/-! What the patterns of assigned credentials take: a keyword at the beginning of a word, a sign
between white space, a quote or none, and a value up to the next white space or quote. -/

namespace OmniMemory

open Regular Regex

namespace Sanitizer

/-- What is relied on of characters: ASCII ones are those of ASCII, white space is in no word, and
only what is in words is taken for an ASCII character. -/
structure Lawful (A : Alphabet) : Prop where
  word : ∀ c, c.toNat < 128 → A.word c = Alphabet.ascii.word c
  space : ∀ c, c.toNat < 128 → A.space c = Alphabet.ascii.space c
  variants : ∀ c d, c.toNat < 128 → d.toNat < 128 →
    (d ∈ A.variants c ↔ d ∈ Alphabet.ascii.variants c)
  word_of_variant : ∀ c d, d.toNat < 128 → d ∈ A.variants c → A.word c = true
  not_word_of_space : ∀ c, A.space c = true → A.word c = false

/-- The words that a credential is assigned to. -/
inductive Keyword where
  | password
  | apiKey
  | secret
  | token
  | auth
deriving DecidableEq

namespace Keyword

def text : Keyword → Text
  | password => "password".toList
  | apiKey => "api_key".toList
  | secret => "secret".toList
  | token => "token".toList
  | auth => "auth".toList

/-- The keywords whose patterns are applied before. -/
def earlier : Keyword → List Keyword
  | password => []
  | apiKey => [password]
  | secret => [password, apiKey]
  | token => [password, apiKey, secret]
  | auth => [password, apiKey, secret, token]

/-- The pattern of the name. -/
def name (A : Alphabet) : Keyword → Regex
  | password => A.literal "password"
  | apiKey => apiKeyName A
  | secret => A.literal "secret"
  | token => A.literal "token"
  | auth => A.literal "auth"

def pattern (A : Alphabet) (k : Keyword) : Regex := assignmentPattern A (k.name A)

end Keyword

theorem exists_credentialPatterns (A : Alphabet) (k : Keyword) : ∃ later,
    credentialPatterns A = k.earlier.map (·.pattern A) ++ k.pattern A :: later := by
  cases k <;> exact ⟨_, rfl⟩

section Strip

variable {A : Alphabet} {lit s t rest : Text} {p x : Char}

variable (A) in
/-- A character is read for one of a literal. -/
def reads (p x : Char) : Bool := x == p || (A.variants x).any (· == p)

variable (A) in
/-- What is left after a literal. -/
def strip : Text → Text → Option Text
  | [], t => some t
  | _ :: _, [] => none
  | p :: lit, x :: t => if reads A p x then strip lit t else none

theorem isBlind_sequence {rs : List Regex} : (sequence rs).isBlind = rs.all isBlind := by
  induction rs with
  | nil => rfl
  | cons r rs ih => rw [Regex.sequence, isBlind, ih, List.all_cons]

theorem isBlind_literal {lit : String} : (A.literal lit).isBlind = true := by
  rw [Alphabet.literal, isBlind_sequence, List.all_eq_true]
  intro r mem
  obtain ⟨p, -, rfl⟩ := List.mem_map.mp mem
  rfl

theorem rests_literal {lit : String} :
    rests A.word (A.literal lit) t = (strip A lit.toList t).toList := by
  rw [Alphabet.literal]
  induction lit.toList generalizing t with
  | nil => rfl
  | cons p lit ih =>
    have blind : (sequence (lit.map fun c => A.anyCase (· == c))).isBlind = true := by
      rw [isBlind_sequence, List.all_eq_true]
      intro r mem
      obtain ⟨p, -, rfl⟩ := List.mem_map.mp mem
      rfl
    rw [List.map_cons, Regex.sequence, rests_seq blind]
    cases t with
    | nil => rfl
    | cons x t =>
      rw [Alphabet.anyCase, rests_set_cons, strip]
      change List.flatMap _ (if reads A p x = true then [t] else []) = _
      split
      · rw [List.flatMap_singleton, ih]
      · rfl

variable (A) in
/-- A text that a literal is read as. -/
def Reads (lit name : Text) : Prop := List.Forall₂ (fun p x => reads A p x = true) lit name

theorem strip_eq_some : strip A lit t = some rest ↔ ∃ name, t = name ++ rest ∧ Reads A lit name := by
  induction lit generalizing t with
  | nil =>
    rw [strip, Option.some.injEq]
    constructor
    · rintro rfl
      exact ⟨[], rfl, .nil⟩
    · rintro ⟨name, rfl, all⟩
      cases all
      rfl
  | cons p lit ih =>
    cases t with
    | nil =>
      simp only [strip, reduceCtorEq, false_iff, not_exists, not_and]
      rintro name same ⟨⟩
      cases same
    | cons x t =>
      rw [strip]
      constructor
      · intro some_
        split at some_
        · rename_i here
          obtain ⟨name, rfl, all⟩ := ih.mp some_
          exact ⟨x :: name, rfl, .cons here all⟩
        · cases some_
      · rintro ⟨name, same, all⟩
        cases all with
        | cons here all =>
          obtain ⟨rfl, rfl⟩ := List.cons.inj same
          rw [if_pos here, ih]
          exact ⟨_, rfl, all⟩

/-- What an ASCII character is read for among ASCII characters. -/
theorem reads_ascii (lawful : Lawful A) (ascii : x.toNat < 128) (ascii' : p.toNat < 128) :
    reads A p x = reads Alphabet.ascii p x := by
  have same : (A.variants x).any (· == p) = (Alphabet.ascii.variants x).any (· == p) := by
    rw [Bool.eq_iff_iff, List.any_beq', List.any_beq', List.contains_iff_mem, List.contains_iff_mem]
    exact lawful.variants x p ascii ascii'
  rw [reads, same, reads]

end Strip

section Name

variable {A : Alphabet} {k : Keyword} {t rest name : Text}

variable (A) in
/-- A text that the pattern of a keyword is read as. -/
def IsName : Keyword → Text → Prop
  | .password, name => Reads A "password".toList name
  | .apiKey, name => ∃ api sign key, name = api ++ sign ++ key ∧ Reads A "api".toList api ∧
      (sign = [] ∨ sign = ['_'] ∨ sign = ['-']) ∧ Reads A "key".toList key
  | .secret, name => Reads A "secret".toList name
  | .token, name => Reads A "token".toList name
  | .auth, name => Reads A "auth".toList name

theorem isBlind_name : (k.name A).isBlind = true := by
  cases k
  case apiKey =>
    rw [Keyword.name, apiKeyName, isBlind_sequence]
    simp [isBlind_literal, opt, isBlind]
  all_goals exact isBlind_literal

def isSign (c : Char) : Bool := c == '_' || c == '-'

variable (A) in
/-- What is left after a name of an API key. -/
def stripApiKey (t : Text) : Option Text :=
  (strip A "api".toList t).bind fun t =>
    match t with
    | x :: rest => if isSign x then strip A "key".toList rest else strip A "key".toList t
    | [] => none

theorem reads_sign (lawful : Lawful A) {x : Char} (sign : isSign x = true) :
    reads A 'k' x = false := by
  rw [isSign, Bool.or_eq_true, beq_iff_eq, beq_iff_eq] at sign
  rcases sign with rfl | rfl <;> rw [reads_ascii lawful (by decide) (by decide)] <;> decide

theorem rests_apiKeyName (lawful : Lawful A) :
    rests A.word (apiKeyName A) t = (stripApiKey A t).toList := by
  have key (t : Text) : rests A.word (seq (A.literal "key") empty) t =
      (strip A "key".toList t).toList := by
    rw [rests_seq rfl, rests_literal]
    cases strip A "key".toList t <;> rfl
  have sign (t : Text) : rests A.word (seq (opt (set isSign)) (seq (A.literal "key") empty)) t =
      (match t with
        | x :: rest => if isSign x then strip A "key".toList rest else strip A "key".toList t
        | [] => none).toList := by
    rw [rests_seq (by simp [isBlind, isBlind_literal]), rests_opt_set]
    cases t with
    | nil =>
      rw [List.flatMap_singleton, key]
      rfl
    | cons x t =>
      dsimp only
      split
      · rename_i signs
        have other : ¬ reads A 'k' x = true := Bool.eq_false_iff.mp (reads_sign lawful signs)
        have stuck : strip A "key".toList (x :: t) = none := if_neg other
        rw [List.flatMap_cons, List.flatMap_singleton, key, key, stuck]
        exact List.append_nil _
      · rw [List.flatMap_singleton, key]
  rw [apiKeyName, Regex.sequence,
    rests_seq (by simp [Regex.sequence, opt, isBlind, isBlind_literal]), rests_literal, stripApiKey]
  cases strip A "api".toList t with
  | none => rfl
  | some t =>
    rw [Option.toList_some, List.flatMap_singleton]
    exact sign t

theorem stripApiKey_eq_some (lawful : Lawful A) :
    stripApiKey A t = some rest ↔ ∃ name, t = name ++ rest ∧ IsName A .apiKey name := by
  rw [stripApiKey, Option.bind_eq_some_iff]
  constructor
  · rintro ⟨t', found, rest_⟩
    obtain ⟨api, rfl, readsApi⟩ := strip_eq_some.mp found
    split at rest_
    · rename_i x t''
      split at rest_
      · rename_i sign
        obtain ⟨key, rfl, readsKey⟩ := strip_eq_some.mp rest_
        rw [isSign, Bool.or_eq_true, beq_iff_eq, beq_iff_eq] at sign
        refine ⟨api ++ [x] ++ key, by simp, api, [x], key, rfl, readsApi, ?_, readsKey⟩
        rcases sign with rfl | rfl <;> simp
      · obtain ⟨key, same, readsKey⟩ := strip_eq_some.mp rest_
        exact ⟨api ++ [] ++ key, by simp [same], api, [], key, rfl, readsApi, .inl rfl, readsKey⟩
    · cases rest_
  · rintro ⟨name, rfl, api, sign, key, rfl, readsApi, signs, readsKey⟩
    refine ⟨sign ++ key ++ rest, strip_eq_some.mpr ⟨api, by simp, readsApi⟩, ?_⟩
    have found : strip A "key".toList (key ++ rest) = some rest :=
      strip_eq_some.mpr ⟨key, rfl, readsKey⟩
    cases readsKey with
    | cons first readsKey =>
      rename_i x key
      rcases signs with rfl | rfl | rfl
      · have other : ¬ isSign x = true := fun sign =>
          Bool.eq_false_iff.mp (reads_sign lawful sign) first
        simp only [List.nil_append, List.cons_append]
        rw [if_neg other]
        exact found
      · exact found
      · exact found

/-- A match of the pattern of a keyword leaves what follows one name, and there is only one. -/
theorem rests_name (lawful : Lawful A) : ∃ r : Option Text,
    rests A.word (k.name A) t = r.toList ∧ ∀ rest, r = some rest ↔
      ∃ name, t = name ++ rest ∧ IsName A k name := by
  cases k
  case apiKey => exact ⟨_, rests_apiKeyName lawful, fun rest => stripApiKey_eq_some lawful⟩
  all_goals exact ⟨_, rests_literal, fun rest => strip_eq_some⟩

end Name

section Value

variable {A : Alphabet} {t rest : Text} {c : Char}

def isSeparator (c : Char) : Bool := c == '=' || c == ':'

theorem space_of_isSeparator (lawful : Lawful A) (separates : isSeparator c = true) :
    A.space c = false := by
  rw [isSeparator, Bool.or_eq_true, beq_iff_eq, beq_iff_eq] at separates
  rcases separates with rfl | rfl <;> rw [lawful.space _ (by decide)] <;> decide

theorem space_of_isQuote (lawful : Lawful A) (quote : isQuote c = true) : A.space c = false := by
  rw [isQuote, Bool.or_eq_true, beq_iff_eq, beq_iff_eq] at quote
  rcases quote with rfl | rfl <;> rw [lawful.space _ (by decide)] <;> decide

theorem unquoted_eq_true : unquoted A c = true ↔ A.space c = false ∧ isQuote c = false := by
  rw [unquoted, Bool.not_eq_true', Bool.or_eq_false_iff]

variable (A) in
/-- What stands between a keyword and its value. -/
def Gap (gap : Text) : Prop :=
  ∃ spaces separator spaces' quote, gap = spaces ++ separator :: (spaces' ++ quote) ∧
    (∀ c ∈ spaces, A.space c = true) ∧ isSeparator separator = true ∧
    (∀ c ∈ spaces', A.space c = true) ∧ (quote = [] ∨ ∃ c, isQuote c = true ∧ quote = [c])

def dropQuote : Text → Text
  | x :: rest => if isQuote x then rest else x :: rest
  | [] => []

variable (A) in
def afterGap (t : Text) : Option Text :=
  match t.dropWhile A.space with
  | x :: rest => if isSeparator x then some (dropQuote (rest.dropWhile A.space)) else none
  | [] => none

theorem isBlind_assignedValue : (assignedValue A).isBlind = true := by
  simp [assignedValue, Regex.sequence, opt, plus, isBlind]

theorem rests_assignedValue (lawful : Lawful A) : rests A.word (assignedValue A) t =
    match afterGap A t with
    | some t => rests A.word (plus (set (unquoted A))) t
    | none => [] := by
  have run (t : Text) : rests A.word (seq (plus (set (unquoted A))) empty) t =
      rests A.word (plus (set (unquoted A))) t := by
    rw [rests_seq rfl]
    exact List.flatMap_singleton' _
  have quoted (t : Text) :
      rests A.word (seq (opt (set isQuote)) (seq (plus (set (unquoted A))) empty)) t =
        rests A.word (plus (set (unquoted A))) (dropQuote t) := by
    rw [rests_seq (by simp [plus, isBlind]), rests_opt_set]
    cases t with
    | nil => rw [List.flatMap_singleton, run, dropQuote]
    | cons x t =>
      dsimp only [dropQuote]
      split
      · rename_i quote
        have stuck : rests A.word (plus (set (unquoted A))) (x :: t) = [] := by
          rw [rests_plus_set]
          simp [unquoted, quote]
        rw [List.flatMap_cons, List.flatMap_singleton, run, run, stuck, List.append_nil]
      · rw [List.flatMap_singleton, run]
  have spaced (t : Text) : rests A.word (seq (star (set A.space)) (seq (opt (set isQuote))
      (seq (plus (set (unquoted A))) empty))) t =
        rests A.word (plus (set (unquoted A))) (dropQuote (t.dropWhile A.space)) := by
    rw [rests_seq (by simp [opt, plus, isBlind]), rests_star_set, flatMap_suffixes, quoted]
    intro x s space
    have other : isQuote x = false := by
      by_contra quote
      rw [space_of_isQuote lawful (by simpa using quote)] at space
      cases space
    rw [quoted, dropQuote, other, if_neg Bool.false_ne_true, rests_plus_set]
    simp [unquoted, space]
  have separated (t : Text) : rests A.word (seq (set isSeparator) (seq (star (set A.space))
      (seq (opt (set isQuote)) (seq (plus (set (unquoted A))) empty)))) t =
        match t with
        | x :: rest => if isSeparator x then rests A.word (plus (set (unquoted A)))
            (dropQuote (rest.dropWhile A.space)) else []
        | [] => [] := by
    rw [rests_seq (by simp [opt, plus, isBlind])]
    cases t with
    | nil => rfl
    | cons x t =>
      rw [rests_set_cons]
      dsimp only
      split
      · rw [List.flatMap_singleton, spaced]
      · rfl
  change rests A.word (seq (star (set A.space)) (seq (set isSeparator) (seq (star (set A.space))
    (seq (opt (set isQuote)) (seq (plus (set (unquoted A))) empty))))) t = _
  rw [rests_seq (by simp [opt, plus, isBlind]), rests_star_set, flatMap_suffixes, separated, afterGap]
  · cases t.dropWhile A.space with
    | nil => rfl
    | cons x rest =>
      dsimp only
      split <;> rfl
  · intro x s space
    rw [separated]
    dsimp only
    rw [if_neg]
    intro separates
    rw [space_of_isSeparator lawful separates] at space
    cases space

variable (A) in
/-- A text after which no value goes on. -/
def Ends (rest : Text) : Prop := ∀ c ∈ rest.head?, unquoted A c = false

theorem head?_rests_run : (rests A.word (plus (set (unquoted A))) t).head? = some rest ↔
    ∃ run, t = run ++ rest ∧ run ≠ [] ∧ (∀ c ∈ run, unquoted A c = true) ∧ Ends A rest := by
  rw [rests_plus_set]
  cases t with
  | nil =>
    simp only [List.head?_nil, reduceCtorEq, false_iff, not_exists, not_and]
    intro run same ne
    exact absurd (List.append_eq_nil_iff.mp same.symm).1 ne
  | cons x t =>
    dsimp only
    constructor
    · split
      · rename_i first
        rw [head?_suffixes, Option.some.injEq]
        rintro rfl
        refine ⟨x :: t.takeWhile (unquoted A), by simp [List.takeWhile_append_dropWhile], by simp,
          List.forall_mem_cons.mpr ⟨first, fun c mem => List.mem_takeWhile_imp mem⟩, fun c mem => ?_⟩
        have last := List.head?_dropWhile_not (unquoted A) t
        rw [Option.mem_def.mp mem] at last
        exact last
      · rintro ⟨⟩
    · rintro ⟨run, same, ne, all, ends⟩
      cases run with
      | nil => exact absurd rfl ne
      | cons y run =>
        rw [List.cons_append] at same
        obtain ⟨rfl, rfl⟩ := List.cons.inj same
        rw [if_pos (all x (by simp)), head?_suffixes,
          List.dropWhile_append_of_pos fun c mem => all c (List.mem_cons_of_mem _ mem)]
        cases rest with
        | nil => rfl
        | cons z rest => rw [List.dropWhile_cons_of_neg (by simpa using ends z rfl)]

theorem exists_spaces (t : Text) :
    ∃ spaces, t = spaces ++ t.dropWhile A.space ∧ ∀ c ∈ spaces, A.space c = true :=
  ⟨t.takeWhile A.space, List.takeWhile_append_dropWhile.symm,
    fun _ mem => List.mem_takeWhile_imp mem⟩

theorem exists_quote (t : Text) :
    ∃ quote, t = quote ++ dropQuote t ∧ (quote = [] ∨ ∃ c, isQuote c = true ∧ quote = [c]) := by
  cases t with
  | nil => exact ⟨[], rfl, .inl rfl⟩
  | cons x t =>
    rw [dropQuote]
    split
    · rename_i quote
      exact ⟨[x], rfl, .inr ⟨x, quote, rfl⟩⟩
    · exact ⟨[], rfl, .inl rfl⟩

theorem exists_gap (found : afterGap A t = some rest) : ∃ gap, t = gap ++ rest ∧ Gap A gap := by
  obtain ⟨spaces, split, all⟩ := exists_spaces (A := A) t
  rw [afterGap] at found
  cases after : t.dropWhile A.space with
  | nil =>
    rw [after] at found
    cases found
  | cons x t' =>
    rw [after] at found split
    dsimp only at found
    split at found
    · rename_i separates
      obtain ⟨spaces', split', all'⟩ := exists_spaces (A := A) t'
      obtain ⟨quote, quoted, one⟩ := exists_quote (t'.dropWhile A.space)
      rw [Option.some.inj found] at quoted
      refine ⟨_, ?_, spaces, x, spaces', quote, rfl, all, separates, all', one⟩
      rw [split, split', quoted]
      simp
    · cases found

theorem afterGap_append (lawful : Lawful A) {gap : Text} (isGap : Gap A gap)
    (goesOn : t.head?.any (unquoted A) = true) : afterGap A (gap ++ t) = some t := by
  obtain ⟨spaces, separator, spaces', quote, rfl, all, separates, all', one⟩ := isGap
  obtain ⟨x, t, rfl⟩ : ∃ x s, t = x :: s := by
    cases t with
    | nil => cases goesOn
    | cons x t => exact ⟨x, t, rfl⟩
  obtain ⟨space, quoted⟩ := unquoted_eq_true.mp (by simpa using goesOn)
  have drop {c : Char} {ws s : Text} (all : ∀ c ∈ ws, A.space c = true) (other : A.space c = false) :
      (ws ++ c :: s).dropWhile A.space = c :: s := by
    rw [List.dropWhile_append_of_pos all, List.dropWhile_cons_of_neg (by simp [other])]
  rw [afterGap, List.append_assoc, List.cons_append, drop all (space_of_isSeparator lawful separates)]
  dsimp only
  rw [if_pos separates, Option.some.injEq]
  rcases one with rfl | ⟨q, isQuote_, rfl⟩
  · rw [List.append_nil, drop all' space, dropQuote, if_neg (by simp [quoted])]
  · rw [List.append_assoc, List.singleton_append, drop all' (space_of_isQuote lawful isQuote_),
      dropQuote, if_pos isQuote_]

/-- What the longest match of an assigned value leaves. -/
theorem head?_rests_assignedValue (lawful : Lawful A) :
    (rests A.word (assignedValue A) t).head? = some rest ↔ ∃ gap run, t = gap ++ run ++ rest ∧
      Gap A gap ∧ run ≠ [] ∧ (∀ c ∈ run, unquoted A c = true) ∧ Ends A rest := by
  rw [rests_assignedValue lawful]
  constructor
  · intro found
    split at found
    · rename_i t' gap_
      obtain ⟨gap, rfl, isGap⟩ := exists_gap gap_
      obtain ⟨run, rfl, ne, all, ends⟩ := head?_rests_run.mp found
      exact ⟨gap, run, by simp, isGap, ne, all, ends⟩
    · cases found
  · rintro ⟨gap, run, rfl, isGap, ne, all, ends⟩
    have goesOn : (run ++ rest).head?.any (unquoted A) = true := by
      cases run with
      | nil => exact absurd rfl ne
      | cons x run => exact all x (by simp)
    rw [List.append_assoc, afterGap_append lawful isGap goesOn]
    exact head?_rests_run.mpr ⟨run, rfl, ne, all, ends⟩

end Value

end Sanitizer

end OmniMemory
