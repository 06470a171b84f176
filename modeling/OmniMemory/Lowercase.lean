import Mathlib.Data.List.Basic
import OmniMemory.Python

/-! `str.lower`. A capital sigma becomes a final one at the end of a word; every other character
becomes what the character database gives for it, which may be more than one. What is lowered stays
as it is when it is lowered again. -/

namespace OmniMemory

/-- What `str.lower` reads of the character database, and what holds of it. -/
structure CaseTable where
  lower : Char → List Char
  cased : Char → Bool
  caseIgnorable : Char → Bool
  lower_ne_nil : ∀ c, lower c ≠ []
  settled : ∀ c, ∀ d ∈ lower c, lower d = [d] ∧ d ≠ 'Σ'
  isSpace_lower : ∀ c, ∀ d ∈ lower c, isSpace d = isSpace c
  lower_underscore : lower '_' = ['_']
  lower_sigma : lower 'σ' = ['σ'] ∧ lower 'ς' = ['ς']

namespace CaseTable

variable (T : CaseTable)

/-- The sigma ends a word: a cased character is before it, and none after it, when those that are
ignored are left out. -/
def finalSigma (before after : List Char) : Bool :=
  (before.dropWhile T.caseIgnorable).head?.any T.cased &&
    !(after.dropWhile T.caseIgnorable).head?.any T.cased

def lowerAt (before : List Char) (c : Char) (after : List Char) : List Char :=
  if c = 'Σ' then [if T.finalSigma before after then 'ς' else 'σ'] else T.lower c

/-- The characters from a place on in lower case, after those before it, the last one first. -/
def lowerFrom : (before : List Char) → List Char → List Char
  | _, [] => []
  | before, c :: after => T.lowerAt before c after ++ lowerFrom (c :: before) after

/-- `str.lower`. -/
def lowered (l : List Char) : List Char := T.lowerFrom [] l

variable {T} {before after l : List Char} {c d : Char}

theorem lowerAt_ne_nil : T.lowerAt before c after ≠ [] := by
  unfold lowerAt
  split
  · exact List.cons_ne_nil _ _
  · exact T.lower_ne_nil c

/-- A character of what one becomes is its own lower case. -/
theorem settled_of_mem_lowerAt (mem : d ∈ T.lowerAt before c after) :
    T.lower d = [d] ∧ d ≠ 'Σ' := by
  unfold lowerAt at mem
  split at mem
  · rw [List.mem_singleton] at mem
    subst mem
    split
    · exact ⟨T.lower_sigma.2, by decide⟩
    · exact ⟨T.lower_sigma.1, by decide⟩
  · exact T.settled c d mem

theorem isSpace_of_mem_lowerAt (mem : d ∈ T.lowerAt before c after) : isSpace d = isSpace c := by
  unfold lowerAt at mem
  split at mem
  · rename_i same
    rw [List.mem_singleton] at mem
    subst mem same
    split <;> decide
  · exact T.isSpace_lower c d mem

theorem settled_of_mem_lowerFrom (mem : d ∈ T.lowerFrom before l) :
    T.lower d = [d] ∧ d ≠ 'Σ' := by
  induction l generalizing before with
  | nil => cases mem
  | cons c after ih =>
    rcases List.mem_append.mp mem with mem | mem
    · exact settled_of_mem_lowerAt mem
    · exact ih mem

/-- Characters that are their own lower case stay. -/
theorem lowerFrom_eq_self (settled : ∀ c ∈ l, T.lower c = [c] ∧ c ≠ 'Σ') :
    T.lowerFrom before l = l := by
  induction l generalizing before with
  | nil => rfl
  | cons c after ih =>
    obtain ⟨⟨same, other⟩, rest⟩ := List.forall_mem_cons.mp settled
    rw [lowerFrom, lowerAt, if_neg other, same, ih rest, List.singleton_append]

theorem head?_lowerFrom (mem : d ∈ (T.lowerFrom before l).head?) :
    ∃ c ∈ l.head?, isSpace d = isSpace c := by
  cases l with
  | nil => cases mem
  | cons c after =>
    rw [lowerFrom, List.head?_append_of_ne_nil _ lowerAt_ne_nil] at mem
    exact ⟨c, rfl, isSpace_of_mem_lowerAt (List.mem_of_mem_head? mem)⟩

theorem lowerFrom_ne_nil (some : l ≠ []) : T.lowerFrom before l ≠ [] := by
  obtain ⟨c, after, rfl⟩ := List.exists_cons_of_ne_nil some
  rw [lowerFrom]
  exact List.append_ne_nil_of_left_ne_nil lowerAt_ne_nil _

theorem getLast?_lowerFrom (mem : d ∈ (T.lowerFrom before l).getLast?) :
    ∃ c ∈ l.getLast?, isSpace d = isSpace c := by
  induction l generalizing before with
  | nil => cases mem
  | cons c after ih =>
    rw [lowerFrom] at mem
    cases after with
    | nil =>
      rw [lowerFrom, List.append_nil] at mem
      exact ⟨c, rfl, isSpace_of_mem_lowerAt (List.mem_of_getLast? mem)⟩
    | cons c' after =>
      have some : T.lowerFrom (c :: before) (c' :: after) ≠ [] := lowerFrom_ne_nil (by simp)
      rw [List.getLast?_append_of_ne_nil _ some] at mem
      obtain ⟨e, last, same⟩ := ih mem
      exact ⟨e, by rwa [List.getLast?_cons_cons], same⟩

/-- The capital letters of ASCII, the capital sigma, and an I with a dot, whose lower case is two
characters long. -/
def capitals : List (Char × List Char) :=
  [('A', ['a']), ('B', ['b']), ('C', ['c']), ('D', ['d']), ('E', ['e']), ('F', ['f']), ('G', ['g']),
    ('H', ['h']), ('I', ['i']), ('J', ['j']), ('K', ['k']), ('L', ['l']), ('M', ['m']),
    ('N', ['n']), ('O', ['o']), ('P', ['p']), ('Q', ['q']), ('R', ['r']), ('S', ['s']),
    ('T', ['t']), ('U', ['u']), ('V', ['v']), ('W', ['w']), ('X', ['x']), ('Y', ['y']),
    ('Z', ['z']), ('Σ', ['σ']), ('İ', ['i', '\u0307'])]

def capitalsLower (c : Char) : List Char := ((capitals.find? (·.1 = c)).map Prod.snd).getD [c]

theorem capitalsLower_cases (c : Char) :
    (c, capitalsLower c) ∈ capitals ∨ (capitalsLower c = [c] ∧ ∀ p ∈ capitals, p.1 ≠ c) := by
  unfold capitalsLower
  cases found : capitals.find? (·.1 = c) with
  | some p =>
    have here : p.1 = c := by simpa using List.find?_some found
    subst here
    exact .inl (List.mem_of_find?_eq_some found)
  | none => exact .inr ⟨rfl, fun p mem => by simpa using List.find?_eq_none.mp found p mem⟩

/-- The table of these letters. -/
def ofCapitals : CaseTable where
  lower := capitalsLower
  cased c := c.isAlpha || c = 'Σ' || c = 'σ' || c = 'ς' || c = 'İ'
  caseIgnorable c := c = '.' || c = '\u0307'
  lower_ne_nil c := by
    rcases capitalsLower_cases c with mem | ⟨same, -⟩
    · have all : capitals.all (fun p => !p.2.isEmpty) = true := by decide
      simpa using List.all_eq_true.mp all _ mem
    · rw [same]
      exact List.cons_ne_nil _ _
  settled c d mem := by
    rcases capitalsLower_cases c with here | ⟨same, other⟩
    · have all : capitals.all (fun p => p.2.all fun d => capitalsLower d = [d] ∧ d ≠ 'Σ') = true := by
        decide +kernel
      exact of_decide_eq_true (List.all_eq_true.mp (List.all_eq_true.mp all _ here) d mem)
    · rw [same, List.mem_singleton] at mem
      subst mem
      exact ⟨same, fun sigma => other ('Σ', ['σ']) (by decide +kernel) sigma.symm⟩
  isSpace_lower c d mem := by
    rcases capitalsLower_cases c with here | ⟨same, -⟩
    · have all : capitals.all (fun p => !isSpace p.1 && p.2.all fun d => !isSpace d) = true := by
        decide +kernel
      have both := List.all_eq_true.mp all _ here
      rw [Bool.and_eq_true] at both
      have left : isSpace c = false := by simpa using both.1
      have right : isSpace d = false := by simpa using List.all_eq_true.mp both.2 d mem
      rw [left, right]
    · rw [same, List.mem_singleton] at mem
      rw [mem]
  lower_underscore := by decide +kernel
  lower_sigma := by decide +kernel

example : ofCapitals.lowered "AΣ Σ".toList = "aς σ".toList := by decide +kernel

end CaseTable

end OmniMemory
