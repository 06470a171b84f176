import OmniMemory.Lib.Regex

/-! What an expression leaves of a text when it looks at no boundary, in the order in which the ways
are tried, and how the pieces of a text are those of its parts, when no match goes over from one
part to the other. -/

namespace Regular

section Suffixes

variable {α : Type} {p : Char → Bool} {t : List Char} {f : List Char → List α}

/-- What is left of a text when characters are taken while a condition holds, from the least to the
most that is left. -/
def suffixes (p : Char → Bool) : List Char → List (List Char)
  | [] => [[]]
  | x :: s => if p x then suffixes p s ++ [x :: s] else [x :: s]

theorem head?_suffixes : (suffixes p t).head? = some (t.dropWhile p) := by
  induction t with
  | nil => rfl
  | cons x t ih =>
    rw [suffixes, List.dropWhile_cons]
    split
    · rw [List.head?_append, ih]
      rfl
    · rfl

/-- What cannot follow a character that could still be taken follows the last of them. -/
theorem flatMap_suffixes (stuck : ∀ x s, p x = true → f (x :: s) = []) :
    (suffixes p t).flatMap f = f (t.dropWhile p) := by
  induction t with
  | nil => simp [suffixes]
  | cons x t ih =>
    rw [suffixes, List.dropWhile_cons]
    split
    · rename_i taken
      rw [List.flatMap_append, ih, List.flatMap_singleton, stuck x t taken, List.append_nil]
    · rw [List.flatMap_singleton]

end Suffixes

namespace Regex

variable {word : Char → Bool} {r s : Regex} {t : List Char}

/-- Nothing but the characters that are taken is looked at. -/
def isBlind : Regex → Bool
  | empty | set _ => true
  | seq r s | alt r s => r.isBlind && s.isBlind
  | star r => r.isBlind
  | boundary | notAhead _ => false

variable (word) in
/-- What the matches leave that begin with a text. -/
def rests (r : Regex) (t : List Char) : List (List Char) := (r.ways word ⟨none, t⟩).map Cursor.after

/-- `iterate`, on what is left. -/
def repeated (step : List Char → List (List Char)) : Nat → List Char → List (List Char)
  | 0, t => [t]
  | n + 1, t =>
    ((step t).filter fun rest => rest.length < t.length).flatMap (repeated step n) ++ [t]

theorem iterate_after {step : Cursor → List Cursor} {after : List Char → List (List Char)}
    (same : ∀ c, (step c).map Cursor.after = after c.after) (n : Nat) (c : Cursor) :
    (iterate step n c).map Cursor.after = repeated after n c.after := by
  induction n generalizing c with
  | zero => rfl
  | succ n ih =>
    rw [iterate, repeated, List.map_append, List.map_flatMap, ← same, List.filter_map,
      List.flatMap_map]
    simp only [ih]
    rfl

/-- What a blind expression leaves does not depend on what is before. -/
theorem ways_after (blind : r.isBlind = true) (c : Cursor) :
    (r.ways word c).map Cursor.after = rests word r c.after := by
  induction r generalizing c with
  | empty => rfl
  | set chars =>
    obtain ⟨before, after⟩ := c
    cases after with
    | nil => rfl
    | cons x after =>
      rw [rests, ways_set_cons, ways_set_cons]
  | seq r s first second =>
    rw [isBlind, Bool.and_eq_true] at blind
    have tail (d : Cursor) : ((r.ways word d).flatMap (s.ways word)).map Cursor.after =
        (rests word r d.after).flatMap (rests word s) := by
      rw [List.map_flatMap, ← first blind.1, List.flatMap_map]
      simp only [second blind.2]
    rw [rests, ways_seq, ways_seq, tail, tail]
  | alt r s first second =>
    rw [isBlind, Bool.and_eq_true] at blind
    rw [rests, ways_alt, ways_alt, List.map_append, List.map_append, first blind.1, second blind.2,
      first blind.1, second blind.2]
  | star r inner =>
    rw [rests, ways_star, ways_star, iterate_after (inner blind), iterate_after (inner blind)]
  | boundary => cases blind
  | notAhead r => cases blind

@[simp] theorem rests_empty : rests word empty t = [t] := rfl

@[simp] theorem rests_set_nil {chars : Char → Bool} : rests word (set chars) [] = [] := rfl

@[simp] theorem rests_set_cons {chars : Char → Bool} {x : Char} :
    rests word (set chars) (x :: t) = if chars x then [t] else [] := by
  rw [rests, ways_set_cons]
  split <;> rfl

theorem rests_seq (blind : s.isBlind = true) :
    rests word (seq r s) t = (rests word r t).flatMap (rests word s) := by
  rw [rests, ways_seq, List.map_flatMap, rests, List.flatMap_map]
  simp only [ways_after blind]

theorem rests_alt : rests word (alt r s) t = rests word r t ++ rests word s t := by
  rw [rests, ways_alt, List.map_append]
  rfl

theorem rests_opt_set {chars : Char → Bool} : rests word (opt (set chars)) t =
    match t with
    | x :: rest => if chars x then [rest, t] else [t]
    | [] => [[]] := by
  rw [opt, rests_alt]
  cases t with
  | nil => rfl
  | cons x t =>
    rw [rests_set_cons, rests_empty]
    dsimp only
    split <;> rfl

theorem rests_star_set {chars : Char → Bool} :
    rests word (star (set chars)) t = suffixes chars t := by
  have steps (n : Nat) (t : List Char) (enough : t.length ≤ n) :
      repeated (rests word (set chars)) n t = suffixes chars t := by
    induction n generalizing t with
    | zero =>
      rw [List.length_eq_zero_iff.mp (Nat.le_zero.mp enough)]
      rfl
    | succ n ih =>
      cases t with
      | nil => rfl
      | cons x t =>
        rw [repeated, rests_set_cons, suffixes]
        split
        · simp [ih t (by simpa using enough)]
        · rfl
  rw [rests, ways_star, iterate_after fun c => ways_after rfl c]
  exact steps _ _ le_rfl

theorem rests_plus_set {chars : Char → Bool} : rests word (plus (set chars)) t =
    match t with
    | x :: rest => if chars x then suffixes chars rest else []
    | [] => [] := by
  rw [plus, rests_seq rfl]
  cases t with
  | nil => rfl
  | cons x t =>
    rw [rests_set_cons]
    dsimp only
    split
    · rw [List.flatMap_singleton, rests_star_set]
    · rfl

/-- How much is taken where a word begins or ends. -/
theorem taken_boundary (blind : r.isBlind = true) (c : Cursor) :
    (seq boundary r).taken word c =
      if atBoundary word c then
        (rests word r c.after).head?.map fun rest => c.after.length - rest.length
      else none := by
  have same : (seq boundary r).ways word c = if atBoundary word c then r.ways word c else [] := by
    rw [ways_seq, ways_boundary]
    split
    · rw [List.flatMap_singleton]
    · rfl
  rw [taken, same]
  split
  · rw [← ways_after blind c, List.head?_map, Option.map_map]
    rfl
  · rfl

end Regex

section Pieces

namespace Regex

variable {word : Char → Bool} {r : Regex} {before : Option Char} {s t : List Char}

/-- The pieces do not depend on how many there may be. -/
theorem scan_eq (n m : Nat) (c : Cursor) (enough : c.after.length ≤ n) (enough' : c.after.length ≤ m) :
    r.scan word n c = r.scan word m c := by
  induction n generalizing m c with
  | zero =>
    have empty := List.length_eq_zero_iff.mp (Nat.le_zero.mp enough)
    cases m with
    | zero => rfl
    | succ m =>
      rw [scan, scan]
      split
      · rfl
      all_goals simp_all
  | succ n ih =>
    cases m with
    | zero =>
      have empty := List.length_eq_zero_iff.mp (Nat.le_zero.mp enough')
      rw [scan, scan]
      split
      · rfl
      all_goals simp_all
    | succ m =>
      rw [scan, scan]
      split
      · rfl
      · rename_i x rest after _
        rw [after, List.length_cons] at enough enough'
        rw [ih m _ (by simpa using enough) (by simpa using enough')]
      · rename_i x rest after _
        rw [after, List.length_cons] at enough enough'
        rw [ih m _ (by simpa using enough) (by simpa using enough')]
      · rename_i x rest k after _
        have shorter : (c.skip (k + 1)).after.length + (k + 1) = c.after.length ∨
            (c.skip (k + 1)).after.length = 0 := by
          rw [Cursor.skip, List.length_drop]
          omega
        rw [ih m _ (by omega) (by omega)]

@[simp] theorem pieces_nil : r.pieces word before [] = [] := rfl

/-- A character at which nothing is found. -/
theorem pieces_char {x : Char} (nothing : r.taken word ⟨before, x :: s⟩ = none ∨
      r.taken word ⟨before, x :: s⟩ = some 0) :
    r.pieces word before (x :: s) = .char x :: r.pieces word (some x) s := by
  rw [pieces, List.length_cons, scan]
  rcases nothing with nothing | nothing <;> rw [nothing] <;> rfl

/-- What is found. -/
theorem pieces_found (some_ : r.taken word ⟨before, s ++ t⟩ = some s.length) (ne : s ≠ []) :
    r.pieces word before (s ++ t) = .found s :: r.pieces word s.getLast? t := by
  obtain ⟨x, s, rfl⟩ := List.exists_cons_of_ne_nil ne
  have skip : (Cursor.mk before (x :: s ++ t)).skip (s.length + 1) = ⟨(x :: s).getLast?, t⟩ := by
    have taken : (x :: s ++ t).take (s.length + 1) = x :: s := by simp
    have dropped : (x :: s ++ t).drop (s.length + 1) = t := by simp
    rw [Cursor.skip, taken, dropped, List.getLast?_cons, Option.some_or]
  rw [pieces, List.cons_append, List.length_cons, scan, ← List.cons_append, some_, List.length_cons]
  simp only [List.cons_append]
  rw [← List.cons_append, skip, scan_eq _ t.length _ (by simp) le_rfl]
  simp [pieces]

theorem taken_le {c : Cursor} {n : Nat} (some_ : r.taken word c = some n) : n ≤ c.after.length := by
  obtain ⟨last, -, rfl⟩ := Option.map_eq_some_iff.mp some_
  exact Nat.sub_le _ _

theorem getLast?_cons_or {x : Char} :
    (x :: s).getLast?.or before = s.getLast?.or (some x) := by
  rw [List.getLast?_cons, Option.some_or]
  cases s.getLast? <;> rfl

theorem getLast?_append_or {m u : List Char} (ne : m ≠ []) :
    (m ++ u).getLast?.or before = u.getLast?.or m.getLast? := by
  obtain ⟨y, same⟩ := Option.isSome_iff_exists.mp (List.getLast?_isSome.mpr ne)
  rw [List.getLast?_append, same]
  cases u.getLast? <;> rfl

/-- Where no match goes over from one text to the one after it, each is cut on its own. -/
theorem pieces_append (same : ∀ u w, s = u ++ w → w ≠ [] →
      r.taken word ⟨u.getLast?.or before, w ++ t⟩ = r.taken word ⟨u.getLast?.or before, w⟩) :
    r.pieces word before (s ++ t) =
      r.pieces word before s ++ r.pieces word (s.getLast?.or before) t := by
  induction length : s.length using Nat.strong_induction_on generalizing s before with
  | _ n ih =>
    cases s with
    | nil => simp
    | cons x s =>
      have here : r.taken word ⟨before, x :: s ++ t⟩ = r.taken word ⟨before, x :: s⟩ :=
        same [] (x :: s) rfl (by simp)
      have char (nothing : r.taken word ⟨before, x :: s⟩ = none ∨
          r.taken word ⟨before, x :: s⟩ = some 0) : r.pieces word before (x :: s ++ t) =
            r.pieces word before (x :: s) ++ r.pieces word ((x :: s).getLast?.or before) t := by
        rw [pieces_char nothing, List.cons_append, pieces_char (by rwa [← List.cons_append, here]),
          List.cons_append, getLast?_cons_or]
        refine congrArg _ (ih s.length (by simp [← length]) (fun u w split ne => ?_) rfl)
        have shifted := same (x :: u) w (by rw [split]; rfl) ne
        rwa [getLast?_cons_or] at shifted
      rcases found : r.taken word ⟨before, x :: s⟩ with _ | _ | k
      · exact char (.inl found)
      · exact char (.inr found)
      · have fits : k + 1 ≤ (x :: s).length := taken_le found
        obtain ⟨m, rest, split, size⟩ : ∃ m rest, x :: s = m ++ rest ∧ m.length = k + 1 :=
          ⟨(x :: s).take (k + 1), (x :: s).drop (k + 1), (List.take_append_drop _ _).symm,
            by rw [List.length_take, Nat.min_eq_left fits]⟩
        have ne : m ≠ [] := by
          rintro rfl
          cases size
        rw [split, List.append_assoc,
          pieces_found (by rw [← List.append_assoc, ← split, here, found, size]) ne,
          pieces_found (by rw [← split, found, size]) ne, List.cons_append, getLast?_append_or ne]
        refine congrArg _ (ih rest.length ?_ (fun u w cut ne' => ?_) rfl)
        · rw [← length, split, List.length_append]
          omega
        · have shifted := same (m ++ u) w (by rw [split, cut, List.append_assoc]) ne'
          rwa [getLast?_append_or ne] at shifted

end Regex

end Pieces

end Regular
