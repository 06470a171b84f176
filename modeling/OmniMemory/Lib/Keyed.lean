import Mathlib.Data.List.Induction
import Mathlib.Data.List.Nodup

/-! Lists of rows that are looked up by key. The first row with a key is the one that is found and
edited, in its place; when there is none, a row is added at the end. What is found after each
operation, when the rows have distinct keys or not. -/

namespace Keyed

variable {α κ : Type} (key : α → κ) [DecidableEq κ]

def find? (rows : List α) (k : κ) : Option α := rows.find? fun row => key row = k

/-- The rows with an edit of the first one that has a key. -/
def editFirst (k : κ) (edit : α → α) : List α → List α
  | [] => []
  | row :: rest => if key row = k then edit row :: rest else row :: editFirst k edit rest

/-- The rows with a row in place of the first one that has its key, or at the end. -/
def put (rows : List α) (row : α) : List α :=
  if (find? key rows (key row)).isSome then editFirst key (key row) (fun _ => row) rows
  else rows ++ [row]

variable {key} {rows : List α} {row : α} {k k' : κ} {edit : α → α}

theorem find?_eq_none : find? key rows k = none ↔ k ∉ rows.map key := by
  simp [find?, List.find?_eq_none]

theorem key_of_find? (found : find? key rows k = some row) : key row = k := by
  simpa using List.find?_some found

theorem find?_cons_self : find? key (row :: rows) (key row) = some row := by
  simp [find?]

theorem find?_cons_of_ne (other : key row ≠ k) : find? key (row :: rows) k = find? key rows k := by
  rw [find?, List.find?_cons_of_neg (by simpa using other), find?]

theorem find?_append : find? key (rows ++ [row]) k =
    (find? key rows k).or (if key row = k then some row else none) := by
  rw [find?, List.find?_append, find?, List.find?_singleton]
  simp

/-- An edit that leaves the key leaves all keys. -/
theorem map_editFirst (same : ∀ row, key (edit row) = key row) :
    (editFirst key k edit rows).map key = rows.map key := by
  induction rows with
  | nil => rfl
  | cons row rest ih =>
    rw [editFirst]
    split
    · rw [List.map_cons, List.map_cons, same]
    · rw [List.map_cons, List.map_cons, ih]

/-- An edit changes what is found for its key, and nothing else. -/
theorem find?_editFirst (same : ∀ row, key (edit row) = key row) :
    find? key (editFirst key k edit rows) k' =
      if k' = k then (find? key rows k).map edit else find? key rows k' := by
  induction rows with
  | nil => simp [editFirst, find?]
  | cons row rest ih =>
    rw [editFirst]
    split
    · rename_i here
      subst here
      split
      · rename_i own
        subst own
        rw [find?_cons_self, ← same row, find?_cons_self, Option.map_some]
      · rename_i other
        rw [find?_cons_of_ne (same row ▸ Ne.symm other), find?_cons_of_ne (Ne.symm other)]
    · rename_i elsewhere
      by_cases own : key row = k'
      · subst own
        rw [find?_cons_self, if_neg elsewhere, find?_cons_self]
      · rw [find?_cons_of_ne own, ih, find?_cons_of_ne own, find?_cons_of_ne elsewhere]

theorem put_of_not_mem (new : key row ∉ rows.map key) : put key rows row = rows ++ [row] := by
  rw [put, find?_eq_none.mpr new, Option.isSome_none, if_neg (by simp)]

/-- Rows with distinct keys that are put into an empty list stay as they are. -/
theorem foldl_put (distinct : (rows.map key).Nodup) : rows.foldl (put key) [] = rows := by
  induction rows using List.reverseRecOn with
  | nil => rfl
  | append_singleton rows row ih =>
    rw [List.map_append, List.map_singleton, List.nodup_append] at distinct
    obtain ⟨first, -, apart⟩ := distinct
    have new : key row ∉ rows.map key := fun mem => apart _ mem _ (by simp) rfl
    rw [List.foldl_append, ih first, List.foldl_cons, List.foldl_nil, put_of_not_mem new]

theorem map_editFirst_const : (editFirst key (key row) (fun _ => row) rows).map key = rows.map key := by
  induction rows with
  | nil => rfl
  | cons first rest ih =>
    rw [editFirst]
    split
    · rename_i here
      rw [List.map_cons, List.map_cons, here]
    · rw [List.map_cons, List.map_cons, ih]

/-- A row that is put in keeps the keys, and adds its own if it is new. -/
theorem map_put : (put key rows row).map key =
    if key row ∈ rows.map key then rows.map key else rows.map key ++ [key row] := by
  by_cases old : key row ∈ rows.map key
  · have found : (find? key rows (key row)).isSome = true := by
      rw [Option.isSome_iff_ne_none, ne_eq, find?_eq_none, not_not]
      exact old
    rw [put, if_pos found, if_pos old, map_editFirst_const]
  · rw [put_of_not_mem old, if_neg old, List.map_append, List.map_singleton]

theorem nodup_put (distinct : (rows.map key).Nodup) : ((put key rows row).map key).Nodup := by
  rw [map_put]
  split
  · exact distinct
  · rename_i new
    exact List.nodup_append.mpr ⟨distinct, List.nodup_singleton _, by
      intro k mem k' mem' same
      obtain rfl := List.mem_singleton.mp mem'
      exact new (same ▸ mem)⟩

/-- A row that is put in is found for its key, and nothing else changes. -/
theorem find?_put : find? key (put key rows row) k = if k = key row then some row else find? key rows k := by
  by_cases old : (find? key rows (key row)).isSome = true
  · obtain ⟨first, found⟩ := Option.isSome_iff_exists.mp old
    rw [put, if_pos old]
    by_cases own : k = key row
    · subst own
      rw [if_pos rfl]
      induction rows with
      | nil => cases found
      | cons other rest ih =>
        rw [editFirst]
        split
        · exact find?_cons_self
        · rename_i elsewhere
          rw [find?_cons_of_ne elsewhere] at found ⊢
          exact ih (by rw [found]; rfl) found
    · rw [if_neg own]
      induction rows with
      | nil => cases found
      | cons other rest ih =>
        rw [editFirst]
        split
        · rename_i here
          rw [find?_cons_of_ne (Ne.symm own), find?_cons_of_ne (here ▸ Ne.symm own)]
        · rename_i elsewhere
          rw [find?_cons_of_ne elsewhere] at found
          by_cases first_key : key other = k
          · subst first_key
            rw [find?_cons_self, find?_cons_self]
          · rw [find?_cons_of_ne first_key, find?_cons_of_ne first_key]
            exact ih (by rw [found]; rfl) found
  · rw [put, if_neg old, find?_append]
    by_cases own : k = key row
    · subst own
      rw [Option.isSome_iff_ne_none, not_not] at old
      rw [old, if_pos rfl, Option.none_or]
    · rw [if_neg own, if_neg (Ne.symm own), Option.or_none]

/-- With distinct keys every row is found. -/
theorem find?_of_mem (distinct : (rows.map key).Nodup) (mem : row ∈ rows) :
    find? key rows (key row) = some row := by
  induction rows with
  | nil => cases mem
  | cons first rest ih =>
    rw [List.map_cons, List.nodup_cons] at distinct
    rcases List.mem_cons.mp mem with rfl | mem
    · exact find?_cons_self
    · have ne : key first ≠ key row := fun same => distinct.1 (same ▸ List.mem_map_of_mem mem)
      rw [find?_cons_of_ne ne, ih distinct.2 mem]

end Keyed
