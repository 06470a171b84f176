import Mathlib.Data.List.Induction
import Mathlib.Data.List.Nodup

/-! Tables: rows with distinct keys. `put` is what a database does for an insert that updates on
conflict, `add` for one that does nothing on conflict, and `erase` is a delete by key. What a table
holds is read by `find?`, and the lemmas say what `find?` gives after each operation. -/

namespace Interleave

/-- Rows with distinct keys, in some order. -/
structure Table {α κ : Type} (key : α → κ) where
  rows : List α
  distinct : (rows.map key).Nodup

namespace Table

variable {α κ : Type} {key : α → κ}

instance : Membership α (Table key) := ⟨fun t a => a ∈ t.rows⟩

instance [DecidableEq α] : DecidableEq (Table key) := fun t t' =>
  decidable_of_iff (t.rows = t'.rows) (by cases t; cases t'; simp)

theorem mem_def {t : Table key} {a : α} : a ∈ t ↔ a ∈ t.rows := Iff.rfl

theorem eq_of_key {t : Table key} {a b : α} (ha : a ∈ t) (hb : b ∈ t) (same : key a = key b) :
    a = b :=
  List.inj_on_of_nodup_map t.distinct ha hb same

def empty : Table key := ⟨[], List.nodup_nil⟩

@[simp] theorem not_mem_empty (a : α) : a ∉ (empty : Table key) := List.not_mem_nil

def filter (t : Table key) (keep : α → Bool) : Table key :=
  ⟨t.rows.filter keep, t.distinct.sublist (List.filter_sublist.map key)⟩

@[simp] theorem mem_filter {t : Table key} {keep : α → Bool} {a : α} :
    a ∈ t.filter keep ↔ a ∈ t ∧ keep a = true := List.mem_filter

variable [DecidableEq κ]

def find? (t : Table key) (k : κ) : Option α := t.rows.find? fun a => key a = k

def erase (t : Table key) (k : κ) : Table key := t.filter fun a => key a ≠ k

/-- The table with a row in place of the one with its key, if there is one. -/
def put (t : Table key) (a : α) : Table key where
  rows := (t.erase (key a)).rows ++ [a]
  distinct := by
    rw [List.map_append, List.map_singleton]
    refine (t.erase (key a)).distinct.append (List.nodup_singleton _) ?_
    intro k hk here
    obtain rfl := List.mem_singleton.mp here
    obtain ⟨b, hb, same⟩ := List.mem_map.mp hk
    exact absurd same (of_decide_eq_true (mem_filter.mp hb).2)

theorem find?_eq_some {t : Table key} {k : κ} {a : α} : t.find? k = some a ↔ a ∈ t ∧ key a = k := by
  constructor
  · intro found
    unfold find? at found
    exact ⟨List.mem_of_find?_eq_some found, by simpa using List.find?_some found⟩
  · rintro ⟨mem, rfl⟩
    cases found : t.find? (key a) with
    | none => exact absurd (decide_eq_true rfl) (List.find?_eq_none.mp found a mem)
    | some b =>
      unfold find? at found
      have same : key b = key a := by simpa using List.find?_some found
      rw [eq_of_key (List.mem_of_find?_eq_some found) mem same]

theorem find?_eq_none {t : Table key} {k : κ} : t.find? k = none ↔ ∀ a ∈ t, key a ≠ k := by
  simp [find?, mem_def]

@[simp] theorem mem_erase {t : Table key} {k : κ} {a : α} : a ∈ t.erase k ↔ a ∈ t ∧ key a ≠ k := by
  simp [erase]

@[simp] theorem mem_put {t : Table key} {a b : α} :
    b ∈ t.put a ↔ b = a ∨ b ∈ t ∧ key b ≠ key a := by
  rw [mem_def, put, List.mem_append, List.mem_singleton, ← mem_def, mem_erase, or_comm]

theorem find?_put (t : Table key) (a : α) (k : κ) :
    (t.put a).find? k = if k = key a then some a else t.find? k := by
  split
  · rename_i same
    exact find?_eq_some.mpr ⟨mem_put.mpr (.inl rfl), same.symm⟩
  · rename_i ne
    ext b
    rw [find?_eq_some, find?_eq_some, mem_put]
    constructor
    · rintro ⟨rfl | ⟨mem, -⟩, same⟩
      · exact absurd same.symm ne
      · exact ⟨mem, same⟩
    · rintro ⟨mem, rfl⟩
      exact ⟨.inr ⟨mem, ne⟩, rfl⟩

/-- A row in place of another leaves the number of rows. -/
theorem length_put_of_mem {t : Table key} {a b : α} (mem : b ∈ t) (same : key b = key a) :
    (t.put a).rows.length = t.rows.length := by
  have keys : (t.erase (key a)).rows.map key = (t.rows.map key).erase (key a) := by
    rw [t.distinct.erase_eq_filter, List.filter_map]
    refine congrArg (List.map key) (List.filter_congr fun b _ => ?_)
    rw [Bool.eq_iff_iff]
    simp
  have here : key a ∈ t.rows.map key := List.mem_map.mpr ⟨b, mem, same⟩
  have length := congrArg List.length keys
  rw [List.length_map, List.length_erase_of_mem here, List.length_map] at length
  have some : 0 < t.rows.length := List.length_pos_of_mem mem
  rw [put, List.length_append, List.length_singleton, length]
  omega

theorem length_put_le (t : Table key) (a : α) : (t.put a).rows.length ≤ t.rows.length + 1 := by
  rw [put, List.length_append, List.length_singleton]
  exact Nat.add_le_add_right (List.length_filter_le _ _) 1

/-- Rows that are put into an empty table stay in their order. -/
theorem rows_foldl_put {rows : List α} (distinct : (rows.map key).Nodup) :
    (rows.foldl put (empty : Table key)).rows = rows := by
  induction rows using List.reverseRecOn with
  | nil => rfl
  | append_singleton rows a ih =>
    rw [List.map_append, List.map_singleton, List.nodup_append] at distinct
    obtain ⟨first, -, apart⟩ := distinct
    have kept : ((rows.foldl put (empty : Table key)).erase (key a)).rows = rows := by
      show (rows.foldl put (empty : Table key)).rows.filter _ = rows
      rw [ih first]
      refine List.filter_eq_self.mpr fun b mem => decide_eq_true ?_
      exact apart (key b) (List.mem_map_of_mem mem) (key a) (List.mem_singleton_self _)
    rw [List.foldl_append]
    show ((rows.foldl put (empty : Table key)).erase (key a)).rows ++ [a] = rows ++ [a]
    rw [kept]

theorem isSome_find? {t : Table key} {k : κ} : (t.find? k).isSome = true ↔ ∃ a ∈ t, key a = k := by
  constructor
  · intro found
    obtain ⟨a, found⟩ := Option.isSome_iff_exists.mp found
    exact ⟨a, find?_eq_some.mp found⟩
  · rintro ⟨a, mem, same⟩
    rw [find?_eq_some.mpr ⟨mem, same⟩]
    rfl

/-- The table with a row added, unless there is one with its key. -/
def add (t : Table key) (a : α) : Table key := if (t.find? (key a)).isSome then t else t.put a

theorem find?_add (t : Table key) (a : α) (k : κ) :
    (t.add a).find? k = (t.find? k).or (if k = key a then some a else none) := by
  unfold add
  split
  · rename_i present
    split
    · rename_i same
      rw [same, Option.or_of_isSome present]
    · rw [Option.or_none]
  · rename_i absent
    rw [find?_put]
    split
    · rename_i same
      rw [same, Option.not_isSome_iff_eq_none.mp absent, Option.none_or]
    · rw [Option.or_none]

theorem find?_erase (t : Table key) (k k' : κ) :
    (t.erase k).find? k' = if k' = k then none else t.find? k' := by
  split
  · rename_i same
    refine find?_eq_none.mpr fun a mem => ?_
    rw [same]
    exact (mem_erase.mp mem).2
  · rename_i ne
    ext b
    rw [find?_eq_some, find?_eq_some, mem_erase]
    constructor
    · rintro ⟨⟨mem, -⟩, same⟩
      exact ⟨mem, same⟩
    · rintro ⟨mem, rfl⟩
      exact ⟨⟨mem, ne⟩, rfl⟩

end Table

end Interleave
