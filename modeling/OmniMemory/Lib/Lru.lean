import Mathlib.Data.List.Nodup

/-! Least-recently-used caches: entries with distinct keys, the most recently used first, and no
more of them than the cache has room for. An entry that is read or written comes first, and the last
ones make room. -/

namespace Interleave

structure Lru (κ α : Type) (size : Nat) where
  entries : List (κ × α)
  distinct : (entries.map Prod.fst).Nodup
  bounded : entries.length ≤ size

namespace Lru

variable {κ α : Type} {size : Nat}

def empty : Lru κ α size := ⟨[], List.nodup_nil, Nat.zero_le _⟩

@[simp] theorem entries_empty : (empty : Lru κ α size).entries = [] := rfl

variable [DecidableEq κ] (c : Lru κ α size) (k : κ) (a : α)

def find? : Option α := (c.entries.find? fun e => e.1 = k).map Prod.snd

/-- The cache with an entry in front, in place of the one with its key. -/
def put : Lru κ α size where
  entries := ((k, a) :: c.entries.filter fun e => e.1 ≠ k).take size
  distinct := by
    rw [List.map_take]
    refine List.Nodup.sublist (List.take_sublist _ _) ?_
    rw [List.map_cons, List.nodup_cons]
    constructor
    · intro mem
      obtain ⟨e, kept, same⟩ := List.mem_map.mp mem
      exact of_decide_eq_true (List.mem_filter.mp kept).2 same
    · exact c.distinct.sublist (List.filter_sublist.map Prod.fst)
  bounded := List.length_take_le _ _

/-- The entry with a key, when it is read, comes first. -/
def touch : Lru κ α size :=
  match c.find? k with
  | some a => c.put k a
  | none => c

variable {c k a}

theorem mem_of_find? (found : c.find? k = some a) : (k, a) ∈ c.entries := by
  obtain ⟨e, here, rfl⟩ := Option.map_eq_some_iff.mp found
  have same : e.1 = k := by simpa using List.find?_some here
  rw [← same]
  exact List.mem_of_find?_eq_some here

theorem mem_put {e : κ × α} (mem : e ∈ (c.put k a).entries) : e = (k, a) ∨ e ∈ c.entries := by
  rcases List.mem_cons.mp (List.mem_of_mem_take mem) with same | kept
  · exact .inl same
  · exact .inr (List.mem_of_mem_filter kept)

theorem mem_touch {e : κ × α} (mem : e ∈ (c.touch k).entries) : e ∈ c.entries := by
  unfold touch at mem
  split at mem
  · rcases mem_put mem with rfl | kept
    · exact mem_of_find? ‹_›
    · exact kept
  · exact mem

theorem find?_put (room : 0 < size) : (c.put k a).find? k = some a := by
  obtain ⟨n, rfl⟩ := Nat.exists_eq_add_of_lt room
  simp [find?, put]

end Lru

end Interleave
