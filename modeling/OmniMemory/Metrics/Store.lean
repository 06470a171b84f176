import Mathlib.Data.List.Dedup
import Mathlib.Data.List.Sort
import OmniMemory.Lib.Table
import OmniMemory.Python

/-! What the metrics share: labels, their check, and a bounded store with an entry for each key of
labels. The entry that is written or read becomes the last one, and a new entry takes the place of
the first ones when the store is full. -/

namespace OmniMemory

open Interleave

namespace Metrics

/-- The keyword arguments of a call. -/
abbrev Labels := Table (Prod.fst : String × String → String)

/-- A `tuple[str, ...]`, one string for each name of a label. -/
abbrev Key := List String

/-- The fields that `Counter`, `Histogram` and `Gauge` share. -/
structure Metric where
  name : String
  labelNames : List String
  maxEntries : Int := 10000
  strictLabels : Bool := false

/-- The entries of a metric, the least recently used first. -/
abbrev Values (α : Type) := Table (Prod.fst : Key × α → Key)

/-- `sorted`, of a set of names. -/
def sortedNames (names : List String) : List String := names.dedup.insertionSort (· ≤ ·)

/-- `str`, of a list of names without quotes. -/
def listStr (names : List String) : String :=
  "[" ++ ", ".intercalate (names.map fun name => "'" ++ name ++ "'") ++ "]"

namespace Metric

variable {α : Type} (self : Metric)

/-- `_validate_labels`. -/
def validateLabels (labels : Labels) : Except PyError Unit :=
  let provided := labels.rows.map Prod.fst
  let missing := self.labelNames.filter (· ∉ provided)
  let extra := provided.filter (· ∉ self.labelNames)
  let errors := (if missing = [] then [] else ["missing labels: " ++ listStr (sortedNames missing)])
    ++ (if extra = [] then [] else ["extra labels: " ++ listStr (sortedNames extra)])
  if !self.strictLabels || errors.isEmpty then .ok ()
  else .error (.valueError (s!"Label validation failed for metric '{self.name}': " ++
    "; ".intercalate errors ++ s!". Expected: {listStr (sortedNames self.labelNames)}, " ++
    s!"got: {listStr (sortedNames provided)}"))

/-- `_labels_to_key`. -/
def labelsToKey (labels : Labels) : Key :=
  self.labelNames.map fun name => (labels.find? name).elim "" Prod.snd

end Metric

variable {α : Type}

/-- What the loop leaves that drops the first entry while there are as many as allowed, or more. -/
def dropFull (maxEntries : Int) : List α → List α
  | [] => []
  | entry :: rest =>
    if maxEntries ≤ (entry :: rest).length then dropFull maxEntries rest else entry :: rest

theorem dropFull_suffix (maxEntries : Int) (entries : List α) :
    dropFull maxEntries entries <:+ entries := by
  induction entries with
  | nil => exact List.suffix_rfl
  | cons entry rest ih =>
    rw [dropFull]
    split
    · exact ih.trans (List.suffix_cons _ _)
    · exact List.suffix_rfl

theorem dropFull_length (maxEntries : Int) (entries : List α) :
    dropFull maxEntries entries = [] ∨ (dropFull maxEntries entries).length < maxEntries := by
  induction entries with
  | nil => exact .inl rfl
  | cons entry rest ih =>
    rw [dropFull]
    split
    · exact ih
    · exact .inr (by omega)

def Values.evict (values : Values α) (maxEntries : Int) : Values α where
  rows := dropFull maxEntries values.rows
  distinct := values.distinct.sublist ((dropFull_suffix _ _).sublist.map _)

theorem Values.length_evict {values : Values α} {maxEntries : Int} (room : 0 < maxEntries) :
    (values.evict maxEntries).rows.length < maxEntries := by
  rcases dropFull_length maxEntries values.rows with none | less
  · show (dropFull maxEntries values.rows).length < maxEntries
    rw [none]
    exact room
  · exact less

theorem Values.mem_of_mem_evict {values : Values α} {maxEntries : Int} {entry : Key × α}
    (mem : entry ∈ values.evict maxEntries) : entry ∈ values :=
  (dropFull_suffix _ _).subset mem

namespace Metric

variable (self : Metric) (fresh : α) (update : α → α) (values : Values α) (labels : Labels)

/-- `inc`, `observe` and `set`: the value for the labels is updated, and is new if there is none.
With no room at all an entry is dropped from an empty store. -/
def record : Except PyError Unit × Values α :=
  match self.validateLabels labels with
  | .error e => (.error e, values)
  | .ok () =>
    let key := self.labelsToKey labels
    match values.find? key with
    | some (_, held) => (.ok (), values.put (key, update held))
    | none =>
      let kept := values.evict self.maxEntries
      if self.maxEntries ≤ kept.rows.length then
        (.error (.other "'dictionary is empty'"), kept)
      else (.ok (), kept.put (key, update fresh))

/-- `get`: the value for the labels, whose entry becomes the last one. -/
def read : Option α × Values α :=
  let key := self.labelsToKey labels
  match values.find? key with
  | some (_, held) => (some held, values.put (key, held))
  | none => (none, values)

variable {self fresh update values labels}

variable (self fresh update values labels) in
/-- What a call records: nothing, the update of a value that is stored, or a new value. -/
theorem record_cases :
    (∃ e, self.record fresh update values labels = (.error e, values)) ∨
    (∃ held, values.find? (self.labelsToKey labels) = some (self.labelsToKey labels, held) ∧
      self.record fresh update values labels =
        (.ok (), values.put (self.labelsToKey labels, update held))) ∨
    (values.find? (self.labelsToKey labels) = none ∧
      self.maxEntries ≤ (values.evict self.maxEntries).rows.length ∧
      self.record fresh update values labels =
        (.error (.other "'dictionary is empty'"), values.evict self.maxEntries)) ∨
    (values.find? (self.labelsToKey labels) = none ∧
      (values.evict self.maxEntries).rows.length < self.maxEntries ∧
      self.record fresh update values labels =
        (.ok (), (values.evict self.maxEntries).put (self.labelsToKey labels, update fresh))) := by
  unfold record
  split
  · exact .inl ⟨_, rfl⟩
  · refine .inr ?_
    dsimp only
    split
    · rename_i key held found
      obtain rfl : key = self.labelsToKey labels := (Table.find?_eq_some.mp found).2
      exact .inl ⟨held, found, rfl⟩
    · rename_i absent
      refine .inr ?_
      split
      · exact .inl ⟨absent, ‹_›, rfl⟩
      · exact .inr ⟨absent, by omega, rfl⟩

theorem length_put_of_find {key : Key} {held held' : α}
    (found : values.find? key = some (key, held)) :
    (values.put (key, held')).rows.length = values.rows.length :=
  Table.length_put_of_mem (Table.find?_eq_some.mp found).1 rfl

/-- No more entries are stored than are allowed. -/
theorem length_record (bounded : values.rows.length ≤ self.maxEntries.toNat) :
    (self.record fresh update values labels).2.rows.length ≤ self.maxEntries.toNat := by
  rcases record_cases self fresh update values labels with
    ⟨e, same⟩ | ⟨held, found, same⟩ | ⟨-, -, same⟩ | ⟨-, room, same⟩
  · rwa [same]
  · rwa [same, length_put_of_find found]
  · rw [same]
    exact (dropFull_suffix _ _).length_le.trans bounded
  · rw [same]
    have more := (values.evict self.maxEntries).length_put_le (self.labelsToKey labels, update fresh)
    exact more.trans (by omega)

variable (self values labels) in
/-- What a call reads: the value that is stored, which is put in its own place, or nothing. -/
theorem read_cases :
    (∃ held, values.find? (self.labelsToKey labels) = some (self.labelsToKey labels, held) ∧
      self.read values labels = (some held, values.put (self.labelsToKey labels, held))) ∨
    (values.find? (self.labelsToKey labels) = none ∧ self.read values labels = (none, values)) := by
  unfold read
  dsimp only
  split
  · rename_i key held found
    obtain rfl : key = self.labelsToKey labels := (Table.find?_eq_some.mp found).2
    exact .inl ⟨held, found, rfl⟩
  · exact .inr ⟨‹_›, rfl⟩

theorem length_read : (self.read values labels).2.rows.length = values.rows.length := by
  rcases read_cases self values labels with
    ⟨held, found, same⟩ | ⟨-, same⟩
  · rw [same, length_put_of_find found]
  · rw [same]

/-- Reading changes no value. -/
theorem find?_read (key : Key) : (self.read values labels).2.find? key = values.find? key := by
  rcases read_cases self values labels with
    ⟨held, found, same⟩ | ⟨-, same⟩
  · rw [same, Table.find?_put]
    split
    · rename_i own
      rw [own, found]
    · rfl
  · rw [same]

/-- What is stored for other labels is what was stored, or is dropped. -/
theorem find?_record_of_ne {key : Key} {held : α} (other : key ≠ self.labelsToKey labels)
    (found : (self.record fresh update values labels).2.find? key = some (key, held)) :
    values.find? key = some (key, held) := by
  have kept (found : (values.evict self.maxEntries).find? key = some (key, held)) :
      values.find? key = some (key, held) :=
    Table.find?_eq_some.mpr ⟨Values.mem_of_mem_evict (Table.find?_eq_some.mp found).1, rfl⟩
  rcases record_cases self fresh update values labels with
    ⟨e, same⟩ | ⟨_, -, same⟩ | ⟨-, -, same⟩ | ⟨-, -, same⟩ <;> rw [same] at found
  · exact found
  · rwa [Table.find?_put, if_neg other] at found
  · exact kept found
  · rw [Table.find?_put, if_neg other] at found
    exact kept found

variable (self fresh update values labels) in
/-- A metric that lets any labels pass, and has room, records: the value for the labels is updated. -/
theorem record_ok (lenient : self.strictLabels = false) (room : 0 < self.maxEntries) :
    (self.record fresh update values labels).1 = .ok () ∧
      (self.record fresh update values labels).2.find? (self.labelsToKey labels) =
        some (self.labelsToKey labels,
          update ((values.find? (self.labelsToKey labels)).elim fresh Prod.snd)) := by
  have passes : self.validateLabels labels = .ok () := by
    unfold validateLabels
    dsimp only
    rw [lenient, Bool.not_false, Bool.true_or, if_pos rfl]
  have space : (values.evict self.maxEntries).rows.length < self.maxEntries :=
    Values.length_evict room
  rcases record_cases self fresh update values labels with
    ⟨e, same⟩ | ⟨held, found, same⟩ | ⟨-, full, -⟩ | ⟨absent, -, same⟩
  · unfold record at same
    rw [passes] at same
    dsimp only at same
    split at same
    · cases congrArg Prod.fst same
    · rw [if_neg (not_le.mpr space)] at same
      cases congrArg Prod.fst same
  · rw [same, found]
    exact ⟨rfl, by rw [Table.find?_put, if_pos rfl]; rfl⟩
  · exact absurd full (not_le.mpr space)
  · rw [same, absent]
    exact ⟨rfl, by rw [Table.find?_put, if_pos rfl]; rfl⟩

end Metric

end Metrics

end OmniMemory
