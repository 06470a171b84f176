import OmniMemory.Path
import OmniMemory.Python
import Mathlib.Logic.Function.Basic

/-! The memory lifecycle: its states and their transitions, the rows of the `memories` table, and
the two UPDATE statements that the handlers send. A column that no modelled function reads is left
out (`expires_at`, `updated_at`). -/

namespace OmniMemory

inductive EnumLifecycleState where
  | active
  | stale
  | expired
  | archived
  | deleted
deriving DecidableEq

namespace EnumLifecycleState

def value : EnumLifecycleState → String
  | active => "active"
  | stale => "stale"
  | expired => "expired"
  | archived => "archived"
  | deleted => "deleted"

end EnumLifecycleState

open EnumLifecycleState

/-- `VALID_TRANSITIONS`: the destinations of each state. -/
def validTransitions : EnumLifecycleState → List EnumLifecycleState
  | active => [stale, expired, deleted]
  | stale => [active, expired, deleted]
  | expired => [archived, deleted]
  | archived => [active, deleted]
  | deleted => []

/-- `ValidatorLifecycleTransition.is_valid`: a self-transition is never valid. -/
def isValid (fromState toState : EnumLifecycleState) : Bool :=
  if fromState = toState then false else decide (toState ∈ validTransitions fromState)

/-- No state lists itself, so the validator's test for self-transitions rejects nothing that the
table allows. -/
theorem isValid_iff {a b : EnumLifecycleState} : isValid a b = true ↔ b ∈ validTransitions a := by
  cases a <;> cases b <;> decide

/-- A row of `memories`. `archivePath` holds the path whose `str` the column has. -/
structure MemoryRow where
  content : String
  contentType : String
  createdAt : DateTime
  expiredAt : Option DateTime
  lifecycleState : EnumLifecycleState
  lifecycleRevision : Nat
  archivedAt : Option DateTime
  archivePath : Option PurePath
  metadata : Option String
deriving DecidableEq

/-- The table `memories`, by primary key. -/
abbrev Memories := UUID → Option MemoryRow

/-- The row that a guarded UPDATE changes: the one with this id, revision and state. -/
def Memories.guarded (t : Memories) (id : UUID) (revision : Nat) (state : EnumLifecycleState) :
    Option MemoryRow :=
  (t id).filter fun row => row.lifecycleRevision = revision ∧ row.lifecycleState = state

/-- `_EXPIRE_SQL`: the row with the new state, time and revision. -/
def MemoryRow.expire (row : MemoryRow) (expiredAt : DateTime) : MemoryRow :=
  { row with
    lifecycleState := expired
    expiredAt := some expiredAt
    lifecycleRevision := row.lifecycleRevision + 1 }

/-- The UPDATE of `_mark_archived`: the row with the new state, time, path and revision. -/
def MemoryRow.archive (row : MemoryRow) (archivedAt : DateTime) (path : PurePath) : MemoryRow :=
  { row with
    lifecycleState := archived
    lifecycleRevision := row.lifecycleRevision + 1
    archivedAt := some archivedAt
    archivePath := some path }

theorem Memories.guarded_eq_some {t : Memories} {id : UUID} {revision : Nat}
    {state : EnumLifecycleState} {row : MemoryRow} :
    t.guarded id revision state = some row ↔
      t id = some row ∧ row.lifecycleRevision = revision ∧ row.lifecycleState = state := by
  simp [guarded, Option.filter_eq_some_iff]

/-- The table after an UPDATE of the guarded row by `set`, with the row as it was. -/
def Memories.updateWhere (t : Memories) (id : UUID) (revision : Nat) (state : EnumLifecycleState)
    (set : MemoryRow → MemoryRow) : Memories :=
  match t.guarded id revision state with
  | none => t
  | some row => Function.update t id (some (set row))

theorem Memories.updateWhere_none {t : Memories} {id : UUID} {revision : Nat}
    {state : EnumLifecycleState} {set : MemoryRow → MemoryRow}
    (h : t.guarded id revision state = none) : t.updateWhere id revision state set = t := by
  simp [updateWhere, h]

theorem Memories.updateWhere_some {t : Memories} {id : UUID} {revision : Nat}
    {state : EnumLifecycleState} {set : MemoryRow → MemoryRow} {row : MemoryRow}
    (h : t.guarded id revision state = some row) :
    t.updateWhere id revision state set = Function.update t id (some (set row)) := by
  simp [updateWhere, h]

/-- An UPDATE leaves a row as it is, or it is the guarded row that it sets. -/
theorem Memories.updateWhere_cases (t : Memories) (id : UUID) (revision : Nat)
    (state : EnumLifecycleState) (set : MemoryRow → MemoryRow) (other : UUID) :
    t.updateWhere id revision state set other = t other ∨
      other = id ∧ ∃ row, t.guarded id revision state = some row ∧
        t.updateWhere id revision state set other = some (set row) := by
  cases guard : t.guarded id revision state with
  | none => exact .inl (by rw [updateWhere_none guard])
  | some row =>
    rw [updateWhere_some guard]
    by_cases same : other = id
    · subst same
      exact .inr ⟨rfl, row, rfl, Function.update_self ..⟩
    · exact .inl (Function.update_of_ne same ..)

end OmniMemory
