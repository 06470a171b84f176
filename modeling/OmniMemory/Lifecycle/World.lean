import OmniMemory.Lib.Contract
import OmniMemory.Lifecycle.Archive

/-! The world of the lifecycle handlers: any number of expire and archive commands, by any handler
instances, over one table and one file tree. The lemmas say what each call can do. -/

namespace OmniMemory

open Interleave

namespace Lifecycle

/-- A command with the handler that takes it and the time that the handler reads. -/
inductive Command where
  | expire (self : HandlerMemoryExpire) (now : DateTime) (command : ModelExpireMemoryCommand)
  | archive (self : HandlerMemoryArchive) (now : DateTime) (command : ModelArchiveMemoryCommand)
deriving DecidableEq

inductive Result where
  | expire (result : ModelMemoryExpireResult)
  | archive (result : ModelMemoryArchiveResult)

namespace Command

def memoryId : Command → UUID
  | expire _ _ command => command.memoryId
  | archive _ _ command => command.memoryId

def expectedRevision : Command → Nat
  | expire _ _ command => command.expectedRevision
  | archive _ _ command => command.expectedRevision

/-- The state that the command's UPDATE requires. -/
def source : Command → EnumLifecycleState
  | expire .. => .active
  | archive .. => .expired

/-- The state that the command's UPDATE sets. -/
def target : Command → EnumLifecycleState
  | expire .. => .expired
  | archive .. => .archived

end Command

def Result.success : Result → Bool
  | expire result => result.success
  | archive result => result.success

def code (X : External) : Command → LifecycleProg (Except PyError Result)
  | .expire self now command => do return (← self.handle now command).map .expire
  | .archive self now command => do return (← self.handle X now command).map .archive

/-- The world of the handlers; nothing but their calls changes the shared state. -/
def world (X : External) : World Op Res (Except PyError Result) Command Choice Empty State where
  code := code X
  exec := exec X
  move := fun m => nomatch m

abbrev CallEvent := Event Op Res State

abbrev LifecyclePool := Pool Op Res (Except PyError Result) Command State

/-- A row for runs, with no archive yet. -/
def plainRow (state : EnumLifecycleState) (revision : Nat) : MemoryRow :=
  { content := "text"
    contentType := "text/plain"
    createdAt := ⟨2025, 1, 1, 0⟩
    expiredAt := none
    lifecycleState := state
    lifecycleRevision := revision
    archivedAt := none
    archivePath := none
    metadata := none }

/-- A state in which the given memories have a plain row. -/
def plainState (ids : List UUID) (state : EnumLifecycleState) : State :=
  { memories := fun id => if id ∈ ids then some (plainRow state 0) else none
    files := fun _ => none
    tracked := [] }

def plainExpire : HandlerMemoryExpire := ⟨true, true, true⟩

def plainArchive : HandlerMemoryArchive where
  initialized := true
  dbPool := true
  archiveBasePath := some ⟨["/", "archive"]⟩
  orphanTracker := true
  dbCircuitBreaker := true
  compressionLevel := 6

/-- The statements that write the table. -/
def Op.writesTable : Op → Bool
  | updateExpired .. | updateArchived .. => true
  | _ => false

def Op.isRename : Op → Bool
  | rename .. => true
  | _ => false

def Op.isTrack : Op → Bool
  | trackOrphan .. => true
  | _ => false

/-- The calls that change neither the table nor an archive file and report no orphan. -/
def Op.isPlain (op : Op) : Bool := !op.writesTable && !op.isRename && !op.isTrack

/-- The call answered with an exception. -/
def raised : (op : Op) → Res op → Bool
  | .shouldAllowRequest, _ | .recordSuccess, _ | .recordFailure, _ | .recordTimeout, _ => false
  | .acquire, a | .release, a | .mkdir _, a | .fsync _, a | .close _, a | .rename .., a
  | .unlink _, a | .trackOrphan .., a => !a.toBool
  | .updateExpired .., a => !a.toBool
  | .readState _, a => !a.toBool
  | .selectMemory _, a => !a.toBool
  | .updateArchived .., a => !a.toBool
  | .mkstemp .., a => !a.toBool
  | .write .., a => !a.toBool
  | .tempExists _, a => !a.toBool

def Raised (e : CallEvent) : Prop := raised e.op e.answer = true

/-! ### What calls do -/

section Calls

variable {X : External} {e : CallEvent} {before after : State} {id : UUID} {revision : Nat}
  {time : DateTime} {path : PurePath}

theorem calls_iff {op : Op} {answer : Res op} :
    (world X).Calls ⟨op, before, answer, after⟩ ↔
      ∃ ch, exec X op ch before = some (answer, after) := Iff.rfl

/-- A call that is plain leaves the shared state as it is. -/
theorem after_eq (call : (world X).Calls e) (plain : e.op.isPlain = true) :
    e.after = e.before := by
  obtain ⟨op, before, answer, after⟩ := e
  obtain ⟨ch, call⟩ := calls_iff.mp call
  cases op with
  | write temp bytes =>
    cases ch with
    | short n =>
      replace call : (if 0 < n ∧ n < bytes.length then some ((.ok n : Except PyError Nat), before)
          else none) = some (answer, after) := call
      split at call
      · exact (Prod.mk.inj (Option.some.inj call)).2.symm
      · contradiction
    | _ => first | contradiction | exact (Prod.mk.inj (Option.some.inj call)).2.symm
  | _ =>
    first
    | contradiction
    | cases ch <;> first | contradiction | exact (Prod.mk.inj (Option.some.inj call)).2.symm

theorem updateExpired_cases {answer : Except PyError (Option Nat)}
    (call : (world X).Calls ⟨.updateExpired id revision time, before, answer, after⟩) :
    (answer = .ok (expireAnswer before.memories id revision) ∧
      after = before.expire id revision time) ∨
    (∃ e, answer = .error e) ∧ (after = before ∨ after = before.expire id revision time) := by
  obtain ⟨ch, call⟩ := calls_iff.mp call
  cases ch with
  | run =>
    obtain ⟨rfl, rfl⟩ := Prod.mk.inj (Option.some.inj call)
    exact .inl ⟨rfl, rfl⟩
  | fail e =>
    obtain ⟨rfl, rfl⟩ := Prod.mk.inj (Option.some.inj call)
    exact .inr ⟨⟨e, rfl⟩, .inl rfl⟩
  | lost e =>
    obtain ⟨rfl, rfl⟩ := Prod.mk.inj (Option.some.inj call)
    exact .inr ⟨⟨e, rfl⟩, .inr rfl⟩
  | _ => cases call

theorem updateArchived_cases {answer : Except PyError CommandStatus}
    (call : (world X).Calls ⟨.updateArchived id revision time path, before, answer, after⟩) :
    (answer = .ok (.update (archiveCount before.memories id revision)) ∧
      after = before.archive id revision time path) ∨
    (∃ e, answer = .error e) ∧
      (after = before ∨ after = before.archive id revision time path) := by
  obtain ⟨ch, call⟩ := calls_iff.mp call
  cases ch with
  | run =>
    obtain ⟨rfl, rfl⟩ := Prod.mk.inj (Option.some.inj call)
    exact .inl ⟨rfl, rfl⟩
  | fail e =>
    obtain ⟨rfl, rfl⟩ := Prod.mk.inj (Option.some.inj call)
    exact .inr ⟨⟨e, rfl⟩, .inl rfl⟩
  | lost e =>
    obtain ⟨rfl, rfl⟩ := Prod.mk.inj (Option.some.inj call)
    exact .inr ⟨⟨e, rfl⟩, .inr rfl⟩
  | _ => cases call

theorem rename_cases {temp : TempFile} {content : Bytes} {answer : Except PyError Unit}
    (call : (world X).Calls ⟨.rename temp content path, before, answer, after⟩) :
    (answer = .ok () ∧ after =
      { before with files := Function.update before.files (X.entry path) (some content) }) ∨
    (∃ e, answer = .error e) ∧ after = before := by
  obtain ⟨ch, call⟩ := calls_iff.mp call
  cases ch with
  | run =>
    obtain ⟨rfl, rfl⟩ := Prod.mk.inj (Option.some.inj call)
    exact .inl ⟨rfl, rfl⟩
  | fail e =>
    obtain ⟨rfl, rfl⟩ := Prod.mk.inj (Option.some.inj call)
    exact .inr ⟨⟨e, rfl⟩, rfl⟩
  | _ => cases call

theorem selectMemory_cases {answer : Except PyError (Option MemoryRow)}
    (call : (world X).Calls ⟨.selectMemory id, before, answer, after⟩) :
    after = before ∧ (answer = .ok (before.memories id) ∨ ∃ e, answer = .error e) := by
  refine ⟨after_eq call rfl, ?_⟩
  obtain ⟨ch, call⟩ := calls_iff.mp call
  cases ch with
  | run =>
    obtain ⟨rfl, -⟩ := Prod.mk.inj (Option.some.inj call)
    exact .inl rfl
  | fail e =>
    obtain ⟨rfl, -⟩ := Prod.mk.inj (Option.some.inj call)
    exact .inr ⟨e, rfl⟩
  | _ => cases call

theorem trackOrphan_cases {reason : String} {answer : Except PyError Unit}
    (call : (world X).Calls ⟨.trackOrphan id path reason, before, answer, after⟩) :
    after = { before with tracked := before.tracked ++ [⟨id, path, reason⟩] } ∨
      after = before := by
  obtain ⟨ch, call⟩ := calls_iff.mp call
  cases ch with
  | run =>
    obtain ⟨-, rfl⟩ := Prod.mk.inj (Option.some.inj call)
    exact .inl rfl
  | fail e =>
    obtain ⟨-, rfl⟩ := Prod.mk.inj (Option.some.inj call)
    exact .inr rfl
  | _ => cases call

theorem memories_eq (call : (world X).Calls e) (quiet : e.op.writesTable = false) :
    e.after.memories = e.before.memories := by
  by_cases plain : e.op.isPlain = true
  · rw [after_eq call plain]
  obtain ⟨op, before, answer, after⟩ := e
  cases op <;> first | contradiction | exact absurd rfl plain | skip
  case rename temp content target => rcases rename_cases call with ⟨-, rfl⟩ | ⟨-, rfl⟩ <;> rfl
  case trackOrphan id path reason => rcases trackOrphan_cases call with rfl | rfl <;> rfl

theorem files_eq (call : (world X).Calls e) (quiet : e.op.isRename = false) :
    e.after.files = e.before.files := by
  by_cases plain : e.op.isPlain = true
  · rw [after_eq call plain]
  obtain ⟨op, before, answer, after⟩ := e
  cases op <;> first | contradiction | exact absurd rfl plain | skip
  case updateExpired id revision time =>
    rcases updateExpired_cases call with ⟨-, rfl⟩ | ⟨-, rfl | rfl⟩ <;> rfl
  case updateArchived id revision time path =>
    rcases updateArchived_cases call with ⟨-, rfl⟩ | ⟨-, rfl | rfl⟩ <;> rfl
  case trackOrphan id path reason => rcases trackOrphan_cases call with rfl | rfl <;> rfl

theorem tracked_eq (call : (world X).Calls e) (quiet : e.op.isTrack = false) :
    e.after.tracked = e.before.tracked := by
  by_cases plain : e.op.isPlain = true
  · rw [after_eq call plain]
  obtain ⟨op, before, answer, after⟩ := e
  cases op <;> first | contradiction | exact absurd rfl plain | skip
  case updateExpired id revision time =>
    rcases updateExpired_cases call with ⟨-, rfl⟩ | ⟨-, rfl | rfl⟩ <;> rfl
  case updateArchived id revision time path =>
    rcases updateArchived_cases call with ⟨-, rfl⟩ | ⟨-, rfl | rfl⟩ <;> rfl
  case rename temp content target => rcases rename_cases call with ⟨-, rfl⟩ | ⟨-, rfl⟩ <;> rfl

theorem absent_after (call : (world X).Calls e) (absent : e.before.memories id = none) :
    e.after.memories id = none := by
  have kept : ∀ id' revision state set,
      e.before.memories.updateWhere id' revision state set id = none := by
    intro id' revision state set
    rcases Memories.updateWhere_cases e.before.memories id' revision state set id with
      kept | ⟨rfl, row, guard, -⟩
    · exact kept.trans absent
    · rw [(Memories.guarded_eq_some.mp guard).1] at absent
      contradiction
  by_cases quiet : e.op.writesTable = false
  · rwa [memories_eq call quiet]
  obtain ⟨op, before, answer, after⟩ := e
  cases op <;> try exact absurd rfl quiet
  case updateExpired id' revision time =>
    rcases updateExpired_cases call with ⟨-, rfl⟩ | ⟨-, rfl | rfl⟩
    · exact kept _ _ _ _
    · exact absent
    · exact kept _ _ _ _
  case updateArchived id' revision time path =>
    rcases updateArchived_cases call with ⟨-, rfl⟩ | ⟨-, rfl | rfl⟩
    · exact kept _ _ _ _
    · exact absent
    · exact kept _ _ _ _

theorem absent_of_reach {ids : List UUID} {start : EnumLifecycleState}
    {ok : LifecyclePool → Label Op Res Command Empty State → Prop} {p : LifecyclePool}
    (reach : (world X).Reach (· = plainState ids start) ok p) (other : id ∉ ids) :
    p.shared.memories id = none := by
  refine reach.invariant (P := fun p => p.shared.memories id = none) ?_ ?_
  · rintro s rfl
    simp [plainState, other]
  rintro p l p' - absent - step
  cases step with
  | start c => exact absent
  | call task here call => exact absent_after call absent
  | @move m after moved => exact m.elim

/-- Only the UPDATE of the archive handler puts a row into state ARCHIVED, and at its own path. -/
theorem archived_before {row : MemoryRow} (call : (world X).Calls e)
    (now : e.after.memories id = some row) (archived : row.lifecycleState = .archived) :
    e.before.memories id = some row ∨ ∃ revision time path,
      e.op = .updateArchived id revision time path ∧ row.archivePath = some path ∧
        e.after.memories ≠ e.before.memories := by
  by_cases same : e.after.memories = e.before.memories
  · rw [same] at now
    exact .inl now
  obtain ⟨op, before, answer, after⟩ := e
  cases op <;> try exact absurd (memories_eq call rfl) same
  case updateExpired id' revision time =>
    have changed : after = before.expire id' revision time := by
      rcases updateExpired_cases call with ⟨-, rfl⟩ | ⟨-, rfl | rfl⟩
      · rfl
      · exact absurd rfl same
      · rfl
    subst changed
    rcases Memories.updateWhere_cases before.memories id' revision .active
      (·.expire time) id with kept | ⟨-, old, -, set⟩
    · exact .inl (kept.symm.trans now)
    · cases set.symm.trans now
      contradiction
  case updateArchived id' revision time path =>
    have changed : after = before.archive id' revision time path := by
      rcases updateArchived_cases call with ⟨-, rfl⟩ | ⟨-, rfl | rfl⟩
      · rfl
      · exact absurd rfl same
      · rfl
    subst changed
    rcases Memories.updateWhere_cases before.memories id' revision .expired
      (·.archive time path) id with kept | ⟨rfl, old, -, set⟩
    · exact .inl (kept.symm.trans now)
    · cases set.symm.trans now
      exact .inr ⟨revision, time, path, rfl, rfl, same⟩

end Calls

end Lifecycle

end OmniMemory
