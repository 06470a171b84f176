import OmniMemory.Lifecycle.Expire

/-! `HandlerMemoryArchive.handle`, as a program over the calls it awaits: the read of the memory,
the archive file that is written beside its target and renamed onto it, and the guarded UPDATE
with the branches that report an orphan. -/

namespace OmniMemory

open Interleave Lifecycle

structure ModelArchiveMemoryCommand where
  memoryId : UUID
  expectedRevision : Nat
  archivePath : Option PurePath := none
deriving DecidableEq

structure ModelMemoryArchiveResult where
  memoryId : UUID
  success : Bool
  archivedAt : Option DateTime := none
  archivePath : Option PurePath := none
  bytesWritten : Nat := 0
  conflict : Bool := false
  orphaned : Bool := false
  errorMessage : Option String := none

structure ModelMemoryRow where
  id : UUID
  content : String
  contentType : String
  createdAt : DateTime
  expiredAt : Option DateTime
  lifecycleState : EnumLifecycleState
  lifecycleRevision : Nat
  metadata : Option String

/-- The fields of the handler that `handle` reads. -/
structure HandlerMemoryArchive where
  initialized : Bool
  dbPool : Bool
  archiveBasePath : Option PurePath
  orphanTracker : Bool
  dbCircuitBreaker : Bool
  compressionLevel : Nat
deriving DecidableEq

/-- `f"{n:02d}"`. -/
def twoDigits (n : Nat) : String := if n < 10 then "0" ++ toString n else toString n

namespace HandlerMemoryArchive

variable (X : External) (self : HandlerMemoryArchive)

def readMemory (memoryId : UUID) (expectedRevision : Nat) :
    LifecycleProg (Except PyError (Option ModelMemoryRow)) := do
  if !self.dbPool then
    return .error (.runtimeError
      "Database pool not configured. Initialize handler with db_pool parameter.")
  withConnection do
    match ← selectMemory memoryId with
    | .error e => return .error e
    | .ok none => return .error (.valueError s!"Memory {UUID.str memoryId} not found")
    | .ok (some row) =>
      if row.lifecycleRevision ≠ expectedRevision then
        return .ok none
      let memory (metadata : Option String) : ModelMemoryRow :=
        { id := memoryId
          content := row.content
          contentType := row.contentType
          createdAt := row.createdAt
          expiredAt := row.expiredAt
          lifecycleState := row.lifecycleState
          lifecycleRevision := row.lifecycleRevision
          metadata }
      match row.metadata with
      | none => return .ok (some (memory none))
      | some raw =>
        match X.validateMetadata raw with
        | .error e => return .error (.valueError e)
        | .ok metadata => return .ok (some (memory (some metadata)))

def markArchived (memoryId : UUID) (expectedRevision : Nat) (archivedAt : DateTime)
    (archivePath : PurePath) : LifecycleProg (Except PyError Bool) := do
  if !self.dbPool then
    return .error (.runtimeError
      "Database pool not configured. Initialize handler with db_pool parameter.")
  withConnection do
    match ← updateArchived memoryId expectedRevision archivedAt archivePath with
    | .error e => return .error e
    | .ok (.unexpected text) =>
      return .error (.runtimeError s!"Unexpected DB result format: {text}")
    | .ok (.update rowsAffected) => return .ok (decide (rowsAffected > 0))

/-- `_get_archive_path`, from the base path that its guard has found set. -/
def getArchivePath (base : PurePath) (memoryId : UUID) (archivedAt : DateTime) : PurePath :=
  (((base.child (toString archivedAt.year)).child (twoDigits archivedAt.month)).child
    (twoDigits archivedAt.day)).child (UUID.str memoryId ++ ".jsonl.gz")

/-- `_validate_archive_path`: `none` when the path is valid. -/
def validateArchivePath (archivePath : PurePath) : Option String :=
  match self.archiveBasePath with
  | none => some ("Archive base path not initialized. " ++
      "Call initialize() before validating paths.")
  | some base =>
    match X.resolve base, X.resolve archivePath with
    | .error e, _ | .ok _, .error e => some s!"Failed to validate archive path: {e}"
    | .ok resolvedBase, .ok resolvedArchive =>
      if resolvedArchive.isRelativeTo resolvedBase then
        none
      else
        some (s!"Archive path '{archivePath.str}' is outside allowed directory. " ++
          s!"Path must be under '{base.str}'.")

def serializeForArchiveSync (record : ModelArchiveRecord) : Bytes :=
  X.compress self.compressionLevel (X.dumpJson record)

/-- The end of the `except` clause of `_write_archive_sync`: it removes the temporary file, ignoring
errors, and raises `e` again. -/
def removeTemp (temp : TempFile) (e : PyError) : LifecycleProg (Except PyError Nat) := do
  match ← tempExists temp with
  | .error e' => if e'.isOSError then return .error e else return .error e'
  | .ok false => return .error e
  | .ok true =>
    match ← unlink temp with
    | .ok () => return .error e
    | .error e' => if e'.isOSError then return .error e else return .error e'

/-- The `except` clause of `_write_archive_sync`: it closes the descriptor if it is open, ignoring
errors, and removes the temporary file. -/
def cleanUpTemp (temp : TempFile) (opened : Bool) (e : PyError) :
    LifecycleProg (Except PyError Nat) := do
  if !(e.isOSError || e.isValueError) then
    return .error e
  if !opened then
    removeTemp temp e
  else
    match ← close temp with
    | .ok () => removeTemp temp e
    | .error e' => if e'.isOSError then removeTemp temp e else return .error e'

/-- `_write_archive_sync`. `os.write` returns how many bytes it stored; the result is not read. -/
def writeArchiveSync (archivePath : PurePath) (compressedBytes : Bytes) :
    LifecycleProg (Except PyError Nat) := do
  match ← mkdir archivePath.parent with
  | .error e => return .error e
  | .ok () =>
  match ← mkstemp ".tmp" (archivePath.stem ++ ".") archivePath.parent with
  | .error e => return .error e
  | .ok temp =>
  match ← write temp compressedBytes with
  | .error e => cleanUpTemp temp true e
  | .ok stored =>
  match ← fsync temp with
  | .error e => cleanUpTemp temp true e
  | .ok () =>
  match ← close temp with
  | .error e => cleanUpTemp temp true e
  | .ok () =>
  match ← rename temp (compressedBytes.take stored) archivePath with
  | .error e => cleanUpTemp temp false e
  | .ok () => return .ok compressedBytes.length

/-- The call of the tracker in each orphan branch, when one is configured. -/
def trackIfConfigured (memoryId : UUID) (archivePath : PurePath) (reason : String) :
    LifecycleProg (Except PyError Unit) :=
  if self.orphanTracker then trackOrphan memoryId archivePath reason else return .ok ()

/-- The result of a branch that reports an orphan. -/
def orphanResult (memoryId : UUID) (archivePath : PurePath) (bytesWritten : Nat) (conflict : Bool)
    (message : String) : ModelMemoryArchiveResult :=
  { memoryId
    success := false
    conflict
    orphaned := true
    archivePath := some archivePath
    bytesWritten
    errorMessage := some message }

/-- The `try` block around the state update. It holds the tracker's call of the conflict branch,
so that an exception of that call reaches the `except` clauses. -/
def updateState (now : DateTime) (command : ModelArchiveMemoryCommand) (archivePath : PurePath)
    (bytesWritten : Nat) : LifecycleProg (Except PyError (Option ModelMemoryArchiveResult)) := do
  match ← self.markArchived command.memoryId command.expectedRevision now archivePath with
  | .error e => return .error e
  | .ok updated =>
    recordSuccess
    if updated then
      return .ok none
    match ← self.trackIfConfigured command.memoryId archivePath
        "revision_conflict_during_state_update" with
    | .error e => return .error e
    | .ok () =>
      return .ok (some (orphanResult command.memoryId archivePath bytesWritten true
        ("Revision conflict during state update. " ++
          "Archive file written but state not updated.")))

/-- An `except` clause of the state update: it tells the breaker, tracks the orphan, and reports
it. -/
def reportOrphan (record : LifecycleProg Unit) (command : ModelArchiveMemoryCommand)
    (archivePath : PurePath) (bytesWritten : Nat) (reason message : String) :
    LifecycleProg (Except PyError ModelMemoryArchiveResult) := do
  record
  match ← self.trackIfConfigured command.memoryId archivePath reason with
  | .error e => return .error e
  | .ok () => return .ok (orphanResult command.memoryId archivePath bytesWritten false message)

/-- The state update of `handle` with its `except` clauses, after the archive was written. -/
def finishArchive (now : DateTime) (command : ModelArchiveMemoryCommand) (archivePath : PurePath)
    (bytesWritten : Nat) : LifecycleProg (Except PyError ModelMemoryArchiveResult) := do
  match ← self.updateState now command archivePath bytesWritten with
  | .ok (some conflict) => return .ok conflict
  | .ok none =>
    return .ok
      { memoryId := command.memoryId
        success := true
        archivedAt := some now
        archivePath := some archivePath
        bytesWritten }
  | .error (.postgresError e) =>
    self.reportOrphan recordFailure command archivePath bytesWritten
      "database_error_during_state_update" s!"Database error during state update: {e}"
  | .error (.clientError e) =>
    self.reportOrphan recordFailure command archivePath bytesWritten
      "client_error_during_state_update" s!"Client error during state update: {e}"
  | .error (.timeoutError e) =>
    self.reportOrphan recordTimeout command archivePath bytesWritten
      "timeout_during_state_update" s!"Timeout during state update: {e}"
  | .error e => return .error e

/-- The record that `handle` builds from the row it read. -/
def archiveRecord (now : DateTime) (memory : ModelMemoryRow) : ModelArchiveRecord :=
  { memoryId := memory.id
    content := memory.content
    contentType := memory.contentType
    createdAt := memory.createdAt
    expiredAt := memory.expiredAt.getD now
    archivedAt := now
    lifecycleRevision := memory.lifecycleRevision
    metadata := memory.metadata }

/-- `handle` from the archive path on: the check of a caller's path, the write, and the state
update. -/
def writeAndUpdate (now : DateTime) (command : ModelArchiveMemoryCommand) (archivePath : PurePath)
    (compressedBytes : Bytes) : LifecycleProg (Except PyError ModelMemoryArchiveResult) := do
  let failed (message : String) : ModelMemoryArchiveResult :=
    { memoryId := command.memoryId, success := false, errorMessage := some message }
  let invalid : Option String := do
    let requested ← command.archivePath
    self.validateArchivePath X requested
  match invalid with
  | some message => return .ok (failed message)
  | none =>
  match ← writeArchiveSync archivePath compressedBytes with
  | .ok bytesWritten => self.finishArchive now command archivePath bytesWritten
  | .error e =>
    if e.isOSError then
      return .ok (failed s!"Archive write failed: {e.text}")
    return .error e

/-- `handle` from the memory that was read on. -/
def archiveMemory (now : DateTime) (command : ModelArchiveMemoryCommand) (memory : ModelMemoryRow) :
    LifecycleProg (Except PyError ModelMemoryArchiveResult) := do
  if memory.lifecycleState ≠ .expired then
    return .ok
      { memoryId := command.memoryId
        success := false
        errorMessage := some (s!"Cannot archive memory in state {memory.lifecycleState.value}. " ++
          "Only EXPIRED memories can be archived.") }
  let compressedBytes := self.serializeForArchiveSync X (archiveRecord now memory)
  match command.archivePath, self.archiveBasePath with
  | some path, _ => self.writeAndUpdate X now command path compressedBytes
  | none, some base =>
    self.writeAndUpdate X now command (getArchivePath base command.memoryId now) compressedBytes
  | none, none =>
    return .error (.runtimeError
      "Archive base path not initialized. This indicates a bug in initialize().")

/-- `handle`; `now` is the time that it reads first. -/
def handle (now : DateTime) (command : ModelArchiveMemoryCommand) :
    LifecycleProg (Except PyError ModelMemoryArchiveResult) := do
  let failed (message : String) : ModelMemoryArchiveResult :=
    { memoryId := command.memoryId, success := false, errorMessage := some message }
  if !self.initialized then
    return .error (.runtimeError "Handler not initialized. Call initialize() before handle().")
  if !self.dbCircuitBreaker then
    return .error (.runtimeError
      "Circuit breaker not initialized. This indicates a bug in initialize().")
  if !(← shouldAllowRequest) then
    return .ok (failed ("Database circuit breaker is open. " ++
      "Service is protecting against cascading failures."))
  match ← self.readMemory X command.memoryId command.expectedRevision with
  | .error (.valueError e) => return .ok (failed e)
  | .error (.postgresError e) =>
    recordFailure
    return .ok (failed s!"Database error reading memory: {e}")
  | .error (.clientError e) =>
    recordFailure
    return .ok (failed s!"Client error reading memory: {e}")
  | .error (.timeoutError e) =>
    recordTimeout
    return .ok (failed s!"Query timeout reading memory: {e}")
  | .error e => return .error e
  | .ok none =>
    return .ok { failed (s!"Revision conflict: expected {command.expectedRevision}, " ++
        "memory was modified or not found") with conflict := true }
  | .ok (some memory) =>
    recordSuccess
    self.archiveMemory X now command memory

/-! ### The calls on files and the others -/

section Uses

variable {P : Op → Prop} {X : External} {self : HandlerMemoryArchive}

theorem removeTemp_uses {temp : TempFile} (e : PyError) (found : P (.tempExists temp))
    (unlinked : P (.unlink temp)) : (removeTemp temp e).Uses P := by
  unfold removeTemp
  refine .bind (Prog.uses_perform.mpr found) fun there => ?_
  rcases there with e' | _ | _
  · dsimp only
    split <;> trivial
  · trivial
  refine .bind (Prog.uses_perform.mpr unlinked) fun gone => ?_
  rcases gone with e' | _
  · dsimp only
    split <;> trivial
  · trivial

theorem cleanUpTemp_uses {temp : TempFile} (opened : Bool) (e : PyError)
    (found : P (.tempExists temp)) (unlinked : P (.unlink temp)) (closed : P (.close temp)) :
    (cleanUpTemp temp opened e).Uses P := by
  unfold cleanUpTemp
  split
  · trivial
  split
  · exact removeTemp_uses e found unlinked
  refine .bind (Prog.uses_perform.mpr closed) fun shut => ?_
  rcases shut with e' | _
  · dsimp only
    split
    · exact removeTemp_uses e found unlinked
    · trivial
  · exact removeTemp_uses e found unlinked

/-- A write makes calls on files only. -/
theorem writeArchiveSync_uses (path : PurePath) (bytes : Bytes)
    (files : ∀ op : Op, op.isFile = true → P op) : (writeArchiveSync path bytes).Uses P := by
  have cleanUp : ∀ temp opened e, (cleanUpTemp temp opened e).Uses P := fun _ opened e =>
    cleanUpTemp_uses opened e (files _ rfl) (files _ rfl) (files _ rfl)
  unfold writeArchiveSync
  refine .bind (Prog.uses_perform.mpr (files _ rfl)) fun made => ?_
  rcases made with e | _
  · trivial
  refine .bind (Prog.uses_perform.mpr (files _ rfl)) fun opened => ?_
  rcases opened with e | temp
  · trivial
  refine .bind (Prog.uses_perform.mpr (files _ rfl)) fun written => ?_
  rcases written with e | stored
  · exact cleanUp temp true e
  refine .bind (Prog.uses_perform.mpr (files _ rfl)) fun synced => ?_
  rcases synced with e | _
  · exact cleanUp temp true e
  refine .bind (Prog.uses_perform.mpr (files _ rfl)) fun closed => ?_
  rcases closed with e | _
  · exact cleanUp temp true e
  refine .bind (Prog.uses_perform.mpr (files _ rfl)) fun renamed => ?_
  rcases renamed with e | _
  · exact cleanUp temp false e
  · trivial

variable (others : ∀ op : Op, op.isFile = false → P op)

include others

theorem readMemory_uses (memoryId : UUID) (expectedRevision : Nat) :
    (self.readMemory X memoryId expectedRevision).Uses P := by
  unfold readMemory
  split
  · trivial
  refine withConnection_uses (others _ rfl) (others _ rfl) ?_
  refine .bind (Prog.uses_perform.mpr (others _ rfl)) fun found => ?_
  rcases found with e | _ | row
  · trivial
  · trivial
  dsimp only
  split
  · trivial
  split
  · trivial
  · split <;> trivial

theorem trackIfConfigured_uses (memoryId : UUID) (path : PurePath) (reason : String) :
    (self.trackIfConfigured memoryId path reason).Uses P := by
  unfold trackIfConfigured
  split
  · exact Prog.uses_perform.mpr (others _ rfl)
  · trivial

theorem updateState_uses (now : DateTime) (command : ModelArchiveMemoryCommand) (path : PurePath)
    (bytesWritten : Nat) : (self.updateState now command path bytesWritten).Uses P := by
  unfold updateState markArchived
  refine .bind ?_ fun updated => ?_
  · split
    · trivial
    refine withConnection_uses (others _ rfl) (others _ rfl) ?_
    refine .bind (Prog.uses_perform.mpr (others _ rfl)) fun status => ?_
    rcases status with e | _ | _ <;> trivial
  rcases updated with e | updated
  · trivial
  refine .bind (Prog.uses_perform.mpr (others _ rfl)) fun _ => ?_
  split
  · trivial
  refine .bind (trackIfConfigured_uses others _ _ _) fun tracked => ?_
  rcases tracked with e | _ <;> trivial

theorem reportOrphan_uses {record : LifecycleProg Unit} (records : record.Uses P)
    (command : ModelArchiveMemoryCommand) (path : PurePath) (bytesWritten : Nat)
    (reason message : String) :
    (self.reportOrphan record command path bytesWritten reason message).Uses P := by
  unfold reportOrphan
  refine .bind records fun _ => .bind (trackIfConfigured_uses others _ _ _) fun tracked => ?_
  rcases tracked with e | _ <;> trivial

/-- After the write no file is touched. -/
theorem finishArchive_uses (now : DateTime) (command : ModelArchiveMemoryCommand) (path : PurePath)
    (bytesWritten : Nat) : (self.finishArchive now command path bytesWritten).Uses P := by
  have failure : recordFailure.Uses P := Prog.uses_perform.mpr (others _ rfl)
  have timeout : recordTimeout.Uses P := Prog.uses_perform.mpr (others _ rfl)
  unfold finishArchive
  refine .bind (updateState_uses others _ _ _ _) fun updated => ?_
  split
  · trivial
  · trivial
  · exact reportOrphan_uses others failure _ _ _ _ _
  · exact reportOrphan_uses others failure _ _ _ _ _
  · exact reportOrphan_uses others timeout _ _ _ _ _
  · trivial

end Uses

end HandlerMemoryArchive

end OmniMemory
