import OmniMemory.Lib.Program
import OmniMemory.Path
import OmniMemory.Python

/-! `HandlerFileSystemAdapter`: memory snapshots as JSON files of one directory, by calls to the
filesystem handler. The adapter is the one that `initialize` has made ready. -/

namespace OmniMemory

open Interleave Prog

namespace Storage

inductive Cause where
  | fileNotFoundError
  | permissionError
  | other
deriving DecidableEq

/-- An `InfraConnectionError`, as the adapter reads it. -/
structure InfraConnectionError where
  /-- The exceptions along `__cause__`. -/
  causes : List Cause
  /-- `str(error_code).upper()`. -/
  errorCode : Option String
  /-- `str(error).lower()`. -/
  message : String

namespace InfraConnectionError

variable (error : InfraConnectionError)

/-- `_is_not_found_infra_error`. -/
def isNotFound : Bool :=
  error.causes.contains .fileNotFoundError ||
    error.errorCode.any (fun code =>
      ["RESOURCE_NOT_FOUND", "NOT_FOUND", "FILE_NOT_FOUND"].any (hasSubstring code ·)) ||
    hasSubstring error.message "not found:"

/-- `_is_permission_denied_infra_error`. -/
def isPermissionDenied : Bool :=
  error.causes.contains .permissionError ||
    error.errorCode.any (fun code =>
      ["PERMISSION_DENIED", "ACCESS_DENIED", "FORBIDDEN"].any (hasSubstring code ·)) ||
    hasSubstring error.message "permission denied" || hasSubstring error.message "access denied"

end InfraConnectionError

/-- The exceptions that the adapter tells apart; `osError` is for the other subclasses of
`OSError`. -/
inductive Kind where
  | fileNotFoundError
  | permissionError
  | isADirectoryError
  | notADirectoryError
  | timeoutError
  | osError
  | infraConnectionError (error : InfraConnectionError)
  | validationError
  | unicodeEncodeError
  | unicodeDecodeError
  | jsonDecodeError
  | valueError
  | other

/-- An exception, with `str(e)`. -/
structure Raised where
  kind : Kind
  text : String

/-- `ModelMemorySnapshot`, with its id and its JSON form. -/
structure SnapshotModel where
  Snapshot : Type
  snapshotId : Snapshot → UUID
  modelDumpJson : Snapshot → String
  modelValidateJson : String → Except Raised Snapshot
  round_trip : ∀ s, modelValidateJson (modelDumpJson s) = .ok s

/-- The calls to `HandlerFileSystem`, by the operation and payload of the envelope. -/
inductive Envelope where
  | writeFile (path : PurePath) (content : String)
  | readFile (path : PurePath)
  | deleteFile (path : PurePath)
  | listDirectory (path : PurePath)

/-- A result dict that is not empty: the status, the error, and `content` and the names of
`entries` in the payload. -/
structure HandlerResult where
  status : Option String
  error : Option String := none
  content : String := ""
  entries : List String := []

/-- What a call of the handler answers; `none` is a result that is `None` or empty. -/
abbrev Answer := Except Raised (Option HandlerResult)

inductive Operation where
  | store
  | retrieve
  | delete
  | update
  | list

inductive Status where
  | success
  | error
  | notFound
  | permissionDenied

structure ModelMemoryStorageRequest (M : SnapshotModel) where
  operation : Operation
  snapshotId : Option String := none
  snapshot : Option M.Snapshot := none

structure ModelMemoryStorageResponse (M : SnapshotModel) where
  status : Status
  snapshot : Option M.Snapshot := none
  snapshotIds : Option (List String) := none
  errorMessage : Option String := none

/-- The directory tree, as `Path.resolve` follows it. -/
structure Disk where
  realpath : PurePath → PurePath
  absolute : ∀ p, (realpath p).isAbsolute = true

/-- `p.resolve()`: the calls to the system raise for a path with a NUL character. -/
def Disk.resolve (disk : Disk) (p : PurePath) : Except Raised PurePath :=
  if p.parts.any (·.toList.contains '\x00') then
    .error ⟨.valueError, "lstat: embedded null character in path"⟩
  else .ok (disk.realpath p)

/-- The adapter by its configuration. -/
structure HandlerFileSystemAdapter where
  basePath : PurePath
  snapshotsDir : String
  maxFileSize : Nat
  maxFileSize_pos : 0 < maxFileSize

namespace HandlerFileSystemAdapter

variable {M : SnapshotModel} (self : HandlerFileSystemAdapter) (disk : Disk)

def snapshotsPath : PurePath := self.basePath.join (.ofString self.snapshotsDir)

def filePath (snapshotId : String) : PurePath :=
  self.snapshotsPath.join (.ofString (snapshotId ++ ".json"))

/-- `_validate_snapshot_id`. -/
def validateSnapshotId (snapshotId : String) : Except Raised (Option String) := do
  if snapshotId = "" then return some "snapshot_id cannot be empty"
  if hasSubstring snapshotId "/" || hasSubstring snapshotId "\\" then
    return some "snapshot_id contains invalid path characters"
  if hasSubstring snapshotId ".." then return some "snapshot_id contains path traversal sequence"
  let filePath ← disk.resolve (self.filePath snapshotId)
  let directory ← disk.resolve self.snapshotsPath
  if !directory.str.toList.isPrefixOf filePath.str.toList then
    return some "snapshot_id resolves outside allowed directory"
  return none

/-- An operation: its response, or the exception that leaves `execute`. -/
abbrev Execution (M : SnapshotModel) :=
  Prog Envelope (fun _ => Answer) (Except Raised (ModelMemoryStorageResponse M))

def respond (response : ModelMemoryStorageResponse M) : Execution M := .ret (.ok response)

def failure (status : Status) (message : String) : ModelMemoryStorageResponse M :=
  { status := status, errorMessage := some message }

/-- The operation goes on when the id is valid. -/
def whenValid (snapshotId : String) (rest : Execution M) : Execution M :=
  match self.validateSnapshotId disk snapshotId with
  | .error e => .ret (.error e)
  | .ok (some error) => respond (failure .error s!"Invalid snapshot_id: {error}")
  | .ok none => rest

def successful (result : Option HandlerResult) : Bool :=
  result.any (·.status == some "success")

/-- What the handler's result says went wrong. -/
def errorOf (result : Option HandlerResult) (default : String) : String :=
  (result.bind (·.error)).getD default

section Store

def storeRaised (filePath : PurePath) (e : Raised) : ModelMemoryStorageResponse M :=
  match e.kind with
  | .permissionError => failure .permissionDenied
      s!"Permission denied writing to {filePath.str}: {e.text}"
  | .timeoutError => failure .error s!"Store operation timed out: {e.text}"
  | .fileNotFoundError | .isADirectoryError | .notADirectoryError | .osError =>
    failure .error s!"I/O error storing snapshot: {e.text}"
  | .infraConnectionError error =>
    if error.isPermissionDenied then
      failure .permissionDenied s!"Permission denied writing to {filePath.str}: {e.text}"
    else failure .error s!"Store failed: {e.text}"
  | .unicodeEncodeError => failure .error s!"Snapshot contains invalid characters: {e.text}"
  | _ => failure .error s!"Store failed: {e.text}"

def storeAnswer (snapshot : M.Snapshot) (filePath : PurePath) :
    Answer → ModelMemoryStorageResponse M
  | .ok result =>
    if successful result then { status := .success, snapshot := some snapshot }
    else failure .error (errorOf result "Write operation failed")
  | .error e => storeRaised filePath e

/-- `_store`. -/
def store (request : ModelMemoryStorageRequest M) : Execution M :=
  match request.snapshot with
  | none => respond (failure .error "snapshot is required for store operation")
  | some snapshot =>
    let snapshotId := UUID.str (M.snapshotId snapshot)
    self.whenValid disk snapshotId <|
      let content := M.modelDumpJson snapshot
      if self.maxFileSize < (encodeUtf8 content).length then
        respond (failure .error
          s!"Snapshot exceeds maximum file size of {self.maxFileSize} bytes")
      else do
        let answer ← perform (.writeFile (self.filePath snapshotId) content)
        respond (storeAnswer snapshot (self.filePath snapshotId) answer)

/-- `_update`: writing to the same path replaces the file. -/
def update (request : ModelMemoryStorageRequest M) : Execution M := self.store disk request

end Store

section Retrieve

def retrieveRaised (snapshotId : String) (filePath : PurePath) (e : Raised) :
    ModelMemoryStorageResponse M :=
  match e.kind with
  | .fileNotFoundError => failure .notFound s!"Snapshot {snapshotId} not found"
  | .permissionError => failure .permissionDenied
      s!"Permission denied reading {filePath.str}: {e.text}"
  | .validationError => failure .error s!"Invalid snapshot data format: {e.text}"
  | .timeoutError => failure .error s!"Retrieve operation timed out: {e.text}"
  | .isADirectoryError | .notADirectoryError | .osError =>
    failure .error s!"I/O error retrieving snapshot: {e.text}"
  | .infraConnectionError error =>
    if error.isNotFound then failure .notFound s!"Snapshot {snapshotId} not found"
    else if error.isPermissionDenied then
      failure .permissionDenied s!"Permission denied reading {filePath.str}: {e.text}"
    else failure .error s!"Retrieve failed: {e.text}"
  | .jsonDecodeError => failure .error s!"Snapshot file contains invalid JSON: {e.text}"
  | .unicodeDecodeError => failure .error s!"Snapshot file contains invalid encoding: {e.text}"
  | _ => failure .error s!"Retrieve failed: {e.text}"

def retrieveAnswer (snapshotId : String) (filePath : PurePath) :
    Answer → ModelMemoryStorageResponse M
  | .ok result =>
    if successful result then
      match M.modelValidateJson ((result.map (·.content)).getD "") with
      | .ok snapshot => { status := .success, snapshot := some snapshot }
      | .error e => retrieveRaised snapshotId filePath e
    else if result.any (·.status == some "not_found") then
      failure .notFound s!"Snapshot {snapshotId} not found"
    else failure .error (errorOf result "Read operation failed")
  | .error e => retrieveRaised snapshotId filePath e

/-- `_retrieve`. -/
def retrieve (request : ModelMemoryStorageRequest M) : Execution M :=
  match request.snapshotId with
  | none => respond (failure .error "snapshot_id is required for retrieve operation")
  | some snapshotId => self.whenValid disk snapshotId do
    let answer ← perform (.readFile (self.filePath snapshotId))
    respond (retrieveAnswer snapshotId (self.filePath snapshotId) answer)

end Retrieve

section Delete

def deleteRaised (snapshotId : String) (filePath : PurePath) (e : Raised) :
    ModelMemoryStorageResponse M :=
  match e.kind with
  | .fileNotFoundError => failure .notFound s!"Snapshot {snapshotId} not found"
  | .permissionError => failure .permissionDenied
      s!"Permission denied deleting {filePath.str}: {e.text}"
  | .isADirectoryError => failure .error s!"Cannot delete: {filePath.str} is a directory"
  | .timeoutError => failure .error s!"Delete operation timed out: {e.text}"
  | .notADirectoryError | .osError => failure .error s!"I/O error deleting snapshot: {e.text}"
  | .infraConnectionError error =>
    if error.isNotFound then failure .notFound s!"Snapshot {snapshotId} not found"
    else if error.isPermissionDenied then
      failure .permissionDenied s!"Permission denied deleting {filePath.str}: {e.text}"
    else failure .error s!"Delete failed: {e.text}"
  | _ => failure .error s!"Delete failed: {e.text}"

def deleteAnswer (snapshotId : String) (filePath : PurePath) :
    Answer → ModelMemoryStorageResponse M
  | .ok none => failure .error "Delete operation returned no result"
  | .ok (some result) =>
    if result.status = some "success" then { status := .success }
    else if result.status = some "not_found" then
      failure .notFound s!"Snapshot {snapshotId} not found"
    else if result.status = some "permission_denied" then
      failure .permissionDenied s!"Permission denied deleting {filePath.str}"
    else failure .error (result.error.getD "Delete operation failed")
  | .error e => deleteRaised snapshotId filePath e

/-- `_delete`. -/
def delete (request : ModelMemoryStorageRequest M) : Execution M :=
  match request.snapshotId with
  | none => respond (failure .error "snapshot_id is required for delete operation")
  | some snapshotId => self.whenValid disk snapshotId do
    let answer ← perform (.deleteFile (self.filePath snapshotId))
    respond (deleteAnswer snapshotId (self.filePath snapshotId) answer)

end Delete

section List

def listRaised (e : Raised) : ModelMemoryStorageResponse M :=
  let notFound := failure .error s!"Snapshots directory not found: {self.snapshotsPath.str}"
  match e.kind with
  | .fileNotFoundError => notFound
  | .permissionError => failure .permissionDenied
      s!"Permission denied listing {self.snapshotsPath.str}: {e.text}"
  | .notADirectoryError =>
    failure .error s!"Cannot list: {self.snapshotsPath.str} is not a directory"
  | .timeoutError => failure .error s!"List operation timed out: {e.text}"
  | .isADirectoryError | .osError => failure .error s!"I/O error listing snapshots: {e.text}"
  | .infraConnectionError error =>
    if error.isNotFound then notFound else failure .error s!"List failed: {e.text}"
  | _ => failure .error s!"List failed: {e.text}"

/-- The ids of the files of a directory: the stems of the names that end in `.json`. -/
def snapshotIdsOf (entries : List String) : List String :=
  (entries.filter (".json".toList.isSuffixOf ·.toList)).map fun name => (PurePath.ofString name).stem

def listAnswer : Answer → ModelMemoryStorageResponse M
  | .ok none => failure .error "List operation returned no result"
  | .ok (some result) =>
    if result.status = some "success" then
      { status := .success, snapshotIds := some (snapshotIdsOf result.entries) }
    else if result.status = some "not_found" then
      failure .error s!"Snapshots directory not found: {self.snapshotsPath.str}"
    else if result.status = some "permission_denied" then
      failure .permissionDenied s!"Permission denied listing {self.snapshotsPath.str}"
    else failure .error (result.error.getD "List operation failed")
  | .error e => self.listRaised e

/-- `_list`; the tags of the request are not read. -/
def list : Execution M := do
  let answer ← perform (.listDirectory self.snapshotsPath)
  respond (self.listAnswer answer)

end List

/-- `execute`. -/
def execute (request : ModelMemoryStorageRequest M) : Execution M :=
  match request.operation with
  | .store => self.store disk request
  | .retrieve => self.retrieve disk request
  | .delete => self.delete disk request
  | .update => self.update disk request
  | .list => self.list

end HandlerFileSystemAdapter

end Storage

end OmniMemory
