import OmniMemory.Storage.Filesystem
import Mathlib.Data.List.Nodup
import Mathlib.Logic.Function.Basic

/-! The adapter as a map from ids to snapshots. The file of an id holds the snapshot that the map
has for it, and every operation keeps that, whether the handler does its part or fails. Only an id
with a NUL character gets no response. -/

namespace OmniMemory

open Interleave Prog

namespace Storage

open HandlerFileSystemAdapter

/-! ### The handler -/

/-- The contents of the files, by path. -/
abbrev Files := PurePath → Option String

/-- The forms in which the handler reports that a file is absent. -/
def reportsNotFound : Answer → Bool
  | .ok result => result.any (·.status == some "not_found")
  | .error ⟨.fileNotFoundError, _⟩ => true
  | .error ⟨.infraConnectionError error, _⟩ => error.isNotFound
  | .error _ => false

/-- The handler does what it is called for. -/
inductive Performs (files : Files) : Envelope → Answer → Files → Prop where
  | wrote (path : PurePath) (content : String) {result : Option HandlerResult}
      (success : successful result = true) :
      Performs files (.writeFile path content) (.ok result)
        (Function.update files path (some content))
  | read (path : PurePath) {content : String} {result : HandlerResult}
      (success : successful (some result) = true) (present : files path = some content)
      (same : result.content = content) :
      Performs files (.readFile path) (.ok (some result)) files
  | readAbsent (path : PurePath) {answer : Answer} (absent : files path = none)
      (reported : reportsNotFound answer = true) : Performs files (.readFile path) answer files
  | deleted (path : PurePath) {result : Option HandlerResult}
      (success : successful result = true) (present : (files path).isSome = true) :
      Performs files (.deleteFile path) (.ok result) (Function.update files path none)
  | deleteAbsent (path : PurePath) {answer : Answer} (absent : files path = none)
      (reported : reportsNotFound answer = true) : Performs files (.deleteFile path) answer files
  | listed (path : PurePath) {result : HandlerResult} (success : successful (some result) = true)
      (nodup : result.entries.Nodup)
      (exact : ∀ name, name ∈ result.entries ↔ (files (path.child name)).isSome = true) :
      Performs files (.listDirectory path) (.ok (some result)) files

/-- The handler fails: it reports no success, nor that a file to read or delete is absent. -/
def Fails (envelope : Envelope) (answer : Answer) : Prop :=
  (∀ result, answer = .ok result → successful result = false) ∧
    match envelope with
    | .readFile _ | .deleteFile _ => reportsNotFound answer = false
    | .writeFile _ _ | .listDirectory _ => True

/-- A call of the handler, which either performs it or fails and leaves the files alone. -/
def serves (fails : Bool) (envelope : Envelope) (files : Files) (answer : Answer)
    (files' : Files) : Prop :=
  if fails then Fails envelope answer ∧ files' = files else Performs files envelope answer files'

/-! ### The map -/

section Map

variable (M : SnapshotModel)

/-- The last stored snapshot of each id. -/
abbrev SnapshotMap := String → Option M.Snapshot

/-- The id is refused by its characters. -/
def Refused (snapshotId : String) : Prop :=
  snapshotId = "" ∨ hasSubstring snapshotId "/" = true ∨ hasSubstring snapshotId "\\" = true ∨
    hasSubstring snapshotId ".." = true

instance (snapshotId : String) : Decidable (Refused snapshotId) :=
  inferInstanceAs (Decidable (_ ∨ _ ∨ _ ∨ _))

variable {M}

/-- The request is rejected without a call. -/
def Rejected (maxFileSize : Nat) (request : ModelMemoryStorageRequest M) : Prop :=
  match request.operation with
  | .store | .update => ∀ snapshot, request.snapshot = some snapshot →
      maxFileSize < (encodeUtf8 (M.modelDumpJson snapshot)).length
  | .retrieve | .delete => ∀ snapshotId, request.snapshotId = some snapshotId → Refused snapshotId
  | .list => False

/-- The response says that nothing was done. -/
structure Refusal (response : ModelMemoryStorageResponse M) : Prop where
  status : response.status = .error ∨ response.status = .permissionDenied
  snapshot : response.snapshot = none
  snapshotIds : response.snapshotIds = none

/-- The response says that there is no such snapshot. -/
structure NotFound (response : ModelMemoryStorageResponse M) : Prop where
  status : response.status = .notFound
  snapshot : response.snapshot = none
  snapshotIds : response.snapshotIds = none

/-- What a map answers to a request, and the map after it. -/
inductive Answers (maxFileSize : Nat) (m : SnapshotMap M) (request : ModelMemoryStorageRequest M) :
    (fails : Bool) → ModelMemoryStorageResponse M → SnapshotMap M → Prop where
  | stored {snapshot : M.Snapshot} (op : request.operation = .store ∨ request.operation = .update)
      (given : request.snapshot = some snapshot) (accepted : ¬ Rejected maxFileSize request) :
      Answers maxFileSize m request false { status := .success, snapshot := some snapshot }
        (Function.update m (UUID.str (M.snapshotId snapshot)) (some snapshot))
  | retrieved {snapshotId : String} {snapshot : M.Snapshot} (op : request.operation = .retrieve)
      (given : request.snapshotId = some snapshotId) (accepted : ¬ Rejected maxFileSize request)
      (present : m snapshotId = some snapshot) :
      Answers maxFileSize m request false { status := .success, snapshot := some snapshot } m
  | deleted {snapshotId : String} (op : request.operation = .delete)
      (given : request.snapshotId = some snapshotId) (accepted : ¬ Rejected maxFileSize request)
      (present : (m snapshotId).isSome = true) :
      Answers maxFileSize m request false { status := .success } (Function.update m snapshotId none)
  | absent {snapshotId : String} {response : ModelMemoryStorageResponse M}
      (op : request.operation = .retrieve ∨ request.operation = .delete)
      (given : request.snapshotId = some snapshotId) (accepted : ¬ Rejected maxFileSize request)
      (absent : m snapshotId = none) (reported : NotFound response) :
      Answers maxFileSize m request false response m
  | listed {snapshotIds : List String} (op : request.operation = .list) (nodup : snapshotIds.Nodup)
      (exact : ∀ snapshotId, snapshotId ∈ snapshotIds ↔ (m snapshotId).isSome = true) :
      Answers maxFileSize m request false
        { status := .success, snapshotIds := some snapshotIds } m
  | refused {fails : Bool} {response : ModelMemoryStorageResponse M}
      (why : fails = true ∨ Rejected maxFileSize request) (refusal : Refusal response) :
      Answers maxFileSize m request fails response m

/-- A request, whether the handler fails in it, and what `execute` does. -/
structure Served (M : SnapshotModel) where
  request : ModelMemoryStorageRequest M
  fails : Bool
  outcome : Except Raised (ModelMemoryStorageResponse M)

/-- Requests to the map, one after the other. -/
inductive MapRun (maxFileSize : Nat) : SnapshotMap M → List (Served M) → SnapshotMap M → Prop where
  | nil (m : SnapshotMap M) : MapRun maxFileSize m [] m
  | cons {m m' m'' : SnapshotMap M} {request : ModelMemoryStorageRequest M} {fails : Bool}
      {response : ModelMemoryStorageResponse M} {rest : List (Served M)}
      (answers : Answers maxFileSize m request fails response m')
      (run : MapRun maxFileSize m' rest m'') :
      MapRun maxFileSize m (⟨request, fails, .ok response⟩ :: rest) m''

end Map

/-! ### The adapter -/

variable {M : SnapshotModel} (adapter : HandlerFileSystemAdapter) (disk : Disk)

/-- Requests to the adapter, one after the other. -/
inductive Executes : Files → List (Served M) → Files → Prop where
  | nil (files : Files) : Executes files [] files
  | cons {files files' files'' : Files} {served : Served M} {rest : List (Served M)}
      (step : Runs (serves served.fails) (adapter.execute disk served.request) files served.outcome
        files')
      (run : Executes files' rest files'') : Executes files (served :: rest) files''

/-- The snapshots directory is there, so that its path has no NUL character, and has no links. -/
structure Ready : Prop where
  plain : adapter.snapshotsPath.parts.any (·.toList.contains '\x00') = false
  noLinks : ∀ name, disk.realpath (adapter.snapshotsPath.child name) =
    (disk.realpath adapter.snapshotsPath).child name

/-- The files of the directory hold the snapshots of the map under their ids. -/
structure Represents (files : Files) (m : SnapshotMap M) : Prop where
  file : ∀ snapshotId, files (adapter.snapshotsPath.child (snapshotId ++ ".json")) =
    (m snapshotId).map M.modelDumpJson
  only : ∀ name, (files (adapter.snapshotsPath.child name)).isSome = true →
    ∃ snapshotId, name = snapshotId ++ ".json"
  key : ∀ snapshotId snapshot, m snapshotId = some snapshot →
    snapshotId = UUID.str (M.snapshotId snapshot)

/-- The call is on the snapshots directory, or on a file in it. -/
def Within (directory : PurePath) : Envelope → Prop
  | .writeFile path _ | .readFile path | .deleteFile path => ∃ name, path = directory.child name
  | .listDirectory path => path = directory

/-- What is asked of the adapter: it answers as the map does and keeps the map in its files, and
nothing outside the snapshots directory is called for or changed. -/
structure Refines (files : Files) (trace : List (Served M)) (files' : Files) (m : SnapshotMap M) :
    Prop where
  answers : ∃ m', MapRun adapter.maxFileSize m trace m' ∧ Represents adapter files' m'
  within : ∀ served ∈ trace,
    (adapter.execute disk served.request).Uses (Within adapter.snapshotsPath)
  frame : ∀ path, (∀ name, path ≠ adapter.snapshotsPath.child name) → files' path = files path

/-- A retrieve or delete of an id that is not refused and has a NUL character. -/
def NulId (request : ModelMemoryStorageRequest M) : Prop :=
  (request.operation = .retrieve ∨ request.operation = .delete) ∧
    ∃ snapshotId, request.snapshotId = some snapshotId ∧ ¬ Refused snapshotId ∧
      '\x00' ∈ snapshotId.toList

section Validation

variable {adapter disk} {snapshotId : String}

theorem no_slash (accepted : ¬ Refused snapshotId) : '/' ∉ snapshotId.toList := fun slash =>
  accepted (.inr (.inl ((hasSubstring_char rfl).mpr slash)))

theorem json_name (slash : '/' ∉ snapshotId.toList) :
    '/' ∉ (snapshotId ++ ".json").toList ∧ snapshotId ++ ".json" ≠ "" ∧
      snapshotId ++ ".json" ≠ "." := by
  have letters : (snapshotId ++ ".json").toList = snapshotId.toList ++ ".json".toList :=
    String.toList_append
  refine ⟨by simp [letters, slash], ?_, ?_⟩
  · intro same
    simp [same] at letters
  · intro same
    have long := congrArg List.length letters
    simp [same] at long

theorem filePath_eq (adapter : HandlerFileSystemAdapter) (slash : '/' ∉ snapshotId.toList) :
    adapter.filePath snapshotId = adapter.snapshotsPath.child (snapshotId ++ ".json") := by
  rw [filePath, PurePath.ofString_of_name (json_name slash).1 (json_name slash).2,
    PurePath.join_of_name (json_name slash).1]

/-- The id goes past the checks of its characters. -/
theorem validate_accepted (accepted : ¬ Refused snapshotId) :
    adapter.validateSnapshotId disk snapshotId = do
      let filePath ← disk.resolve (adapter.filePath snapshotId)
      let directory ← disk.resolve adapter.snapshotsPath
      if !directory.str.toList.isPrefixOf filePath.str.toList then
        return some "snapshot_id resolves outside allowed directory"
      return none := by
  simp only [Refused, not_or, Bool.not_eq_true] at accepted
  obtain ⟨empty, slash, backslash, dots⟩ := accepted
  simp [validateSnapshotId, empty, slash, backslash, dots]

theorem validate_refused (refused : Refused snapshotId) :
    ∃ error, adapter.validateSnapshotId disk snapshotId = .ok (some error) := by
  unfold validateSnapshotId
  by_cases empty : snapshotId = ""
  · exact ⟨_, if_pos empty⟩
  rw [if_neg empty]
  by_cases slashes : (hasSubstring snapshotId "/" || hasSubstring snapshotId "\\") = true
  · exact ⟨_, if_pos slashes⟩
  rw [if_neg slashes]
  have dots : hasSubstring snapshotId ".." = true := by simp_all [Refused]
  exact ⟨_, if_pos dots⟩

theorem resolve_child (ready : Ready adapter disk) (name : String) :
    disk.resolve (adapter.snapshotsPath.child name) =
      if '\x00' ∈ name.toList then
        .error ⟨.valueError, "lstat: embedded null character in path"⟩
      else .ok ((disk.realpath adapter.snapshotsPath).child name) := by
  have nul : ((adapter.snapshotsPath.child name).parts.any fun part =>
      part.toList.contains '\x00') = decide ('\x00' ∈ name.toList) := by
    rw [PurePath.child, List.any_append, ready.plain]
    simp
  rw [Disk.resolve, nul, ready.noLinks]
  simp

theorem mem_nul : '\x00' ∈ (snapshotId ++ ".json").toList ↔ '\x00' ∈ snapshotId.toList := by
  rw [String.toList_append, List.mem_append]
  exact or_iff_left (by decide)

/-- An id with a NUL character that is not refused gets no answer. -/
theorem validate_nul (ready : Ready adapter disk) (accepted : ¬ Refused snapshotId)
    (nul : '\x00' ∈ snapshotId.toList) :
    ∃ e, adapter.validateSnapshotId disk snapshotId = .error e := by
  rw [validate_accepted accepted, filePath_eq adapter (no_slash accepted), resolve_child ready,
    if_pos (mem_nul.mpr nul)]
  exact ⟨_, rfl⟩

theorem validate_plain (ready : Ready adapter disk) (accepted : ¬ Refused snapshotId)
    (plain : '\x00' ∉ snapshotId.toList) :
    adapter.validateSnapshotId disk snapshotId = .ok none := by
  have inside := PurePath.str_isPrefix_child (disk.absolute adapter.snapshotsPath)
    (snapshotId ++ ".json")
  have directory :
      disk.resolve adapter.snapshotsPath = .ok (disk.realpath adapter.snapshotsPath) := by
    rw [Disk.resolve, ready.plain, if_neg Bool.false_ne_true]
  rw [validate_accepted accepted, filePath_eq adapter (no_slash accepted), resolve_child ready,
    if_neg (mt mem_nul.mp plain), directory]
  simp [Bind.bind, Except.bind, pure, Except.pure, List.isPrefixOf_iff_prefix.mpr inside]

theorem uuid_accepted (u : UUID) : ¬ Refused (UUID.str u) ∧ '\x00' ∉ (UUID.str u).toList := by
  have chars : ∀ c ∈ "-0123456789abcdef".toList, c ≠ '\x00' ∧ c ≠ '/' ∧ c ≠ '\\' ∧ c ≠ '.' := by
    simp
  have absent : ∀ c ∈ (UUID.str u).toList, c ≠ '\x00' ∧ c ≠ '/' ∧ c ≠ '\\' ∧ c ≠ '.' :=
    fun c mem => chars c (UUID.mem_str mem)
  refine ⟨?_, fun nul => (absent _ nul).1 rfl⟩
  rintro (empty | slash | backslash | dots)
  · exact UUID.str_ne_empty u empty
  · exact (absent _ ((hasSubstring_char rfl).mp slash)).2.1 rfl
  · exact (absent _ ((hasSubstring_char rfl).mp backslash)).2.2.1 rfl
  · exact (absent _ (mem_of_hasSubstring dots (by decide))).2.2.2 rfl

theorem whenValid_refused (refused : Refused snapshotId) (rest : Execution M) :
    ∃ message, adapter.whenValid disk snapshotId rest = respond (failure .error message) := by
  obtain ⟨error, validated⟩ := @validate_refused adapter disk _ refused
  rw [whenValid, validated]
  exact ⟨_, rfl⟩

theorem whenValid_nul (ready : Ready adapter disk) (accepted : ¬ Refused snapshotId)
    (nul : '\x00' ∈ snapshotId.toList) (rest : Execution M) :
    ∃ e, adapter.whenValid disk snapshotId rest = .ret (.error e) := by
  obtain ⟨e, raised⟩ := validate_nul ready accepted nul
  rw [whenValid, raised]
  exact ⟨e, rfl⟩

theorem whenValid_plain (ready : Ready adapter disk) (accepted : ¬ Refused snapshotId)
    (plain : '\x00' ∉ snapshotId.toList) (rest : Execution M) :
    adapter.whenValid disk snapshotId rest = rest := by
  rw [whenValid, validate_plain ready accepted plain]

end Validation

/-! ### What the responses say -/

section Responses

variable {snapshot : M.Snapshot} {path : PurePath} {snapshotId : String} {answer : Answer}
  {result : Option HandlerResult}

theorem refusal_failure (message : String) : Refusal (M := M) (failure .error message) :=
  ⟨.inl rfl, rfl, rfl⟩

theorem denied_failure (message : String) : Refusal (M := M) (failure .permissionDenied message) :=
  ⟨.inr rfl, rfl, rfl⟩

theorem storeRaised_refusal (e : Raised) : Refusal (M := M) (storeRaised path e) := by
  unfold storeRaised
  split
  · exact denied_failure _
  · exact refusal_failure _
  · exact refusal_failure _
  · exact refusal_failure _
  · exact refusal_failure _
  · exact refusal_failure _
  · split
    · exact denied_failure _
    · exact refusal_failure _
  · exact refusal_failure _
  · exact refusal_failure _

theorem storeAnswer_refusal (failed : ∀ result, answer = .ok result → successful result = false) :
    Refusal (storeAnswer snapshot path answer) := by
  cases answer with
  | error e => exact storeRaised_refusal e
  | ok result =>
    rw [storeAnswer, failed result rfl]
    exact refusal_failure _

theorem retrieveRaised_notFound {e : Raised} (reported : reportsNotFound (.error e) = true) :
    NotFound (M := M) (retrieveRaised snapshotId path e) := by
  obtain ⟨kind, text⟩ := e
  cases kind with
  | fileNotFoundError => exact ⟨rfl, rfl, rfl⟩
  | infraConnectionError error =>
    have found : error.isNotFound = true := reported
    simp only [retrieveRaised, found, if_true]
    exact ⟨rfl, rfl, rfl⟩
  | _ => contradiction

theorem retrieveRaised_refusal {e : Raised} (reported : reportsNotFound (.error e) = false) :
    Refusal (M := M) (retrieveRaised snapshotId path e) := by
  obtain ⟨kind, text⟩ := e
  cases kind with
  | fileNotFoundError => contradiction
  | permissionError => exact denied_failure _
  | infraConnectionError error =>
    have found : error.isNotFound = false := reported
    simp only [retrieveRaised, found, Bool.false_eq_true, if_false]
    split
    · exact denied_failure _
    · exact refusal_failure _
  | _ => exact refusal_failure _

theorem deleteRaised_notFound {e : Raised} (reported : reportsNotFound (.error e) = true) :
    NotFound (M := M) (deleteRaised snapshotId path e) := by
  obtain ⟨kind, text⟩ := e
  cases kind with
  | fileNotFoundError => exact ⟨rfl, rfl, rfl⟩
  | infraConnectionError error =>
    have found : error.isNotFound = true := reported
    simp only [deleteRaised, found, if_true]
    exact ⟨rfl, rfl, rfl⟩
  | _ => contradiction

theorem deleteRaised_refusal {e : Raised} (reported : reportsNotFound (.error e) = false) :
    Refusal (M := M) (deleteRaised snapshotId path e) := by
  obtain ⟨kind, text⟩ := e
  cases kind with
  | fileNotFoundError => contradiction
  | permissionError => exact denied_failure _
  | infraConnectionError error =>
    have found : error.isNotFound = false := reported
    simp only [deleteRaised, found, Bool.false_eq_true, if_false]
    split
    · exact denied_failure _
    · exact refusal_failure _
  | _ => exact refusal_failure _

theorem not_successful (reported : result.any (·.status == some "not_found") = true) :
    successful result = false := by
  cases result with
  | none => rfl
  | some result => simp_all [successful]

theorem retrieveAnswer_notFound (reported : reportsNotFound answer = true) :
    NotFound (M := M) (retrieveAnswer snapshotId path answer) := by
  cases answer with
  | error e => exact retrieveRaised_notFound reported
  | ok result =>
    have reported : result.any (·.status == some "not_found") = true := reported
    simp only [retrieveAnswer, not_successful reported, reported, Bool.false_eq_true, if_false,
      if_true]
    exact ⟨rfl, rfl, rfl⟩

theorem retrieveAnswer_refusal
    (failed : ∀ result, answer = .ok result → successful result = false)
    (reported : reportsNotFound answer = false) :
    Refusal (M := M) (retrieveAnswer snapshotId path answer) := by
  cases answer with
  | error e => exact retrieveRaised_refusal reported
  | ok result =>
    have reported : result.any (·.status == some "not_found") = false := reported
    simp only [retrieveAnswer, failed result rfl, reported, Bool.false_eq_true, if_false]
    exact refusal_failure _

/-- A file that holds a snapshot is read as that snapshot. -/
theorem retrieveAnswer_found {result : HandlerResult} (success : successful (some result) = true)
    (same : result.content = M.modelDumpJson snapshot) :
    retrieveAnswer snapshotId path (.ok (some result)) =
      { status := .success, snapshot := some snapshot } := by
  simp only [retrieveAnswer, success, if_true, Option.map_some, Option.getD_some, same,
    M.round_trip]

theorem deleteAnswer_success (success : successful result = true) :
    deleteAnswer (M := M) snapshotId path (.ok result) = { status := .success } := by
  cases result with
  | none => contradiction
  | some result => exact if_pos (by simpa [successful] using success)

theorem deleteAnswer_notFound (reported : reportsNotFound answer = true) :
    NotFound (M := M) (deleteAnswer snapshotId path answer) := by
  cases answer with
  | error e => exact deleteRaised_notFound reported
  | ok result =>
    cases result with
    | none => contradiction
    | some result =>
      have status : result.status = some "not_found" := by simpa [reportsNotFound] using reported
      simp only [deleteAnswer, status]
      exact ⟨rfl, rfl, rfl⟩

theorem deleteAnswer_refusal
    (failed : ∀ result, answer = .ok result → successful result = false)
    (reported : reportsNotFound answer = false) :
    Refusal (M := M) (deleteAnswer snapshotId path answer) := by
  cases answer with
  | error e => exact deleteRaised_refusal reported
  | ok result =>
    cases result with
    | none => exact refusal_failure _
    | some result =>
      have noSuccess : result.status ≠ some "success" := by
        simpa [successful] using failed (some result) rfl
      have found : result.status ≠ some "not_found" := by simpa [reportsNotFound] using reported
      simp only [deleteAnswer, noSuccess, found, if_false]
      split
      · exact denied_failure _
      · exact refusal_failure _

theorem listAnswer_success {result : HandlerResult} (success : successful (some result) = true) :
    adapter.listAnswer (M := M) (.ok (some result)) =
      { status := .success, snapshotIds := some (snapshotIdsOf result.entries) } :=
  if_pos (by simpa [successful] using success)

theorem listRaised_refusal (e : Raised) : Refusal (adapter.listRaised (M := M) e) := by
  obtain ⟨kind, text⟩ := e
  cases kind with
  | permissionError => exact denied_failure _
  | infraConnectionError error =>
    simp only [listRaised]
    split
    · exact refusal_failure _
    · exact refusal_failure _
  | _ => exact refusal_failure _

theorem listAnswer_refusal (failed : ∀ result, answer = .ok result → successful result = false) :
    Refusal (adapter.listAnswer (M := M) answer) := by
  cases answer with
  | error e => exact listRaised_refusal adapter e
  | ok result =>
    cases result with
    | none => exact refusal_failure _
    | some result =>
      have noSuccess : result.status ≠ some "success" := by
        simpa [successful] using failed (some result) rfl
      simp only [listAnswer, noSuccess, if_false]
      split
      · exact refusal_failure _
      · split
        · exact denied_failure _
        · exact refusal_failure _

end Responses

/-! ### One request -/

section Step

variable {adapter disk} {files files' : Files} {m : SnapshotMap M}
  {request : ModelMemoryStorageRequest M} {fails : Bool} {snapshotId : String}
  {outcome : Except Raised (ModelMemoryStorageResponse M)}

@[simp] theorem json_inj {id id' : String} :
    adapter.snapshotsPath.child (id ++ ".json") = adapter.snapshotsPath.child (id' ++ ".json") ↔
      id = id' := by
  simp [PurePath.child]

/-- A snapshot is put under its id. -/
theorem Represents.put (represents : Represents adapter files m) (snapshot : M.Snapshot) :
    Represents adapter
      (Function.update files
        (adapter.snapshotsPath.child (UUID.str (M.snapshotId snapshot) ++ ".json"))
        (some (M.modelDumpJson snapshot)))
      (Function.update m (UUID.str (M.snapshotId snapshot)) (some snapshot)) where
  file id := by
    simp only [Function.update_apply, json_inj]
    split
    · rfl
    · exact represents.file id
  only name present := by
    rw [Function.update_apply] at present
    split at present
    · rename_i same
      exact ⟨UUID.str (M.snapshotId snapshot), by simpa [PurePath.child] using same⟩
    · exact represents.only name present
  key id s stored := by
    rw [Function.update_apply] at stored
    split at stored
    · rename_i same
      rw [same, Option.some.inj stored]
    · exact represents.key id s stored

theorem Represents.erase (represents : Represents adapter files m) (snapshotId : String) :
    Represents adapter
      (Function.update files (adapter.snapshotsPath.child (snapshotId ++ ".json")) none)
      (Function.update m snapshotId none) where
  file id := by
    simp only [Function.update_apply, json_inj]
    split
    · rfl
    · exact represents.file id
  only name present := by
    rw [Function.update_apply] at present
    split at present
    · contradiction
    · exact represents.only name present
  key id s stored := by
    rw [Function.update_apply] at stored
    split at stored
    · contradiction
    · exact represents.key id s stored

/-- The outcome is a response that the map gives, and the files hold the map after it. -/
def Answered (adapter : HandlerFileSystemAdapter) (m : SnapshotMap M)
    (request : ModelMemoryStorageRequest M) (fails : Bool)
    (outcome : Except Raised (ModelMemoryStorageResponse M)) (files' : Files) : Prop :=
  ∃ response m', outcome = .ok response ∧
    Answers adapter.maxFileSize m request fails response m' ∧ Represents adapter files' m'

/-- A refusal leaves the map and the files as they are. -/
theorem Answered.refused {response : ModelMemoryStorageResponse M}
    (represents : Represents adapter files m)
    (why : fails = true ∨ Rejected adapter.maxFileSize request) (refusal : Refusal response) :
    Answered adapter m request fails (.ok response) files :=
  ⟨response, m, rfl, .refused why refusal, represents⟩

theorem rejected_store {snapshot : M.Snapshot}
    (op : request.operation = .store ∨ request.operation = .update)
    (given : request.snapshot = some snapshot) {maxFileSize : Nat} :
    Rejected maxFileSize request ↔
      maxFileSize < (encodeUtf8 (M.modelDumpJson snapshot)).length := by
  rcases op with op | op <;> simp [Rejected, op, given]

theorem rejected_id (op : request.operation = .retrieve ∨ request.operation = .delete)
    (given : request.snapshotId = some snapshotId) {maxFileSize : Nat} :
    Rejected maxFileSize request ↔ Refused snapshotId := by
  rcases op with op | op <;> simp [Rejected, op, given]

theorem store_answered (ready : Ready adapter disk) (represents : Represents adapter files m)
    (op : request.operation = .store ∨ request.operation = .update)
    (runs : Runs (serves fails) (adapter.store disk request) files outcome files') :
    Answered adapter m request fails outcome files' := by
  unfold store at runs
  cases given : request.snapshot with
  | none =>
    rw [given] at runs
    obtain ⟨rfl, rfl⟩ := runs_ret.mp runs
    refine .refused represents (.inr ?_) (refusal_failure _)
    rcases op with op | op <;> simp [Rejected, op, given]
  | some snapshot =>
    obtain ⟨accepted, plain⟩ := uuid_accepted (M.snapshotId snapshot)
    simp only [given, whenValid_plain ready accepted plain] at runs
    by_cases large : adapter.maxFileSize < (encodeUtf8 (M.modelDumpJson snapshot)).length
    · rw [if_pos large] at runs
      obtain ⟨rfl, rfl⟩ := runs_ret.mp runs
      exact .refused represents (.inr ((rejected_store op given).mpr large)) (refusal_failure _)
    · rw [if_neg large] at runs
      obtain ⟨answer, files₁, served, runs⟩ := runs_op.mp runs
      obtain ⟨rfl, rfl⟩ := runs_ret.mp runs
      cases fails with
      | true =>
        obtain ⟨failed, rfl⟩ := served
        exact .refused represents (.inl rfl) (storeAnswer_refusal failed.1)
      | false =>
        rw [filePath_eq adapter (no_slash accepted)] at served ⊢
        cases served with
        | wrote path content success =>
          refine ⟨_, _, ?_, .stored op given (mt (rejected_store op given).mp large),
            represents.put snapshot⟩
          simp only [storeAnswer, success, if_true]

/-- A request with an id: it is refused, or goes on with an id of its characters. -/
theorem answered_of_id (ready : Ready adapter disk) (represents : Represents adapter files m)
    (op : request.operation = .retrieve ∨ request.operation = .delete) (named : ¬ NulId request)
    (given : request.snapshotId = some snapshotId) {rest : Execution M}
    (next : ¬ Refused snapshotId → Runs (serves fails) rest files outcome files' →
      Answered adapter m request fails outcome files')
    (runs : Runs (serves fails) (adapter.whenValid disk snapshotId rest) files outcome files') :
    Answered adapter m request fails outcome files' := by
  by_cases refused : Refused snapshotId
  · obtain ⟨message, stopped⟩ := @whenValid_refused M adapter disk _ refused rest
    rw [stopped] at runs
    obtain ⟨rfl, rfl⟩ := runs_ret.mp runs
    exact .refused represents (.inr ((rejected_id op given).mpr refused)) (refusal_failure _)
  · have plain : '\x00' ∉ snapshotId.toList := fun nul =>
      named ⟨op, snapshotId, given, refused, nul⟩
    rw [whenValid_plain ready refused plain] at runs
    exact next refused runs

theorem retrieve_answered (ready : Ready adapter disk) (represents : Represents adapter files m)
    (op : request.operation = .retrieve) (named : ¬ NulId request)
    (runs : Runs (serves fails) (adapter.retrieve disk request) files outcome files') :
    Answered adapter m request fails outcome files' := by
  unfold retrieve at runs
  cases given : request.snapshotId with
  | none =>
    rw [given] at runs
    obtain ⟨rfl, rfl⟩ := runs_ret.mp runs
    exact .refused represents (.inr (by simp [Rejected, op, given])) (refusal_failure _)
  | some snapshotId =>
    simp only [given] at runs
    refine answered_of_id ready represents (.inl op) named given (fun accepted runs => ?_) runs
    obtain ⟨answer, files₁, served, runs⟩ := runs_op.mp runs
    obtain ⟨rfl, rfl⟩ := runs_ret.mp runs
    cases fails with
    | true =>
      obtain ⟨failed, rfl⟩ := served
      exact .refused represents (.inl rfl) (retrieveAnswer_refusal failed.1 failed.2)
    | false =>
      have valid : ¬ Rejected adapter.maxFileSize request :=
        mt (rejected_id (.inl op) given).mp accepted
      have file := represents.file snapshotId
      rw [filePath_eq adapter (no_slash accepted)] at served ⊢
      cases served with
      | read path success present same =>
        obtain ⟨snapshot, stored, dumped⟩ := Option.map_eq_some_iff.mp (file.symm.trans present)
        rw [retrieveAnswer_found success (same.trans dumped.symm)]
        exact ⟨_, _, rfl, .retrieved op given valid stored, represents⟩
      | readAbsent path absent reported =>
        have missing : m snapshotId = none := Option.map_eq_none_iff.mp (file.symm.trans absent)
        exact ⟨_, _, rfl, .absent (.inl op) given valid missing (retrieveAnswer_notFound reported),
          represents⟩

theorem delete_answered (ready : Ready adapter disk) (represents : Represents adapter files m)
    (op : request.operation = .delete) (named : ¬ NulId request)
    (runs : Runs (serves fails) (adapter.delete disk request) files outcome files') :
    Answered adapter m request fails outcome files' := by
  unfold delete at runs
  cases given : request.snapshotId with
  | none =>
    rw [given] at runs
    obtain ⟨rfl, rfl⟩ := runs_ret.mp runs
    exact .refused represents (.inr (by simp [Rejected, op, given])) (refusal_failure _)
  | some snapshotId =>
    simp only [given] at runs
    refine answered_of_id ready represents (.inr op) named given (fun accepted runs => ?_) runs
    obtain ⟨answer, files₁, served, runs⟩ := runs_op.mp runs
    obtain ⟨rfl, rfl⟩ := runs_ret.mp runs
    cases fails with
    | true =>
      obtain ⟨failed, rfl⟩ := served
      exact .refused represents (.inl rfl) (deleteAnswer_refusal failed.1 failed.2)
    | false =>
      have valid : ¬ Rejected adapter.maxFileSize request :=
        mt (rejected_id (.inr op) given).mp accepted
      have file := represents.file snapshotId
      rw [filePath_eq adapter (no_slash accepted)] at served ⊢
      cases served with
      | deleted path success present =>
        have stored : (m snapshotId).isSome = true := by
          rwa [file, Option.isSome_map] at present
        rw [deleteAnswer_success success]
        exact ⟨_, _, rfl, .deleted op given valid stored, represents.erase snapshotId⟩
      | deleteAbsent path absent reported =>
        have missing : m snapshotId = none := Option.map_eq_none_iff.mp (file.symm.trans absent)
        exact ⟨_, _, rfl, .absent (.inr op) given valid missing (deleteAnswer_notFound reported),
          represents⟩

/-- The names in the directory are those of the ids of the map. -/
theorem Represents.name (represents : Represents adapter files m) {name : String}
    (present : (files (adapter.snapshotsPath.child name)).isSome = true) :
    ∃ snapshotId, name = snapshotId ++ ".json" ∧ (m snapshotId).isSome = true := by
  obtain ⟨snapshotId, rfl⟩ := represents.only name present
  rw [represents.file, Option.isSome_map] at present
  exact ⟨snapshotId, rfl, present⟩

theorem Represents.stem (represents : Represents adapter files m)
    (stored : (m snapshotId).isSome = true) :
    (PurePath.ofString (snapshotId ++ ".json")).stem = snapshotId := by
  obtain ⟨snapshot, stored⟩ := Option.isSome_iff_exists.mp stored
  rw [represents.key snapshotId snapshot stored]
  exact PurePath.stem_ofString_json (no_slash (uuid_accepted _).1) (UUID.str_ne_empty _)

/-- The listed ids are those of the map, each once. -/
theorem Represents.snapshotIdsOf (represents : Represents adapter files m) {entries : List String}
    (nodup : entries.Nodup)
    (exact : ∀ name, name ∈ entries ↔
      (files (adapter.snapshotsPath.child name)).isSome = true) :
    (snapshotIdsOf entries).Nodup ∧
      ∀ snapshotId, snapshotId ∈ snapshotIdsOf entries ↔ (m snapshotId).isSome = true := by
  have all : entries.filter (".json".toList.isSuffixOf ·.toList) = entries := by
    refine List.filter_eq_self.mpr fun name mem => ?_
    obtain ⟨snapshotId, rfl, -⟩ := represents.name ((exact name).mp mem)
    simp [String.toList_append]
  rw [HandlerFileSystemAdapter.snapshotIdsOf, all]
  constructor
  · refine List.Nodup.map_on (fun name mem name' mem' same => ?_) nodup
    obtain ⟨snapshotId, rfl, stored⟩ := represents.name ((exact name).mp mem)
    obtain ⟨snapshotId', rfl, stored'⟩ := represents.name ((exact name').mp mem')
    rw [represents.stem stored, represents.stem stored'] at same
    rw [same]
  · intro snapshotId
    rw [List.mem_map]
    constructor
    · rintro ⟨name, mem, rfl⟩
      obtain ⟨snapshotId, rfl, stored⟩ := represents.name ((exact name).mp mem)
      rwa [represents.stem stored]
    · intro stored
      have present :
          (files (adapter.snapshotsPath.child (snapshotId ++ ".json"))).isSome = true := by
        rwa [represents.file, Option.isSome_map]
      exact ⟨_, (exact _).mpr present, represents.stem stored⟩

theorem list_answered (represents : Represents adapter files m) (op : request.operation = .list)
    (runs : Runs (serves fails) (adapter.list (M := M)) files outcome files') :
    Answered adapter m request fails outcome files' := by
  obtain ⟨answer, files₁, served, runs⟩ := runs_op.mp runs
  obtain ⟨rfl, rfl⟩ := runs_ret.mp runs
  cases fails with
  | true =>
    obtain ⟨failed, rfl⟩ := served
    exact .refused represents (.inl rfl) (listAnswer_refusal adapter failed.1)
  | false =>
    cases served with
    | listed path success nodup exact =>
      obtain ⟨nodup, exact⟩ := represents.snapshotIdsOf nodup exact
      rw [listAnswer_success adapter success]
      exact ⟨_, _, rfl, .listed op nodup exact, represents⟩

theorem execute_answered (ready : Ready adapter disk) (represents : Represents adapter files m)
    (named : ¬ NulId request)
    (runs : Runs (serves fails) (adapter.execute disk request) files outcome files') :
    Answered adapter m request fails outcome files' := by
  unfold execute at runs
  cases op : request.operation with
  | store => exact store_answered ready represents (.inl op) (by simpa only [op] using runs)
  | retrieve => exact retrieve_answered ready represents op named (by simpa only [op] using runs)
  | delete => exact delete_answered ready represents op named (by simpa only [op] using runs)
  | update =>
    rw [op] at runs
    exact store_answered ready represents (.inr op) runs
  | list => exact list_answered represents op (by simpa only [op] using runs)

/-- A request whose id has a NUL character leaves `execute` with an exception. -/
theorem execute_nul (ready : Ready adapter disk) (nul : NulId request)
    (runs : Runs (serves fails) (adapter.execute disk request) files outcome files') :
    ∃ e, outcome = .error e := by
  obtain ⟨op, snapshotId, given, accepted, nul⟩ := nul
  unfold execute at runs
  rcases op with op | op
  · simp only [op, retrieve, given] at runs
    obtain ⟨e, raised⟩ := whenValid_nul ready accepted nul _
    rw [raised] at runs
    exact ⟨e, (runs_ret.mp runs).1⟩
  · simp only [op, delete, given] at runs
    obtain ⟨e, raised⟩ := whenValid_nul ready accepted nul _
    rw [raised] at runs
    exact ⟨e, (runs_ret.mp runs).1⟩

end Step

/-! ### Only the snapshots directory -/

section Within

variable {adapter disk} {files files' : Files} {request : ModelMemoryStorageRequest M}
  {fails : Bool} {snapshotId : String} {outcome : Except Raised (ModelMemoryStorageResponse M)}

theorem whenValid_uses {P : Envelope → Prop} {rest : Execution M}
    (next : ¬ Refused snapshotId → rest.Uses P) :
    (adapter.whenValid disk snapshotId rest).Uses P := by
  by_cases refused : Refused snapshotId
  · obtain ⟨message, stopped⟩ := @whenValid_refused M adapter disk _ refused rest
    rw [stopped]
    trivial
  · unfold whenValid
    split
    · trivial
    · trivial
    · exact next refused

theorem within_filePath (accepted : ¬ Refused snapshotId) :
    ∃ name, adapter.filePath snapshotId = adapter.snapshotsPath.child name :=
  ⟨_, filePath_eq adapter (no_slash accepted)⟩

theorem store_within : (adapter.store disk request).Uses (Within adapter.snapshotsPath) := by
  unfold store
  split
  · trivial
  · generalize UUID.str _ = snapshotId
    refine whenValid_uses fun accepted => ?_
    dsimp only
    split
    · trivial
    · exact uses_op.mpr ⟨within_filePath accepted, fun _ => trivial⟩

theorem execute_within : (adapter.execute disk request).Uses (Within adapter.snapshotsPath) := by
  unfold execute
  split
  · exact store_within
  · unfold retrieve
    split
    · trivial
    · exact whenValid_uses fun accepted =>
        uses_op.mpr ⟨within_filePath accepted, fun _ => trivial⟩
  · unfold delete
    split
    · trivial
    · exact whenValid_uses fun accepted =>
        uses_op.mpr ⟨within_filePath accepted, fun _ => trivial⟩
  · exact store_within
  · unfold list
    rw [uses_op]
    exact ⟨rfl, fun _ => trivial⟩

/-- A call on the snapshots directory changes no file elsewhere. -/
theorem serves_frame {envelope : Envelope} {answer : Answer} {path : PurePath}
    (within : Within adapter.snapshotsPath envelope)
    (outside : ∀ name, path ≠ adapter.snapshotsPath.child name)
    (served : serves fails envelope files answer files') : files' path = files path := by
  cases fails with
  | true => rw [served.2]
  | false =>
    cases served with
    | wrote there content success =>
      obtain ⟨name, rfl⟩ := within
      exact Function.update_of_ne (outside name) _ _
    | deleted there success present =>
      obtain ⟨name, rfl⟩ := within
      exact Function.update_of_ne (outside name) _ _
    | _ => rfl

theorem runs_frame {α : Type} {p : Prog Envelope (fun _ => Answer) α} {a : α} {path : PurePath}
    (uses : p.Uses (Within adapter.snapshotsPath))
    (outside : ∀ name, path ≠ adapter.snapshotsPath.child name)
    (runs : Runs (serves fails) p files a files') : files' path = files path := by
  induction runs with
  | ret a s => rfl
  | call served _ ih =>
    rw [ih (uses.2 _), serves_frame uses.1 outside served]

end Within

/-! ### Runs -/

section Run

variable {adapter disk} {files files' : Files} {m m' : SnapshotMap M} {trace : List (Served M)}

theorem executes_frame (run : Executes adapter disk files trace files') {path : PurePath}
    (outside : ∀ name, path ≠ adapter.snapshotsPath.child name) : files' path = files path := by
  induction run with
  | nil => rfl
  | cons step _ ih => rw [ih, runs_frame execute_within outside step]

/-- Without such ids, the adapter answers as the map does. -/
theorem executes_answered (ready : Ready adapter disk) (represents : Represents adapter files m)
    (run : Executes adapter disk files trace files')
    (named : ∀ served ∈ trace, ¬ NulId served.request) :
    ∃ m', MapRun adapter.maxFileSize m trace m' ∧ Represents adapter files' m' := by
  induction run generalizing m with
  | nil => exact ⟨m, .nil m, represents⟩
  | @cons files files' files'' served rest step _ ih =>
    obtain ⟨request, fails, outcome⟩ := served
    obtain ⟨response, m', rfl, answers, represents⟩ :=
      execute_answered ready represents (named _ List.mem_cons_self) step
    obtain ⟨m'', run, represents⟩ :=
      ih represents fun served mem => named served (List.mem_cons_of_mem _ mem)
    exact ⟨m'', .cons answers run, represents⟩

/-- The map responds to every request. -/
theorem MapRun.responds {maxFileSize : Nat} (run : MapRun maxFileSize m trace m') :
    ∀ served ∈ trace, ∃ response, served.outcome = .ok response := by
  induction run with
  | nil => simp
  | cons _ _ ih => exact List.forall_mem_cons.mpr ⟨⟨_, rfl⟩, ih⟩

theorem executes_nul (ready : Ready adapter disk) (run : Executes adapter disk files trace files') :
    ∀ served ∈ trace, NulId served.request → ∃ e, served.outcome = .error e := by
  induction run with
  | nil => simp
  | cons step _ ih => exact List.forall_mem_cons.mpr ⟨fun nul => execute_nul ready nul step, ih⟩

end Run

/-! ### Two runs -/

/-- Two snapshots with their numbers for ids. -/
def plainModel : SnapshotModel where
  Snapshot := Bool
  snapshotId snapshot := if snapshot then 1 else 0
  modelDumpJson snapshot := if snapshot then "1" else "0"
  modelValidateJson text :=
    if text = "1" then .ok true
    else if text = "0" then .ok false
    else .error ⟨.validationError, "no snapshot"⟩
  round_trip snapshot := by cases snapshot <;> rfl

def plainAdapter : HandlerFileSystemAdapter where
  basePath := ⟨["/", "data"]⟩
  snapshotsDir := "snapshots"
  maxFileSize := 10485760
  maxFileSize_pos := by decide

/-- A tree without links. -/
def plainDisk : Disk where
  realpath p := if p.isAbsolute then p else ⟨"/" :: p.parts⟩
  absolute p := by
    split
    · assumption
    · rfl

theorem plain_snapshotsPath : plainAdapter.snapshotsPath = ⟨["/", "data", "snapshots"]⟩ := by
  decide +kernel

theorem plain_ready : Ready plainAdapter plainDisk where
  plain := by decide +kernel
  noLinks name := by
    rw [plain_snapshotsPath]
    rfl

theorem represents_empty : Represents plainAdapter (fun _ => none)
    (fun _ => none : SnapshotMap plainModel) where
  file _ := rfl
  only name present := by contradiction
  key id snapshot stored := by contradiction

def storeRequest : ModelMemoryStorageRequest plainModel where
  operation := .store
  snapshot := some true

def storedPath : PurePath := plainAdapter.snapshotsPath.child (UUID.str 1 ++ ".json")

/-- A snapshot is stored. -/
theorem executes_store : Executes plainAdapter plainDisk (fun _ => none)
    [⟨storeRequest, false, .ok { status := .success, snapshot := some true }⟩]
    (Function.update (fun _ => none) storedPath (some "1")) := by
  obtain ⟨accepted, plain⟩ := uuid_accepted 1
  have success : successful (some { status := some "success" }) = true := by decide
  have wrote : Performs (fun _ => none) (.writeFile (plainAdapter.filePath (UUID.str 1)) "1")
      (.ok (some { status := some "success" }))
      (Function.update (fun _ => none) storedPath (some "1")) := by
    rw [filePath_eq plainAdapter (no_slash accepted)]
    exact .wrote storedPath "1" success
  refine .cons ?_ (.nil _)
  have program : plainAdapter.execute plainDisk storeRequest =
      perform (.writeFile (plainAdapter.filePath (UUID.str 1)) "1") >>= fun answer =>
        respond (storeAnswer true (plainAdapter.filePath (UUID.str 1)) answer) :=
    whenValid_plain plain_ready accepted plain _
  rw [program]
  exact runs_op.mpr ⟨_, _, wrote, runs_ret.mpr ⟨rfl, rfl⟩⟩

def nulRequest : ModelMemoryStorageRequest plainModel where
  operation := .retrieve
  snapshotId := some "\x00"

end Storage

end OmniMemory
