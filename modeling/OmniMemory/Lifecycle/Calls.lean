import OmniMemory.Lib.Pool
import OmniMemory.Lifecycle.State
import Mathlib.Logic.Equiv.List
import Mathlib.Tactic.DeriveEncodable

/-! The calls that the lifecycle handlers make, and what the surroundings do with them. A call
answers with its value or with the exception that it raises. The choices of the surroundings are
whether a call succeeds, fails without effect, or fails after its effect, which is what a database
call does that the server commits before the client sees an error. -/

namespace OmniMemory

open Interleave

structure ModelArchiveRecord where
  memoryId : UUID
  content : String
  contentType : String
  createdAt : DateTime
  expiredAt : DateTime
  archivedAt : DateTime
  lifecycleRevision : Nat
  archiveVersion : String := "1.0"
  metadata : Option String
deriving DecidableEq

/-- What the handlers use of other packages and of the file tree: gzip, the JSON form of a record
with its final newline in UTF-8, the check of `ModelGenericMetadata`, `Path.resolve`, and the
directory entry that the operating system finds for a path. -/
structure External where
  compress : Nat → Bytes → Bytes
  decompress : Bytes → Option Bytes
  dumpJson : ModelArchiveRecord → Bytes
  parseJson : Bytes → Option ModelArchiveRecord
  decompress_compress : ∀ level bytes, decompress (compress level bytes) = some bytes
  parseJson_dumpJson : ∀ record, parseJson (dumpJson record) = some record
  validateMetadata : String → Except String String
  resolve : PurePath → Except String PurePath
  entry : PurePath → PurePath

/-- The record in an archive file: gunzip, then one JSON line. -/
def External.decode (X : External) (file : Bytes) : Option ModelArchiveRecord :=
  (X.decompress file).bind X.parseJson

@[simp] theorem External.decode_compress (X : External) (level : Nat) (r : ModelArchiveRecord) :
    X.decode (X.compress level (X.dumpJson r)) = some r := by
  simp [decode, X.decompress_compress, X.parseJson_dumpJson]

instance encodableChar : Encodable Char :=
  .ofLeftInjection Char.toNat (fun n => some (Char.ofNat n)) (by simp)

instance encodableString : Encodable String :=
  .ofLeftInjection String.toList (fun l => some (String.ofList l)) (by simp)

instance encodableBitVec (n : Nat) : Encodable (BitVec n) :=
  .ofLeftInjection BitVec.toNat (fun k => some (BitVec.ofNat n k)) (by simp)

deriving instance Encodable for DateTime, ModelArchiveRecord

/-- Surroundings for runs, without links: the record at a position of `known` is written as this
position and any other one as its number, in unary and not compressed. -/
def External.plain (known : List ModelArchiveRecord) : External where
  compress _ bytes := bytes
  decompress := some
  dumpJson record :=
    match known.idxOf? record with
    | some i => 1 :: List.replicate i 0
    | none => 0 :: List.replicate (Encodable.encode record) 0
  parseJson
    | 1 :: rest => known[rest.length]?
    | _ :: rest => Encodable.decode rest.length
    | [] => none
  decompress_compress _ _ := rfl
  parseJson_dumpJson record := by
    cases position : known.idxOf? record with
    | none => simp
    | some i =>
      obtain ⟨h, same, -⟩ := List.idxOf?_eq_some_iff.mp position
      simp_all
  validateMetadata := .ok
  resolve := .ok
  entry path := path

/-- The status that `conn.execute` returns, such as `"UPDATE 1"`, split at the number. -/
inductive CommandStatus where
  | update (rows : Nat)
  | unexpected (text : String)

/-- A temporary file. Only the call that opened it writes to it, so its content is kept by that
call. -/
structure TempFile where
  suffix : String
  stem : String
  dir : PurePath

namespace Lifecycle

inductive Op where
  | shouldAllowRequest
  | recordSuccess
  | recordFailure
  | recordTimeout
  | acquire
  | release
  | updateExpired (id : UUID) (revision : Nat) (expiredAt : DateTime)
  | readState (id : UUID)
  | selectMemory (id : UUID)
  | updateArchived (id : UUID) (revision : Nat) (archivedAt : DateTime) (path : PurePath)
  | mkdir (dir : PurePath)
  | mkstemp (suffix stem : String) (dir : PurePath)
  | write (temp : TempFile) (bytes : Bytes)
  | fsync (temp : TempFile)
  | close (temp : TempFile)
  | rename (temp : TempFile) (content : Bytes) (target : PurePath)
  | tempExists (temp : TempFile)
  | unlink (temp : TempFile)
  | trackOrphan (id : UUID) (path : PurePath) (reason : String)

/-- The calls on files. -/
def Op.isFile : Op → Bool
  | mkdir _ | mkstemp .. | write .. | fsync _ | close _ | rename .. | tempExists _ | unlink _ => true
  | _ => false

@[reducible] def Res : Op → Type
  | .shouldAllowRequest => Bool
  | .recordSuccess | .recordFailure | .recordTimeout => Unit
  | .updateExpired .. => Except PyError (Option Nat)
  | .readState _ => Except PyError (Option (EnumLifecycleState × Nat))
  | .selectMemory _ => Except PyError (Option MemoryRow)
  | .updateArchived .. => Except PyError CommandStatus
  | .mkstemp .. => Except PyError TempFile
  | .write .. => Except PyError Nat
  | .tempExists _ => Except PyError Bool
  | .acquire | .release | .mkdir _ | .fsync _ | .close _ | .rename .. | .unlink _
  | .trackOrphan .. => Except PyError Unit

end Lifecycle

abbrev LifecycleProg := Prog Lifecycle.Op Lifecycle.Res

namespace Lifecycle

/-! The calls as programs. -/

abbrev shouldAllowRequest : LifecycleProg Bool := .perform Op.shouldAllowRequest

abbrev recordSuccess : LifecycleProg Unit := .perform Op.recordSuccess

abbrev recordFailure : LifecycleProg Unit := .perform Op.recordFailure

abbrev recordTimeout : LifecycleProg Unit := .perform Op.recordTimeout

abbrev acquire : LifecycleProg (Except PyError Unit) := .perform Op.acquire

abbrev release : LifecycleProg (Except PyError Unit) := .perform Op.release

abbrev updateExpired (id : UUID) (revision : Nat) (expiredAt : DateTime) :
    LifecycleProg (Except PyError (Option Nat)) := .perform (Op.updateExpired id revision expiredAt)

abbrev readState (id : UUID) : LifecycleProg (Except PyError (Option (EnumLifecycleState × Nat))) :=
  .perform (Op.readState id)

abbrev selectMemory (id : UUID) : LifecycleProg (Except PyError (Option MemoryRow)) :=
  .perform (Op.selectMemory id)

abbrev updateArchived (id : UUID) (revision : Nat) (archivedAt : DateTime) (path : PurePath) :
    LifecycleProg (Except PyError CommandStatus) :=
  .perform (Op.updateArchived id revision archivedAt path)

abbrev mkdir (dir : PurePath) : LifecycleProg (Except PyError Unit) := .perform (Op.mkdir dir)

abbrev mkstemp (suffix stem : String) (dir : PurePath) : LifecycleProg (Except PyError TempFile) :=
  .perform (Op.mkstemp suffix stem dir)

abbrev write (temp : TempFile) (bytes : Bytes) : LifecycleProg (Except PyError Nat) :=
  .perform (Op.write temp bytes)

abbrev fsync (temp : TempFile) : LifecycleProg (Except PyError Unit) := .perform (Op.fsync temp)

abbrev close (temp : TempFile) : LifecycleProg (Except PyError Unit) := .perform (Op.close temp)

abbrev rename (temp : TempFile) (content : Bytes) (target : PurePath) :
    LifecycleProg (Except PyError Unit) := .perform (Op.rename temp content target)

abbrev tempExists (temp : TempFile) : LifecycleProg (Except PyError Bool) :=
  .perform (Op.tempExists temp)

abbrev unlink (temp : TempFile) : LifecycleProg (Except PyError Unit) := .perform (Op.unlink temp)

abbrev trackOrphan (id : UUID) (path : PurePath) (reason : String) :
    LifecycleProg (Except PyError Unit) := .perform (Op.trackOrphan id path reason)

structure TrackedOrphan where
  memoryId : UUID
  path : PurePath
  reason : String
deriving DecidableEq

/-- What the handlers share: the table, the files by directory entry, and the orphans handed to
the tracker. -/
structure State where
  memories : Memories
  files : PurePath → Option Bytes
  tracked : List TrackedOrphan

/-- How the surroundings treat a call: it succeeds, the breaker answers, a write stores fewer
bytes than given, it fails without effect, or it fails after its effect. -/
inductive Choice where
  | run
  | answer (allowed : Bool)
  | short (stored : Nat)
  | fail (e : PyError)
  | lost (e : PyError)

/-- The row returned by `_EXPIRE_SQL`: its revision after the update. -/
def expireAnswer (t : Memories) (id : UUID) (revision : Nat) : Option Nat :=
  (t.guarded id revision .active).map (·.lifecycleRevision + 1)

/-- The number of rows that the UPDATE of `_mark_archived` changes. -/
def archiveCount (t : Memories) (id : UUID) (revision : Nat) : Nat :=
  if (t.guarded id revision .expired).isSome then 1 else 0

/-- The state after `_EXPIRE_SQL`. -/
def State.expire (s : State) (id : UUID) (revision : Nat) (expiredAt : DateTime) : State :=
  { s with memories := s.memories.updateWhere id revision .active (·.expire expiredAt) }

/-- The state after the UPDATE of `_mark_archived`. -/
def State.archive (s : State) (id : UUID) (revision : Nat) (archivedAt : DateTime)
    (path : PurePath) : State :=
  { s with memories := s.memories.updateWhere id revision .expired (·.archive archivedAt path) }

def exec (X : External) : (op : Op) → Choice → State → Option (Res op × State)
  | .shouldAllowRequest, .answer b, s => some (b, s)
  | .recordSuccess, .run, s | .recordFailure, .run, s | .recordTimeout, .run, s => some ((), s)
  | .updateExpired id revision at_, .run, s =>
    some (.ok (expireAnswer s.memories id revision), s.expire id revision at_)
  | .updateExpired .., .fail e, s => some (.error e, s)
  | .updateExpired id revision at_, .lost e, s => some (.error e, s.expire id revision at_)
  | .readState id, .run, s =>
    some (.ok ((s.memories id).map fun row => (row.lifecycleState, row.lifecycleRevision)), s)
  | .readState _, .fail e, s => some (.error e, s)
  | .selectMemory id, .run, s => some (.ok (s.memories id), s)
  | .selectMemory _, .fail e, s => some (.error e, s)
  | .updateArchived id revision at_ path, .run, s =>
    some (.ok (.update (archiveCount s.memories id revision)), s.archive id revision at_ path)
  | .updateArchived .., .fail e, s => some (.error e, s)
  | .updateArchived id revision at_ path, .lost e, s =>
    some (.error e, s.archive id revision at_ path)
  | .mkstemp suffix stem dir, .run, s => some (.ok ⟨suffix, stem, dir⟩, s)
  | .mkstemp .., .fail e, s => some (.error e, s)
  | .write _ bytes, .run, s => some (.ok bytes.length, s)
  | .write _ bytes, .short n, s => if 0 < n ∧ n < bytes.length then some (.ok n, s) else none
  | .write .., .fail e, s => some (.error e, s)
  | .rename _ content target, .run, s =>
    some (.ok (), { s with files := Function.update s.files (X.entry target) (some content) })
  | .rename .., .fail e, s => some (.error e, s)
  | .tempExists _, .answer b, s => some (.ok b, s)
  | .tempExists _, .fail e, s => some (.error e, s)
  | .acquire, .run, s | .release, .run, s | .mkdir _, .run, s | .fsync _, .run, s
  | .close _, .run, s | .unlink _, .run, s => some (.ok (), s)
  | .acquire, .fail e, s | .release, .fail e, s | .mkdir _, .fail e, s | .fsync _, .fail e, s
  | .close _, .fail e, s | .unlink _, .fail e, s | .trackOrphan .., .fail e, s =>
    some (.error e, s)
  | .trackOrphan id path reason, .run, s =>
    some (.ok (), { s with tracked := s.tracked ++ [⟨id, path, reason⟩] })
  | _, _, _ => none

end Lifecycle

end OmniMemory
