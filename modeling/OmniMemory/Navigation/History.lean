import OmniMemory.Lib.Pool
import OmniMemory.Lib.Table
import OmniMemory.Sha256

/-! `HandlerNavigationHistoryWriter`: a navigation session becomes a row of `navigation_sessions`
and, when it was successful, a point of the Qdrant collection `navigation_paths`. The world has any
number of `record` calls over one table and one collection. -/

namespace OmniMemory

open Interleave Prog

structure ModelPlanStep where
  stepIndex : Nat
  fromStateId : String
  toStateId : String
  action : String
  executedAt : DateTime

inductive NavigationOutcome where
  | success (reachedStateId : String)
  | failure (reason : String) (details : Option String)

def NavigationOutcome.tag : NavigationOutcome → String
  | success _ => "success"
  | failure .. => "failure"

structure ModelNavigationSession where
  sessionId : UUID
  goalCondition : String
  startStateId : String
  endStateId : String
  executedSteps : List ModelPlanStep
  finalOutcome : NavigationOutcome
  graphFingerprint : String
  createdAt : DateTime

namespace ModelNavigationSession

def isSuccessful (session : ModelNavigationSession) : Bool := session.finalOutcome.tag == "success"

def stepCount (session : ModelNavigationSession) : Nat := session.executedSteps.length

end ModelNavigationSession

inductive NavigationHistoryStatus where
  | success
  | error
  | skipped

structure ModelNavigationHistoryResponse where
  sessionId : UUID
  status : NavigationHistoryStatus
  postgresWritten : Bool := false
  qdrantWritten : Bool := false
  idempotentSkip : Bool := false
  errorMessage : Option String := none

namespace Navigation

def hashText (text : String) : String := (sha256 (encodeUtf8 text)).hex

/-- A row of `navigation_sessions`. `stepsJson` is the document that the column holds as text. -/
structure SessionRow where
  sessionId : String
  goalHash : String
  goalCondition : String
  startStateId : String
  endStateId : String
  stepCount : Nat
  outcome : String
  failureReason : Option String
  graphFingerprint : String
  stepsJson : List ModelPlanStep
  createdAt : DateTime

/-- The CHECK constraints of the table. -/
def SessionRow.Valid (row : SessionRow) : Prop :=
  row.outcome = "success" ∧ row.failureReason = none ∨
    row.outcome = "failure" ∧ row.failureReason ≠ none

def failureReason (session : ModelNavigationSession) : Option String :=
  match session.finalOutcome with
  | .success _ => none
  | .failure reason _ => some reason

/-- The parameters of the INSERT. -/
def sessionRow (session : ModelNavigationSession) : SessionRow where
  sessionId := UUID.str session.sessionId
  goalHash := hashText session.goalCondition
  goalCondition := session.goalCondition
  startStateId := session.startStateId
  endStateId := session.endStateId
  stepCount := session.stepCount
  outcome := session.finalOutcome.tag
  failureReason := failureReason session
  graphFingerprint := session.graphFingerprint
  stepsJson := session.executedSteps
  createdAt := session.createdAt

theorem sessionRow_valid (session : ModelNavigationSession) : (sessionRow session).Valid := by
  cases outcome : session.finalOutcome with
  | success reached =>
    left
    simp [sessionRow, failureReason, outcome, NavigationOutcome.tag]
  | failure reason details =>
    right
    simp [sessionRow, failureReason, outcome, NavigationOutcome.tag]

structure NavigationPayload where
  sessionId : String
  goalCondition : String
  goalHash : String
  startStateId : String
  endStateId : String
  stepCount : Nat
  outcome : String
  graphFingerprint : String
  createdAt : DateTime
  steps : List ModelPlanStep

/-- A point of `navigation_paths`, with its two named vectors. -/
structure NavigationPoint where
  id : String
  goal : List Float
  startState : List Float
  payload : NavigationPayload

def uuidToQdrantId (sessionId : UUID) : String := UUID.str sessionId

def payload (session : ModelNavigationSession) : NavigationPayload where
  sessionId := UUID.str session.sessionId
  goalCondition := session.goalCondition
  goalHash := hashText session.goalCondition
  startStateId := session.startStateId
  endStateId := session.endStateId
  stepCount := session.stepCount
  outcome := session.finalOutcome.tag
  graphFingerprint := session.graphFingerprint
  createdAt := session.createdAt
  steps := session.executedSteps

def navigationPoint (session : ModelNavigationSession) (goal startState : List Float) :
    NavigationPoint where
  id := uuidToQdrantId session.sessionId
  goal := goal
  startState := startState
  payload := payload session

/-! ### Calls -/

/-- The calls of `record`. `hasPool` and `hasClient` read the attributes of the writer, and
`createPool` and `createClient` set them. -/
inductive Op where
  | hasPool
  | createPool
  | acquire
  | insert (row : SessionRow)
  | release
  | hasClient
  | createClient
  | embed (text : String)
  | upsert (point : NavigationPoint)

@[reducible] def Res : Op → Type
  | .hasPool | .hasClient => Bool
  | .createPool | .acquire | .release | .createClient | .upsert _ => Except PyError Unit
  | .insert _ => Except PyError (Option String)
  | .embed _ => Except PyError (List Float)

end Navigation

abbrev NavigationProg := Prog Navigation.Op Navigation.Res

namespace Navigation

/-- What `record` calls share: the attributes of the writer and the two stores, with the primary key
of the table and the ids of the points. -/
structure Store where
  pgPool : Bool
  qdrantClient : Bool
  sessions : Table SessionRow.sessionId
  paths : Table NavigationPoint.id

def Store.empty : Store := ⟨false, false, .empty, .empty⟩

def Store.hasRow (s : Store) (key : String) : Bool := (s.sessions.find? key).isSome

def Store.hasPoint (s : Store) (key : String) : Bool := (s.paths.find? key).isSome

/-- `INSERT ... ON CONFLICT (session_id) DO NOTHING`. -/
def Store.insert (s : Store) (row : SessionRow) : Store :=
  { s with sessions := s.sessions.add row }

/-- What `RETURNING session_id` gives. -/
def Store.inserted (s : Store) (row : SessionRow) : Option String :=
  if s.hasRow row.sessionId then none else some row.sessionId

def Store.upsert (s : Store) (point : NavigationPoint) : Store :=
  { s with paths := s.paths.put point }

/-- How the surroundings treat a call: it succeeds, with the given vector for an embedding, it
fails without effect, or it fails after its effect. -/
inductive Choice where
  | run
  | vector (v : List Float)
  | fail (e : PyError)
  | lost (e : PyError)

def exec : (op : Op) → Choice → Store → Option (Res op × Store)
  | .hasPool, .run, s => some (s.pgPool, s)
  | .hasClient, .run, s => some (s.qdrantClient, s)
  | .createPool, .run, s => some (.ok (), { s with pgPool := true })
  | .createClient, .run, s => some (.ok (), { s with qdrantClient := true })
  | .acquire, .run, s | .release, .run, s => some (.ok (), s)
  | .insert row, .run, s => some (.ok (s.inserted row), s.insert row)
  | .insert row, .lost e, s => some (.error e, s.insert row)
  | .insert _, .fail e, s => some (.error e, s)
  | .embed _, .vector v, s => some (.ok v, s)
  | .embed _, .fail e, s => some (.error e, s)
  | .upsert point, .run, s => some (.ok (), s.upsert point)
  | .upsert point, .lost e, s => some (.error e, s.upsert point)
  | .createPool, .fail e, s | .acquire, .fail e, s | .release, .fail e, s
  | .createClient, .fail e, s | .upsert _, .fail e, s => some (.error e, s)
  | _, _, _ => none

/-- `close`, which drops the pool and then the client. -/
inductive Move where
  | closePool
  | closeClient

def move : Move → Store → Option Store
  | .closePool, s => some { s with pgPool := false }
  | .closeClient, s => some { s with qdrantClient := false }

/-! ### The writer -/

def getPgPool : NavigationProg (Except PyError Unit) := do
  if ← perform Op.hasPool then return .ok ()
  perform Op.createPool

inductive WriteResult where
  | written
  | idempotent

def writeResult (inserted : Option String) : WriteResult :=
  if inserted.isNone then .idempotent else .written

def writePostgres (session : ModelNavigationSession) :
    NavigationProg (Except PyError WriteResult) := do
  match ← perform Op.acquire with
  | .error e => return .error e
  | .ok () =>
    let inserted ← perform (Op.insert (sessionRow session))
    -- Leaving `async with` releases the connection; what that raises replaces the first exception.
    match ← perform Op.release with
    | .error e => return .error e
    | .ok () => return inserted.map writeResult

def getQdrantClient : NavigationProg (Except PyError Unit) := do
  if ← perform Op.hasClient then return .ok ()
  perform Op.createClient

def embedText (text : String) : NavigationProg (Except PyError (List Float)) :=
  perform (Op.embed text)

def writeQdrant (session : ModelNavigationSession) : NavigationProg (Except PyError Unit) := do
  match ← embedText session.goalCondition with
  | .error e => return .error e
  | .ok goal =>
    match ← embedText session.startStateId with
    | .error e => return .error e
    | .ok startState => perform (Op.upsert (navigationPoint session goal startState))

/-- The first `try` of `record`. -/
def storeRow (session : ModelNavigationSession) : NavigationProg (Except PyError WriteResult) := do
  match ← getPgPool with
  | .error e => return .error e
  | .ok () => writePostgres session

/-- The second `try` of `record`. -/
def storePoint (session : ModelNavigationSession) : NavigationProg (Except PyError Unit) := do
  match ← getQdrantClient with
  | .error e => return .error e
  | .ok () => writeQdrant session

/-- `HandlerNavigationHistoryWriter.record`, which raises nothing. -/
def record (session : ModelNavigationSession) : NavigationProg ModelNavigationHistoryResponse := do
  match ← storeRow session with
  | .error e => return {
      sessionId := session.sessionId
      status := .error
      errorMessage := some s!"PostgreSQL write failed: {e.text}" }
  | .ok .idempotent => return {
      sessionId := session.sessionId
      status := .skipped
      idempotentSkip := true }
  | .ok .written =>
    if session.isSuccessful then
      match ← storePoint session with
      | .error e => return {
          sessionId := session.sessionId
          status := .error
          postgresWritten := true
          errorMessage := some s!"Qdrant write failed (PostgreSQL OK): {e.text}" }
      | .ok () => return {
          sessionId := session.sessionId
          status := .success
          postgresWritten := true
          qdrantWritten := true }
    else return {
        sessionId := session.sessionId
        status := .success
        postgresWritten := true }

def world :
    World Op Res ModelNavigationHistoryResponse ModelNavigationSession Choice Move Store where
  code := record
  exec := exec
  move := move

abbrev NavigationEvent := Event Op Res Store

abbrev NavigationLabel := Label Op Res ModelNavigationSession Move Store

abbrev NavigationTask := Task Op Res ModelNavigationHistoryResponse ModelNavigationSession Store

abbrev NavigationPool := Pool Op Res ModelNavigationHistoryResponse ModelNavigationSession Store

end Navigation

end OmniMemory
