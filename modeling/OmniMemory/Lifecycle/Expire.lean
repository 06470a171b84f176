import OmniMemory.Lifecycle.Calls

/-! `HandlerMemoryExpire.handle`, as a program over the calls it awaits. The circuit breaker's
answers are the surroundings' choice, so a result about the program holds for every state of the
breaker. -/

namespace OmniMemory

open Interleave Lifecycle

/-- `async with self._db_pool.acquire() as conn`: an exception of the release replaces what the
block did. -/
def withConnection {α : Type} (body : LifecycleProg (Except PyError α)) :
    LifecycleProg (Except PyError α) := do
  match ← acquire with
  | .error e => return .error e
  | .ok () =>
    let outcome ← body
    match ← release with
    | .error e => return .error e
    | .ok () => return outcome

theorem withConnection_uses {α : Type} {P : Op → Prop} {body : LifecycleProg (Except PyError α)}
    (acquire : P .acquire) (release : P .release) (uses : body.Uses P) :
    (withConnection body).Uses P := by
  refine .bind (Prog.uses_perform.mpr acquire) fun acquired => ?_
  rcases acquired with e | _
  · trivial
  refine .bind uses fun outcome => .bind (Prog.uses_perform.mpr release) fun released => ?_
  rcases released with e | _ <;> trivial

structure ModelExpireMemoryCommand where
  memoryId : UUID
  expectedRevision : Nat
  expiredAt : Option DateTime := none
deriving DecidableEq

structure ModelMemoryExpireResult where
  memoryId : UUID
  success : Bool
  newRevision : Option Nat := none
  conflict : Bool := false
  errorMessage : Option String := none
  previousState : Option EnumLifecycleState := none

structure ModelMemoryCurrentState where
  memoryId : UUID
  lifecycleState : EnumLifecycleState
  lifecycleRevision : Nat

/-- The fields of the handler that `handle` reads. -/
structure HandlerMemoryExpire where
  initialized : Bool
  dbPool : Bool
  circuitBreaker : Bool
deriving DecidableEq

namespace HandlerMemoryExpire

def readCurrentState (self : HandlerMemoryExpire) (memoryId : UUID) :
    LifecycleProg (Except PyError (Option ModelMemoryCurrentState)) := do
  if !self.initialized then
    return .error (.runtimeError
      "Handler not initialized. Call initialize() before _read_current_state().")
  if !self.dbPool then
    return .error (.runtimeError
      "Database pool not configured. Initialize handler with db_pool parameter.")
  if !self.circuitBreaker then
    return .error (.other "AssertionError")
  if !(← shouldAllowRequest) then
    return .error (.circuitBreakerOpenError "Circuit breaker is open")
  let outcome ← withConnection do
    match ← readState memoryId with
    | .error e => return .error e
    | .ok none =>
      recordSuccess
      return .ok none
    | .ok (some (state, revision)) =>
      recordSuccess
      return .ok (some ⟨memoryId, state, revision⟩)
  match outcome with
  | .error (.timeoutError e) =>
    recordTimeout
    return .error (.timeoutError e)
  | .error (.postgresError e) =>
    recordFailure
    return .error (.postgresError e)
  | .error (.clientError e) =>
    recordFailure
    return .error (.clientError e)
  | other => return other

/-- What `handle` answers when the UPDATE matched no row. -/
def explainMiss (self : HandlerMemoryExpire) (command : ModelExpireMemoryCommand) :
    LifecycleProg (Except PyError ModelMemoryExpireResult) := do
  let failed (message : String) : ModelMemoryExpireResult :=
    { memoryId := command.memoryId, success := false, errorMessage := some message }
  match ← self.readCurrentState command.memoryId with
  | .error (.circuitBreakerOpenError _) =>
    return .ok (failed ("Database circuit breaker is open. " ++
      "Unable to read current state for diagnostics."))
  | .error (.postgresError e) | .error (.clientError e) | .error (.timeoutError e) =>
    return .ok (failed s!"Expiration failed and unable to determine cause. State read error: {e}")
  | .error e => return .error e
  | .ok none =>
    recordSuccess
    return .ok (failed "Memory not found")
  | .ok (some current) =>
    recordSuccess
    if current.lifecycleRevision ≠ command.expectedRevision then
      return .ok { failed (s!"Revision conflict: expected {command.expectedRevision}, " ++
          s!"found {current.lifecycleRevision}") with
        conflict := true
        previousState := some current.lifecycleState }
    return .ok { failed (s!"Cannot expire memory in state {current.lifecycleState.value}. " ++
        "Only ACTIVE memories can be expired.") with
      previousState := some current.lifecycleState }

/-- The block of `handle` that holds a connection: the UPDATE and what follows from its row. -/
def expireBlock (self : HandlerMemoryExpire) (now : DateTime)
    (command : ModelExpireMemoryCommand) :
    LifecycleProg (Except PyError ModelMemoryExpireResult) := do
  let expiredAt := command.expiredAt.getD now
  match ← updateExpired command.memoryId command.expectedRevision expiredAt with
  | .error e => return .error e
  | .ok none => self.explainMiss command
  | .ok (some revision) =>
    recordSuccess
    return .ok
      { memoryId := command.memoryId
        success := true
        newRevision := some revision
        previousState := some .active }

/-- `handle`; `now` is the time that it reads when the command gives none. -/
def handle (self : HandlerMemoryExpire) (now : DateTime) (command : ModelExpireMemoryCommand) :
    LifecycleProg (Except PyError ModelMemoryExpireResult) := do
  let failed (message : String) : ModelMemoryExpireResult :=
    { memoryId := command.memoryId, success := false, errorMessage := some message }
  if !self.initialized then
    return .error (.runtimeError "Handler not initialized. Call initialize() before handle().")
  if !self.dbPool then
    return .error (.runtimeError
      "Database pool not configured. Initialize handler with db_pool parameter.")
  if !self.circuitBreaker then
    return .error (.other "AssertionError")
  if !(← shouldAllowRequest) then
    return .ok (failed "Database circuit breaker is open. Service is temporarily unavailable.")
  match ← withConnection (self.expireBlock now command) with
  | .error (.timeoutError _) =>
    recordTimeout
    return .ok (failed "Database query timeout")
  | .error (.postgresError e) =>
    recordFailure
    return .ok (failed s!"Database error: {e}")
  | .error (.clientError e) =>
    recordFailure
    return .ok (failed s!"Client error: {e}")
  | other => return other

/-- `_VALID_FROM_STATES`. -/
def validFromStates : List EnumLifecycleState := [.active]

/-- The attempts of `handle_with_retry` that are left, with the revision for the next one. -/
def attempts (self : HandlerMemoryExpire) (maxRetries : Nat) (memoryId : UUID)
    (expiredAt : Option DateTime) : (nows : List DateTime) → (revision : Nat) →
      LifecycleProg (Except PyError ModelMemoryExpireResult)
  | [], _ => return .ok {
      memoryId
      success := false
      conflict := true
      errorMessage := some s!"Max retries ({maxRetries}) exceeded due to contention" }
  | now :: nows, revision => do
    let failed (message : String) : ModelMemoryExpireResult :=
      { memoryId, success := false, errorMessage := some message }
    match ← self.handle now { memoryId, expectedRevision := revision, expiredAt } with
    | .error e => return .error e
    | .ok result =>
    if result.success || !result.conflict then
      return .ok result
    match ← self.readCurrentState memoryId with
    | .error (.circuitBreakerOpenError _) =>
      return .ok (failed ("Database circuit breaker is open. " ++
        "Unable to retry - service temporarily unavailable."))
    | .error (.postgresError e) | .error (.clientError e) =>
      return .ok (failed s!"Database error during retry state read: {e}")
    | .error (.timeoutError _) => return .ok (failed "Timeout during retry state read")
    | .error e => return .error e
    | .ok none => return .ok (failed "Memory not found during retry")
    | .ok (some current) =>
    if current.lifecycleState ∉ validFromStates then
      return .ok { failed ("Memory transitioned to invalid state during retry: " ++
          current.lifecycleState.value) with
        previousState := some current.lifecycleState }
    self.attempts maxRetries memoryId expiredAt nows current.lifecycleRevision

/-- `handle_with_retry`; `nows` are the times that the attempts read, one for each of
`max_retries`. -/
def handleWithRetry (self : HandlerMemoryExpire) (nows : List DateTime) (memoryId : UUID)
    (initialRevision : Nat) (expiredAt : Option DateTime) :
    LifecycleProg (Except PyError ModelMemoryExpireResult) :=
  self.attempts nows.length memoryId expiredAt nows initialRevision

end HandlerMemoryExpire

end OmniMemory
