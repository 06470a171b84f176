import Mathlib.Algebra.Order.Field.Rat
import Mathlib.Tactic.Linarith
import OmniMemory.Lib.Automaton

/-! The circuit breakers of the two adapters: `CircuitBreaker` of `adapter_concurrency` and
`AsyncCircuitBreaker` of `adapter_resource_manager`. Neither suspends while it lets a call on or
records an outcome, so a breaker is an automaton that answers one event after the other; the calls
between an admission and its outcome overlap as they like. Times are in seconds. -/

namespace OmniMemory

open Sequential

/-- `CircuitBreakerState`, and `CircuitState`. -/
inductive CircuitBreakerState where
  | closed
  | opened
  | halfOpen
deriving DecidableEq

/-- `.value`. -/
def CircuitBreakerState.value : CircuitBreakerState → String
  | closed => "closed"
  | opened => "open"
  | halfOpen => "half_open"

namespace CircuitBreaker

/-- How a call ends. -/
inductive Outcome where
  | returned
  | timeoutError
  | raised
  | cancelled
deriving DecidableEq

/-- What happens to a breaker: a request for admission, with the random number that a jitter is
made of, or an outcome that is recorded. -/
inductive Event where
  | request (now draw : ℚ)
  | success
  | failure (now : ℚ)
  | timeout (now : ℚ)

namespace Event

/-- The time of a recorded failure; a timeout is one. -/
def failureTime : Event → Option ℚ
  | failure now | timeout now => some now
  | _ => none

def isFailure (e : Event) : Bool := e.failureTime.isSome

def isSuccess : Event → Bool
  | success => true
  | _ => false

end Event

/-- What the end of a call tells the breaker. A cancelled call tells it nothing. -/
def Outcome.event (now : ℚ) : Outcome → Option Event
  | returned => some .success
  | timeoutError => some (.timeout now)
  | raised => some (.failure now)
  | cancelled => none

end CircuitBreaker

open CircuitBreaker (Event Outcome)

structure CircuitBreaker where
  failureThreshold : Nat
  recoveryTimeout : ℚ
  successThreshold : Nat
  state : CircuitBreakerState
  failureCount : Nat
  successCount : Nat
  totalCalls : Nat
  totalTimeouts : Nat
  lastFailureTime : Option ℚ

namespace CircuitBreaker

def new (failureThreshold : Nat) (recoveryTimeout : ℚ) (successThreshold : Nat) :
    CircuitBreaker :=
  ⟨failureThreshold, recoveryTimeout, successThreshold, .closed, 0, 0, 0, 0, none⟩

def transitionToOpen (b : CircuitBreaker) : CircuitBreaker := { b with state := .opened }

def transitionToClosed (b : CircuitBreaker) : CircuitBreaker :=
  { b with state := .closed, failureCount := 0, successCount := 0 }

def transitionToHalfOpen (b : CircuitBreaker) : CircuitBreaker :=
  { b with state := .halfOpen, successCount := 0 }

def recordSuccess (b : CircuitBreaker) : CircuitBreaker :=
  let b := { b with totalCalls := b.totalCalls + 1, successCount := b.successCount + 1 }
  match b.state with
  | .halfOpen => if b.successCount ≥ b.successThreshold then b.transitionToClosed else b
  | .closed => { b with failureCount := 0 }
  | .opened => b

def recordFailure (now : ℚ) (b : CircuitBreaker) : CircuitBreaker :=
  let b := { b with
    totalCalls := b.totalCalls + 1
    failureCount := b.failureCount + 1
    lastFailureTime := some now }
  match b.state with
  | .closed => if b.failureCount ≥ b.failureThreshold then b.transitionToOpen else b
  | .halfOpen => b.transitionToOpen
  | .opened => b

def recordTimeout (now : ℚ) (b : CircuitBreaker) : CircuitBreaker :=
  let b := { b with
    totalTimeouts := b.totalTimeouts + 1
    totalCalls := b.totalCalls + 1
    failureCount := b.failureCount + 1
    lastFailureTime := some now }
  match b.state with
  | .closed => if b.failureCount ≥ b.failureThreshold then b.transitionToOpen else b
  | .halfOpen => b.transitionToOpen
  | .opened => b

def shouldAllowRequest (now : ℚ) (b : CircuitBreaker) : Bool × CircuitBreaker :=
  match b.state with
  | .opened =>
    match b.lastFailureTime with
    | some last =>
      if now - last ≥ b.recoveryTimeout then (true, b.transitionToHalfOpen) else (false, b)
    | none => (false, b)
  | _ => (true, b)

/-- The end of `call`, for a call that was let on. -/
def finish (now : ℚ) (b : CircuitBreaker) : Outcome → CircuitBreaker
  | .returned => b.recordSuccess
  | .timeoutError => b.recordTimeout now
  | .raised => b.recordFailure now
  | .cancelled => b

/-- The breaker answers requests for admission only. -/
def automaton : Automaton Event (Option Bool) CircuitBreaker where
  step b
    | .request now _ => ((b.shouldAllowRequest now).1, (b.shouldAllowRequest now).2)
    | .success => (none, b.recordSuccess)
    | .failure now => (none, b.recordFailure now)
    | .timeout now => (none, b.recordTimeout now)

theorem finish_eq (now : ℚ) (b : CircuitBreaker) (out : Outcome) :
    b.finish now out = automaton.run b (out.event now).toList := by
  cases out <;> rfl

section Steps

variable {b : CircuitBreaker} {now : ℚ}

theorem recordFailure_cases (b : CircuitBreaker) (now : ℚ) :
    (b.recordFailure now).failureThreshold = b.failureThreshold ∧
    (b.recordFailure now).failureCount = b.failureCount + 1 ∧
    (b.recordFailure now).state =
      if b.state = .closed ∧ b.failureCount + 1 < b.failureThreshold then .closed else .opened := by
  cases state : b.state with
  | closed =>
    by_cases enough : b.failureCount + 1 ≥ b.failureThreshold
    · simp [recordFailure, state, enough, transitionToOpen]
    · simp [recordFailure, state, enough]
  | halfOpen => simp [recordFailure, state, transitionToOpen]
  | opened => simp [recordFailure, state]

/-- A timeout is recorded as a failure, and counted besides. -/
theorem recordTimeout_eq : b.recordTimeout now =
    CircuitBreaker.recordFailure now { b with totalTimeouts := b.totalTimeouts + 1 } := rfl

theorem recordTimeout_cases (b : CircuitBreaker) (now : ℚ) :
    (b.recordTimeout now).failureThreshold = b.failureThreshold ∧
    (b.recordTimeout now).failureCount = b.failureCount + 1 ∧
    (b.recordTimeout now).state =
      if b.state = .closed ∧ b.failureCount + 1 < b.failureThreshold then .closed else .opened :=
  recordFailure_cases { b with totalTimeouts := b.totalTimeouts + 1 } now

theorem recordSuccess_cases : b.recordSuccess.failureThreshold = b.failureThreshold ∧
    b.recordSuccess.failureCount ≤ b.failureCount ∧
    (b.recordSuccess.state = .closed → b.recordSuccess.failureCount = 0) ∧
    (b.recordSuccess.state = .opened ↔ b.state = .opened) ∧
    (b.state = .closed → b.recordSuccess.state = .closed) := by
  cases state : b.state with
  | halfOpen =>
    by_cases enough : b.successCount + 1 ≥ b.successThreshold
    · simp [recordSuccess, state, enough, transitionToClosed]
    · simp [recordSuccess, state, enough]
  | _ => simp [recordSuccess, state]

theorem shouldAllowRequest_cases (b : CircuitBreaker) (now : ℚ) :
    b.shouldAllowRequest now = (true, b) ∧ b.state ≠ .opened ∨
      b.shouldAllowRequest now = (false, b) ∧ b.state = .opened ∨
      b.shouldAllowRequest now = (true, b.transitionToHalfOpen) ∧ b.state = .opened := by
  cases state : b.state with
  | opened =>
    cases last : b.lastFailureTime with
    | none => simp [shouldAllowRequest, state, last]
    | some last' =>
      by_cases late : now - last' ≥ b.recoveryTimeout
      · simp [shouldAllowRequest, state, last, late]
      · simp [shouldAllowRequest, state, last, late]
  | _ => simp [shouldAllowRequest, state]

end Steps

end CircuitBreaker

structure ModelCircuitBreakerConfig where
  failureThreshold : Nat
  recoveryTimeout : ℚ
  recoveryTimeoutJitter : ℚ
  successThreshold : Nat
  timeout : ℚ
  failureThreshold_ge : 1 ≤ failureThreshold
  recoveryTimeout_ge : 0 ≤ recoveryTimeout
  jitter_ge : 0 ≤ recoveryTimeoutJitter
  jitter_le : recoveryTimeoutJitter ≤ 1
  successThreshold_ge : 1 ≤ successThreshold
  timeout_gt : 0 < timeout

def ModelCircuitBreakerConfig.default : ModelCircuitBreakerConfig :=
  ⟨5, 60, 1 / 10, 3, 30, by decide, by decide, by norm_num, by norm_num, by decide, by decide⟩

/-- `CircuitBreakerStats`. -/
structure CircuitBreakerStats where
  failureCount : Nat
  successCount : Nat
  lastFailureTime : Option ℚ
  totalCalls : Nat
  totalTimeouts : Nat

structure AsyncCircuitBreaker where
  config : ModelCircuitBreakerConfig
  state : CircuitBreakerState
  stats : CircuitBreakerStats

namespace AsyncCircuitBreaker

def new (config : ModelCircuitBreakerConfig) : AsyncCircuitBreaker :=
  ⟨config, .closed, ⟨0, 0, none, 0, 0⟩⟩

/-- `random.uniform(a, b)`, from a random number between 0 and 1. -/
def uniform (a b draw : ℚ) : ℚ := a + (b - a) * draw

def shouldAttemptReset (now draw : ℚ) (b : AsyncCircuitBreaker) : Bool :=
  match b.stats.lastFailureTime with
  | none => true
  | some last =>
    let jitterRange := b.config.recoveryTimeout * b.config.recoveryTimeoutJitter
    let effectiveTimeout := b.config.recoveryTimeout + uniform (-jitterRange) jitterRange draw
    now - last ≥ effectiveTimeout

def transitionToHalfOpen (b : AsyncCircuitBreaker) : AsyncCircuitBreaker :=
  { b with state := .halfOpen, stats := { b.stats with successCount := 0 } }

def transitionToClosed (b : AsyncCircuitBreaker) : AsyncCircuitBreaker :=
  { b with state := .closed, stats := { b.stats with failureCount := 0 } }

def transitionToOpen (b : AsyncCircuitBreaker) : AsyncCircuitBreaker := { b with state := .opened }

/-- The section of `call` before the function is called. -/
def enterCall (now draw : ℚ) (b : AsyncCircuitBreaker) : Bool × AsyncCircuitBreaker :=
  if b.state = .opened then
    if b.shouldAttemptReset now draw then (true, b.transitionToHalfOpen) else (false, b)
  else (true, b)

def onSuccess (b : AsyncCircuitBreaker) : AsyncCircuitBreaker :=
  let b := { b with stats := { b.stats with totalCalls := b.stats.totalCalls + 1 } }
  match b.state with
  | .halfOpen =>
    let b := { b with stats := { b.stats with successCount := b.stats.successCount + 1 } }
    if b.stats.successCount ≥ b.config.successThreshold then b.transitionToClosed else b
  | .closed => { b with stats := { b.stats with failureCount := 0 } }
  | .opened => b

def onFailure (now : ℚ) (b : AsyncCircuitBreaker) : AsyncCircuitBreaker :=
  let b := { b with stats := { b.stats with
    totalCalls := b.stats.totalCalls + 1
    failureCount := b.stats.failureCount + 1
    lastFailureTime := some now } }
  if (b.state = .closed ∧ b.stats.failureCount ≥ b.config.failureThreshold) ∨
      b.state = .halfOpen then b.transitionToOpen
  else b

/-- What `except TimeoutError` does before `_on_failure`. -/
def countTimeout (b : AsyncCircuitBreaker) : AsyncCircuitBreaker :=
  { b with stats := { b.stats with totalTimeouts := b.stats.totalTimeouts + 1 } }

/-- The end of `call`, for a call that was let on. -/
def finish (now : ℚ) (b : AsyncCircuitBreaker) : Outcome → AsyncCircuitBreaker
  | .returned => b.onSuccess
  | .timeoutError => b.countTimeout.onFailure now
  | .raised => b.onFailure now
  | .cancelled => b

def automaton : Automaton Event (Option Bool) AsyncCircuitBreaker where
  step b
    | .request now draw => ((b.enterCall now draw).1, (b.enterCall now draw).2)
    | .success => (none, b.onSuccess)
    | .failure now => (none, b.onFailure now)
    | .timeout now => (none, b.countTimeout.onFailure now)

theorem finish_eq (now : ℚ) (b : AsyncCircuitBreaker) (out : Outcome) :
    b.finish now out = automaton.run b (out.event now).toList := by
  cases out <;> rfl

end AsyncCircuitBreaker

end OmniMemory
