import Mathlib.Data.List.Infix
import OmniMemory.RetryUtils.Delay

/-! `retry_with_backoff` and the wrappers of `retry_decorator`. The handler of the loop takes what
the operation raises and what is raised before it is called, and the wrapper of a function that is
not a coroutine takes a `RuntimeError` for the lack of a running loop. -/

namespace OmniMemory

namespace RetryUtils

/-- What is observed of an exception: the name of its type, three of the types it may be of, its
truth and its text. What either of the two raises is given instead. -/
structure Exceptions (E : Type) where
  name : E → String
  isException : E → Bool
  isRuntimeError : E → Bool
  isStopIteration : E → Bool
  truth : E → Except E Bool
  str : E → Except E String

/-- What is raised beside the exceptions of the operation. -/
inductive Machinery where
  | toInt (e : ToIntError)
  /-- A record of an attempt with a negative delay. -/
  | validationError
  /-- No attempt is recorded. -/
  | indexError
  | failedWithoutException
  | coroutineRaisedStopIteration
  | calledFromRunningLoop

def Machinery.name : Machinery → String
  | toInt .valueError => "ValueError"
  | toInt .overflowError => "OverflowError"
  | validationError => "ValidationError"
  | indexError => "IndexError"
  | failedWithoutException | coroutineRaisedStopIteration | calledFromRunningLoop => "RuntimeError"

/-- What is raised: an exception of the operation, or one that is new. -/
inductive Raised (E : Type) where
  | exception (e : E)
  | machinery (m : Machinery)

namespace Raised

variable {E : Type} (X : Exceptions E)

def name : Raised E → String
  | exception e => X.name e
  | machinery m => m.name

def isRuntimeError : Raised E → Bool
  | exception e => X.isRuntimeError e
  | machinery m => m.name == "RuntimeError"

def isStopIteration : Raised E → Bool
  | exception e => X.isStopIteration e
  | machinery _ => false

/-- What its text raises. -/
def strRaises : Raised E → Option E
  | exception e => match X.str e with
    | .ok _ => none
    | .error raised => some raised
  | machinery _ => none

end Raised

/-- `is_retryable_exception`, of the name of a type. -/
def isRetryableException (name : String) (retryableExceptions : List String) : Bool :=
  retryableExceptions.contains name ||
    retryableExceptions.any fun retryable => decide (retryable.toList <:+: name.toList)

/-- `ModelRetryAttemptInfo`. -/
structure AttemptInfo where
  attemptNumber : ℕ
  delayMs : ℤ
  exception : Option String := none

/-- A record whose fields pass. -/
def attemptInfo (attempt : ℕ) (delay : ℤ) : Except Machinery AttemptInfo :=
  if 1 ≤ attempt ∧ 0 ≤ delay then .ok ⟨attempt, delay, none⟩ else .error .validationError

/-- `attempts[-1].exception = name`. -/
def setException (name : String) (attempts : List AttemptInfo) : Option (List AttemptInfo) :=
  attempts.getLast?.map fun last => attempts.dropLast ++ [{ last with exception := some name }]

/-- What a run does: the delays it sleeps, what its calls of the operation end with, and what the
caller receives. -/
structure Trace (E T : Type) where
  sleeps : List ℤ
  calls : List (Except E T)
  received : Except (Raised E) T

namespace Trace

variable {E T : Type}

/-- Nothing more is done. -/
def done (received : Except (Raised E) T) : Trace E T := ⟨[], [], received⟩

def sleep (ms : ℤ) (t : Trace E T) : Trace E T :=
  if 0 < ms then { t with sleeps := ms :: t.sleeps } else t

def call (outcome : Except E T) (t : Trace E T) : Trace E T := { t with calls := outcome :: t.calls }

/-- One run after another, of which the second is received. -/
def append (t t' : Trace E T) : Trace E T :=
  { sleeps := t.sleeps ++ t'.sleeps, calls := t.calls ++ t'.calls, received := t'.received }

end Trace

section Loop

variable {E T : Type} (X : Exceptions E) (P : Power) (config : ModelRetryConfig) (draws : ℕ → Draw)
  (operation : ℕ → Except E T)

/-- What is raised after the loop. -/
def raiseLast : Option (Raised E) → Except (Raised E) T
  | none => .error (.machinery .failedWithoutException)
  | some (.machinery m) => .error (.machinery m)
  | some (.exception e) =>
    match X.truth e with
    | .ok true => .error (.exception e)
    | .ok false => .error (.machinery .failedWithoutException)
    | .error raised => .error (.exception raised)

/-- The handler: the loop goes on, or it is left. -/
def handle (attempt : ℕ) (e : Raised E) (attempts : List AttemptInfo)
    (next : List AttemptInfo → Trace E T) : Trace E T :=
  match setException (e.name X) attempts with
  | none => .done (.error (.machinery .indexError))
  | some attempts =>
    match e.strRaises X with
    | some raised => .done (.error (.exception raised))
    | none =>
      if attempt < config.maxAttempts &&
          isRetryableException (e.name X) config.retryableExceptions then next attempts
      else .done (raiseLast X (some e))

/-- The loop from an attempt on, when the operation was called `called` times. -/
def attemptLoop : (remaining attempt called : ℕ) → Option (Raised E) → List AttemptInfo → Trace E T
  | 0, _, _, last, _ => .done (raiseLast X last)
  | remaining + 1, attempt, called, _, attempts =>
    match calculateDelay P config (draws attempt) attempt with
    | .error e => handle X config attempt (.machinery (.toInt e)) attempts
        (attemptLoop remaining (attempt + 1) called (some (.machinery (.toInt e))))
    | .ok delay =>
      .sleep delay <|
        match attemptInfo attempt delay with
        | .error m => handle X config attempt (.machinery m) attempts
            (attemptLoop remaining (attempt + 1) called (some (.machinery m)))
        | .ok info =>
          .call (operation called) <|
            match operation called with
            | .ok result => .done (.ok result)
            | .error e =>
              if X.isException e then
                handle X config attempt (.exception e) (attempts ++ [info])
                  (attemptLoop remaining (attempt + 1) (called + 1) (some (.exception e)))
              else .done (.error (.exception e))

/-- What leaves a coroutine: an exception that would end an iteration is replaced. -/
def leaveCoroutine (received : Except (Raised E) T) : Except (Raised E) T :=
  match received with
  | .ok result => .ok result
  | .error e =>
    if e.isStopIteration X then .error (.machinery .coroutineRaisedStopIteration) else .error e

/-- `retry_with_backoff`. -/
def retryWithBackoff : Trace E T :=
  let t := attemptLoop X P config draws operation config.maxAttempts 1 0 none []
  { t with received := leaveCoroutine X t.received }

/-- `asyncio.run`, which refuses to run in a thread with a running loop. -/
def asyncioRun (running : Bool) (coroutine : Trace E T) : Trace E T :=
  if running then .done (.error (.machinery .calledFromRunningLoop)) else coroutine

/-- `async_wrapper`. -/
def asyncWrapper : Trace E T := retryWithBackoff X P config draws operation

/-- `sync_wrapper`, in a thread with a running loop or without one. With one, the coroutine runs in a
thread of its own, and a `RuntimeError` that comes from it is taken for the lack of a loop. -/
def syncWrapper (running : Bool) : Trace E T :=
  if running then
    let t := asyncioRun false (retryWithBackoff X P config draws operation)
    match t.received with
    | .ok _ => t
    | .error e =>
      if e.isRuntimeError X then
        t.append (asyncioRun running
          (retryWithBackoff X P config draws fun n => operation (t.calls.length + n)))
      else t
  else asyncioRun running (retryWithBackoff X P config draws operation)

/-- Who calls: a task that awaits, or one that calls a function, with a running loop or without. -/
inductive Caller where
  | async
  | sync (running : Bool)
deriving DecidableEq

/-- A run of what `retry_decorator` makes of the operation. -/
def decorated : Caller → Trace E T
  | .async => asyncWrapper X P config draws operation
  | .sync running => syncWrapper X P config draws operation running

end Loop

end RetryUtils

end OmniMemory
