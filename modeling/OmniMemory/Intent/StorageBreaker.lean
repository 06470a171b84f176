import OmniMemory.Concurrency.BreakerLaw
import OmniMemory.Python

/-! `HandlerIntentStorageAdapter.execute`, and which outcomes of its requests reach its circuit
breaker. `AdapterIntentGraph` turns a timeout or an error of the database into a result, which the
breaker takes for a success, and a missing field is raised inside the protected call, which it takes
for a failure. The breaker sees the failures of the backend in the runs in which neither happens. -/

namespace OmniMemory

open Sequential

namespace IntentStorage

open CircuitBreaker (Outcome)

/-- An exception, by the name of its type, whether it is a `ValueError`, and its text. -/
structure Raised where
  typeName : String
  isValueError : Bool
  text : String

def Raised.valueError (text : String) : Raised := ⟨"ValueError", true, text⟩

inductive Operation where
  | store
  | getSession
  | getDistribution
  | other (name : String)
deriving DecidableEq

/-- `ModelIntentStorageRequest`, as far as it decides whether a request is valid. -/
structure Request where
  operation : Operation
  sessionId : Option String
  hasIntentData : Bool
  userContext : String

/-- What the `try` block of a graph adapter's method comes to: records from the database, with what
building a response of them raises, a timeout, or another exception. `raised` is an exception
outside of that block. -/
inductive Backend where
  | answered (empty : Bool) (unreadable : Option Raised)
  | timeoutError
  | exception (text : String)
  | raised (e : Raised)

/-- What a method of `AdapterIntentGraph` returns. -/
structure Result where
  success : Bool
  empty : Bool
  errorMessage : Option String

inductive Status where
  | success
  | error
  | noResults

/-- `ModelIntentStorageResponse`. -/
structure Response where
  status : Status
  errorMessage : Option String

/-- The attributes of a `HandlerIntentStorageAdapter` that stay. `timeoutSeconds` is as it is
printed. -/
structure HandlerIntentStorageAdapter where
  initialized : Bool
  timeoutSeconds : String
  maxTextLength : Nat

/-- A call of `execute`, with the times at which it asks for admission and at which its outcome is
recorded. -/
structure Call where
  request : Request
  backend : Backend
  now : ℚ
  later : ℚ

namespace HandlerIntentStorageAdapter

variable (self : HandlerIntentStorageAdapter)

/-- What a method of `AdapterIntentGraph` returns; `operation` and `task` are its words for itself
in its error messages. -/
def graphResult (operation task : String) : Backend → Except Raised Result
  | .answered empty _ => .ok ⟨true, empty, none⟩
  | .timeoutError =>
    .ok ⟨false, false, some (operation ++ " timed out after " ++ self.timeoutSeconds ++ "s")⟩
  | .exception text => .ok ⟨false, false, some (task ++ " failed: " ++ text)⟩
  | .raised e => .error e

/-- `AdapterIntentGraph.store_intent`. It looks at the intent data before the session. -/
def graphStoreIntent (sessionId : String) (backend : Backend) : Except Raised Result :=
  match backend with
  | .raised e => .error e
  | _ =>
    if isBlank sessionId then .ok ⟨false, false, some "session_id cannot be empty"⟩
    else self.graphResult "Operation" "Storage" backend

/-- `AdapterIntentGraph.get_session_intents`, and `get_intent_distribution`. -/
def graphQuery (backend : Backend) : Except Raised Result :=
  self.graphResult "Query" "Query" backend

/-- The `ValueError` of `detect_pii`. -/
def detectPii (content : String) : Except Raised Unit :=
  if content ≠ "" ∧ content.length > self.maxTextLength then
    .error (.valueError ("Content length " ++ toString content.length ++ " exceeds max " ++
      toString self.maxTextLength))
  else .ok ()

/-- The response to a result of `store_intent`. -/
def storeResponse (result : Result) : Response :=
  if result.success then ⟨.success, none⟩ else ⟨.error, result.errorMessage⟩

def storeIntent (request : Request) (backend : Backend) : Except Raised Response :=
  match request.sessionId with
  | none => .error (.valueError "session_id is required for store operation")
  | some sessionId =>
    if !request.hasIntentData then
      .error (.valueError "intent_data is required for store operation")
    else
      (self.detectPii request.userContext).bind fun _ =>
        (self.graphStoreIntent sessionId backend).map storeResponse

/-- The response that is built of the records. -/
def build : Backend → Except Raised Response
  | .answered _ (some e) => .error e
  | _ => .ok ⟨.success, none⟩

def getSessionIntents (request : Request) (backend : Backend) : Except Raised Response :=
  if request.sessionId.isNone then
    .error (.valueError "session_id is required for get_session operation")
  else
    (self.graphQuery backend).bind fun result =>
      if !result.success then .ok ⟨.error, result.errorMessage⟩
      else if result.empty then .ok ⟨.noResults, none⟩
      else build backend

def getDistribution (backend : Backend) : Except Raised Response :=
  (self.graphQuery backend).bind fun result =>
    if result.success then build backend else .ok ⟨.error, result.errorMessage⟩

/-- What is called through the breaker. -/
def protectedCall (call : Call) : Except Raised Response :=
  match call.request.operation with
  | .store => self.storeIntent call.request call.backend
  | .getSession => self.getSessionIntents call.request call.backend
  | .getDistribution => self.getDistribution call.backend
  | .other name => .ok ⟨.error, some ("Unknown operation: " ++ name)⟩

/-- `circuit_breaker.call`, and what `execute` answers. -/
def callBreaker (call : Call) (b : CircuitBreaker) : Response × CircuitBreaker :=
  match b.shouldAllowRequest call.now with
  | (false, b) =>
    (⟨.error, some ("Service temporarily unavailable: Circuit breaker is " ++ b.state.value)⟩, b)
  | (true, b) =>
    match self.protectedCall call with
    | .ok response => (response, b.recordSuccess)
    | .error e =>
      (⟨.error, some (if e.isValueError then "Validation error: " ++ e.text
          else "Unexpected error (" ++ e.typeName ++ "): " ++ e.text)⟩,
        b.finish call.later (if e.typeName = "TimeoutError" then .timeoutError else .raised))

def execute (call : Call) (b : CircuitBreaker) : Response × CircuitBreaker :=
  if !self.initialized then
    (⟨.error, some "Adapter not initialized. Call initialize() first."⟩, b)
  else
    match call.request.operation with
    | .other name => (⟨.error, some ("Unknown operation: " ++ name)⟩, b)
    | _ => self.callBreaker call b

/-- The breaker, in the course of calls of `execute`. -/
def automaton : Automaton Call Response CircuitBreaker where
  step b call := self.execute call b

end HandlerIntentStorageAdapter

section Classes

variable (self : HandlerIntentStorageAdapter)

/-- A field is missing, or too long to be searched for PII. -/
def Request.missing (r : Request) : Bool :=
  match r.operation with
  | .store => r.sessionId.isNone || !r.hasIntentData ||
    (r.userContext ≠ "" && r.userContext.length > self.maxTextLength)
  | .getSession => r.sessionId.isNone
  | _ => false

/-- A request with missing or invalid fields. -/
def Request.rejected (r : Request) : Bool :=
  match r.operation with
  | .store => r.missing self || r.sessionId.any isBlank
  | .other _ => true
  | _ => r.missing self

/-- The graph backend does not do what it was asked to. -/
def Backend.fails : Backend → Bool
  | answered _ _ => false
  | _ => true

/-- A request for which the graph backend has failed. -/
def Call.failed (call : Call) : Bool :=
  self.initialized && !call.request.rejected self && call.backend.fails

/-- A request that `execute` routes to the breaker. -/
def Call.routed (call : Call) : Bool :=
  self.initialized && match call.request.operation with
    | .other _ => false
    | _ => true

/-- How many requests in a row the graph backend has failed at the end. -/
def inARow (calls : List Call) : Nat :=
  ((calls.filter (·.routed self)).reverse.takeWhile (·.failed self)).length

/-- The fields of a request that is let on are there, a failure of its backend is raised and not
returned, and the response to an answer can be built. -/
def Call.Heard (call : Call) : Prop :=
  call.request.missing self = false ∧
    match call.backend with
    | .answered _ unreadable => call.request.operation = .store ∨ unreadable = none
    | .raised _ => call.request.rejected self = false
    | _ => call.request.rejected self = true

instance (call : Call) : Decidable (call.Heard self) :=
  match h : call.backend with
  | .answered _ unreadable => decidable_of_iff (call.request.missing self = false ∧
      (call.request.operation = .store ∨ unreadable = none)) (by simp [Call.Heard, h])
  | .raised _ => decidable_of_iff (call.request.missing self = false ∧
      call.request.rejected self = false) (by simp [Call.Heard, h])
  | .timeoutError | .exception _ => decidable_of_iff (call.request.missing self = false ∧
      call.request.rejected self = true) (by simp [Call.Heard, h])

/-- The condition on the requests that the breaker lets on. -/
def Heard (b : CircuitBreaker) (call : Call) : Prop :=
  call.routed self = true → (b.shouldAllowRequest call.now).1 = true → call.Heard self

end Classes

instance (self : HandlerIntentStorageAdapter) (b : CircuitBreaker) (call : Call) :
    Decidable (Heard self b call) :=
  inferInstanceAs (Decidable (_ → _ → _))

/-- One more request: a closed breaker opens with the one that makes the failures in a row as many
as the threshold, and a rejected request is not counted as a failure. `stretch` are the requests
since the breaker was closed. -/
structure Sees (adapter : HandlerIntentStorageAdapter) (c : ModelCircuitBreakerConfig)
    (stretch : List Call) (b : CircuitBreaker) (call : Call) (b' : CircuitBreaker) : Prop where
  opens : b.state = .closed →
    (b'.state = .opened ↔ call.failed adapter = true ∧
      inARow adapter (stretch ++ [call]) = c.failureThreshold)
  rejected : call.request.rejected adapter = true → b'.failureCount ≤ b.failureCount

section Runs

variable {self : HandlerIntentStorageAdapter} {c : ModelCircuitBreakerConfig} {calls : List Call}
  {call : Call} {b : CircuitBreaker}

theorem inARow_concat : inARow self (calls ++ [call]) =
    if call.routed self then if call.failed self then inARow self calls + 1 else 0
    else inARow self calls := by
  simp only [inARow, List.filter_append, List.filter_cons, List.filter_nil]
  split
  · simp only [List.reverse_append, List.reverse_cons, List.reverse_nil, List.nil_append,
      List.singleton_append, List.takeWhile_cons]
    split <;> simp
  · simp

theorem detectPii_ok {content : String}
    (short : ¬content = "" → content.length ≤ self.maxTextLength) :
    self.detectPii content = .ok () := by
  have : ¬ (content ≠ "" ∧ content.length > self.maxTextLength) := fun long =>
    Nat.not_lt.mpr (short long.1) long.2
  rw [HandlerIntentStorageAdapter.detectPii, if_neg this]

/-- When a request is heard, the protected call raises exactly if the backend has failed. -/
def Splits (self : HandlerIntentStorageAdapter) (call : Call) (r : Except Raised Response) : Prop :=
  if call.failed self then ∃ e, r = .error e else ∃ response, r = .ok response

theorem storeIntent_splits (store : call.request.operation = .store)
    (ready : self.initialized = true) (heard : call.Heard self) :
    Splits self call (self.storeIntent call.request call.backend) := by
  obtain ⟨there, heard⟩ := heard
  obtain ⟨session, data, short⟩ : call.request.sessionId.isSome = true ∧
      call.request.hasIntentData = true ∧ (¬call.request.userContext = "" →
        call.request.userContext.length ≤ self.maxTextLength) := by
    simpa [Request.missing, store, and_assoc] using there
  obtain ⟨sessionId, found⟩ := Option.isSome_iff_exists.mp session
  have rejected : call.request.rejected self = isBlank sessionId := by
    simp [Request.rejected, store, there, found]
  have called : self.storeIntent call.request call.backend =
      (self.graphStoreIntent sessionId call.backend).map
        HandlerIntentStorageAdapter.storeResponse := by
    simp [HandlerIntentStorageAdapter.storeIntent, found, data, detectPii_ok short, Except.bind]
  rw [called]
  cases backend : call.backend with
  | answered empty unreadable =>
    cases blank : isBlank sessionId <;>
      simp [Splits, Call.failed, ready, rejected, backend, blank, Backend.fails, Except.map,
        HandlerIntentStorageAdapter.graphStoreIntent, HandlerIntentStorageAdapter.graphResult]
  | timeoutError =>
    have blank : isBlank sessionId = true := by simpa [backend, rejected] using heard
    simp [Splits, Call.failed, rejected, blank, Except.map,
        HandlerIntentStorageAdapter.graphStoreIntent]
  | exception text =>
    have blank : isBlank sessionId = true := by simpa [backend, rejected] using heard
    simp [Splits, Call.failed, rejected, blank, Except.map,
        HandlerIntentStorageAdapter.graphStoreIntent]
  | raised e =>
    have blank : isBlank sessionId = false := by simpa [backend, rejected] using heard
    simp [Splits, Call.failed, ready, rejected, backend, blank, Backend.fails, Except.map,
        HandlerIntentStorageAdapter.graphStoreIntent]

/-- A query is heard: it fails with the exception that the backend has raised, or it has been
answered and the response is built. -/
theorem query_splits {f : Result → Except Raised Response} (query : call.request.operation ≠ .store)
    (ready : self.initialized = true) (rejected : call.request.rejected self = false)
    (heard : call.Heard self) (answers : ∀ empty, call.backend = .answered empty none →
      ∃ response, f ⟨true, empty, none⟩ = .ok response) :
    Splits self call ((self.graphQuery call.backend).bind f) := by
  have heard := heard.2
  cases backend : call.backend with
  | answered empty unreadable =>
    have none : unreadable = none := by simpa [backend, query] using heard
    have answered := answers empty (by rw [backend, none])
    simpa [Splits, Call.failed, backend, Backend.fails, Except.bind,
      HandlerIntentStorageAdapter.graphQuery, HandlerIntentStorageAdapter.graphResult]
      using answered
  | raised e =>
    simp [Splits, Call.failed, ready, rejected, backend, Backend.fails, Except.bind,
      HandlerIntentStorageAdapter.graphQuery, HandlerIntentStorageAdapter.graphResult]
  | _ => simp [backend, rejected] at heard

theorem protectedCall_splits (routed : call.routed self = true) (heard : call.Heard self) :
    Splits self call (self.protectedCall call) := by
  have ready : self.initialized = true := by simp_all [Call.routed]
  have there := heard.1
  cases operation : call.request.operation with
  | store =>
    simp only [HandlerIntentStorageAdapter.protectedCall, operation]
    exact storeIntent_splits operation ready heard
  | getSession =>
    have session : call.request.sessionId.isNone = false := by
      simpa [Request.missing, operation] using there
    simp only [HandlerIntentStorageAdapter.protectedCall, operation,
      HandlerIntentStorageAdapter.getSessionIntents, session]
    refine query_splits (by simp [operation]) ready (by simp [Request.rejected, operation, there])
      heard fun empty backend => ?_
    cases empty <;> simp [backend, HandlerIntentStorageAdapter.build]
  | getDistribution =>
    simp only [HandlerIntentStorageAdapter.protectedCall, operation,
      HandlerIntentStorageAdapter.getDistribution]
    refine query_splits (by simp [operation]) ready (by simp [Request.rejected, operation, there])
      heard fun empty backend => ?_
    simp [backend, HandlerIntentStorageAdapter.build]
  | other name => simp [Call.routed, operation] at routed

theorem step_unrouted (unrouted : call.routed self = false) :
    (self.automaton.step b call).2 = b := by
  simp only [HandlerIntentStorageAdapter.automaton, HandlerIntentStorageAdapter.execute]
  split
  · rfl
  · rename_i ready
    cases operation : call.request.operation with
    | other name => rfl
    | _ => simp_all [Call.routed]

theorem step_routed (routed : call.routed self = true) :
    self.automaton.step b call = self.callBreaker call b := by
  simp only [HandlerIntentStorageAdapter.automaton, HandlerIntentStorageAdapter.execute]
  cases operation : call.request.operation with
  | other name => simp [Call.routed, operation] at routed
  | _ => simp_all [Call.routed]

/-- What a failure does to a breaker. -/
structure Fails (b b' : CircuitBreaker) : Prop where
  failureThreshold : b'.failureThreshold = b.failureThreshold
  failureCount : b'.failureCount = b.failureCount + 1
  state : b'.state =
    if b.state = .closed ∧ b.failureCount + 1 < b.failureThreshold then .closed else .opened

/-- What the breaker is told of a request that is let on and heard. -/
theorem callBreaker_heard {b' : CircuitBreaker} (routed : call.routed self = true)
    (heard : call.Heard self) (on : b.shouldAllowRequest call.now = (true, b')) :
    (self.callBreaker call b).2 = b'.recordSuccess ∧ call.failed self = false ∨
      Fails b' (self.callBreaker call b).2 ∧ call.failed self = true := by
  have splits := protectedCall_splits routed heard
  simp only [HandlerIntentStorageAdapter.callBreaker, on]
  cases failed : call.failed self with
  | false =>
    obtain ⟨response, ok⟩ := by simpa [Splits, failed] using splits
    simp [ok]
  | true =>
    obtain ⟨e, error⟩ := by simpa [Splits, failed] using splits
    simp only [error]
    refine .inr ⟨?_, trivial⟩
    by_cases timeout : e.typeName = "TimeoutError"
    · simp only [timeout, if_true, CircuitBreaker.finish, CircuitBreaker.recordTimeout_eq]
      obtain ⟨threshold, count, state⟩ := CircuitBreaker.recordFailure_cases
        { b' with totalTimeouts := b'.totalTimeouts + 1 } _
      exact ⟨threshold, count, state⟩
    · simp only [timeout, if_false, CircuitBreaker.finish]
      obtain ⟨threshold, count, state⟩ := b'.recordFailure_cases _
      exact ⟨threshold, count, state⟩

/-- A closed breaker has counted the failures in a row since it was closed. -/
structure Counted (adapter : HandlerIntentStorageAdapter) (c : ModelCircuitBreakerConfig)
    (b : CircuitBreaker) (calls : List Call) : Prop where
  failureThreshold : b.failureThreshold = c.failureThreshold
  closed : b.state = .closed → b.failureCount = inARow adapter calls ∧
    b.failureCount < c.failureThreshold

/-- One request that is heard if it is let on. -/
structure Steps (adapter : HandlerIntentStorageAdapter) (c : ModelCircuitBreakerConfig)
    (calls : List Call) (b : CircuitBreaker) (call : Call) (b' : CircuitBreaker) : Prop where
  counted : Counted adapter c b' (if b'.state = b.state then calls ++ [call] else [])
  sees : Sees adapter c calls b call b'

theorem steps_same (counted : Counted self c b calls)
    (same : inARow self (calls ++ [call]) = inARow self calls ∨ b.state = .opened)
    (calm : b.state = .closed → call.failed self = false) : Steps self c calls b call b := by
  refine ⟨⟨counted.failureThreshold, fun closed => ?_⟩, fun closed => ?_, fun _ => le_rfl⟩
  · rw [if_pos rfl]
    rcases same with same | opened
    · rw [same]
      exact counted.closed closed
    · rw [opened] at closed
      cases closed
  · simp [closed, calm closed]

theorem steps_success {b' : CircuitBreaker} (counted : Counted self c b calls)
    (failed : call.failed self = false) (routed : call.routed self = true)
    (on : b' = b ∧ b.state ≠ .opened ∨ b' = b.transitionToHalfOpen ∧ b.state = .opened) :
    Steps self c calls b call b'.recordSuccess := by
  obtain ⟨threshold, count, closing, opened, closed⟩ :
      b'.recordSuccess.failureThreshold = b'.failureThreshold ∧ _ :=
    CircuitBreaker.recordSuccess_cases
  have none : inARow self (calls ++ [call]) = 0 := by simp [inARow_concat, routed, failed]
  have from_b : b'.failureThreshold = b.failureThreshold ∧ b'.failureCount = b.failureCount ∧
      b'.state ≠ .opened := by
    rcases on with ⟨rfl, other⟩ | ⟨rfl, -⟩
    · exact ⟨rfl, rfl, other⟩
    · exact ⟨rfl, rfl, by simp [CircuitBreaker.transitionToHalfOpen]⟩
  refine ⟨⟨?_, fun now_closed => ?_⟩, fun was_closed => ?_, fun _ => ?_⟩
  · rw [threshold, from_b.1, counted.failureThreshold]
  · have zero := closing now_closed
    have := c.failureThreshold_ge
    split
    · exact ⟨by rw [zero, none], by omega⟩
    · exact ⟨zero, by omega⟩
  · have : b'.recordSuccess.state ≠ .opened := fun h => from_b.2.2 (opened.mp h)
    simp [this, failed]
  · rw [← from_b.2.1]
    exact count

theorem steps_failure {b' b'' : CircuitBreaker} (counted : Counted self c b calls)
    (failed : call.failed self = true) (routed : call.routed self = true)
    (on : b' = b ∧ b.state ≠ .opened ∨ b' = b.transitionToHalfOpen ∧ b.state = .opened)
    (fails : Fails b' b'') : Steps self c calls b call b'' := by
  obtain ⟨threshold, count, state⟩ := fails
  have more : inARow self (calls ++ [call]) = inARow self calls + 1 := by
    simp [inARow_concat, routed, failed]
  have unrejected : call.request.rejected self = false := by
    simp only [Call.failed, Bool.and_eq_true, Bool.not_eq_true'] at failed
    exact failed.1.2
  have refuted : call.request.rejected self = true → b''.failureCount ≤ b.failureCount := by
    simp [unrejected]
  rcases on with ⟨rfl, -⟩ | ⟨rfl, was_opened⟩
  · by_cases was_closed : b'.state = .closed
    · obtain ⟨row, small⟩ := counted.closed was_closed
      have same := counted.failureThreshold
      rw [was_closed] at state
      by_cases enough : b'.failureCount + 1 < b'.failureThreshold
      · have still : b''.state = .closed := by rw [state, if_pos ⟨rfl, enough⟩]
        refine ⟨⟨threshold.trans same, fun _ => ?_⟩, fun _ => ?_, refuted⟩
        · rw [if_pos (still.trans was_closed.symm), more, count]
          omega
        · have : ¬ inARow self calls + 1 = c.failureThreshold := by omega
          simp [still, more, this]
      · have opened : b''.state = .opened := by
          rw [state, if_neg fun h => enough h.2]
        refine ⟨⟨threshold.trans same, fun h => ?_⟩, fun _ => ?_, refuted⟩
        · rw [opened] at h
          cases h
        · have : inARow self calls + 1 = c.failureThreshold := by omega
          simp [opened, more, this, failed]
    · have opened : b''.state = .opened := by
        rw [state, if_neg fun h => was_closed h.1]
      refine ⟨⟨threshold.trans counted.failureThreshold, fun h => ?_⟩, fun h => ?_, refuted⟩
      · rw [opened] at h
        cases h
      · exact absurd h was_closed
  · have opened : b''.state = .opened := by
      rw [state, if_neg fun h => by simp [CircuitBreaker.transitionToHalfOpen] at h]
    refine ⟨⟨threshold.trans counted.failureThreshold, fun h => ?_⟩, fun h => ?_, refuted⟩
    · rw [opened] at h
      cases h
    · rw [was_opened] at h
      cases h

theorem execute_steps (counted : Counted self c b calls) (heard : Heard self b call) :
    Steps self c calls b call (self.automaton.step b call).2 := by
  cases routed : call.routed self with
  | false =>
    rw [step_unrouted routed]
    have failed : call.failed self = false := by
      simp only [Call.routed, Bool.and_eq_false_iff] at routed
      rcases routed with unready | other
      · simp [Call.failed, unready]
      · cases operation : call.request.operation with
        | other name => simp [Call.failed, Request.rejected, operation]
        | _ => simp [operation] at other
    exact steps_same counted (.inl (by simp [inARow_concat, routed])) fun _ => failed
  | true =>
    rw [step_routed routed]
    rcases CircuitBreaker.shouldAllowRequest_cases b call.now with
      ⟨on, other⟩ | ⟨off, opened⟩ | ⟨on, opened⟩
    · rcases callBreaker_heard routed (heard routed (by rw [on])) on with
        ⟨next, failed⟩ | ⟨fails, failed⟩
      · rw [next]
        exact steps_success counted failed routed (.inl ⟨rfl, other⟩)
      · exact steps_failure counted failed routed (.inl ⟨rfl, other⟩) fails
    · have same : (self.callBreaker call b).2 = b := by
        simp [HandlerIntentStorageAdapter.callBreaker, off]
      rw [same]
      exact steps_same counted (.inr opened) fun closed => by simp [opened] at closed
    · rcases callBreaker_heard routed (heard routed (by rw [on])) on with
        ⟨next, failed⟩ | ⟨fails, failed⟩
      · rw [next]
        exact steps_success counted failed routed (.inr ⟨rfl, opened⟩)
      · exact steps_failure counted failed routed (.inr ⟨rfl, opened⟩) fails

theorem counted_of_heard (heard : self.automaton.Meets (Heard self) (.ofConfig c) calls) :
    Counted self c (self.automaton.run (.ofConfig c) calls)
      (self.automaton.stretch (·.state) (.ofConfig c) calls) := by
  refine Automaton.stretch_invariant (P := Counted self c) _ ?_ ?_ ?_ heard
  · exact ⟨rfl, fun _ => ⟨rfl, c.failureThreshold_ge⟩⟩
  · intro b l call counted heard same
    have next := (execute_steps counted heard).counted
    rwa [if_pos same] at next
  · intro b l call counted heard other
    have next := (execute_steps counted heard).counted
    rwa [if_neg other] at next

end Runs

/-- When every request that is let on is heard, a closed breaker opens exactly with the failure of
the backend that makes as many in a row as the threshold, and no rejected request counts as a
failure. -/
theorem sees_of_heard (self : HandlerIntentStorageAdapter) (c : ModelCircuitBreakerConfig)
    (calls : List Call) (call : Call)
    (heard : self.automaton.Meets (Heard self) (.ofConfig c) (calls ++ [call])) :
    Sees self c (self.automaton.stretch (·.state) (.ofConfig c) calls)
      (self.automaton.run (.ofConfig c) calls) call
      (self.automaton.run (.ofConfig c) (calls ++ [call])) := by
  obtain ⟨before, met⟩ := Automaton.meets_concat.mp heard
  rw [Automaton.run_concat]
  exact (execute_steps (counted_of_heard before) met).sees

/-- An adapter that is ready. -/
def HandlerIntentStorageAdapter.ready : HandlerIntentStorageAdapter := ⟨true, "30.0", 50000⟩

/-- A `get_distribution` request. -/
def Call.distribution (backend : Backend) (now : ℚ) : Call :=
  ⟨⟨.getDistribution, none, false, ""⟩, backend, now, now + 1⟩

/-- A `get_distribution` request that the graph adapter raises at. -/
def Call.lost (now : ℚ) : Call :=
  .distribution (.raised ⟨"RuntimeError", false, "connection lost"⟩) now

/-- With the default settings, the last of five failures that the graph adapter raises opens the
breaker. -/
theorem sees_of_heard_raised :
    let run := HandlerIntentStorageAdapter.ready.automaton.run (.ofConfig .default)
    Sees .ready .default
        (HandlerIntentStorageAdapter.ready.automaton.stretch (·.state) (.ofConfig .default)
          [.lost 0, .lost 10, .lost 20, .lost 30])
        (run [.lost 0, .lost 10, .lost 20, .lost 30]) (.lost 40)
        (run ([.lost 0, .lost 10, .lost 20, .lost 30] ++ [.lost 40])) ∧
      (run ([.lost 0, .lost 10, .lost 20, .lost 30] ++ [.lost 40])).state = .opened :=
  ⟨sees_of_heard .ready .default _ _ (by decide +kernel), by decide +kernel⟩

/-- With the default settings, five timeouts of the backend leave the breaker closed. -/
theorem not_sees_timeouts : ¬ ∀ (self : HandlerIntentStorageAdapter) (c : ModelCircuitBreakerConfig)
    (calls : List Call) (call : Call), Sees self c
      (self.automaton.stretch (·.state) (.ofConfig c) calls)
      (self.automaton.run (.ofConfig c) calls) call
      (self.automaton.run (.ofConfig c) (calls ++ [call])) := by
  intro sees
  have opens := (sees .ready .default
    [.distribution .timeoutError 0, .distribution .timeoutError 40,
      .distribution .timeoutError 80, .distribution .timeoutError 120]
    (.distribution .timeoutError 160)).opens (by decide +kernel)
  have opened := opens.mpr (by decide +kernel)
  revert opened
  decide +kernel

end IntentStorage

end OmniMemory
