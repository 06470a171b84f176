import OmniMemory.Concurrency.CircuitBreaker

/-! The two circuit breakers are one automaton. `Alike` relates them, although they count their
successes differently, and `nextState` gives the next state from the events alone: those since the
state was entered, and the time of the last failure. -/

namespace OmniMemory

open Sequential

namespace CircuitBreaker

/-- The failures at the end, with no success among them. -/
def failuresSinceSuccess (es : List Event) : Nat :=
  (es.reverse.takeWhile (!·.isSuccess)).countP (·.isFailure)

def successes (es : List Event) : Nat := es.countP (·.isSuccess)

def lastFailure (es : List Event) : Option ℚ := (es.filterMap (·.failureTime)).getLast?

/-- A request that comes at least the recovery timeout after the last failure. -/
def recovers (recoveryTimeout : ℚ) (history : List Event) : Event → Bool
  | .request now _ => (lastFailure history).any fun last => recoveryTimeout ≤ now - last
  | _ => false

/-- The state after the event `e`, from the events so far and those since the state was entered. -/
def nextState (c : ModelCircuitBreakerConfig) (history stretch : List Event) (e : Event) :
    CircuitBreakerState → CircuitBreakerState
  | .closed =>
    if failuresSinceSuccess (stretch ++ [e]) = c.failureThreshold then .opened else .closed
  | .opened => if recovers c.recoveryTimeout history e then .halfOpen else .opened
  | .halfOpen =>
    if e.isFailure then .opened
    else if successes (stretch ++ [e]) = c.successThreshold then .closed else .halfOpen

/-- What a request is answered: it is refused in the open state, unless it opens it halfway. -/
def nextAnswer (c : ModelCircuitBreakerConfig) (history : List Event) (e : Event)
    (state : CircuitBreakerState) : Option Bool :=
  match e with
  | .request .. => some (state ≠ .opened || recovers c.recoveryTimeout history e)
  | _ => none

section Histories

variable {es : List Event} {e : Event} {now draw : ℚ}

@[simp] theorem failuresSinceSuccess_request :
    failuresSinceSuccess (es ++ [.request now draw]) = failuresSinceSuccess es := by
  simp [failuresSinceSuccess, Event.isSuccess, Event.isFailure, Event.failureTime]

@[simp] theorem failuresSinceSuccess_success :
    failuresSinceSuccess (es ++ [.success]) = 0 := by
  simp [failuresSinceSuccess, Event.isSuccess]

@[simp] theorem failuresSinceSuccess_failure :
    failuresSinceSuccess (es ++ [.failure now]) = failuresSinceSuccess es + 1 := by
  simp [failuresSinceSuccess, Event.isSuccess, Event.isFailure, Event.failureTime]

@[simp] theorem failuresSinceSuccess_timeout :
    failuresSinceSuccess (es ++ [.timeout now]) = failuresSinceSuccess es + 1 := by
  simp [failuresSinceSuccess, Event.isSuccess, Event.isFailure, Event.failureTime]

@[simp] theorem successes_concat :
    successes (es ++ [e]) = successes es + if e.isSuccess then 1 else 0 := by
  simp [successes, List.countP_append, List.countP_cons]

@[simp] theorem lastFailure_concat :
    lastFailure (es ++ [e]) = e.failureTime.or (lastFailure es) := by
  cases found : e.failureTime with
  | none => simp [lastFailure, List.filterMap_append, found]
  | some now => simp [lastFailure, List.filterMap_append, found]

end Histories

section Law

variable {c : ModelCircuitBreakerConfig} {b : CircuitBreaker} {es l : List Event} {e : Event}
  {now draw : ℚ}

/-- A breaker against the events since its state was entered: how its counters count them. -/
structure Counts (c : ModelCircuitBreakerConfig) (b : CircuitBreaker) (l : List Event) : Prop where
  failureThreshold : b.failureThreshold = c.failureThreshold
  recoveryTimeout : b.recoveryTimeout = c.recoveryTimeout
  successThreshold : b.successThreshold = c.successThreshold
  closed : b.state = .closed → b.failureCount = failuresSinceSuccess l ∧
    b.failureCount < c.failureThreshold
  halfOpen : b.state = .halfOpen → b.successCount = successes l ∧
    b.successCount < c.successThreshold

/-- One step: the next state is as the events say, and the counters go on counting. -/
structure Steps (c : ModelCircuitBreakerConfig) (b : CircuitBreaker) (l history : List Event)
    (e : Event) : Prop where
  state : (automaton.step b e).2.state = nextState c history l e b.state
  answer : (automaton.step b e).1 = nextAnswer c history e b.state
  counts : Counts c (automaton.step b e).2
    (if (automaton.step b e).2.state = b.state then l ++ [e] else [])
  last : (automaton.step b e).2.lastFailureTime = lastFailure (history ++ [e])

theorem step_request (counts : Counts c b l) (last : b.lastFailureTime = lastFailure es) :
    Steps c b l es (.request now draw) := by
  obtain ⟨failure, recovery, success, closed, halfOpen⟩ := counts
  cases state : b.state with
  | closed =>
    have := closed state
    have : ¬ failuresSinceSuccess l = c.failureThreshold := by omega
    constructor
    · simp [automaton, shouldAllowRequest, state, nextState, this]
    · simp [automaton, shouldAllowRequest, state, nextAnswer]
    · simp only [automaton, shouldAllowRequest, state, if_true]
      exact ⟨failure, recovery, success, by simpa using closed, by simp [state]⟩
    · simpa [automaton, shouldAllowRequest, state, Event.failureTime] using last
  | halfOpen =>
    have := halfOpen state
    have : ¬ successes l = c.successThreshold := by omega
    constructor
    · simp [automaton, shouldAllowRequest, state, nextState, this, Event.isFailure,
        Event.failureTime, Event.isSuccess]
    · simp [automaton, shouldAllowRequest, state, nextAnswer]
    · simp only [automaton, shouldAllowRequest, state, if_true]
      exact ⟨failure, recovery, success, by simp [state], by simpa [Event.isSuccess] using halfOpen⟩
    · simpa [automaton, shouldAllowRequest, state, Event.failureTime] using last
  | opened =>
    have recovers : recovers c.recoveryTimeout es (.request now draw) =
        b.lastFailureTime.any fun time => b.recoveryTimeout ≤ now - time := by
      rw [CircuitBreaker.recovers, last, recovery]
    by_cases late : (b.lastFailureTime.any fun time => b.recoveryTimeout ≤ now - time) = true
    · have allows : b.shouldAllowRequest now = (true, b.transitionToHalfOpen) := by
        obtain ⟨time, some, late⟩ := (Option.any_eq_true _ _).mp late
        simp [shouldAllowRequest, state, some, of_decide_eq_true late]
      constructor
      · simp [automaton, allows, transitionToHalfOpen, nextState, state, recovers, late]
      · simp [automaton, allows, nextAnswer, recovers, late]
      · simp only [automaton, allows, transitionToHalfOpen, state]
        exact ⟨failure, recovery, success, by simp, fun _ => ⟨rfl, c.successThreshold_ge⟩⟩
      · simpa [automaton, allows, transitionToHalfOpen, Event.failureTime] using last
    · have refuses : b.shouldAllowRequest now = (false, b) := by
        cases time : b.lastFailureTime with
        | none => simp [shouldAllowRequest, state, time]
        | some time' =>
          rw [time] at late
          have : ¬ b.recoveryTimeout ≤ now - time' := by simpa using late
          simp [shouldAllowRequest, state, time, this]
      constructor
      · simp [automaton, refuses, nextState, state, recovers, late]
      · simp [automaton, refuses, nextAnswer, state, recovers, late]
      · simp only [automaton, refuses, state, if_true]
        exact ⟨failure, recovery, success, by simp [state], by simp [state]⟩
      · simpa [automaton, refuses, Event.failureTime] using last

theorem step_success (counts : Counts c b l) (last : b.lastFailureTime = lastFailure es) :
    Steps c b l es .success := by
  obtain ⟨failure, recovery, success, closed, halfOpen⟩ := counts
  cases state : b.state with
  | closed =>
    have : ¬ 0 = c.failureThreshold := by have := c.failureThreshold_ge; omega
    constructor
    · simp [automaton, recordSuccess, state, nextState, this]
    · rfl
    · simp only [automaton, recordSuccess, state, if_true]
      exact ⟨failure, recovery, success, fun _ => ⟨by simp, c.failureThreshold_ge⟩, by simp⟩
    · simpa [automaton, recordSuccess, state, Event.failureTime] using last
  | halfOpen =>
    obtain ⟨count, bound⟩ := halfOpen state
    by_cases enough : b.successCount + 1 ≥ b.successThreshold
    · have : successes l + 1 = c.successThreshold := by omega
      constructor
      · simp [automaton, recordSuccess, state, enough, transitionToClosed, nextState, this,
          Event.isFailure, Event.failureTime, Event.isSuccess]
      · rfl
      · simp only [automaton, recordSuccess, state, enough, if_true, transitionToClosed]
        exact ⟨failure, recovery, success, fun _ => ⟨rfl, c.failureThreshold_ge⟩, by simp⟩
      · simpa [automaton, recordSuccess, state, enough, transitionToClosed, Event.failureTime]
          using last
    · have : ¬ successes l + 1 = c.successThreshold := by omega
      constructor
      · simp [automaton, recordSuccess, state, enough, nextState, this, Event.isFailure,
          Event.failureTime, Event.isSuccess]
      · rfl
      · simp only [automaton, recordSuccess, state, enough, if_false, if_true]
        refine ⟨failure, recovery, success, by simp, fun _ => ⟨?_, by simp only; omega⟩⟩
        simp [Event.isSuccess, count]
      · simpa [automaton, recordSuccess, state, enough, Event.failureTime] using last
  | opened =>
    constructor
    · simp [automaton, recordSuccess, state, nextState, recovers]
    · rfl
    · simp only [automaton, recordSuccess, state, if_true]
      exact ⟨failure, recovery, success, by simp, by simp⟩
    · simpa [automaton, recordSuccess, state, Event.failureTime] using last

theorem step_failure (counts : Counts c b l) : Steps c b l es (.failure now) := by
  obtain ⟨failure, recovery, success, closed, halfOpen⟩ := counts
  cases state : b.state with
  | closed =>
    obtain ⟨count, bound⟩ := closed state
    by_cases enough : b.failureCount + 1 ≥ b.failureThreshold
    · have : failuresSinceSuccess l + 1 = c.failureThreshold := by omega
      constructor
      · simp [automaton, recordFailure, state, enough, transitionToOpen, nextState, this]
      · rfl
      · simp only [automaton, recordFailure, state, enough, if_true, transitionToOpen]
        exact ⟨failure, recovery, success, by simp, by simp⟩
      · simp [automaton, recordFailure, state, enough, transitionToOpen, Event.failureTime]
    · have : ¬ failuresSinceSuccess l + 1 = c.failureThreshold := by omega
      constructor
      · simp [automaton, recordFailure, state, enough, nextState, this]
      · rfl
      · simp only [automaton, recordFailure, state, enough, if_false, if_true]
        refine ⟨failure, recovery, success, fun _ => ⟨?_, by simp only; omega⟩, by simp⟩
        simp [count]
      · simp [automaton, recordFailure, state, enough, Event.failureTime]
  | halfOpen =>
    constructor
    · simp [automaton, recordFailure, state, transitionToOpen, nextState, Event.isFailure,
        Event.failureTime]
    · rfl
    · simp only [automaton, recordFailure, state, transitionToOpen]
      exact ⟨failure, recovery, success, by simp, by simp⟩
    · simp [automaton, recordFailure, state, transitionToOpen, Event.failureTime]
  | opened =>
    constructor
    · simp [automaton, recordFailure, state, nextState, recovers]
    · rfl
    · simp only [automaton, recordFailure, state, if_true]
      exact ⟨failure, recovery, success, by simp, by simp⟩
    · simp [automaton, recordFailure, state, Event.failureTime]

theorem Counts.congr {l' : List Event} (counts : Counts c b l)
    (failures : failuresSinceSuccess l = failuresSinceSuccess l')
    (same : successes l = successes l') : Counts c b l' := by
  obtain ⟨failure, recovery, success, closed, halfOpen⟩ := counts
  exact ⟨failure, recovery, success, failures ▸ closed, same ▸ halfOpen⟩

/-- A timeout counts as a failure does. -/
theorem step_timeout (counts : Counts c b l) : Steps c b l es (.timeout now) := by
  have same : automaton.step b (.timeout now) =
      automaton.step { b with totalTimeouts := b.totalTimeouts + 1 } (.failure now) := rfl
  have failed : Steps c { b with totalTimeouts := b.totalTimeouts + 1 } l es (.failure now) :=
    step_failure ⟨counts.failureThreshold, counts.recoveryTimeout, counts.successThreshold,
      counts.closed, counts.halfOpen⟩
  constructor
  · rw [same, failed.state]
    simp [nextState, recovers, Event.isFailure, Event.failureTime]
  · rfl
  · rw [same]
    apply failed.counts.congr
    · split <;> simp
    · split <;> simp [Event.isSuccess]
  · rw [same, failed.last]
    simp [Event.failureTime]

theorem step_steps (counts : Counts c b l) (last : b.lastFailureTime = lastFailure es) :
    Steps c b l es e := by
  cases e with
  | request now draw => exact step_request counts last
  | success => exact step_success counts last
  | failure now => exact step_failure counts
  | timeout now => exact step_timeout counts

/-- The breaker with the thresholds of a configuration. -/
def ofConfig (c : ModelCircuitBreakerConfig) : CircuitBreaker :=
  new c.failureThreshold c.recoveryTimeout c.successThreshold

theorem run_counts (c : ModelCircuitBreakerConfig) (es : List Event) :
    Counts c (automaton.run (ofConfig c) es) (automaton.stretch (·.state) (ofConfig c) es) ∧
      (automaton.run (ofConfig c) es).lastFailureTime = lastFailure es := by
  induction es using List.reverseRecOn with
  | nil => exact ⟨⟨rfl, rfl, rfl, fun _ => ⟨rfl, c.failureThreshold_ge⟩, by rintro ⟨⟩⟩, rfl⟩
  | append_singleton es e ih =>
    have step : Steps c _ _ es e := step_steps ih.1 ih.2
    rw [Automaton.stretch_concat, Automaton.run_concat]
    exact ⟨step.counts, step.last⟩

/-- Every step of every run is as its events say. -/
theorem run_steps (c : ModelCircuitBreakerConfig) (es : List Event) (e : Event) :
    Steps c (automaton.run (ofConfig c) es) (automaton.stretch (·.state) (ofConfig c) es) es e :=
  step_steps (run_counts c es).1 (run_counts c es).2

end Law

end CircuitBreaker

open CircuitBreaker (Event)

/-- The two breakers in the course of the same events. Their successes are the same only while
they are half open. -/
structure Alike (b : CircuitBreaker) (a : AsyncCircuitBreaker) : Prop where
  failureThreshold : b.failureThreshold = a.config.failureThreshold
  recoveryTimeout : b.recoveryTimeout = a.config.recoveryTimeout
  successThreshold : b.successThreshold = a.config.successThreshold
  noJitter : a.config.recoveryTimeoutJitter = 0
  state : b.state = a.state
  failureCount : b.failureCount = a.stats.failureCount
  lastFailureTime : b.lastFailureTime = a.stats.lastFailureTime
  totalCalls : b.totalCalls = a.stats.totalCalls
  totalTimeouts : b.totalTimeouts = a.stats.totalTimeouts
  successCount : a.state = .halfOpen → b.successCount = a.stats.successCount
  failed : a.state = .opened → a.stats.lastFailureTime.isSome

namespace Alike

variable {b : CircuitBreaker} {a : AsyncCircuitBreaker} {now draw : ℚ} {e : Event}

theorem shouldAttemptReset (alike : Alike b a) {last : ℚ}
    (failed : a.stats.lastFailureTime = some last) :
    a.shouldAttemptReset now draw = decide (now - last ≥ b.recoveryTimeout) := by
  simp [AsyncCircuitBreaker.shouldAttemptReset, failed, AsyncCircuitBreaker.uniform,
    alike.noJitter, alike.recoveryTimeout]

theorem request (alike : Alike b a) : (b.shouldAllowRequest now).1 = (a.enterCall now draw).1 ∧
    Alike (b.shouldAllowRequest now).2 (a.enterCall now draw).2 := by
  by_cases opened : a.state = .opened
  · obtain ⟨last, failed⟩ := Option.isSome_iff_exists.mp (alike.failed opened)
    have state := alike.state.trans opened
    have time := alike.lastFailureTime.trans failed
    have reset : a.shouldAttemptReset now draw = decide (now - last ≥ b.recoveryTimeout) :=
      alike.shouldAttemptReset failed
    by_cases late : now - last ≥ b.recoveryTimeout
    · simp only [CircuitBreaker.shouldAllowRequest, state, time, late, if_true,
        AsyncCircuitBreaker.enterCall, opened, reset, decide_true, true_and]
      exact { alike with state := rfl, successCount := fun _ => rfl, failed := by rintro ⟨⟩ }
    · simp only [CircuitBreaker.shouldAllowRequest, state, time, late, if_false,
        AsyncCircuitBreaker.enterCall, opened, reset, decide_false, if_true, Bool.false_eq_true,
        true_and]
      exact alike
  · have allows : b.shouldAllowRequest now = (true, b) := by
      have : b.state ≠ .opened := alike.state ▸ opened
      cases state : b.state with
      | opened => exact absurd state this
      | _ => simp [CircuitBreaker.shouldAllowRequest, state]
    simp only [allows, AsyncCircuitBreaker.enterCall, opened, if_false, true_and]
    exact alike

theorem success (alike : Alike b a) : Alike b.recordSuccess a.onSuccess := by
  have calls : b.totalCalls + 1 = a.stats.totalCalls + 1 := congrArg (· + 1) alike.totalCalls
  cases same : a.state with
  | closed =>
    have state := alike.state.trans same
    simp only [CircuitBreaker.recordSuccess, state, AsyncCircuitBreaker.onSuccess, same]
    exact { alike with
      state := rfl, totalCalls := calls, failureCount := rfl
      successCount := by rintro ⟨⟩
      failed := by rintro ⟨⟩ }
  | halfOpen =>
    have state := alike.state.trans same
    have count := alike.successCount same
    have threshold := alike.successThreshold
    by_cases enough : b.successCount + 1 ≥ b.successThreshold
    · have : a.stats.successCount + 1 ≥ a.config.successThreshold := by omega
      simp only [CircuitBreaker.recordSuccess, state, AsyncCircuitBreaker.onSuccess, same, enough,
        this, if_true]
      exact { alike with
        state := rfl, totalCalls := calls, failureCount := rfl
        successCount := by rintro ⟨⟩
        failed := by rintro ⟨⟩ }
    · have : ¬ a.stats.successCount + 1 ≥ a.config.successThreshold := by omega
      simp only [CircuitBreaker.recordSuccess, state, AsyncCircuitBreaker.onSuccess, same, enough,
        this, if_false]
      exact { alike with
        state := rfl, totalCalls := calls, successCount := fun _ => congrArg (· + 1) count
        failed := by rintro ⟨⟩ }
  | opened =>
    have state := alike.state.trans same
    simp only [CircuitBreaker.recordSuccess, state, AsyncCircuitBreaker.onSuccess, same]
    exact { alike with
      state := rfl, totalCalls := calls
      successCount := by rintro ⟨⟩
      failed := fun _ => alike.failed same }

theorem failure (alike : Alike b a) : Alike (b.recordFailure now) (a.onFailure now) := by
  have calls : b.totalCalls + 1 = a.stats.totalCalls + 1 := congrArg (· + 1) alike.totalCalls
  have failures : b.failureCount + 1 = a.stats.failureCount + 1 :=
    congrArg (· + 1) alike.failureCount
  cases same : a.state with
  | closed =>
    have state := alike.state.trans same
    have threshold := alike.failureThreshold
    by_cases enough : b.failureCount + 1 ≥ b.failureThreshold
    · have : a.stats.failureCount + 1 ≥ a.config.failureThreshold := by omega
      simp only [CircuitBreaker.recordFailure, state, AsyncCircuitBreaker.onFailure, same, enough,
        this, and_self, true_or, if_true]
      exact { alike with
        state := rfl, totalCalls := calls, failureCount := failures, lastFailureTime := rfl
        successCount := by rintro ⟨⟩
        failed := fun _ => rfl }
    · have : ¬ a.stats.failureCount + 1 ≥ a.config.failureThreshold := by omega
      simp only [CircuitBreaker.recordFailure, state, AsyncCircuitBreaker.onFailure, same, enough,
        this, and_false, reduceCtorEq, or_self, if_false]
      exact { alike with
        state := rfl, totalCalls := calls, failureCount := failures, lastFailureTime := rfl
        successCount := by rintro ⟨⟩
        failed := fun _ => rfl }
  | halfOpen =>
    have state := alike.state.trans same
    simp only [CircuitBreaker.recordFailure, state, AsyncCircuitBreaker.onFailure, same, or_true,
      if_true]
    exact { alike with
      state := rfl, totalCalls := calls, failureCount := failures, lastFailureTime := rfl
      successCount := by rintro ⟨⟩
      failed := fun _ => rfl }
  | opened =>
    have state := alike.state.trans same
    simp only [CircuitBreaker.recordFailure, state, AsyncCircuitBreaker.onFailure, same,
      reduceCtorEq, false_and, or_self, if_false]
    exact { alike with
      state := rfl, totalCalls := calls, failureCount := failures, lastFailureTime := rfl
      successCount := by rintro ⟨⟩
      failed := fun _ => rfl }

theorem timeout (alike : Alike b a) :
    Alike (b.recordTimeout now) (a.countTimeout.onFailure now) := by
  have counted : Alike { b with totalTimeouts := b.totalTimeouts + 1 } a.countTimeout :=
    { alike with totalTimeouts := congrArg (· + 1) alike.totalTimeouts }
  exact counted.failure

theorem step (alike : Alike b a) :
    (CircuitBreaker.automaton.step b e).1 = (AsyncCircuitBreaker.automaton.step a e).1 ∧
      Alike (CircuitBreaker.automaton.step b e).2 (AsyncCircuitBreaker.automaton.step a e).2 := by
  cases e with
  | request now draw => exact ⟨congrArg some alike.request.1, alike.request.2⟩
  | success => exact ⟨rfl, alike.success⟩
  | failure now => exact ⟨rfl, alike.failure⟩
  | timeout now => exact ⟨rfl, alike.timeout⟩

theorem new {c : ModelCircuitBreakerConfig} (noJitter : c.recoveryTimeoutJitter = 0) :
    Alike (CircuitBreaker.ofConfig c) (AsyncCircuitBreaker.new c) :=
  ⟨rfl, rfl, rfl, noJitter, rfl, rfl, rfl, rfl, rfl, fun _ => rfl, by rintro ⟨⟩⟩

end Alike

/-- Without jitter the two breakers answer every sequence of events alike and end in the same
state, and each next state and answer is as the events say. -/
theorem breakers_are_one (c : ModelCircuitBreakerConfig) (noJitter : c.recoveryTimeoutJitter = 0)
    (es : List Event) :
    CircuitBreaker.automaton.answers (.ofConfig c) es =
        AsyncCircuitBreaker.automaton.answers (.new c) es ∧
      (CircuitBreaker.automaton.run (.ofConfig c) es).state =
        (AsyncCircuitBreaker.automaton.run (.new c) es).state ∧
      ∀ e, (CircuitBreaker.automaton.run (.ofConfig c) (es ++ [e])).state =
          CircuitBreaker.nextState c es
            (CircuitBreaker.automaton.stretch (·.state) (.ofConfig c) es) e
            (CircuitBreaker.automaton.run (.ofConfig c) es).state ∧
        (CircuitBreaker.automaton.step (CircuitBreaker.automaton.run (.ofConfig c) es) e).1 =
          CircuitBreaker.nextAnswer c es e
            (CircuitBreaker.automaton.run (.ofConfig c) es).state := by
  obtain ⟨answers, alike⟩ := Automaton.simulates (Alike.new noJitter) (fun _ _ _ => Alike.step) es
  refine ⟨answers, alike.state, fun e => ?_⟩
  have step := CircuitBreaker.run_steps c es e
  rw [Automaton.run_concat]
  exact ⟨step.state, step.answer⟩

/-- Two failures open the breakers, a request comes too early, one reopens them halfway, a late
failure opens them again, and another request and a success close them. -/
theorem breakers_are_one_reopened :
    let c : ModelCircuitBreakerConfig :=
      ⟨2, 10, 0, 1, 30, by decide, by decide, by decide, by decide, by decide, by decide⟩
    let es : List Event := [.failure 0, .timeout 1, .request 5 (1 / 3), .request 11 (2 / 3),
      .failure 12, .request 22 0, .success, .request 23 0]
    CircuitBreaker.automaton.answers (.ofConfig c) es =
        AsyncCircuitBreaker.automaton.answers (.new c) es ∧
      CircuitBreaker.automaton.answers (.ofConfig c) es =
        [none, none, some false, some true, none, some true, none, some true] :=
  ⟨(breakers_are_one _ rfl _).1, by decide +kernel⟩

end OmniMemory
