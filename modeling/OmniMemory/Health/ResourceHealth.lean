import OmniMemory.Concurrency.CircuitBreaker

/-! `HealthManager.check_resource_health`, for one resource. The manager does not ask the breaker
whether to let a check on: it refuses while the state reads `open`, so that an open breaker stays
open, and it does not tell the breaker of a check that has timed out. `byBreaker` is the manager
that does both, and the two answer alike in the runs in which neither matters. -/

namespace OmniMemory

open Sequential

namespace ResourceHealth

/-- `HealthStatus`, and `executing` for a call that has started its check. -/
inductive HealthStatus where
  | rateLimited
  | circuitOpen
  | unknown
  | executing
  | healthy
  | timeout
  | unhealthy
deriving DecidableEq

/-- How a check ends. `converts` says that details can be made of its result. -/
inductive Ended where
  | returned (converts : Bool)
  | raised
  | timedOut
deriving DecidableEq

/-- A call, or the end of a check that a call has started; calls may overlap. -/
inductive Event where
  | call (now : ℚ)
  | ended (out : Ended) (now : ℚ)

structure HealthManager where
  rateLimitWindow : ℚ
  maxChecksPerWindow : Nat

/-- What the manager keeps under the name of the resource. -/
structure State where
  checkCounts : Option (List ℚ)
  circuitBreaker : Option CircuitBreaker
  registered : Bool

namespace State

/-- A registered check with a breaker. -/
def initial (breaker : CircuitBreaker) : State := ⟨some [], some breaker, true⟩

def onBreaker (s : State) (f : CircuitBreaker → CircuitBreaker) : State :=
  { s with circuitBreaker := s.circuitBreaker.map f }

def execute (s : State) : HealthStatus × State :=
  (if s.registered then .executing else .unknown, s)

end State

namespace HealthManager

variable (self : HealthManager)

/-- Whether there are too many calls in the window; if not, the call is counted. -/
def rateLimit (now : ℚ) (s : State) : Bool × State :=
  match s.checkCounts with
  | none => (false, s)
  | some times =>
    let times := times.filter fun time => now - self.rateLimitWindow < time
    if times.length ≥ self.maxChecksPerWindow then (true, { s with checkCounts := some times })
    else (false, { s with checkCounts := some (times ++ [now]) })

/-- `check_resource_health`, up to the check. -/
def call (now : ℚ) (s : State) : HealthStatus × State :=
  match self.rateLimit now s with
  | (true, s) => (.rateLimited, s)
  | (false, s) =>
    if s.circuitBreaker.any fun b => b.state.value = "open" then (.circuitOpen, s)
    else s.execute

/-- `check_resource_health`, from the end of the check. -/
def ended (out : Ended) (now : ℚ) (s : State) : HealthStatus × State :=
  match out with
  | .returned true => (.healthy, s.onBreaker (·.recordSuccess))
  | .returned false => (.unhealthy, s.onBreaker fun b => b.recordSuccess.recordFailure now)
  | .raised => (.unhealthy, s.onBreaker (·.recordFailure now))
  | .timedOut => (.timeout, s)

def automaton : Automaton Event HealthStatus State where
  step s
    | .call now => self.call now s
    | .ended out now => ended out now s

end HealthManager

/-- The outcome of a check, for a breaker. -/
def Ended.outcome : Ended → CircuitBreaker.Outcome
  | returned _ => .returned
  | raised => .raised
  | timedOut => .timeoutError

namespace HealthManager

variable (self : HealthManager)

/-- The call, when the breaker decides whether to let it on. -/
def callByBreaker (now : ℚ) (s : State) : HealthStatus × State :=
  match self.rateLimit now s with
  | (true, s) => (.rateLimited, s)
  | (false, s) =>
    match s.circuitBreaker with
    | none => s.execute
    | some b =>
      match b.shouldAllowRequest now with
      | (true, b) => { s with circuitBreaker := some b }.execute
      | (false, b) => (.circuitOpen, { s with circuitBreaker := some b })

/-- The end of the check, when the breaker is told of every outcome. -/
def endedByBreaker (out : Ended) (now : ℚ) (s : State) : HealthStatus × State :=
  (match out with
    | .returned true => .healthy
    | .timedOut => .timeout
    | _ => .unhealthy,
    s.onBreaker (·.finish now out.outcome))

/-- The manager that leaves admission to the breaker. -/
def byBreaker : Automaton Event HealthStatus State where
  step s
    | .call now => self.callByBreaker now s
    | .ended out now => endedByBreaker out now s

/-- A check with a breaker returns what converts or raises, and no call comes to an open breaker
that would let it on. -/
def Fits (s : State) : Event → Prop
  | .call now => (self.rateLimit now s).1 = false →
    s.circuitBreaker.all (fun b => b.state ≠ .opened || !(b.shouldAllowRequest now).1) = true
  | .ended out _ => s.circuitBreaker.isNone = true ∨ out = .returned true ∨ out = .raised

instance (s : State) : ∀ e, Decidable (self.Fits s e)
  | .call _ => inferInstanceAs (Decidable (_ → _))
  | .ended _ _ => inferInstanceAs (Decidable (_ ∨ _))

end HealthManager

section Steps

variable {self : HealthManager} {s : State} {now : ℚ}

theorem value_eq_open {state : CircuitBreakerState} : state.value = "open" ↔ state = .opened := by
  cases state <;> decide

theorem rateLimit_circuitBreaker : (self.rateLimit now s).2.circuitBreaker = s.circuitBreaker := by
  cases counts : s.checkCounts with
  | none => simp [HealthManager.rateLimit, counts]
  | some times =>
    simp only [HealthManager.rateLimit, counts]
    split <;> rfl

theorem call_fits (fits : self.Fits s (.call now)) :
    self.call now s = self.callByBreaker now s := by
  have same : (self.rateLimit now s).2.circuitBreaker = s.circuitBreaker :=
    rateLimit_circuitBreaker
  simp only [HealthManager.Fits] at fits
  simp only [HealthManager.call, HealthManager.callByBreaker]
  rcases limit : self.rateLimit now s with ⟨limited, s'⟩
  simp only [limit] at same fits
  cases limited with
  | true => rfl
  | false =>
    cases breaker : s.circuitBreaker with
    | none =>
      have absent : s'.circuitBreaker = none := same.trans breaker
      simp [absent]
    | some b =>
      have there : s'.circuitBreaker = some b := same.trans breaker
      have early : b.state = .opened → (b.shouldAllowRequest now).1 = false := by
        simpa [breaker, or_iff_not_imp_left] using fits rfl
      have unchanged : { s' with circuitBreaker := some b } = s' := by rw [← there]
      rcases b.shouldAllowRequest_cases now with ⟨on, other⟩ | ⟨off, opened⟩ | ⟨on, opened⟩
      · simp only [there, Option.any_some, value_eq_open, on, other, unchanged]
        simp
      · simp only [there, Option.any_some, value_eq_open, off, opened, unchanged]
        simp
      · have := early opened
        simp [on] at this

theorem ended_fits {out : Ended} (fits : self.Fits s (.ended out now)) :
    HealthManager.ended out now s = HealthManager.endedByBreaker out now s := by
  rcases fits with absent | rfl | rfl
  · have absent : s.circuitBreaker = none := Option.isNone_iff_eq_none.mp absent
    have unchanged (f : CircuitBreaker → CircuitBreaker) : s.onBreaker f = s := by
      simp only [State.onBreaker, absent, Option.map_none]
      rw [← absent]
    rcases out with ⟨_ | _⟩ | _ | _ <;>
      simp [HealthManager.ended, HealthManager.endedByBreaker, unchanged]
  · rfl
  · rfl

end Steps

/-- When every check with a breaker returns what converts or raises, and no call comes to an open
breaker that would let it on, the manager executes a check exactly when the breaker lets it on. -/
theorem executes_of_fits (self : HealthManager) (s : State) (es : List Event)
    (fits : self.automaton.Meets self.Fits s es) :
    self.automaton.answers s es = self.byBreaker.answers s es ∧
      self.automaton.run s es = self.byBreaker.run s es := by
  refine Automaton.simulates_under (R := Eq) rfl ?_ fits
  rintro s t e rfl fits
  have same : self.automaton.step s e = self.byBreaker.step s e := by
    cases e with
    | call now => exact call_fits fits
    | ended out now => exact ended_fits fits
  rw [same]
  exact ⟨rfl, rfl⟩

/-- At most 100 calls a minute. -/
def HealthManager.default : HealthManager := ⟨60, 100⟩

/-- Two checks that raise open the breaker, and a call is refused before it recovers. -/
theorem executes_of_fits_refused :
    let s : State := .initial (.new 2 60 3)
    let es : List Event := [.call 0, .ended .raised 1, .call 2, .ended (.returned true) 3, .call 4,
      .call 5, .ended .raised 6, .ended .raised 7, .call 60]
    HealthManager.default.automaton.answers s es = HealthManager.default.byBreaker.answers s es ∧
      HealthManager.default.automaton.answers s es =
        [.executing, .unhealthy, .executing, .healthy, .executing, .executing, .unhealthy,
          .unhealthy, .circuitOpen] :=
  ⟨(executes_of_fits .default (.initial (.new 2 60 3)) _ (by decide +kernel)).1,
    by decide +kernel⟩

/-- A breaker that one failure opens: a call that comes a minute after the failure is refused, and a
check that has timed out does not keep the next from being executed. -/
theorem not_executes_late :
    let s : State := .initial (.new 1 60 3)
    let late : List Event := [.call 0, .ended .raised 1, .call 70]
    let timedOut : List Event := [.call 0, .ended .timedOut 5, .call 10]
    HealthManager.default.automaton.answers s late = [.executing, .unhealthy, .circuitOpen] ∧
      HealthManager.default.byBreaker.answers s late = [.executing, .unhealthy, .executing] ∧
      HealthManager.default.automaton.answers s timedOut = [.executing, .timeout, .executing] ∧
      HealthManager.default.byBreaker.answers s timedOut =
        [.executing, .timeout, .circuitOpen] := by
  decide +kernel

end ResourceHealth

end OmniMemory
