import OmniMemory.Metrics.Registry
import OmniMemory.Sanitizer.Patterns

/-! `observe_operation`: the body of an operation runs with a correlation id, and then the operation
is counted, logged, and the id set back. The status is that of a success unless the body raises an
`Exception`, so that one which is cancelled counts as a success. -/

namespace OmniMemory

open Regular

namespace Metrics

/-- `HandlerMetrics`. -/
structure HandlerMetrics where
  correlationId : String
  operation : String
  handler : String
  status : Status
  latencyMs : ℚ
  errorType : Option String := none
  errorMessage : Option String := none

/-- What an operation finds outside: of an exception, the name of its type, whether it is an
`Exception`, and its text, or what is raised instead; the exception of an error of the metrics; and
what is raised, if anything is, when an entry is logged. -/
structure Surroundings (E : Type) where
  alphabet : Alphabet
  name : E → String
  isException : E → Bool
  str : E → Except E String
  ofPyError : PyError → E
  emitLogEvent : HandlerMetrics → Except E Unit

/-- A use of the wrapper of a handler; `uuids` are the two that it can make, and `latencyMs` is what
the clock gives. -/
structure Use where
  handler : String
  operation : String
  correlationId : Option String
  uuids : String × String
  latencyMs : ℚ

/-- The context variable, and the metrics. -/
structure State where
  correlationId : Option String
  registry : Registry

/-- What a body is given. -/
structure OperationContext where
  correlationId : String
  operation : String
  handler : String

def isIdChar (c : Char) : Bool :=
  ('a' ≤ c && c ≤ 'z') || ('A' ≤ c && c ≤ 'Z') || ('0' ≤ c && c ≤ '9') || c == '-' || c == '_'

/-- `validate_correlation_id`; a line feed may come after the characters. -/
def validateCorrelationId (correlationId : String) : Bool :=
  let l := correlationId.toList
  let word := l.takeWhile isIdChar
  1 ≤ word.length && word.length ≤ 64 &&
    (l.dropWhile isIdChar == [] || l.dropWhile isIdChar == ['\n'])

/-- The correlation id of a use. -/
def Use.id (use : Use) : String :=
  let correlationId := use.correlationId.getD use.uuids.1
  if validateCorrelationId correlationId then correlationId else use.uuids.2

def Use.context (use : Use) : OperationContext := ⟨use.id, use.operation, use.handler⟩

section Observe

variable {E : Type} (S : Surroundings E) (use : Use)

/-- `_sanitize_error`. -/
def sanitizeError (e : E) : Except E String :=
  match S.str e with
  | .error e' => .error e'
  | .ok text => .ok (String.ofList (Sanitizer.sanitizeError S.alphabet .standard (S.name e).toList
      text.toList (some "observability")))

/-- What the handler of exceptions makes of the outcome of a body: the entry for the log, and what
leaves. -/
def handled (outcome : Except E Unit) : HandlerMetrics × Except E Unit :=
  let entry (status : Status) (errorType errorMessage : Option String) : HandlerMetrics :=
    ⟨use.id, use.operation, use.handler, status, use.latencyMs, errorType, errorMessage⟩
  match outcome with
  | .ok () => (entry .success none none, .ok ())
  | .error e =>
    if S.isException e then
      match sanitizeError S e with
      | .ok errorMessage => (entry .failure (some (S.name e)) (some errorMessage), .error e)
      | .error e' => (entry .failure (some (S.name e)) none, .error e')
    else (entry .success none none, .error e)

/-- The end of a use, when its body has ended: what leaves, and the state. The context variable is
set back after all the rest. -/
def finish (token : Option String) (outcome : Except E Unit) (s : State) : Except E Unit × State :=
  let (entry, leaving) := handled S use outcome
  match recordMetrics use.handler use.operation entry.status entry.latencyMs s.registry with
  | (.error e, registry) => (.error (S.ofPyError e), { s with registry })
  | (.ok (), registry) =>
    match S.emitLogEvent entry with
    | .error e => (.error e, { s with registry })
    | .ok () => (leaving, ⟨token, registry⟩)

/-- `observe_operation` around a body. -/
def observeOperation (body : OperationContext → State → Except E Unit × State) (s : State) :
    Except E Unit × State :=
  let (outcome, s') := body use.context { s with correlationId := some use.id }
  finish S use s.correlationId outcome s'

end Observe

/-- A body: it ends, waits while others change the metrics, or uses a wrapper again and goes on with
what leaves that use. -/
inductive Body (E : Type) where
  | finish (outcome : Except E Unit)
  | others (change : Registry → Registry) (next : Body E)
  | observe (use : Use) (inner : OperationContext → Body E) (next : Except E Unit → Body E)

namespace Body

variable {E : Type} (S : Surroundings E)

def run : Body E → State → Except E Unit × State
  | finish outcome, s => (outcome, s)
  | others change next, s => next.run { s with registry := change s.registry }
  | observe use inner next, s =>
    let (leaving, s) := observeOperation S use (fun context => (inner context).run) s
    (next leaving).run s

end Body

/-- The status that an outcome is to be counted with. -/
def statusOf {E : Type} : Except E Unit → Status
  | .ok () => .success
  | .error _ => .failure

/-- A use is counted once, with the status of the outcome of its body, it sets the health of its
handler, and it leaves the context variable as it was. -/
structure Counted {E : Type} (use : Use) (before atExit : State) (outcome : Except E Unit)
    (after : State) : Prop where
  recorded : Recorded use.handler use.operation (statusOf outcome) atExit.registry after.registry
  restored : after.correlationId = before.correlationId

/-- The body does not end with what is no `Exception`; and logging the entry raises nothing, unless the
context variable is as it was before. -/
structure Caught {E : Type} (S : Surroundings E) (use : Use) (before atExit : State)
    (outcome : Except E Unit) : Prop where
  exception : ∀ e, outcome = .error e → S.isException e = true
  logged : S.emitLogEvent (handled S use outcome).1 = .ok () ∨
    atExit.correlationId = before.correlationId

section Uses

variable {E : Type} {S : Surroundings E} {use : Use} {before atExit : State}
  {outcome : Except E Unit}

/-- What is recorded with one status is not recorded with the other. -/
theorem Recorded.status_unique {handler operation : String} {status status' : Status}
    {r r' : Registry} (recorded : Recorded handler operation status r r')
    (recorded' : Recorded handler operation status' r r') : status = status' := by
  have same : status.health = status'.health := recorded.level.symm.trans recorded'.level
  cases status <;> cases status' <;> first | rfl | cases same

variable (S use outcome) in
/-- The status is that of the outcome unless the body raises what is no `Exception`. -/
theorem status_handled : (handled S use outcome).1.status = statusOf outcome ↔
    ∀ e, outcome = .error e → S.isException e = true := by
  unfold handled
  cases outcome with
  | ok => exact iff_of_true rfl (by rintro e ⟨⟩)
  | error e =>
    dsimp only
    split
    · rename_i exception
      have all (e' : E) (same : Except.error (α := Unit) e = .error e') : S.isException e' = true := by
        obtain rfl := Except.error.inj same
        exact exception
      split <;> exact iff_of_true rfl all
    · rename_i other
      exact iff_of_false (by rintro ⟨⟩) fun all => other (all e rfl)

/-- The end of a use: what is recorded, and the value of the context variable. -/
theorem finish_cases (S : Surroundings E) (use : Use) (token : Option String)
    (outcome : Except E Unit) (s : State) :
    Recorded use.handler use.operation (handled S use outcome).1.status s.registry
      (finish S use token outcome s).2.registry ∧
    ((S.emitLogEvent (handled S use outcome).1 = .ok () ∧
        (finish S use token outcome s).2.correlationId = token) ∨
      (S.emitLogEvent (handled S use outcome).1 ≠ .ok () ∧
        (finish S use token outcome s).2.correlationId = s.correlationId)) := by
  obtain ⟨r', same, recorded⟩ := recordMetrics_recorded use.handler use.operation
    (handled S use outcome).1.status (handled S use outcome).1.latencyMs s.registry
  unfold finish
  dsimp only
  rw [same]
  dsimp only
  split
  · rename_i e raises
    rw [raises]
    exact ⟨recorded, .inr ⟨by rintro ⟨⟩, rfl⟩⟩
  · rename_i logs
    exact ⟨recorded, .inl ⟨logs, rfl⟩⟩

/-- A use is counted as it should be just when its outcome is caught. -/
theorem counted_iff : Counted use before atExit outcome
    (finish S use before.correlationId outcome atExit).2 ↔
      Caught S use before atExit outcome := by
  obtain ⟨recorded, variable_⟩ := finish_cases S use before.correlationId outcome atExit
  have status : Recorded use.handler use.operation (statusOf outcome) atExit.registry
      (finish S use before.correlationId outcome atExit).2.registry ↔
        ∀ e, outcome = .error e → S.isException e = true := by
    rw [← status_handled S use outcome]
    constructor
    · intro recorded'
      exact recorded.status_unique recorded'
    · intro same
      rw [← same]
      exact recorded
  constructor
  · rintro ⟨recorded', restored⟩
    refine ⟨status.mp recorded', variable_.imp And.left fun ⟨_, left⟩ => ?_⟩
    rw [← left]
    exact restored
  · rintro ⟨exception, logged⟩
    refine ⟨status.mpr exception, ?_⟩
    rcases variable_ with ⟨-, same⟩ | ⟨raises, left⟩
    · exact same
    · rw [left]
      exact logged.resolve_left raises

end Uses

namespace Body

variable {E : Type} (S : Surroundings E)

/-- In a run of a body, every use is counted as it should be. -/
def Truthful : Body E → State → Prop
  | finish _, _ => True
  | others change next, s => next.Truthful { s with registry := change s.registry }
  | observe use inner next, s =>
    let entered := { s with correlationId := some use.id }
    let ended := (inner use.context).run S entered
    let left := observeOperation S use (fun context => (inner context).run S) s
    (inner use.context).Truthful entered ∧ Counted use s ended.2 ended.1 left.2 ∧
      (next left.1).Truthful left.2

/-- In a run of a body, the outcome of every use is caught. -/
def AllCaught : Body E → State → Prop
  | finish _, _ => True
  | others change next, s => next.AllCaught { s with registry := change s.registry }
  | observe use inner next, s =>
    let entered := { s with correlationId := some use.id }
    let ended := (inner use.context).run S entered
    let left := observeOperation S use (fun context => (inner context).run S) s
    (inner use.context).AllCaught entered ∧ Caught S use s ended.2 ended.1 ∧
      (next left.1).AllCaught left.2

end Body

/-- Every use in a run of a body is counted as it should be, just when every outcome is caught. -/
theorem observed_truthful_iff {E : Type} (S : Surroundings E) (body : Body E) (s : State) :
    body.Truthful S s ↔ body.AllCaught S s := by
  induction body generalizing s with
  | finish outcome => exact Iff.rfl
  | others change next ih => exact ih _
  | observe use inner next inner_ih next_ih =>
    exact and_congr (inner_ih _ _) (and_congr counted_iff (next_ih _ _))

/-- Exceptions that are known by the names of their types, and a log that takes every entry. -/
def quiet : Surroundings String where
  alphabet := .ascii
  name := id
  isException e := e != "CancelledError"
  str e := .ok e
  ofPyError e := e.text
  emitLogEvent _ := .ok ()

/-- A registry in which nothing is recorded. -/
def Registry.new : Registry := ⟨.empty, .empty, .empty, .empty⟩

/-- A store that is cancelled is counted as a success. -/
theorem not_truthful_cancelled : ¬ ∀ (body : Body String) (s : State), body.Truthful quiet s := by
  intro all
  have counted := (all (.observe ⟨"filesystem", "store", none, ("a", "b"), 1⟩
    (fun _ => .finish (.error "CancelledError")) .finish) ⟨none, .new⟩).2.1
  have exception : quiet.isException "CancelledError" = true :=
    (counted_iff.mp counted).exception _ rfl
  exact absurd exception (by decide)

end Metrics

end OmniMemory
