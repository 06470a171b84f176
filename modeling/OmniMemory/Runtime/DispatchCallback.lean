import OmniMemory.Lib.Program
import OmniMemory.Python

/-! `create_dispatch_callback`: how a message of the event bus is read, wrapped and dispatched, and
how it is settled by `ack` or `nack`. The settlement stands in the `try` block whose `except` clause
settles by `nack`, so a message whose settlement raises there is settled twice. -/

namespace OmniMemory

open Interleave

namespace Dispatch

/-- A Python object, as far as the handlers tell it apart. A `bytearray` is one of the byte strings,
and of a dict the entries under strings are kept. -/
inductive PyObject where
  | str (text : String)
  | bytes (bytes : Bytes)
  | dict (entries : List (String × PyObject))
  | other (typeName : String)

structure ModelEventEnvelope where
  payload : PyObject
  correlationId : UUID
  /-- The tag `message_category` of its metadata. -/
  messageCategory : String

structure ModelDispatchResult where
  status : String

inductive Settlement where
  | ack
  | nack
deriving DecidableEq

/-- A message: its attribute `value`, when it has one, what it is itself, and whether it has methods
`ack` and `nack`. -/
structure Message where
  value : Option PyObject
  itself : PyObject
  has : Settlement → Bool

/-- How an await ends: a cancellation is no `Exception`. -/
inductive Outcome (α : Type) where
  | returned (a : α)
  | raised (e : PyError)
  | cancelled

namespace Outcome

variable {α : Type}

def isRaised : Outcome α → Bool
  | raised _ => true
  | _ => false

def isCancelled : Outcome α → Bool
  | cancelled => true
  | _ => false

end Outcome

/-- What is not in the repository: the JSON parser, `EnumMessageCategory`, the check that
`ModelEventEnvelope` makes of its fields, and `is_successful`. `correlationId` is the UUID of an
entry `correlation_id`: none when the entry is empty, or its `ValueError` or `AttributeError` is
suppressed. -/
structure External where
  loads : String → Except PyError PyObject
  correlationId : PyObject → Except PyError (Option UUID)
  fromTopic : String → Except PyError (Option String)
  validate : ModelEventEnvelope → Except PyError ModelEventEnvelope
  isSuccessful : ModelDispatchResult → Except PyError Bool

/-- The awaits of the callback. -/
inductive Op where
  | dispatch (topic : String) (envelope : ModelEventEnvelope)
  | settle (how : Settlement)

abbrev Op.Res : Op → Type
  | dispatch _ _ => Outcome ModelDispatchResult
  | settle _ => Outcome Unit

abbrev CallbackProg := Prog Op Op.Res

variable (X : External) (topic : String) (correlationId : UUID)

/-- The payload of a message: none when the message, its value or the JSON in it has an unexpected
type. -/
def payloadDict (msg : Message) : Except PyError (Option (List (String × PyObject))) :=
  let entries : PyObject → Option (List (String × PyObject))
    | .dict entries => some entries
    | _ => none
  match msg.value with
  | some (.bytes bytes) =>
    match decodeUtf8 bytes with
    | none => .error (.valueError "UnicodeDecodeError")
    | some text => (X.loads text).map entries
  | some (.str text) => (X.loads text).map entries
  | some value => .ok (entries value)
  | none => .ok (entries msg.itself)

/-- The envelope that is dispatched. A `correlation_id` of the payload comes before the one of the
callback. -/
def envelope (payload : List (String × PyObject)) : Except PyError ModelEventEnvelope := do
  let found ← match payload.lookup "correlation_id" with
    | none => pure none
    | some value => X.correlationId value
  let category ← X.fromTopic topic
  X.validate ⟨.dict payload, found.getD correlationId, category.getD "command"⟩

/-- The settlement of a message that has the method for it. -/
def settle (msg : Message) (how : Settlement) : CallbackProg (Outcome Unit) :=
  if msg.has how then .perform (Op.settle how) else return .returned ()

/-- The `try` block. -/
def attempt (msg : Message) : CallbackProg (Outcome Unit) :=
  match payloadDict X msg with
  | .error e => return .raised e
  | .ok none => settle msg .nack
  | .ok (some payload) =>
  match envelope X topic correlationId payload with
  | .error e => return .raised e
  | .ok envelope => do
  match ← .perform (Op.dispatch topic envelope) with
  | .raised e => return .raised e
  | .cancelled => return .cancelled
  | .returned result =>
  match X.isSuccessful result with
  | .error e => return .raised e
  | .ok true => settle msg .ack
  | .ok false => settle msg .nack

/-- `_on_message`, when `correlation_id or uuid4()` is `correlationId`. -/
def onMessage (msg : Message) : CallbackProg (Outcome Unit) := do
  match ← attempt X topic correlationId msg with
  | .raised _ => settle msg .nack
  | ended => return ended

/-- A call and how it has ended. -/
abbrev Call := (op : Op) × op.Res

namespace Call

def settlement? : Call → Option Settlement
  | ⟨.settle how, _⟩ => some how
  | _ => none

def isCancelled : Call → Bool
  | ⟨.dispatch _ _, outcome⟩ => outcome.isCancelled
  | ⟨.settle _, outcome⟩ => outcome.isCancelled

end Call

/-- The settlements among some calls. -/
def settlements (calls : List Call) : List Settlement := calls.filterMap Call.settlement?

/-- How the awaits end: the dispatch, and each `ack` and `nack`, by how often it was called. -/
structure Surroundings where
  dispatch : String → ModelEventEnvelope → Outcome ModelDispatchResult
  settle : Settlement → Nat → Outcome Unit

namespace Surroundings

variable (S : Surroundings)

def outcome (calls : List Call) : (op : Op) → op.Res
  | .dispatch topic envelope => S.dispatch topic envelope
  | .settle how => S.settle how ((settlements calls).count how)

/-- Ends an await, and keeps the call. -/
def answer (op : Op) (calls : List Call) : op.Res × List Call :=
  (S.outcome calls op, calls ++ [⟨op, S.outcome calls op⟩])

/-- The calls that the callback makes for a message. -/
def calls (msg : Message) : List Call :=
  ((onMessage X topic correlationId msg).run S.answer []).2

/-- The settlement that the `try` block comes to, when no exception and no cancellation ends it
before. -/
def settlement (msg : Message) : Option Settlement :=
  match payloadDict X msg with
  | .error _ => none
  | .ok none => some .nack
  | .ok (some payload) =>
  match envelope X topic correlationId payload with
  | .error _ => none
  | .ok envelope =>
  match S.dispatch topic envelope with
  | .raised _ | .cancelled => none
  | .returned result =>
  match X.isSuccessful result with
  | .error _ => none
  | .ok true => some .ack
  | .ok false => some .nack

end Surroundings

/-- A dispatch has returned a successful result. -/
def Successful (calls : List Call) : Prop :=
  ∃ topic envelope result, ⟨.dispatch topic envelope, .returned result⟩ ∈ calls ∧
    X.isSuccessful result = .ok true

/-- The message is settled at most once, by an `ack` only after a successful dispatch, and once
unless the callback is cancelled. -/
structure Settled (calls : List Call) : Prop where
  once : (settlements calls).length ≤ 1
  acked : .ack ∈ settlements calls → Successful X calls
  settled : (∀ call ∈ calls, call.isCancelled = false) → (settlements calls).length = 1

section Calls

variable {X} {S : Surroundings} {msg : Message} {how : Settlement} {calls : List Call}
  {Q : Outcome Unit → List Call → Prop}

@[simp] theorem settlements_settle {outcome : Outcome Unit} :
    settlements (calls ++ [⟨.settle how, outcome⟩]) = settlements calls ++ [how] := by
  simp [settlements, Call.settlement?]

theorem Successful.append (success : Successful X calls) (more : List Call) :
    Successful X (calls ++ more) := by
  obtain ⟨topic, envelope, result, there, ok⟩ := success
  exact ⟨topic, envelope, result, List.mem_append_left _ there, ok⟩

theorem ensures_settle (has : msg.has how = true) :
    Prog.Ensures S.answer (settle msg how) calls Q ↔
      Q (S.outcome calls (.settle how))
        (calls ++ [⟨.settle how, S.outcome calls (.settle how)⟩]) := by
  rw [settle, if_pos has]
  rfl

variable (X S) in
/-- What the `try` block comes to: its settlement, with which it ends, or an exception or a
cancellation before it. -/
inductive Tried : Option Settlement → Outcome Unit → List Call → Prop where
  | settled (how : Settlement) (before : List Call) (nothing : settlements before = [])
      (success : how = .ack → Successful X before) :
      Tried (some how) (S.settle how 0) (before ++ [⟨.settle how, S.settle how 0⟩])
  | raised (e : PyError) (calls : List Call) (nothing : settlements calls = []) :
      Tried none (.raised e) calls
  | cancelled (calls : List Call) (nothing : settlements calls = [])
      (cancelled : ∃ call ∈ calls, call.isCancelled = true) : Tried none .cancelled calls

theorem settle_tried (has : msg.has how = true) (nothing : settlements calls = [])
    (success : how = .ack → Successful X calls) :
    Prog.Ensures S.answer (settle msg how) calls (Tried X S (some how)) := by
  have first : S.outcome calls (.settle how) = S.settle how 0 := by
    simp [Surroundings.outcome, nothing]
  rw [ensures_settle has, first]
  exact .settled how calls nothing success

theorem attempt_tried (ack : msg.has .ack = true) (nack : msg.has .nack = true) :
    Prog.Ensures S.answer (attempt X topic correlationId msg) []
      (Tried X S (S.settlement X topic correlationId msg)) := by
  unfold attempt Surroundings.settlement
  cases payloadDict X msg with
  | error e => exact .raised e [] rfl
  | ok found =>
    cases found with
    | none => exact settle_tried nack rfl (by simp)
    | some payload =>
      simp only
      cases envelope X topic correlationId payload with
      | error e => exact .raised e [] rfl
      | ok envelope =>
        simp only
        rw [Prog.ensures_op]
        simp only [Surroundings.answer, Surroundings.outcome]
        cases S.dispatch topic envelope with
        | raised e => exact .raised e _ rfl
        | cancelled => exact .cancelled _ rfl ⟨_, List.mem_singleton_self _, rfl⟩
        | returned result =>
          simp only
          cases ok : X.isSuccessful result with
          | error e => exact .raised e _ rfl
          | ok successful =>
            cases successful with
            | true =>
              exact settle_tried ack rfl fun _ =>
                ⟨topic, envelope, result, List.mem_singleton_self _, ok⟩
            | false => exact settle_tried nack rfl (by simp)

theorem settled_settle (nothing : settlements calls = []) (outcome : Outcome Unit)
    (success : how = .ack → Successful X calls) :
    Settled X (calls ++ [⟨.settle how, outcome⟩]) := by
  have one : settlements (calls ++ [⟨.settle how, outcome⟩]) = [how] := by simp [nothing]
  refine ⟨by simp [one], fun acked => ?_, fun _ => by simp [one]⟩
  rw [one, List.mem_singleton] at acked
  exact (success acked.symm).append _

/-- The `except` clause settles a message as it should be unless the `try` block has settled it. -/
theorem onMessage_settles (ack : msg.has .ack = true) (nack : msg.has .nack = true) :
    Prog.Ensures S.answer (onMessage X topic correlationId msg) [] fun _ calls =>
      Settled X calls ↔ ∀ how, S.settlement X topic correlationId msg = some how →
        (S.settle how 0).isRaised = false := by
  unfold onMessage
  refine (attempt_tried topic correlationId ack nack).seq fun ended calls tried => ?_
  generalize S.settlement X topic correlationId msg = tries at tried ⊢
  cases tried with
  | settled how before nothing success =>
    have settled := settled_settle nothing (S.settle how 0) success
    cases outcome : S.settle how 0 with
    | raised e =>
      simp only
      rw [ensures_settle nack]
      constructor
      · intro twice
        have once := twice.once
        rw [settlements_settle, settlements_settle, nothing] at once
        exact absurd once (by simp)
      · intro unraised
        have := unraised how rfl
        simp [outcome, Outcome.isRaised] at this
    | returned a =>
      rw [outcome] at settled
      exact ⟨fun _ _ same => by cases same; simp [outcome, Outcome.isRaised], fun _ => settled⟩
    | cancelled =>
      rw [outcome] at settled
      exact ⟨fun _ _ same => by cases same; simp [outcome, Outcome.isRaised], fun _ => settled⟩
  | raised e calls nothing =>
    simp only
    rw [ensures_settle nack]
    exact ⟨fun _ => by simp, fun _ => settled_settle nothing _ (by simp)⟩
  | cancelled calls nothing cancelled =>
    refine ⟨fun _ => by simp, fun _ => ⟨by simp [nothing], by simp [nothing], fun all => ?_⟩⟩
    obtain ⟨call, there, stopped⟩ := cancelled
    rw [all call there] at stopped
    contradiction

end Calls

/-- A message that can be settled is settled as it should be if and only if the settlement that the
`try` block comes to does not raise. -/
theorem settled_iff_unraised (X : External) (S : Surroundings) (topic : String)
    (correlationId : UUID) (msg : Message) (ack : msg.has .ack = true)
    (nack : msg.has .nack = true) :
    Settled X (S.calls X topic correlationId msg) ↔
      ∀ how, S.settlement X topic correlationId msg = some how →
        (S.settle how 0).isRaised = false :=
  onMessage_settles topic correlationId ack nack

/-- A parser of the empty object, and an engine that is as it should be. -/
def External.sample : External where
  loads text := if text = "\x7b\x7d" then .ok (.dict []) else .error (.valueError "JSONDecodeError")
  correlationId _ := .ok none
  fromTopic _ := .ok none
  validate := .ok
  isSuccessful result := .ok (result.status = "success")

/-- A broker at which `how` raises, and nothing else. -/
def Surroundings.sample (how : Option Settlement) : Surroundings where
  dispatch _ _ := .returned ⟨"success"⟩
  settle called _ :=
    if some called = how then .raised (.osError "connection lost") else .returned ()

/-- A message with both methods, and a byte string as its value. -/
def Message.sample (text : String) : Message :=
  ⟨some (.bytes (encodeUtf8 text)), .other "Message", fun _ => true⟩

/-- A message that is no JSON, at a broker at which `nack` raises. -/
theorem settled_iff_unraised_undecoded :
    let S : Surroundings := .sample (some .nack)
    Settled .sample (S.calls .sample "topic" 0 (.sample "\x7b")) ∧
      settlements (S.calls .sample "topic" 0 (.sample "\x7b")) = [.nack] := by
  refine ⟨(settled_iff_unraised .sample (.sample (some .nack)) "topic" 0 (.sample "\x7b") rfl
    rfl).mpr fun how tries => ?_, by decide +kernel⟩
  have untried : (Surroundings.sample (some .nack)).settlement .sample "topic" 0
      (.sample "\x7b") = none := by
    decide +kernel
  rw [untried] at tries
  contradiction

/-- An `ack` that raises is followed by a `nack`. -/
theorem not_settled_ack_raised : ¬ ∀ (X : External) (S : Surroundings) (topic : String)
    (correlationId : UUID) (msg : Message), msg.has .ack = true → msg.has .nack = true →
    Settled X (S.calls X topic correlationId msg) := by
  intro all
  have once := (all .sample (.sample (some .ack)) "topic" 0 (.sample "\x7b\x7d") rfl rfl).once
  have twice : settlements ((Surroundings.sample (some .ack)).calls .sample "topic" 0
      (.sample "\x7b\x7d")) = [.ack, .nack] := by
    decide +kernel
  rw [twice] at once
  exact absurd once (by decide)

end Dispatch

end OmniMemory
