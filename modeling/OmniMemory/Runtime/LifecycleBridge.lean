import OmniMemory.Lib.Automaton
import OmniMemory.Runtime.DispatchCallback

/-! `_create_lifecycle_bridge_handler` and the `HandlerMemoryLifecycle` that it starts and stops.
The methods of the latter await nothing and raise nothing, so the handler is one step for each
message, and `contextlib.suppress` has nothing to suppress. -/

namespace OmniMemory

open Sequential

namespace Dispatch

/-- `HandlerMemoryLifecycle`: which components it was given, and `_started`. -/
structure HandlerMemoryLifecycle where
  graphMemory : Bool
  intentGraph : Bool
  navigation : Bool
  semantic : Bool
  started : Bool

namespace HandlerMemoryLifecycle

variable (self : HandlerMemoryLifecycle)

/-- `handle_startup`, with the statuses that it returns. -/
def handleStartup : List (String × String) × HandlerMemoryLifecycle :=
  let status (name : String) (given : Bool) : List (String × String) :=
    if given then [(name, "initialized")] else []
  (status "graph_memory" self.graphMemory ++ status "intent_graph" self.intentGraph ++
    status "navigation_history" self.navigation ++ status "semantic_compute" self.semantic,
    { self with started := true })

def handleShutdown : HandlerMemoryLifecycle := { self with started := false }

end HandlerMemoryLifecycle

/-- What the handler is called with: an envelope, or a payload as it is. -/
inductive DispatchMessage where
  | envelope (e : ModelEventEnvelope)
  | raw (payload : PyObject)

namespace DispatchMessage

/-- `_get_dispatch_payload`. -/
def getDispatchPayload : DispatchMessage → PyObject
  | envelope e => e.payload
  | raw payload => payload

def command (message : DispatchMessage) : PyObject :=
  match message.getDispatchPayload with
  | .dict entries => (entries.lookup "command").getD (.str "")
  | _ => .str ""

/-- `command in commands`. -/
def isIn (message : DispatchMessage) (commands : List String) : Bool :=
  match message.command with
  | .str text => text ∈ commands
  | _ => false

end DispatchMessage

/-- The calls of the handler. -/
inductive LifecycleCall where
  | handleStartup
  | handleShutdown

/-- The `_handle` of the bridge. -/
def lifecycleBridge : Automaton DispatchMessage (List LifecycleCall) HandlerMemoryLifecycle where
  step lifecycle message :=
    let (calls, lifecycle) :=
      if lifecycle.started then ([], lifecycle)
      else ([.handleStartup], lifecycle.handleStartup.2)
    if message.isIn ["shutdown", "expire-memory"] then
      (calls ++ [.handleShutdown], lifecycle.handleShutdown)
    -- An `archive-memory` is only logged.
    else (calls, lifecycle)

/-- A message leaves the lifecycle started unless it is a shutdown command, and only such a one
shuts it down. -/
structure StaysUp (lifecycle : HandlerMemoryLifecycle) (message : DispatchMessage) : Prop where
  started : message.isIn ["shutdown"] = false →
    (lifecycleBridge.step lifecycle message).2.started = true
  stopped : .handleShutdown ∈ (lifecycleBridge.step lifecycle message).1 →
    message.isIn ["shutdown"] = true

section Bridge

variable {lifecycle : HandlerMemoryLifecycle} {message : DispatchMessage}

theorem isIn_stops : message.isIn ["shutdown", "expire-memory"] =
    (message.isIn ["shutdown"] || message.isIn ["expire-memory"]) := by
  unfold DispatchMessage.isIn
  cases message.command <;> simp

theorem isIn_shutdown (expire : message.isIn ["expire-memory"] = true) :
    message.isIn ["shutdown"] = false := by
  unfold DispatchMessage.isIn at expire ⊢
  cases command : message.command with
  | str text =>
    simp only [command, List.mem_singleton, decide_eq_true_eq] at expire
    simp [expire]
  | _ => rfl

/-- After a message the lifecycle is started unless the message stops it. -/
theorem step_started : (lifecycleBridge.step lifecycle message).2.started =
    !message.isIn ["shutdown", "expire-memory"] := by
  simp only [lifecycleBridge]
  cases message.isIn ["shutdown", "expire-memory"] with
  | true => rfl
  | false =>
    cases started : lifecycle.started <;> simp [HandlerMemoryLifecycle.handleStartup, started]

theorem step_stopped : .handleShutdown ∈ (lifecycleBridge.step lifecycle message).1 ↔
    message.isIn ["shutdown", "expire-memory"] = true := by
  simp only [lifecycleBridge]
  cases message.isIn ["shutdown", "expire-memory"] <;> cases lifecycle.started <;> simp

theorem staysUp_iff : StaysUp lifecycle message ↔ message.isIn ["expire-memory"] = false := by
  constructor
  · intro stays
    by_contra expire
    have expire : message.isIn ["expire-memory"] = true := by simpa using expire
    have started := stays.started (isIn_shutdown expire)
    rw [step_started, isIn_stops, expire] at started
    simp at started
  · intro other
    refine ⟨fun alive => ?_, fun stopped => ?_⟩
    · rw [step_started, isIn_stops, alive, other]
      rfl
    · rw [step_stopped, isIn_stops, other] at stopped
      simpa using stopped

end Bridge

/-- Every message of a sequence leaves the lifecycle as it should be if and only if none is an
`expire-memory` command. -/
theorem staysUp_iff_unexpired (lifecycle : HandlerMemoryLifecycle)
    (messages : List DispatchMessage) : lifecycleBridge.Meets StaysUp lifecycle messages ↔
      ∀ message ∈ messages, message.isIn ["expire-memory"] = false :=
  Automaton.meets_iff fun _ _ => staysUp_iff

/-- The command to expire a memory. -/
def DispatchMessage.expire : DispatchMessage :=
  .envelope ⟨.dict [("command", .str "expire-memory")], 0, "command"⟩

/-- An `expire-memory` command shuts the lifecycle down. -/
theorem not_staysUp_expire : ¬ ∀ (lifecycle : HandlerMemoryLifecycle)
    (messages : List DispatchMessage), lifecycleBridge.Meets StaysUp lifecycle messages := by
  intro all
  have stays := (all ⟨true, true, false, false, true⟩ [.expire]).1
  exact absurd (stays.started (by decide +kernel)) (by decide +kernel)

end Dispatch

end OmniMemory
