import OmniMemory.Lib.Automaton

/-! `PluginMemory.wire_dispatchers`, `start_consumers` and `shutdown`, with
`publish_memory_introspection` and `publish_memory_shutdown`, for the instances of one process. The
calls of one instance follow one another, and those of different instances interleave at their
awaits. Shared are the guard of the introspection and what is open. The guard's lock is never held
at an await, so it is free to whoever comes to it. -/

namespace OmniMemory

open Sequential

namespace Plugin

/-- `EnumNodeKind`. -/
inductive NodeKind where
  | effect
  | compute
  | reducer
  | orchestrator
deriving DecidableEq

/-- `MEMORY_NODES`, by their types, and how many `MEMORY_SUBSCRIBE_TOPICS` there are. -/
structure Contracts where
  memoryNodes : List NodeKind
  subscribeTopics : Nat

inductive ResourceKind where
  | graphAdapter
  | intentAdapter
  | subscription (topic : Nat)
  | heartbeat (node : Nat)
deriving DecidableEq

/-- What a call of an instance has opened. -/
structure Resource where
  plugin : Nat
  call : Nat
  kind : ResourceKind
deriving DecidableEq

/-- How an await ends. `isOpen` says whether the resource that it was to open or to close is open
then, all the same. -/
inductive Ended where
  | returned (value : Bool)
  | raised (isOpen : Bool)
  | cancelled (isOpen : Bool)

namespace Ended

def opens : Ended → Bool
  | returned _ => true
  | raised isOpen | cancelled isOpen => isOpen

def closes : Ended → Bool
  | returned _ => true
  | raised isOpen | cancelled isOpen => !isOpen

def isReturned : Ended → Bool
  | returned _ => true
  | _ => false

def isCancelled : Ended → Bool
  | cancelled _ => true
  | _ => false

end Ended

inductive Method where
  | wireDispatchers
  | startConsumers
  | shutdown
deriving DecidableEq

/-- How a call ends: with a `ModelDomainPluginResult`, or with an exception. -/
inductive Result where
  | succeeded
  | skipped
  | failed
  | raised
deriving DecidableEq

/-- `ModelDomainPluginResult.success`. -/
def Result.success : Result → Bool
  | succeeded | skipped => true
  | failed | raised => false

/-- What a call of `wire_dispatchers` finds: an event bus, a host of Memgraph and a port that is a
number; and whether the parts that do not await are passed: from the adapters to the dispatch
engine, and from the introspection to the end. -/
structure Wiring where
  eventBus : Bool
  memgraphHost : Bool
  memgraphPort : Bool
  dispatchEngine : Bool
  reported : Bool
deriving DecidableEq

/-- What a call of `start_consumers` finds: an event bus with `subscribe`, and whether the handlers
of the topics can be built. -/
structure Consuming where
  subscribe : Bool
  topicHandlers : Bool

/-- Where the call of an instance is suspended. -/
inductive Pc where
  | idle
  /-- in `collect_publish_topics_for_dispatch` -/
  | topics (env : Wiring)
  | probing (env : Wiring)
  /-- in `initialize` of an adapter -/
  | graph (env : Wiring)
  | intent (env : Wiring)
  /-- at the guard of `publish_memory_introspection` -/
  | introspecting (env : Wiring)
  /-- in `publish_introspection`, and in `start_introspection_tasks`, of a node -/
  | publishing (env : Wiring) (node : Nat) (proxies : List Resource)
  | starting (env : Wiring) (node : Nat) (proxies : List Resource)
  /-- in `stop_introspection_tasks`, and in `reset_introspection_guard`, after a failure -/
  | cleaning (rest : List Resource)
  | cleanReset
  | subscribing (topic : Nat) (callbacks : List Resource)
  | rollingBack (rest : List Resource)
  /-- in `publish_memory_shutdown` -/
  | stopping (rest : List Resource)
  | leaving (node : Nat)
  | shutdownReset
  | unsubscribing (rest : List Resource) (errors : Bool)
deriving DecidableEq

structure PluginMemory where
  id : Nat
  /-- how many calls there have been -/
  call : Nat
  pc : Pc
  eventBus : Bool
  introspectionProxies : List Resource
  unsubscribeCallbacks : List Resource
  graphMemoryAdapter : Option Resource
  intentGraphAdapter : Option Resource
  dispatchEngine : Bool
  shutdownInProgress : Bool
deriving DecidableEq

/-- `_introspection_published`, and what is open in the process. -/
structure Shared where
  published : Bool
  opened : List Resource
deriving DecidableEq

namespace Shared

def openIf (s : Shared) (r : Resource) (opens : Bool) : Shared :=
  if opens then { s with opened := r :: s.opened } else s

def closeIf (s : Shared) (r : Resource) (closes : Bool) : Shared :=
  if closes then { s with opened := s.opened.filter (· ≠ r) } else s

end Shared

abbrev Answer := Option (Method × Result)

/-- What a call comes to at its next await, or at its end, where it is answered. -/
abbrev Next := Answer × PluginMemory × Shared

namespace PluginMemory

def new (id : Nat) : PluginMemory := ⟨id, 0, .idle, false, [], [], none, none, false, false⟩

variable (C : Contracts) (p : PluginMemory) (s : Shared)

def resource (kind : ResourceKind) : Resource := ⟨p.id, p.call, kind⟩

def await (pc : Pc) : Next := (none, { p with pc }, s)

def leave (method : Method) (result : Result) : Next :=
  (some (method, result), { p with pc := .idle }, s)

/-- The loop that cleans up after a failure of `wire_dispatchers`. -/
def clean : List Resource → Next
  | [] => p.await s .cleanReset
  | rest => p.await s (.cleaning rest)

/-- The `except` block of `wire_dispatchers`. -/
def failWiring : Next := p.clean s p.introspectionProxies

/-- The end of that block. -/
def cleaned : Next :=
  { p with eventBus := false, introspectionProxies := [], dispatchEngine := false }.leave s
    .wireDispatchers .failed

/-- `wire_dispatchers`, after `publish_memory_introspection`. -/
def wired (env : Wiring) (proxies : List Resource) : Next :=
  let p := { p with introspectionProxies := proxies }
  if env.reported then p.leave s .wireDispatchers .succeeded else p.failWiring s

/-- The loop of `publish_memory_introspection`. What is raised for a node is caught there. -/
def publishNode (env : Wiring) (node : Nat) (proxies : List Resource) : Next :=
  if node < C.memoryNodes.length then p.await s (.publishing env node proxies)
  else p.wired s env proxies

/-- `publish_memory_introspection`, from its guard. -/
def introspect (env : Wiring) : Next :=
  if s.published then p.failWiring s
  else if !env.eventBus then p.wired s env []
  else p.publishNode C { s with published := true } env 0 []

/-- `wire_dispatchers`, from the adapters to the introspection. -/
def build (env : Wiring) : Next :=
  if env.dispatchEngine then
    { p with dispatchEngine := true, eventBus := env.eventBus }.await s (.introspecting env)
  else p.failWiring s

/-- `wire_dispatchers`, after the topics are collected. -/
def connect (env : Wiring) : Next :=
  if !env.memgraphHost then p.build s env
  else if env.memgraphPort then p.await s (.probing env)
  else p.failWiring s

/-- The end of an await in the `try` block of `wire_dispatchers`. -/
def inWiring (e : Ended) (next : Bool → Next) : Next :=
  match e with
  | .returned value => next value
  | .raised _ => p.failWiring s
  | .cancelled _ => p.leave s .wireDispatchers .raised

/-- The loop of `start_consumers`. -/
def subscribe (topic : Nat) (callbacks : List Resource) : Next :=
  if topic < C.subscribeTopics then p.await s (.subscribing topic callbacks)
  else { p with unsubscribeCallbacks := callbacks }.leave s .startConsumers .succeeded

/-- The loop of its `except` block. -/
def rollBack : List Resource → Next
  | [] => p.leave s .startConsumers .failed
  | rest => p.await s (.rollingBack rest)

def startConsumers (env : Consuming) : Next :=
  if !p.dispatchEngine then p.leave s .startConsumers .skipped
  else if !env.subscribe then p.leave s .startConsumers .skipped
  -- The `except` block reads the callbacks, which are not assigned yet.
  else if !env.topicHandlers then p.leave s .startConsumers .raised
  else p.subscribe C s 0 []

/-- `_do_shutdown`, after the loop that unsubscribes. -/
def closed (errors : Bool) : Next :=
  { p with
    unsubscribeCallbacks := []
    dispatchEngine := false
    eventBus := false
    introspectionProxies := []
    shutdownInProgress := false }.leave s .shutdown (if errors then .failed else .succeeded)

/-- That loop. -/
def unsubscribe (errors : Bool) : List Resource → Next
  | [] => p.closed s errors
  | rest => p.await s (.unsubscribing rest errors)

/-- `publish_memory_shutdown`, the loop that publishes. -/
def leaveNode (node : Nat) : Next :=
  if node < C.memoryNodes.length then p.await s (.leaving node) else p.await s .shutdownReset

/-- `publish_memory_shutdown`, the loop that stops the tasks. -/
def stop : List Resource → Next
  | [] => p.leaveNode C s 0
  | rest => p.await s (.stopping rest)

/-- `shutdown`, when none is in progress. -/
def shutdown : Next :=
  let p := { p with shutdownInProgress := true }
  if p.eventBus then p.stop C s p.introspectionProxies
  else p.unsubscribe s false p.unsubscribeCallbacks

/-- A cancelled `shutdown`. -/
def cancelShutdown : Next :=
  { p with shutdownInProgress := false }.leave s .shutdown .raised

/-- The call of an instance goes on when what it awaits has ended. -/
def resume (e : Ended) : Next :=
  match p.pc with
  | .idle => (none, p, s)
  | .topics env => p.inWiring s e fun _ => p.connect s env
  | .probing env => p.inWiring s e fun reachable =>
    if reachable then p.await s (.graph env) else p.build s env
  | .graph env =>
    let adapter := p.resource .graphAdapter
    let s := s.openIf adapter e.opens
    p.inWiring s e fun _ => { p with graphMemoryAdapter := some adapter }.await s (.intent env)
  | .intent env =>
    let adapter := p.resource .intentAdapter
    let s := s.openIf adapter e.opens
    p.inWiring s e fun _ => { p with intentGraphAdapter := some adapter }.build s env
  | .introspecting env => p.inWiring s e fun _ => p.introspect C s env
  | .publishing env node proxies =>
    match e with
    | .returned true =>
      if C.memoryNodes[node]? = some .effect then p.await s (.starting env node proxies)
      else p.publishNode C s env (node + 1) proxies
    | .returned false | .raised _ => p.publishNode C s env (node + 1) proxies
    | .cancelled _ => p.leave s .wireDispatchers .raised
  | .starting env node proxies =>
    let heartbeat := p.resource (.heartbeat node)
    let s := s.openIf heartbeat e.opens
    match e with
    | .returned _ => p.publishNode C s env (node + 1) (proxies ++ [heartbeat])
    | .raised _ => p.publishNode C s env (node + 1) proxies
    | .cancelled _ => p.leave s .wireDispatchers .raised
  | .cleaning [] => p.clean s []
  | .cleaning (proxy :: rest) =>
    let s := s.closeIf proxy e.closes
    if e.isCancelled then p.leave s .wireDispatchers .raised else p.clean s rest
  | .cleanReset =>
    match e with
    | .returned _ => p.cleaned { s with published := false }
    | _ => p.leave s .wireDispatchers .raised
  | .subscribing topic callbacks =>
    let callback := p.resource (.subscription topic)
    let s := s.openIf callback e.opens
    match e with
    | .returned _ => p.subscribe C s (topic + 1) (callbacks ++ [callback])
    | .raised _ => p.rollBack s callbacks
    | .cancelled _ => p.leave s .startConsumers .raised
  | .rollingBack [] => p.rollBack s []
  | .rollingBack (callback :: rest) =>
    let s := s.closeIf callback e.closes
    if e.isCancelled then p.leave s .startConsumers .raised else p.rollBack s rest
  | .stopping [] => p.stop C s []
  | .stopping (proxy :: rest) =>
    let s := s.closeIf proxy e.closes
    if e.isCancelled then p.cancelShutdown s else p.stop C s rest
  | .leaving node => if e.isCancelled then p.cancelShutdown s else p.leaveNode C s (node + 1)
  | .shutdownReset =>
    match e with
    | .returned _ => p.unsubscribe { s with published := false } false p.unsubscribeCallbacks
    -- What `publish_memory_shutdown` raises is caught and reported.
    | .raised _ => p.unsubscribe s true p.unsubscribeCallbacks
    | .cancelled _ => p.cancelShutdown s
  | .unsubscribing [] errors => p.unsubscribe s errors []
  | .unsubscribing (callback :: rest) errors =>
    let s := s.closeIf callback e.closes
    match e with
    | .returned _ => p.unsubscribe s errors rest
    | .raised _ => p.unsubscribe s true rest
    | .cancelled _ => p.cancelShutdown s

end PluginMemory

/-- What happens to an instance: a call, or the end of what its call awaits. -/
inductive Act where
  | wireDispatchers (env : Wiring)
  | startConsumers (env : Consuming)
  | shutdown
  | ended (e : Ended)

structure Event where
  plugin : Nat
  act : Act

structure Process where
  shared : Shared
  plugins : List PluginMemory
deriving DecidableEq

namespace Process

/-- A process with so many instances. -/
def initial (instances : Nat) : Process := ⟨⟨false, []⟩, (List.range instances).map .new⟩

def put (s : Process) (i : Nat) (next : Next) : Answer × Process :=
  (next.1, ⟨next.2.2, s.plugins.set i next.2.1⟩)

/-- A call of an instance that is in no other. -/
def start (s : Process) (i : Nat) (p : PluginMemory) (enter : PluginMemory → Shared → Next) :
    Answer × Process :=
  match p.pc with
  | .idle => s.put i (enter { p with call := p.call + 1 } s.shared)
  | _ => (none, s)

end Process

variable (C : Contracts)

def act (s : Process) (i : Nat) (p : PluginMemory) : Act → Answer × Process
  | .wireDispatchers env => s.start i p fun p shared => p.await shared (.topics env)
  | .startConsumers env => s.start i p fun p shared => p.startConsumers C shared env
  | .shutdown =>
    if p.shutdownInProgress then (some (.shutdown, .skipped), s)
    else s.start i p fun p shared => p.shutdown C shared
  | .ended e => s.put i (p.resume C s.shared e)

def automaton : Automaton Event Answer Process where
  step s event :=
    match s.plugins[event.plugin]? with
    | none => (none, s)
    | some p => act C s event.plugin p event.act

end Plugin

end OmniMemory
