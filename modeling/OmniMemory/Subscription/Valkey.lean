import Mathlib.Algebra.Ring.Int.Defs
import Mathlib.Data.Char
import Mathlib.Data.Finset.Sort
import Mathlib.Data.List.Lex
import OmniMemory.Lib.Namespaces

/-! `AdapterValkey`, the cache of the subscription handler. Every method puts the prefix of the adapter
before its keys, so adapters with different prefixes share one server. `Caller` is code that calls the
methods of one adapter, `server` the server with all its callers. -/

namespace OmniMemory

open Interleave Namespaces

namespace Valkey

abbrev Key := List Char

/-- The commands of the server on one key. -/
inductive Command where
  | get
  /-- What MGET does with each of its keys. -/
  | mget
  | set (value : String)
  | setex (ttl : Int) (value : String)
  | delete
  | existsKey
  | expire (ttl : Int)
  | sadd (members : List String)
  | srem (members : List String)
  | smembers
  | sismember (member : String)
  | scard
  | hset (mapping : List (String × String))
  | hget (field : String)
  | hgetall
  | hdel (fields : List String)

/-- What `redis.asyncio` returns for a command, or the error of the server that it raises. -/
inductive Reply where
  | none
  | text (s : String)
  | number (n : Int)
  | members (ms : Finset String)
  | fields (fs : List (String × String))
  | error (message : String)

inductive Error where
  | runtime (message : String)
  /-- The server reports an error. -/
  | response (message : String)
  /-- There is no reply. -/
  | connection
  /-- A reply that Python cannot convert. -/
  | conversion
  /-- The body of `async with adapter.pipeline()` raises. -/
  | body

/-- A coroutine that awaits replies of the server. -/
abbrev Coroutine (β : Type) := Session Char Command Reply (Except Error β)

abbrev ServerReply := Namespaces.Reply Char Reply

namespace Coroutine

variable {β γ : Type}

/-- What raises ends. -/
def andThen (c : Coroutine β) (next : β → Coroutine γ) : Coroutine γ :=
  c.bind fun
    | .ok b => next b
    | .error e => .ret (.error e)

/-- `await client.…` of commands that are sent together. -/
def send (commands : List (Command × Key)) : Coroutine (List Reply) :=
  .call (.each commands) fun
    | .results rs => .ret (.ok rs)
    | _ => .ret (.error .connection)

/-- `await client.keys(pattern)`. -/
def search (pattern : Key) : Coroutine (Finset Key) :=
  .call (.search pattern) fun
    | .names ns => .ret (.ok ns)
    | _ => .ret (.error .connection)

end Coroutine

/-- The reply, if the server reports no error. -/
def Reply.checked : Reply → Except Error Reply
  | .error message => .error (.response message)
  | r => .ok r

/-- `int(result)`. -/
def Reply.int : Reply → Except Error Int
  | .number n => .ok n
  | _ => .error .conversion

/-- `str(result)`, and `None` for `None`. -/
def Reply.str? : Reply → Except Error (Option String)
  | .none => .ok .none
  | .text s => .ok (some s)
  | .number n => .ok (some (toString n))
  | _ => .error .conversion

def Reply.memberSet : Reply → Except Error (Finset String)
  | .members ms => .ok ms
  | _ => .error .conversion

def Reply.dict : Reply → Except Error (List (String × String))
  | .fields fs => .ok fs
  | _ => .error .conversion

def Reply.unit : Reply → Except Error Unit := fun _ => .ok ()

/-- A statement in the body of `async with adapter.pipeline() as pipe`. -/
inductive Statement where
  | sadd (key : Key) (members : List String)
  | srem (key : Key) (members : List String)
  | setKey (key : Key) (value : String) (ttl : Option Int)
  | delete (key : Key)
  | expire (key : Key) (ttl : Int)
  | execute
  | raise

structure ValkeyPipeline where
  /-- The commands that `_pipe` has queued. -/
  pipe : List (Command × Key)
  keyPrefix : Key
  executed : Bool
  results : List Reply

namespace ValkeyPipeline

def new (keyPrefix : Key) : ValkeyPipeline := ⟨[], keyPrefix, false, []⟩

def prefixedKey (self : ValkeyPipeline) (key : Key) : Key := self.keyPrefix ++ key

def queue (self : ValkeyPipeline) (command : Command) (key : Key) : ValkeyPipeline :=
  { self with pipe := self.pipe ++ [(command, self.prefixedKey key)] }

/-- The first error among the results is raised. -/
def firstError : List Reply → Except Error (List Reply)
  | [] => .ok []
  | r :: rest =>
    match r.checked with
    | .error e => .error e
    | .ok r => (firstError rest).map (r :: ·)

/-- `_pipe.execute()` of no commands does not ask the server. -/
def execute (self : ValkeyPipeline) : Coroutine ValkeyPipeline :=
  if self.executed then .ret (.ok self)
  else if self.pipe.isEmpty then .ret (.ok { self with executed := true, results := [] })
  else (Coroutine.send self.pipe).andThen fun rs =>
    .ret ((firstError rs).map fun rs => { self with pipe := [], executed := true, results := rs })

/-- The body of the `async with`. -/
def body : List Statement → ValkeyPipeline → Coroutine ValkeyPipeline
  | [], self => .ret (.ok self)
  | .sadd key members :: rest, self =>
    body rest (if members.isEmpty then self else self.queue (.sadd members) key)
  | .srem key members :: rest, self =>
    body rest (if members.isEmpty then self else self.queue (.srem members) key)
  | .setKey key value ttl :: rest, self =>
    body rest (self.queue (ttl.elim (.set value) fun ttl => .setex ttl value) key)
  | .delete key :: rest, self => body rest (self.queue .delete key)
  | .expire key ttl :: rest, self => body rest (self.queue (.expire ttl) key)
  | .execute :: rest, self => self.execute.andThen fun self => body rest self
  | .raise :: _, _ => .ret (.error .body)

end ValkeyPipeline

structure AdapterValkeyConfig where
  keyPrefix : Key

/-- The default of the field. -/
def AdapterValkeyConfig.default : AdapterValkeyConfig := ⟨"omnimemory:".toList⟩

structure AdapterValkey where
  config : AdapterValkeyConfig
  /-- `_initialized`, and there is a `_client`. -/
  initialized : Bool

namespace AdapterValkey

variable {β : Type}

def prefixedKey (self : AdapterValkey) (key : Key) : Key := self.config.keyPrefix ++ key

/-- What comes after `client = self._ensure_initialized()`. -/
def ensureInitialized (self : AdapterValkey) (rest : Coroutine β) : Coroutine β :=
  if self.initialized then rest
  else .ret (.error (.runtime "AdapterValkey not initialized. Call initialize() first."))

/-- One command on one key, and what Python makes of the reply. -/
def ask (self : AdapterValkey) (command : Command) (key : Key) (convert : Reply → Except Error β) :
    Coroutine β :=
  self.ensureInitialized ((Coroutine.send [(command, self.prefixedKey key)]).andThen fun rs =>
    .ret ((rs.headD .none).checked.bind convert))

def get (self : AdapterValkey) (key : Key) : Coroutine (Option String) := self.ask .get key Reply.str?

def mget (self : AdapterValkey) (keys : List Key) : Coroutine (List (Option String)) :=
  if keys.isEmpty then .ret (.ok [])
  else self.ensureInitialized
    ((Coroutine.send (keys.map fun key => (.mget, self.prefixedKey key))).andThen fun rs =>
      .ret (rs.mapM Reply.str?))

def setKey (self : AdapterValkey) (key : Key) (value : String) (ttl : Option Int) : Coroutine Unit :=
  self.ask (ttl.elim (.set value) fun ttl => .setex ttl value) key Reply.unit

def delete (self : AdapterValkey) (key : Key) : Coroutine Int := self.ask .delete key Reply.int

def existsKey (self : AdapterValkey) (key : Key) : Coroutine Bool :=
  self.ask .existsKey key fun r => r.int.map (decide <| 0 < ·)

def expire (self : AdapterValkey) (key : Key) (ttl : Int) : Coroutine Bool :=
  self.ask (.expire ttl) key fun r => r.int.map (· != 0)

def sadd (self : AdapterValkey) (key : Key) (members : List String) : Coroutine Int :=
  if members.isEmpty then .ret (.ok 0) else self.ask (.sadd members) key Reply.int

def srem (self : AdapterValkey) (key : Key) (members : List String) : Coroutine Int :=
  if members.isEmpty then .ret (.ok 0) else self.ask (.srem members) key Reply.int

def smembers (self : AdapterValkey) (key : Key) : Coroutine (Finset String) :=
  self.ask .smembers key Reply.memberSet

def sismember (self : AdapterValkey) (key : Key) (member : String) : Coroutine Bool :=
  self.ask (.sismember member) key fun r => r.int.map (· != 0)

def scard (self : AdapterValkey) (key : Key) : Coroutine Int := self.ask .scard key Reply.int

def hset (self : AdapterValkey) (key : Key) (mapping : List (String × String)) : Coroutine Int :=
  if mapping.isEmpty then .ret (.ok 0) else self.ask (.hset mapping) key Reply.int

def hget (self : AdapterValkey) (key : Key) (field : String) : Coroutine (Option String) :=
  self.ask (.hget field) key Reply.str?

def hgetall (self : AdapterValkey) (key : Key) : Coroutine (List (String × String)) :=
  self.ask .hgetall key Reply.dict

def hdel (self : AdapterValkey) (key : Key) (fields : List String) : Coroutine Int :=
  if fields.isEmpty then .ret (.ok 0) else self.ask (.hdel fields) key Reply.int

/-- The results of the pipeline when its context is left. -/
def pipeline (self : AdapterValkey) (statements : List Statement) : Coroutine (List Reply) :=
  self.ensureInitialized
    ((ValkeyPipeline.body statements (.new self.config.keyPrefix)).andThen fun pipe =>
      pipe.execute.andThen fun pipe => .ret (.ok pipe.results))

/-- The prefix is cut off by its length. -/
def keys (self : AdapterValkey) (pattern : Key) : Coroutine (Finset Key) :=
  self.ensureInitialized ((Coroutine.search (self.prefixedKey pattern)).andThen fun names =>
    .ret (.ok (names.image (·.drop self.config.keyPrefix.length))))

/-- DEL of several keys counts those that there are. -/
def flushNamespace (self : AdapterValkey) : Coroutine Int :=
  (self.keys ['*']).andThen fun keys =>
    if keys = ∅ then .ret (.ok 0)
    else self.ensureInitialized
      ((Coroutine.send ((keys.sort (· ≤ ·)).map fun key => (.delete, self.prefixedKey key))).andThen fun rs =>
        .ret ((rs.mapM Reply.int).map List.sum))

end AdapterValkey

/-! ### Callers -/

/-- A call of a method of the adapter. -/
inductive Request where
  | get (key : Key)
  | mget (keys : List Key)
  | setKey (key : Key) (value : String) (ttl : Option Int)
  | delete (key : Key)
  | existsKey (key : Key)
  | expire (key : Key) (ttl : Int)
  | sadd (key : Key) (members : List String)
  | srem (key : Key) (members : List String)
  | smembers (key : Key)
  | sismember (key : Key) (member : String)
  | scard (key : Key)
  | hset (key : Key) (mapping : List (String × String))
  | hget (key : Key) (field : String)
  | hgetall (key : Key)
  | hdel (key : Key) (fields : List String)
  | pipeline (statements : List Statement)
  | keys (pattern : Key)
  | flushNamespace

abbrev Request.Answer : Request → Type
  | get _ | hget .. => Option String
  | mget _ => List (Option String)
  | setKey .. => Unit
  | delete _ | sadd .. | srem .. | scard _ | hset .. | hdel .. | flushNamespace => Int
  | existsKey _ | expire .. | sismember .. => Bool
  | smembers _ => Finset String
  | hgetall _ => List (String × String)
  | pipeline _ => List Reply
  | keys _ => Finset Key

def AdapterValkey.run (self : AdapterValkey) : (r : Request) → Coroutine r.Answer
  | .get key => self.get key
  | .mget keys => self.mget keys
  | .setKey key value ttl => self.setKey key value ttl
  | .delete key => self.delete key
  | .existsKey key => self.existsKey key
  | .expire key ttl => self.expire key ttl
  | .sadd key members => self.sadd key members
  | .srem key members => self.srem key members
  | .smembers key => self.smembers key
  | .sismember key member => self.sismember key member
  | .scard key => self.scard key
  | .hset key mapping => self.hset key mapping
  | .hget key field => self.hget key field
  | .hgetall key => self.hgetall key
  | .hdel key fields => self.hdel key fields
  | .pipeline statements => self.pipeline statements
  | .keys pattern => self.keys pattern
  | .flushNamespace => self.flushNamespace

abbrev Program (β : Type) := Prog Request (fun r => Except Error r.Answer) β

/-- Code that calls the methods of one adapter and has a result. -/
structure Caller (β : Type) where
  adapter : AdapterValkey
  program : Program β

/-- The program with the methods' own calls of the server. -/
def AdapterValkey.through {β : Type} (self : AdapterValkey) :
    Program β → Session Char Command Reply β
  | .ret b => .ret b
  | .call r rest => (self.run r).bind fun answer => AdapterValkey.through self (rest answer)

def Caller.keyPrefix {β : Type} (c : Caller β) : Key := c.adapter.config.keyPrefix

/-- A caller that has been started. -/
abbrev Running (β : Type) := Started (Caller β) (Session Char Command Reply β)

/-- The server and its callers. `exec` is what a command does to the value of a key, `finds` whether a
pattern of KEYS finds a key. -/
def server {V β : Type} (exec : Command → Option V → Reply × Option V) (finds : Key → Key → Bool) :
    Machine (Store Char V) (Running β) (Caller β) (Move Char) :=
  clients (fun c => c.adapter.through c.program) exec finds

/-! ### Prefixes -/

/-- The adapter without a prefix. -/
def AdapterValkey.bare (self : AdapterValkey) : AdapterValkey := ⟨⟨[]⟩, self.initialized⟩

def Caller.bare {β : Type} (c : Caller β) : Caller β := ⟨c.adapter.bare, c.program⟩

/-- A caller that calls nothing. -/
def Caller.idle {β : Type} (b : β) : Caller β := ⟨⟨⟨[]⟩, false⟩, .ret b⟩

section Under

variable {β γ : Type} {p : Key}

theorem under_bind (c : Session Char Command Reply β) (next : β → Session Char Command Reply γ) :
    Session.under p (c.bind next) = (c.under p).bind fun b => (next b).under p := by
  induction c with
  | ret b => rfl
  | call op rest ih => exact congrArg (Prog.call _) (funext fun reply => ih _)

theorem under_ret (b : β) : Session.under p (.ret b : Session Char Command Reply β) = .ret b := rfl

theorem under_andThen (c : Coroutine β) (next : β → Coroutine γ) :
    Session.under p (c.andThen next) = Coroutine.andThen (c.under p) fun b => (next b).under p := by
  rw [Coroutine.andThen, under_bind]
  refine congrArg (Prog.bind _) (funext fun b => ?_)
  cases b <;> rfl

theorem under_send (commands : List (Command × Key)) :
    Session.under p (Coroutine.send commands) =
      Coroutine.send (commands.map fun (c, key) => (c, p ++ key)) := by
  refine congrArg (Prog.call _) (funext fun reply => ?_)
  cases reply <;> rfl

theorem under_search (pattern : Key) :
    Session.under p (Coroutine.search pattern) =
      (Coroutine.search (p ++ pattern)).andThen fun names =>
        .ret (.ok (names.image (·.drop p.length))) := by
  refine congrArg (Prog.call _) (funext fun reply => ?_)
  cases reply <;> rfl

theorem andThen_assoc {δ : Type} (c : Coroutine β) (next : β → Coroutine γ) (last : γ → Coroutine δ) :
    (c.andThen next).andThen last = c.andThen fun b => (next b).andThen last := by
  rw [Coroutine.andThen, Coroutine.andThen, Coroutine.andThen]
  refine (Prog.bind_assoc c _ _).trans (congrArg (Prog.bind c) (funext fun b => ?_))
  cases b <;> rfl

theorem andThen_ok (c : Coroutine β) : (c.andThen fun b => .ret (.ok b)) = c := by
  refine Eq.trans (congrArg (Prog.bind c) (funext fun b => ?_)) (Prog.bind_ret c)
  cases b <;> rfl

end Under

namespace ValkeyPipeline

variable {p : Key}

/-- The pipeline of an adapter with the prefix, when `self` is that of one without. -/
def under (p : Key) (self : ValkeyPipeline) : ValkeyPipeline :=
  { self with pipe := self.pipe.map fun (c, key) => (c, p ++ key), keyPrefix := p }

theorem queue_under {self : ValkeyPipeline} (bare : self.keyPrefix = []) (command : Command) (key : Key) :
    (self.under p).queue command key = (self.queue command key).under p := by
  simp [under, queue, prefixedKey, bare]

theorem execute_under (self : ValkeyPipeline) :
    (self.under p).execute =
      Coroutine.andThen (Session.under p self.execute) fun self => .ret (.ok (self.under p)) := by
  have here : (self.under p).pipe = self.pipe.map fun (c, key) => (c, p ++ key) := rfl
  have empty : (self.under p).pipe.isEmpty = self.pipe.isEmpty := by simp [here]
  have executed : (self.under p).executed = self.executed := rfl
  rw [execute, execute, executed, empty]
  by_cases done : self.executed = true
  · rw [if_pos done, if_pos done]
    rfl
  · rw [if_neg done, if_neg done]
    by_cases none : self.pipe.isEmpty = true
    · rw [if_pos none, if_pos none]
      refine congrArg (fun pipe => Prog.ret (Except.ok (ValkeyPipeline.mk pipe p true []))) here
    · rw [if_neg none, if_neg none, under_andThen, under_send, andThen_assoc, here]
      refine congrArg (Coroutine.andThen _) (funext fun rs => ?_)
      cases firstError rs <;> rfl

/-- After `execute`, only pipelines with the same prefix matter. -/
theorem execute_andThen {self : ValkeyPipeline} {β : Type} {next next' : ValkeyPipeline → Coroutine β}
    (same : ∀ pipe : ValkeyPipeline, pipe.keyPrefix = self.keyPrefix → next pipe = next' pipe) :
    Coroutine.andThen (Session.under p self.execute) next =
      Coroutine.andThen (Session.under p self.execute) next' := by
  unfold execute
  split
  · exact same _ rfl
  · split
    · exact same _ rfl
    · rw [under_andThen, andThen_assoc, andThen_assoc]
      refine congrArg (Coroutine.andThen _) (funext fun rs => ?_)
      cases firstError rs with
      | ok rs => exact same _ rfl
      | error e => rfl

/-- The body runs as it does without a prefix, through the prefix. -/
theorem body_under {self : ValkeyPipeline} (bare : self.keyPrefix = []) (statements : List Statement) :
    body statements (self.under p) =
      Coroutine.andThen (Session.under p (body statements self)) fun self => .ret (.ok (self.under p)) := by
  induction statements generalizing self with
  | nil => rfl
  | cons statement rest ih =>
    cases statement with
    | sadd key members =>
      simp only [body, queue_under bare]
      split
      · exact ih bare
      · exact ih bare
    | srem key members =>
      simp only [body, queue_under bare]
      split
      · exact ih bare
      · exact ih bare
    | setKey key value ttl =>
      simp only [body, queue_under bare]
      exact ih bare
    | delete key =>
      simp only [body, queue_under bare]
      exact ih bare
    | expire key ttl =>
      simp only [body, queue_under bare]
      exact ih bare
    | execute =>
      simp only [body, execute_under, under_andThen, andThen_assoc]
      exact execute_andThen fun pipe kept => ih (kept.trans bare)
    | raise => rfl

end ValkeyPipeline

namespace AdapterValkey

variable {β : Type} (self : AdapterValkey)

theorem ensureInitialized_under {rest rest' : Coroutine β}
    (same : rest = Session.under self.config.keyPrefix rest') :
    self.ensureInitialized rest = Session.under self.config.keyPrefix (self.bare.ensureInitialized rest') := by
  have here : self.bare.initialized = self.initialized := rfl
  rw [ensureInitialized, ensureInitialized, here]
  split
  · exact same
  · rfl

theorem ask_under (command : Command) (key : Key) (convert : Reply → Except Error β) :
    self.ask command key convert =
      Session.under self.config.keyPrefix (self.bare.ask command key convert) := by
  refine self.ensureInitialized_under ?_
  rw [under_andThen, under_send]
  rfl

theorem keys_under (pattern : Key) :
    self.keys pattern = Session.under self.config.keyPrefix (self.bare.keys pattern) := by
  refine self.ensureInitialized_under ?_
  rw [under_andThen, under_search, andThen_assoc]
  refine congrArg (Coroutine.andThen _) (funext fun names => ?_)
  simp only [under_ret, bare, List.length_nil, List.drop_zero, Finset.image_id']
  rfl

theorem flushNamespace_under :
    self.flushNamespace = Session.under self.config.keyPrefix self.bare.flushNamespace := by
  rw [flushNamespace, flushNamespace, under_andThen, keys_under]
  refine congrArg (Coroutine.andThen _) (funext fun keys => ?_)
  split
  · rfl
  · refine self.ensureInitialized_under ?_
    rw [under_andThen, under_send, List.map_map]
    rfl

theorem mget_under (keys : List Key) :
    self.mget keys = Session.under self.config.keyPrefix (self.bare.mget keys) := by
  rw [mget, mget]
  split
  · rfl
  · refine self.ensureInitialized_under ?_
    rw [under_andThen, under_send, List.map_map]
    rfl

theorem pipeline_under (statements : List Statement) :
    self.pipeline statements = Session.under self.config.keyPrefix (self.bare.pipeline statements) := by
  refine self.ensureInitialized_under ?_
  have new : ValkeyPipeline.new self.config.keyPrefix =
      (ValkeyPipeline.new []).under self.config.keyPrefix := rfl
  rw [under_andThen, new, ValkeyPipeline.body_under rfl, andThen_assoc]
  refine congrArg (Coroutine.andThen _) (funext fun pipe => ?_)
  show (pipe.under self.config.keyPrefix).execute.andThen _ = _
  rw [under_andThen, ValkeyPipeline.execute_under, andThen_assoc]
  rfl

/-- A method that sends nothing without arguments. -/
theorem ite_under {c : Prop} [Decidable c] {b : β} {rest rest' : Coroutine β}
    (same : rest = Session.under self.config.keyPrefix rest') :
    (if c then (.ret (.ok b) : Coroutine β) else rest) =
      Session.under self.config.keyPrefix (if c then .ret (.ok b) else rest') := by
  split
  · rfl
  · exact same

/-- Every method does through the prefix what it does without one. -/
theorem run_under (r : Request) : self.run r = Session.under self.config.keyPrefix (self.bare.run r) := by
  cases r with
  | mget keys => exact self.mget_under keys
  | pipeline statements => exact self.pipeline_under statements
  | keys pattern => exact self.keys_under pattern
  | flushNamespace => exact self.flushNamespace_under
  | sadd key members => exact self.ite_under (self.ask_under _ _ _)
  | srem key members => exact self.ite_under (self.ask_under _ _ _)
  | hset key mapping => exact self.ite_under (self.ask_under _ _ _)
  | hdel key fields => exact self.ite_under (self.ask_under _ _ _)
  | _ => exact self.ask_under _ _ _

theorem through_under (program : Program β) :
    self.through program = Session.under self.config.keyPrefix (self.bare.through program) := by
  induction program with
  | ret b => rfl
  | call r rest ih =>
    rw [through, through, under_bind, run_under]
    exact congrArg (Prog.bind _) (funext ih)

end AdapterValkey

section Isolation

variable {V β : Type} {exec : Command → Option V → Reply × Option V} {finds : Key → Key → Bool} {p : Key}
  {init : Store Char V → Prop} {s : System (Store Char V) (Running β)}

/-- The callers with the prefix `p` are in `s` where they are in `s'` without a prefix. -/
structure Isolated (p : Key)
    (s s' : System (Store Char V) (Running β)) : Prop where
  keys : s'.shared = s.shared.view p
  running : ∀ (i : Nat) (c : Caller β) (session : Session Char Command Reply β),
    s.tasks[i]? = some ⟨c, session⟩ → c.keyPrefix = p →
    ∃ session', s'.tasks[i]? = some ⟨c.bare, session'⟩ ∧ session = session'.under p
  ended : ∀ (i : Nat) (c : Caller β) (b : β), s.tasks[i]? = some ⟨c, .ret b⟩ → c.keyPrefix = p →
    s'.tasks[i]? = some ⟨c.bare, .ret b⟩

end Isolation

/-! ### A server of texts -/

/-- The commands on texts. -/
def textExec : Command → Option String → Reply × Option String
  | .get, v | .mget, v => (v.elim .none .text, v)
  | .set value, _ | .setex _ value, _ => (.text "OK", some value)
  | .delete, v => (.number (if v.isSome then 1 else 0), none)
  | .existsKey, v | .expire _, v => (.number (if v.isSome then 1 else 0), v)
  | _, v => (.error "WRONGTYPE Operation against a key holding the wrong kind of value", v)

/-- The patterns of `*`, `?` and characters that stand for themselves. -/
def glob : Key → Key → Bool
  | [], key => key.isEmpty
  | c :: pattern, key =>
    if c = '*' then key.tails.any (glob pattern)
    else key.casesOn false fun d rest => (c = '?' || c = d) && glob pattern rest

theorem literal_glob {p : Key} (plain : ∀ c ∈ p, c ≠ '*' ∧ c ≠ '?') : Literal glob p := by
  intro pattern key
  induction p generalizing key with
  | nil => simp
  | cons c p ih =>
    obtain ⟨star, any⟩ := plain c List.mem_cons_self
    have rest := ih fun d mem => plain d (List.mem_cons_of_mem _ mem)
    cases key with
    | nil => simp [glob, star]
    | cons d key =>
      have step : glob (c :: p ++ pattern) (d :: key) = ((c = d : Bool) && glob (p ++ pattern) key) := by
        simp [glob, star, any]
      rw [step, Bool.and_eq_true, rest, decide_eq_true_iff]
      constructor
      · rintro ⟨rfl, more, rfl, found⟩
        exact ⟨more, rfl, found⟩
      · rintro ⟨more, same, found⟩
        obtain ⟨rfl, rfl⟩ := List.cons.inj same
        exact ⟨rfl, more, rfl, found⟩

/-- The prefix of the default configuration, and one that is apart from it. -/
def ours : Key := AdapterValkeyConfig.default.keyPrefix

def others : Key := "metrics:".toList

theorem ours_plain : ∀ c ∈ ours, c ≠ '*' ∧ c ≠ '?' := by
  have all : ours.all (fun c => c != '*' && c != '?') = true := by decide
  intro c mem
  simpa using List.all_eq_true.mp all c mem

/-- Sets the key, then reads it. -/
def setThenGet (keyPrefix : Key) (value : String) : Caller (Except Error (Option String)) :=
  ⟨⟨⟨keyPrefix⟩, true⟩, .call (.setKey ['k'] value none) fun _ => .call (.get ['k']) .ret⟩

/-- The first caller has read what it set. -/
def readsOwn (s : System (Store Char String) (Running (Except Error (Option String)))) : Bool :=
  s.tasks.head?.any fun t =>
    match t.session with
    | .ret (.ok (some value)) => value == "mine"
    | _ => false

def Caller.isOneOf {β : Type} (keyPrefixes : List Key) : Machine.Act (Caller β) (Move Char) → Bool
  | .start c => keyPrefixes.contains c.keyPrefix
  | .resume _ _ => true

theorem starts_of_isOneOf (s : System (Store Char String) (Running (Except Error (Option String))))
    (act : Machine.Act (Caller (Except Error (Option String))) (Move Char))
    (one : Caller.isOneOf [ours, others] act = true) :
    Starts (fun c => c.keyPrefix = ours ∨ Apart ours c.keyPrefix) s act := by
  cases act with
  | resume => trivial
  | start c =>
    have mem : c.keyPrefix ∈ [ours, others] := List.contains_iff_mem.mp one
    rcases List.mem_pair.mp mem with same | same
    · exact .inl same
    · refine .inr ?_
      rw [same]
      exact ⟨by decide, by decide⟩

section Flush

variable {V : Type} {exec : Command → Option V → Reply × Option V} {finds : Key → Key → Bool} {p : Key}
  {st : Store Char V}

/-- What the server's documentation says of DEL, and of KEYS with the pattern `*`. -/
structure Documented (exec : Command → Option V → Reply × Option V) (finds : Key → Key → Bool) : Prop where
  delete : ∀ v, exec .delete v = (.number (if v.isSome then 1 else 0), none)
  star : ∀ key, finds ['*'] key = true

variable (st) in
theorem each_delete (documented : Documented exec finds) (keys : List Key) (nodup : keys.Nodup)
    (there : ∀ key ∈ keys, (st.value key).isSome = true) :
    (Store.each exec (keys.map fun key => (.delete, key)) st).1 = List.replicate keys.length (.number 1) ∧
      ∀ key, (Store.each exec (keys.map fun key => (.delete, key)) st).2.value key =
        if key ∈ keys then none else st.value key := by
  induction keys generalizing st with
  | nil => exact ⟨rfl, fun key => by simp [Store.each]⟩
  | cons key rest ih =>
    obtain ⟨fresh, nodup⟩ := List.nodup_cons.mp nodup
    have others : ∀ key' ∈ rest, ((st.put key none).value key').isSome = true := by
      intro key' mem
      have ne : key' ≠ key := fun same => fresh (same ▸ mem)
      simpa [Store.put, Function.update_apply, ne] using there key' (List.mem_cons_of_mem _ mem)
    obtain ⟨counts, gone⟩ := ih (st.put key none) nodup others
    simp only [List.map_cons, Store.each, documented.delete, there key List.mem_cons_self, if_true]
    refine ⟨by rw [counts]; rfl, fun key' => ?_⟩
    rw [gone]
    by_cases same : key' = key
    · simp [same, Store.put]
    · simp [same, Store.put]

theorem mapM_int (n : Nat) :
    (List.replicate n (Reply.number 1)).mapM Reply.int = .ok (List.replicate n 1) := by
  induction n with
  | zero => rfl
  | succ n ih =>
    rw [List.replicate_succ, List.mapM_cons, ih]
    rfl

theorem sum_replicate (n : Nat) : (List.replicate n (1 : Int)).sum = n := by
  induction n with
  | zero => rfl
  | succ n ih =>
    rw [List.replicate_succ, List.sum_cons, ih]
    omega

variable (st) in
/-- Without a prefix the namespace is the whole server. -/
theorem flushNamespace_bare (documented : Documented exec finds) (self : AdapterValkey)
    (initialized : self.initialized = true) :
    (Session.runOn exec finds self.bare.flushNamespace st).1 = .ok st.names.card ∧
      ∀ key, (Session.runOn exec finds self.bare.flushNamespace st).2.value key = none := by
  have all : (st.names.filter fun key => finds ['*'] key = true) = st.names :=
    Finset.filter_true_of_mem fun key _ => documented.star key
  have ready : ∀ {β : Type} (rest : Coroutine β), self.bare.ensureInitialized rest = rest := fun rest =>
    if_pos initialized
  have start : Session.runOn exec finds self.bare.flushNamespace st =
      Session.runOn exec finds (if st.names = ∅ then .ret (.ok 0) else
        (Coroutine.send ((st.names.sort (· ≤ ·)).map fun key => (.delete, key))).andThen fun rs =>
          .ret ((rs.mapM Reply.int).map List.sum)) st := by
    simp only [AdapterValkey.flushNamespace, AdapterValkey.keys, ready]
    simp only [Session.runOn, Coroutine.search, Coroutine.andThen, Prog.bind, Prog.run_call, Store.run,
      AdapterValkey.prefixedKey, AdapterValkey.bare, List.nil_append, all, List.length_nil, List.drop_zero,
      Finset.image_id']
  rw [start]
  by_cases none : st.names = ∅
  · rw [if_pos none, none]
    refine ⟨rfl, fun key => ?_⟩
    have outside : key ∉ st.names := by simp [none]
    show st.value key = Option.none
    simpa [st.mem_names] using outside
  · rw [if_neg none]
    have listed : ∀ key, key ∈ st.names.sort (· ≤ ·) ↔ (st.value key).isSome = true := fun key => by
      rw [Finset.mem_sort, st.mem_names]
    obtain ⟨counts, gone⟩ := each_delete st documented _ (Finset.sort_nodup _ _)
      fun key mem => (listed key).mp mem
    constructor
    · simp only [Session.runOn, Coroutine.send, Coroutine.andThen, Prog.bind, Prog.run_call, Store.run, counts]
      rw [Prog.run_ret, mapM_int, Finset.length_sort]
      exact congrArg Except.ok (sum_replicate _)
    · intro key
      refine (gone key).trans ?_
      split
      · rfl
      · rename_i absent
        simpa [listed] using absent

theorem textExec_documented : Documented textExec glob where
  delete v := rfl
  star key := by
    have last : [] ∈ key.tails := (List.mem_tails _ _).mpr List.nil_suffix
    exact List.any_eq_true.mpr ⟨[], last, rfl⟩

end Flush

end Valkey

end OmniMemory
