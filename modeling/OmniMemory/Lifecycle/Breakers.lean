import OmniMemory.Concurrency.CircuitBreaker
import OmniMemory.Lifecycle.World

/-! What the circuit breakers of the two handlers see of the database. An access is a connection with
its statement. An access that fails is recorded once, unless it fails with an `OSError`, which no
clause names; and the expire handler records a success before the connection is released. -/

namespace OmniMemory

open Interleave Prog

namespace Lifecycle

namespace Breakers

/-- An access that has ended, or a failure or timeout that is recorded. -/
inductive Entry where
  | failed
  | returned
  | recorded
deriving DecidableEq

/-- The breaker of a handler, the time, for every connection that is held whether a statement has
raised on it, and the entries so far. -/
structure Console where
  breaker : CircuitBreaker
  clock : ℚ
  held : List Bool
  log : List Entry

namespace Console

def put (c : Console) (entry : Entry) : Console := { c with log := c.log ++ [entry] }

def acquired (c : Console) : Console := { c with held := false :: c.held }

/-- A statement has raised on the last connection, or not. -/
def stated (c : Console) : Except PyError α → Console
  | .ok _ => c
  | .error _ => { c with held := true :: c.held.tail }

/-- The last connection is released, which may raise too. -/
def released (c : Console) (answer : Except PyError Unit) : Console :=
  let failed := c.held.headD false || !answer.isOk
  { c with held := c.held.tail, log := c.log ++ [if failed then .failed else .returned] }

/-- A failure or timeout is recorded. -/
def record (c : Console) (now : ℚ) (breaker : CircuitBreaker) : Console :=
  { c with clock := now, breaker, log := c.log ++ [.recorded] }

end Console

/-- What a database call raises. -/
def IsDatabaseError : PyError → Prop
  | .postgresError _ | .clientError _ | .timeoutError _ | .osError _ => True
  | _ => False

/-- The call has returned, or raised what a database call raises. -/
def Answers {α : Type} (answer : Except PyError α) : Prop :=
  ∀ e, answer = .error e → IsDatabaseError e

/-- How the surroundings answer. Calls that are not on the database or the breaker end in any way. -/
def Serves : (op : Op) → Console → Res op → Console → Prop
  | .shouldAllowRequest, c, allowed, c' => ∃ now, c.clock ≤ now ∧
    allowed = (c.breaker.shouldAllowRequest now).1 ∧
    c' = { c with clock := now, breaker := (c.breaker.shouldAllowRequest now).2 }
  | .recordSuccess, c, _, c' => c' = { c with breaker := c.breaker.recordSuccess }
  | .recordFailure, c, _, c' => ∃ now, c.clock ≤ now ∧ c' = c.record now (c.breaker.recordFailure now)
  | .recordTimeout, c, _, c' => ∃ now, c.clock ≤ now ∧ c' = c.record now (c.breaker.recordTimeout now)
  | .acquire, c, answer, c' => Answers answer ∧
    c' = if answer.isOk then c.acquired else c.put .failed
  | .release, c, answer, c' => Answers answer ∧ c' = c.released answer
  | .updateExpired .., c, answer, c' => Answers answer ∧ c' = c.stated answer
  | .readState _, c, answer, c' => Answers answer ∧ c' = c.stated answer
  | .selectMemory _, c, answer, c' => Answers answer ∧ c' = c.stated answer
  | .updateArchived .., c, answer, c' => Answers answer ∧ c' = c.stated answer
  | _, c, _, c' => c' = c

/-- The two handlers. -/
inductive Handler where
  | expire
  | archive
deriving DecidableEq

def handlerOf : Command → Handler
  | .expire .. => .expire
  | .archive .. => .archive

/-- The handler of the command was initialized. -/
def Ready : Command → Prop
  | .expire self _ _ => self.initialized = true ∧ self.dbPool = true ∧ self.circuitBreaker = true
  | .archive self _ _ => self.initialized = true ∧ self.dbPool = true ∧ self.dbCircuitBreaker = true

/-- The error is one that the handlers record. -/
def Recordable : PyError → Prop
  | .postgresError _ | .clientError _ | .timeoutError _ => True
  | _ => False

/-- The condition on a call: the database raises no `OSError` that is no `TimeoutError`, and a
connection of the expire handler is released if no statement has raised on it. -/
def Spares (handler : Handler) : (op : Op) → Console → Res op → Prop
  | .acquire, _, answer => ∀ e, answer = .error e → Recordable e
  | .release, c, answer => (∀ e, answer = .error e → Recordable e) ∧
    (handler = .expire → c.held.headD false = false → answer = .ok ())
  | .updateExpired .., _, answer => ∀ e, answer = .error e → Recordable e
  | .readState _, _, answer => ∀ e, answer = .error e → Recordable e
  | .selectMemory _, _, answer => ∀ e, answer = .error e → Recordable e
  | .updateArchived .., _, answer => ∀ e, answer = .error e → Recordable e
  | _, _, _ => True

/-- The failing accesses that come last in a row. -/
def inARow (log : List Entry) : Nat :=
  ((log.reverse.filter (· ≠ .recorded)).takeWhile (· = .failed)).length

/-- Every failing access is recorded once. -/
def RecordedOnce (log : List Entry) : Prop :=
  ∀ before after, log = before ++ .failed :: after →
    ∃ rest, after = .recorded :: rest ∧ rest.head? ≠ some .recorded

/-- A command that was served: the console before and after it, and what it returned or raised. -/
structure Served where
  command : Command
  before : Console
  out : Except PyError Result
  after : Console

/-- A command that starts while the breaker is open, and is served before its recovery timeout, fails
fast. -/
def FailsFast (s : Served) : Prop :=
  s.before.breaker.state = .opened →
    (∀ last, s.before.breaker.lastFailureTime = some last →
      s.after.clock - last < s.before.breaker.recoveryTimeout) →
    s.after.log = s.before.log ∧ ∃ result, s.out = .ok result ∧ result.success = false

/-- What the breakers should see. -/
structure SeesOutages (consoles : Handler → Console) (served : List Served) : Prop where
  once : ∀ handler, RecordedOnce (consoles handler).log
  opens : ∀ handler, (consoles handler).breaker.failureThreshold ≤ inARow (consoles handler).log →
    (consoles handler).breaker.state = .opened
  fast : ∀ s ∈ served, FailsFast s

/-- Commands to the two handlers, one after the other, in calls that all meet a condition. -/
inductive Session (X : External) (ok : Handler → (op : Op) → Console → Res op → Prop) :
    List Served → (Handler → Console) → Prop where
  | nil (start : Handler → Console)
    (fresh : ∀ handler, (start handler).held = [] ∧ (start handler).log = [] ∧
      ∃ threshold recovery success, 0 < threshold ∧
        (start handler).breaker = .new threshold recovery success) : Session X ok [] start
  | snoc {served : List Served} {consoles : Handler → Console} {command : Command}
      {out : Except PyError Result} {after : Console} (session : Session X ok served consoles)
      (ready : Ready command)
      (runs : Runs (fun op c answer c' => Serves op c answer c' ∧ ok (handlerOf command) op c answer)
        (code X command) (consoles (handlerOf command)) out after) :
      Session X ok (served ++ [⟨command, consoles (handlerOf command), out, after⟩])
        (Function.update consoles (handlerOf command) after)

/-! ### The log -/

section Log

variable {log : List Entry}

@[simp] theorem inARow_failed : inARow (log ++ [.failed]) = inARow log + 1 := by
  simp [inARow]

@[simp] theorem inARow_returned : inARow (log ++ [.returned]) = 0 := by
  simp [inARow]

@[simp] theorem inARow_recorded : inARow (log ++ [.recorded]) = inARow log := by
  simp [inARow]

theorem recordedOnce_nil : RecordedOnce [] := by
  intro before after split
  simp at split

/-- The last entry is the failing access itself, or comes after it. -/
theorem split_concat {entry : Entry} {before after : List Entry}
    (split : log ++ [entry] = before ++ .failed :: after) :
    log = before ∧ entry = .failed ∧ after = [] ∨
      ∃ after', after = after' ++ [entry] ∧ log = before ++ .failed :: after' := by
  rcases after.eq_nil_or_concat with rfl | ⟨after', last, rfl⟩
  · obtain ⟨rfl, same⟩ := List.append_inj' split rfl
    exact .inl ⟨rfl, List.singleton_inj.mp same, rfl⟩
  · rw [List.concat_eq_append, ← List.cons_append, ← List.append_assoc] at split
    obtain ⟨rfl, same⟩ := List.append_inj' split rfl
    obtain rfl := List.singleton_inj.mp same
    exact .inr ⟨after', List.concat_eq_append, rfl⟩

theorem RecordedOnce.returned (once : RecordedOnce log) : RecordedOnce (log ++ [.returned]) := by
  intro before after split
  rcases split_concat split with ⟨-, wrong, -⟩ | ⟨after', rfl, earlier⟩
  · contradiction
  · obtain ⟨rest, rfl, head⟩ := once before after' earlier
    refine ⟨rest ++ [.returned], rfl, ?_⟩
    cases rest with
    | nil => decide
    | cons entry rest => exact head

theorem RecordedOnce.failed (once : RecordedOnce log) :
    RecordedOnce (log ++ [.failed] ++ [.recorded]) := by
  intro before after split
  rcases split_concat split with ⟨-, wrong, -⟩ | ⟨after', rfl, shorter⟩
  · contradiction
  rcases split_concat shorter with ⟨-, -, rfl⟩ | ⟨after'', rfl, earlier⟩
  · exact ⟨[], rfl, by decide⟩
  · obtain ⟨rest, rfl, head⟩ := once before after'' earlier
    refine ⟨rest ++ [.failed] ++ [.recorded], rfl, ?_⟩
    cases rest with
    | nil => decide
    | cons entry rest => exact head

/-- A record after an access that has returned. -/
theorem RecordedOnce.recorded (once : RecordedOnce log) :
    RecordedOnce (log ++ [.returned] ++ [.recorded]) := by
  intro before after split
  rcases split_concat split with ⟨-, wrong, -⟩ | ⟨after', rfl, shorter⟩
  · contradiction
  rcases split_concat shorter with ⟨-, wrong, -⟩ | ⟨after'', rfl, earlier⟩
  · contradiction
  · obtain ⟨rest, rfl, head⟩ := once before after'' earlier
    refine ⟨rest ++ [.returned] ++ [.recorded], rfl, ?_⟩
    cases rest with
    | nil => decide
    | cons entry rest => exact head

end Log

/-! ### The breaker between two calls -/

section Phases

variable {threshold : Nat} {c c' : Console} {now : ℚ}

/-- What holds in every moment of a command at which all failing accesses are recorded. -/
structure Weak (threshold : Nat) (c : Console) : Prop where
  once : RecordedOnce c.log
  threshold_eq : c.breaker.failureThreshold = threshold
  below : c.breaker.state = .closed → c.breaker.failureCount < threshold

/-- What holds after a command is let on: the breaker has counted the failing accesses. -/
structure Counted (threshold : Nat) (c : Console) : Prop extends Weak threshold c where
  counted : c.breaker.state = .closed → inARow c.log ≤ c.breaker.failureCount

/-- What holds between two commands. -/
structure Rests (threshold : Nat) (c : Console) : Prop extends Counted threshold c where
  half : c.breaker.state = .halfOpen → inARow c.log = 0

/-- The time and the connections do not matter. -/
theorem Weak.of_eq (weak : Weak threshold c) (breaker : c'.breaker = c.breaker)
    (log : c'.log = c.log) : Weak threshold c' :=
  ⟨log ▸ weak.once, breaker ▸ weak.threshold_eq, breaker ▸ weak.below⟩

theorem Counted.of_eq (counted : Counted threshold c) (breaker : c'.breaker = c.breaker)
    (log : c'.log = c.log) : Counted threshold c' :=
  ⟨counted.toWeak.of_eq breaker log, by rw [breaker, log]; exact counted.counted⟩

theorem Rests.opens (rests : Rests threshold c) (pos : 0 < threshold)
    (row : threshold ≤ inARow c.log) : c.breaker.state = .opened := by
  cases state : c.breaker.state with
  | closed =>
    have := rests.counted state
    have := rests.below state
    omega
  | opened => rfl
  | halfOpen =>
    have := rests.half state
    omega

/-- After an access that has returned, no failing access is the last. -/
theorem Weak.rests (weak : Weak threshold c) (row : inARow c.log = 0) : Rests threshold c :=
  ⟨⟨weak, fun _ => by omega⟩, fun _ => row⟩

theorem Weak.recordSuccess (weak : Weak threshold c) (pos : 0 < threshold) :
    Weak threshold { c with breaker := c.breaker.recordSuccess } where
  once := weak.once
  threshold_eq := CircuitBreaker.recordSuccess_cases.1.trans weak.threshold_eq
  below closed := by
    show c.breaker.recordSuccess.failureCount < threshold
    rw [CircuitBreaker.recordSuccess_cases.2.2.1 closed]
    exact pos

/-- A failing access is recorded. -/
theorem Counted.record {breaker : CircuitBreaker} (counted : Counted threshold c)
    (keeps : breaker.failureThreshold = c.breaker.failureThreshold)
    (count : breaker.failureCount = c.breaker.failureCount + 1)
    (state : breaker.state = if c.breaker.state = .closed ∧
      c.breaker.failureCount + 1 < c.breaker.failureThreshold then .closed else .opened) :
    Rests threshold ((c.put .failed).record now breaker) := by
  have open_or : breaker.state = .opened ∨ breaker.state = .closed ∧ c.breaker.state = .closed ∧
      c.breaker.failureCount + 1 < threshold := by
    rw [counted.threshold_eq] at state
    split at state
    · rename_i small
      exact .inr ⟨state, small⟩
    · exact .inl state
  refine ⟨⟨⟨counted.once.failed, keeps.trans counted.threshold_eq, fun closed => ?_⟩,
    fun closed => ?_⟩, fun half => ?_⟩
  · rcases open_or with opened | ⟨-, -, small⟩
    · rw [show breaker.state = .closed from closed] at opened
      contradiction
    · exact count ▸ small
  · rcases open_or with opened | ⟨-, closed', -⟩
    · rw [show breaker.state = .closed from closed] at opened
      contradiction
    · have before := counted.counted closed'
      show inARow (c.log ++ [.failed] ++ [.recorded]) ≤ breaker.failureCount
      rw [inARow_recorded, inARow_failed]
      omega
  · rcases open_or with opened | ⟨closed, -⟩
    · rw [show breaker.state = .halfOpen from half] at opened
      contradiction
    · rw [show breaker.state = .halfOpen from half] at closed
      contradiction

/-- A failure or timeout that is recorded now leaves a console that rests. -/
def Records (threshold : Nat) (c : Console) : Prop := ∀ now,
  Rests threshold (c.record now (c.breaker.recordFailure now)) ∧
    Rests threshold (c.record now (c.breaker.recordTimeout now))

theorem Counted.records (counted : Counted threshold c) : Records threshold (c.put .failed) := by
  intro now
  constructor
  · obtain ⟨keeps, count, state⟩ := c.breaker.recordFailure_cases now
    exact counted.record keeps count state
  · obtain ⟨keeps, count, state⟩ := c.breaker.recordTimeout_cases now
    exact counted.record keeps count state

theorem Counted.request (counted : Counted threshold c) (now : ℚ) :
    Counted threshold { c with
      clock := now, breaker := (c.breaker.shouldAllowRequest now).2 } := by
  obtain ⟨⟨once, threshold, below⟩, counted⟩ := counted
  rcases c.breaker.shouldAllowRequest_cases now with ⟨same, -⟩ | ⟨same, -⟩ | ⟨same, -⟩
  · rw [same]
    exact ⟨⟨once, threshold, below⟩, counted⟩
  · rw [same]
    exact ⟨⟨once, threshold, below⟩, counted⟩
  · rw [same]
    exact ⟨⟨once, threshold, nofun⟩, nofun⟩

theorem Weak.returned (weak : Weak threshold c) : Rests threshold (c.put .returned) :=
  Weak.rests ⟨weak.once.returned, weak.threshold_eq, weak.below⟩ inARow_returned

/-- One more failure may be recorded after an access that has returned. -/
theorem Weak.records (weak : Weak threshold c) {l : List Entry} (last : c.log = l ++ [.returned])
    (once : RecordedOnce l) : Records threshold c := by
  have row : ∀ now breaker, inARow (c.record now breaker).log = 0 := by
    intro now breaker
    show inARow (c.log ++ [.recorded]) = 0
    rw [last, inARow_recorded, inARow_returned]
  have log : RecordedOnce (c.log ++ [.recorded]) := last ▸ once.recorded
  have rests : ∀ now breaker, breaker.failureThreshold = c.breaker.failureThreshold →
      breaker.failureCount = c.breaker.failureCount + 1 →
      (breaker.state = if c.breaker.state = .closed ∧
        c.breaker.failureCount + 1 < c.breaker.failureThreshold then .closed else .opened) →
      Rests threshold (c.record now breaker) := by
    intro now breaker keeps count state
    refine Weak.rests ⟨log, keeps.trans weak.threshold_eq, fun closed => ?_⟩ (row now breaker)
    rw [show breaker.state = .closed from closed, weak.threshold_eq] at state
    split at state
    · rename_i small
      exact count ▸ small.2
    · contradiction
  intro now
  constructor
  · obtain ⟨keeps, count, state⟩ := c.breaker.recordFailure_cases now
    exact rests now _ keeps count state
  · obtain ⟨keeps, count, state⟩ := c.breaker.recordTimeout_cases now
    exact rests now _ keeps count state

end Phases

/-! ### The archive handler -/

/-- The calls that a handler's session makes. -/
abbrev Sparing (handler : Handler) (op : Op) (c : Console) (answer : Res op) (c' : Console) : Prop :=
  Serves op c answer c' ∧ Spares handler op c answer

section Accesses

variable {α : Type} {handler : Handler} {threshold : Nat} {c : Console}

theorem Rests.request {allowed : Bool} {c' : Console} (rests : Rests threshold c)
    (served : Serves .shouldAllowRequest c allowed c') :
    Counted threshold c' ∧ (allowed = false → Rests threshold c') := by
  obtain ⟨now, -, rfl, rfl⟩ := served
  refine ⟨rests.toCounted.request now, fun refused => ?_⟩
  rcases c.breaker.shouldAllowRequest_cases now with ⟨same, -⟩ | ⟨same, -⟩ | ⟨same, -⟩
  · rw [same] at refused
    contradiction
  · rw [same]
    exact ⟨rests.toCounted.of_eq rfl rfl, rests.half⟩
  · rw [same] at refused
    contradiction

theorem recordFailure_always (records : Records threshold c) :
    Always (Sparing handler) recordFailure c fun _ c' =>
      Rests threshold c' ∧ c'.held = c.held := by
  refine always_op.mpr fun _ c' served => always_ret.mpr ?_
  obtain ⟨⟨now, -, rfl⟩, -⟩ := served
  exact ⟨(records now).1, rfl⟩

theorem recordTimeout_always (records : Records threshold c) :
    Always (Sparing handler) recordTimeout c fun _ c' =>
      Rests threshold c' ∧ c'.held = c.held := by
  refine always_op.mpr fun _ c' served => always_ret.mpr ?_
  obtain ⟨⟨now, -, rfl⟩, -⟩ := served
  exact ⟨(records now).2, rfl⟩

/-- The console when a statement has raised on the connection. -/
def Console.broken (c : Console) : Console := { c with held := true :: c.held }

/-- An access by a block that raises if its statement does, and otherwise leaves the console. -/
theorem withConnection_always {body : LifecycleProg (Except PyError α)}
    {P : Except PyError α → Prop}
    (block : Always (Sparing handler) body c.acquired fun out c' =>
      (∃ e, Recordable e ∧ out = .error e ∧ c' = c.broken) ∨ c' = c.acquired ∧ P out) :
    Always (Sparing handler) (withConnection body) c fun out c' =>
      (∃ e, Recordable e ∧ out = .error e ∧ c' = c.put .failed) ∨ c' = c.put .returned ∧ P out := by
  refine always_op.mpr fun answer c₁ served => ?_
  obtain ⟨⟨-, rfl⟩, recordable⟩ := served
  cases answer with
  | error e => exact always_ret.mpr (.inl ⟨e, recordable e rfl, rfl, rfl⟩)
  | ok =>
    refine block.seq ?_
    rintro out c₂ (⟨e, raised, rfl, rfl⟩ | ⟨rfl, here⟩)
    · refine always_op.mpr fun answer c₃ served => ?_
      obtain ⟨⟨-, rfl⟩, recordable, -⟩ := served
      cases answer with
      | error e' => exact always_ret.mpr (.inl ⟨e', recordable e' rfl, rfl, rfl⟩)
      | ok => exact always_ret.mpr (.inl ⟨e, raised, rfl, rfl⟩)
    · refine always_op.mpr fun answer c₃ served => ?_
      obtain ⟨⟨-, rfl⟩, recordable, -⟩ := served
      cases answer with
      | error e' => exact always_ret.mpr (.inl ⟨e', recordable e' rfl, rfl, rfl⟩)
      | ok => exact always_ret.mpr (.inr ⟨rfl, here⟩)

end Accesses

section Archive

variable {X : External} {self : HandlerMemoryArchive} {threshold : Nat} {c : Console}

theorem readMemory_always (ready : self.dbPool = true) (id : UUID) (revision : Nat) :
    Always (Sparing .archive) (self.readMemory X id revision) c fun out c' =>
      (∃ e, Recordable e ∧ out = .error e ∧ c' = c.put .failed) ∨
        c' = c.put .returned ∧ ((∃ text, out = .error (.valueError text)) ∨ ∃ read, out = .ok read) := by
  unfold HandlerMemoryArchive.readMemory
  simp only [ready, Bool.not_true, Bool.false_eq_true, if_false]
  refine withConnection_always (always_op.mpr fun answer c' served => ?_)
  obtain ⟨⟨-, rfl⟩, recordable⟩ := served
  rcases answer with e | _ | row
  · exact always_ret.mpr (.inl ⟨e, recordable e rfl, rfl, rfl⟩)
  · exact always_ret.mpr (.inr ⟨rfl, .inl ⟨_, rfl⟩⟩)
  · dsimp only
    split
    · exact always_ret.mpr (.inr ⟨rfl, .inr ⟨_, rfl⟩⟩)
    split
    · exact always_ret.mpr (.inr ⟨rfl, .inr ⟨_, rfl⟩⟩)
    · split
      · exact always_ret.mpr (.inr ⟨rfl, .inl ⟨_, rfl⟩⟩)
      · exact always_ret.mpr (.inr ⟨rfl, .inr ⟨_, rfl⟩⟩)

theorem markArchived_always (ready : self.dbPool = true) (id : UUID) (revision : Nat)
    (time : DateTime) (path : PurePath) :
    Always (Sparing .archive) (self.markArchived id revision time path) c fun out c' =>
      (∃ e, Recordable e ∧ out = .error e ∧ c' = c.put .failed) ∨
        c' = c.put .returned ∧
          ((∃ text, out = .error (.runtimeError text)) ∨ ∃ updated, out = .ok updated) := by
  unfold HandlerMemoryArchive.markArchived
  simp only [ready, Bool.not_true, Bool.false_eq_true, if_false]
  refine withConnection_always (always_op.mpr fun answer c' served => ?_)
  obtain ⟨⟨-, rfl⟩, recordable⟩ := served
  rcases answer with e | rows | text
  · exact always_ret.mpr (.inl ⟨e, recordable e rfl, rfl, rfl⟩)
  · exact always_ret.mpr (.inr ⟨rfl, .inr ⟨_, rfl⟩⟩)
  · exact always_ret.mpr (.inr ⟨rfl, .inl ⟨_, rfl⟩⟩)

theorem trackIfConfigured_always (id : UUID) (path : PurePath) (reason : String) :
    Always (Sparing .archive) (self.trackIfConfigured id path reason) c fun _ c' => c' = c := by
  unfold HandlerMemoryArchive.trackIfConfigured
  split
  · exact always_op.mpr fun answer c' served => always_ret.mpr served.1
  · exact always_ret.mpr rfl

theorem reportOrphan_always {record : LifecycleProg Unit} {command : ModelArchiveMemoryCommand}
    {path : PurePath} {bytes : Nat} {reason message : String}
    (recorded : Always (Sparing .archive) record c fun _ c' => Rests threshold c' ∧ c'.held = c.held) :
    Always (Sparing .archive) (self.reportOrphan record command path bytes reason message) c
      fun _ c' => Rests threshold c' := by
  refine recorded.seq fun _ c' ⟨rests, _⟩ => ?_
  refine (trackIfConfigured_always _ _ _).seq ?_
  rintro answer _ rfl
  cases answer <;> exact always_ret.mpr rests

/-- An error is left to be recorded, or the console rests. -/
def Settles {α : Type} (threshold : Nat) (out : Except PyError α) (c : Console) : Prop :=
  (∃ e, Recordable e ∧ out = .error e ∧ Records threshold c) ∨
    Rests threshold c ∧ ∀ e, out = .error e → ¬ Recordable e

theorem updateState_always (ready : self.dbPool = true) (pos : 0 < threshold)
    (rests : Rests threshold c) (now : DateTime) (command : ModelArchiveMemoryCommand)
    (path : PurePath) (bytes : Nat) :
    Always (Sparing .archive) (self.updateState now command path bytes) c
      fun out c' => Settles threshold out c' := by
  have returned := rests.toWeak.returned
  have weak := returned.toWeak.recordSuccess pos
  unfold HandlerMemoryArchive.updateState
  refine (markArchived_always ready _ _ _ _).seq ?_
  rintro out c' (⟨e, raised, rfl, rfl⟩ | ⟨rfl, ⟨text, rfl⟩ | ⟨updated, rfl⟩⟩)
  · exact always_ret.mpr (.inl ⟨e, raised, rfl, rests.toCounted.records⟩)
  · refine always_ret.mpr (.inr ⟨returned, ?_⟩)
    rintro _ ⟨⟩ ⟨⟩
  · refine always_op.mpr fun _ c' served => ?_
    obtain ⟨rfl, -⟩ := served
    have resting := weak.rests inARow_returned
    cases updated with
    | true => exact always_ret.mpr (.inr ⟨resting, nofun⟩)
    | false =>
      refine (trackIfConfigured_always _ _ _).seq ?_
      rintro answer _ rfl
      cases answer with
      | error e =>
        -- The clauses of the update take an error of the tracker for one of the database.
        by_cases raised : Recordable e
        · exact always_ret.mpr (.inl ⟨e, raised, rfl, weak.records rfl rests.once⟩)
        · refine always_ret.mpr (.inr ⟨resting, ?_⟩)
          rintro _ ⟨⟩
          exact raised
      | ok => exact always_ret.mpr (.inr ⟨resting, nofun⟩)

theorem finishArchive_always (ready : self.dbPool = true) (pos : 0 < threshold)
    (rests : Rests threshold c) (now : DateTime) (command : ModelArchiveMemoryCommand)
    (path : PurePath) (bytes : Nat) :
    Always (Sparing .archive) (self.finishArchive now command path bytes) c
      fun _ c' => Rests threshold c' := by
  unfold HandlerMemoryArchive.finishArchive
  refine (updateState_always ready pos rests _ _ _ _).seq ?_
  rintro out c' (⟨e, raised, rfl, records⟩ | ⟨resting, unrecorded⟩)
  · cases e with
    | postgresError | clientError => exact reportOrphan_always (recordFailure_always records)
    | timeoutError => exact reportOrphan_always (recordTimeout_always records)
    | _ => exact raised.elim
  · rcases out with e | _ | conflict
    · have raised := unrecorded e rfl
      cases e with
      | postgresError | clientError | timeoutError => exact absurd trivial raised
      | _ => exact always_ret.mpr resting
    · exact always_ret.mpr resting
    · exact always_ret.mpr resting

theorem archiveMemory_always (ready : self.dbPool = true) (pos : 0 < threshold)
    (rests : Rests threshold c) (now : DateTime) (command : ModelArchiveMemoryCommand)
    (memory : ModelMemoryRow) :
    Always (Sparing .archive) (self.archiveMemory X now command memory) c
      fun _ c' => Rests threshold c' := by
  have write : ∀ path bytes, Always (Sparing .archive) (self.writeAndUpdate X now command path bytes) c
      fun _ c' => Rests threshold c' := by
    intro path bytes
    unfold HandlerMemoryArchive.writeAndUpdate
    dsimp only
    split
    · exact always_ret.mpr rests
    have files : Always (Sparing .archive) (HandlerMemoryArchive.writeArchiveSync path bytes) c
        fun _ c' => c' = c :=
      (HandlerMemoryArchive.writeArchiveSync_uses path bytes fun _ file => file).always_same
        (fun op s answer s' file served => by
          cases op <;> first | contradiction | exact served.1) c
    refine files.seq ?_
    rintro (e | bytesWritten) _ rfl
    · dsimp only
      split <;> exact always_ret.mpr rests
    · exact finishArchive_always ready pos rests _ _ _ _
  unfold HandlerMemoryArchive.archiveMemory
  dsimp only
  split
  · exact always_ret.mpr rests
  split
  · exact write _ _
  · exact write _ _
  · exact always_ret.mpr rests

/-- A command of the archive handler leaves a console that rests. -/
theorem archive_always (ready : self.initialized = true ∧ self.dbPool = true ∧
    self.dbCircuitBreaker = true) (pos : 0 < threshold) (rests : Rests threshold c)
    (now : DateTime) (command : ModelArchiveMemoryCommand) :
    Always (Sparing .archive) (self.handle X now command) c fun _ c' => Rests threshold c' := by
  obtain ⟨initialized, dbPool, breaker⟩ := ready
  unfold HandlerMemoryArchive.handle
  simp only [initialized, breaker, Bool.not_true, Bool.false_eq_true, if_false]
  refine always_op.mpr fun allowed c' served => ?_
  obtain ⟨counted, refused⟩ := rests.request served.1
  cases allowed with
  | false => exact always_ret.mpr (refused rfl)
  | true =>
    have read := readMemory_always (X := X) (c := c') dbPool command.memoryId
      command.expectedRevision
    refine Always.seq read ?_
    rintro out c'' (⟨e, raised, rfl, rfl⟩ | ⟨rfl, ⟨text, rfl⟩ | ⟨found, rfl⟩⟩)
    · have records := counted.records
      cases e with
      | postgresError | clientError =>
        exact (recordFailure_always records).seq fun _ _ ⟨rests, _⟩ => always_ret.mpr rests
      | timeoutError =>
        exact (recordTimeout_always records).seq fun _ _ ⟨rests, _⟩ => always_ret.mpr rests
      | _ => exact raised.elim
    · exact always_ret.mpr counted.toWeak.returned
    · cases found with
      | none => exact always_ret.mpr counted.toWeak.returned
      | some memory =>
        refine always_op.mpr fun _ c'' served => ?_
        obtain ⟨rfl, -⟩ := served
        have weak := counted.toWeak.returned.toWeak.recordSuccess pos
        exact archiveMemory_always dbPool pos (weak.rests inARow_returned) now command memory

end Archive

/-! ### The expire handler -/

section Expire

variable {self : HandlerMemoryExpire} {threshold : Nat} {c : Console}

/-- A block of the expire handler makes other calls before the connection is released, which then
does not fail. -/
theorem withConnection_expire {α : Type} (threshold : Nat) {body : LifecycleProg (Except PyError α)}
    (block : Always (Sparing .expire) body c.acquired fun out c' =>
      (∃ e, Recordable e ∧ out = .error e ∧ c' = c.broken) ∨
        c'.held = false :: c.held ∧ Weak threshold c' ∧ ∃ value, out = .ok value) :
    Always (Sparing .expire) (withConnection body) c fun out c' =>
      (∃ e, Recordable e ∧ out = .error e ∧ c' = c.put .failed) ∨
        c'.held = c.held ∧ Rests threshold c' ∧ ∃ value, out = .ok value := by
  refine always_op.mpr fun answer c₁ served => ?_
  obtain ⟨⟨-, rfl⟩, recordable⟩ := served
  cases answer with
  | error e => exact always_ret.mpr (.inl ⟨e, recordable e rfl, rfl, rfl⟩)
  | ok =>
    refine block.seq ?_
    rintro out c₂ (⟨e, raised, rfl, rfl⟩ | ⟨held, weak, value, rfl⟩)
    · refine always_op.mpr fun answer c₃ served => ?_
      obtain ⟨⟨-, rfl⟩, recordable, -⟩ := served
      cases answer with
      | error e' => exact always_ret.mpr (.inl ⟨e', recordable e' rfl, rfl, rfl⟩)
      | ok => exact always_ret.mpr (.inl ⟨e, raised, rfl, rfl⟩)
    · refine always_op.mpr fun answer c₃ served => ?_
      obtain ⟨⟨-, rfl⟩, -, released⟩ := served
      obtain rfl : answer = .ok () := released rfl (by rw [held]; rfl)
      have log : (c₂.released (.ok ())).log = c₂.log ++ [.returned] := by
        simp [Console.released, held, Except.isOk, Except.toBool]
      refine always_ret.mpr (.inr ⟨by rw [Console.released, held]; rfl, ?_, value, rfl⟩)
      refine Weak.rests ⟨?_, weak.threshold_eq, weak.below⟩ (by rw [log, inARow_returned])
      rw [log]
      exact weak.once.returned

theorem readCurrentState_always (ready : self.initialized = true ∧ self.dbPool = true ∧
    self.circuitBreaker = true) (pos : 0 < threshold) (counted : Counted threshold c) (id : UUID) :
    Always (Sparing .expire) (self.readCurrentState id) c fun out c' =>
      Counted threshold c' ∧ c'.held = c.held ∧ ((∃ state, out = .ok state) ∨
        ∃ e, out = .error e ∧ (Recordable e ∨ ∃ text, e = .circuitBreakerOpenError text)) := by
  obtain ⟨initialized, dbPool, breaker⟩ := ready
  unfold HandlerMemoryExpire.readCurrentState
  simp only [initialized, dbPool, breaker, Bool.not_true, Bool.false_eq_true, if_false]
  refine always_op.mpr fun allowed c' served => ?_
  obtain ⟨⟨now, -, -, rfl⟩, -⟩ := served
  have counted := counted.request now
  cases allowed with
  | false => exact always_ret.mpr ⟨counted, rfl, .inr ⟨_, rfl, .inr ⟨_, rfl⟩⟩⟩
  | true =>
    refine Always.seq (withConnection_expire threshold ?_) ?_
    · refine always_op.mpr fun answer c' served => ?_
      obtain ⟨⟨-, rfl⟩, recordable⟩ := served
      rcases answer with e | _ | row
      · exact always_ret.mpr (.inl ⟨e, recordable e rfl, rfl, rfl⟩)
      · refine always_op.mpr fun _ c' served => always_ret.mpr ?_
        obtain ⟨rfl, -⟩ := served
        exact .inr ⟨rfl, (counted.toWeak.recordSuccess pos).of_eq rfl rfl, _, rfl⟩
      · refine always_op.mpr fun _ c' served => always_ret.mpr ?_
        obtain ⟨rfl, -⟩ := served
        exact .inr ⟨rfl, (counted.toWeak.recordSuccess pos).of_eq rfl rfl, _, rfl⟩
    · rintro out c'' (⟨e, raised, rfl, rfl⟩ | ⟨held, rests, state, rfl⟩)
      · have records := counted.records
        cases e with
        | postgresError | clientError =>
          exact (recordFailure_always records).seq fun _ _ ⟨rests, held⟩ =>
            always_ret.mpr ⟨rests.toCounted, held, .inr ⟨_, rfl, .inl trivial⟩⟩
        | timeoutError =>
          exact (recordTimeout_always records).seq fun _ _ ⟨rests, held⟩ =>
            always_ret.mpr ⟨rests.toCounted, held, .inr ⟨_, rfl, .inl trivial⟩⟩
        | _ => exact raised.elim
      · exact always_ret.mpr ⟨rests.toCounted, held, .inl ⟨state, rfl⟩⟩

theorem explainMiss_always (ready : self.initialized = true ∧ self.dbPool = true ∧
    self.circuitBreaker = true) (pos : 0 < threshold) (counted : Counted threshold c)
    (command : ModelExpireMemoryCommand) :
    Always (Sparing .expire) (self.explainMiss command) c fun out c' =>
      c'.held = c.held ∧ Weak threshold c' ∧ ∃ result, out = .ok result := by
  unfold HandlerMemoryExpire.explainMiss
  refine (readCurrentState_always ready pos counted _).seq ?_
  rintro out c' ⟨counted, held, ⟨state, rfl⟩ | ⟨e, rfl, raised | ⟨text, rfl⟩⟩⟩
  · have weak := counted.toWeak.recordSuccess pos
    cases state with
    | none =>
      refine always_op.mpr fun _ c' served => ?_
      obtain ⟨rfl, -⟩ := served
      exact always_ret.mpr ⟨held, weak, _, rfl⟩
    | some state =>
      refine always_op.mpr fun _ c' served => ?_
      obtain ⟨rfl, -⟩ := served
      dsimp only
      split <;> exact always_ret.mpr ⟨held, weak, _, rfl⟩
  · cases e with
    | postgresError | clientError | timeoutError =>
      exact always_ret.mpr ⟨held, counted.toWeak, _, rfl⟩
    | _ => exact raised.elim
  · exact always_ret.mpr ⟨held, counted.toWeak, _, rfl⟩

/-- A command of the expire handler leaves a console that rests. -/
theorem expire_always (ready : self.initialized = true ∧ self.dbPool = true ∧
    self.circuitBreaker = true) (pos : 0 < threshold) (rests : Rests threshold c) (now : DateTime)
    (command : ModelExpireMemoryCommand) :
    Always (Sparing .expire) (self.handle now command) c fun _ c' => Rests threshold c' := by
  obtain ⟨initialized, dbPool, breaker⟩ := id ready
  unfold HandlerMemoryExpire.handle
  simp only [initialized, dbPool, breaker, Bool.not_true, Bool.false_eq_true, if_false]
  refine always_op.mpr fun allowed c' served => ?_
  obtain ⟨counted, refused⟩ := rests.request served.1
  cases allowed with
  | false => exact always_ret.mpr (refused rfl)
  | true =>
    refine Always.seq (withConnection_expire threshold ?_) ?_
    · refine always_op.mpr fun answer c'' served => ?_
      obtain ⟨⟨-, rfl⟩, recordable⟩ := served
      rcases answer with e | _ | revision
      · exact always_ret.mpr (.inl ⟨e, recordable e rfl, rfl, rfl⟩)
      · have counted : Counted threshold (c'.acquired.stated (.ok (none : Option Nat))) :=
          counted.of_eq rfl rfl
        exact (explainMiss_always ready pos counted command).imp fun _ _ told => .inr told
      · refine always_op.mpr fun _ c'' served => always_ret.mpr ?_
        obtain ⟨rfl, -⟩ := served
        exact .inr ⟨rfl, (counted.toWeak.recordSuccess pos).of_eq rfl rfl, _, rfl⟩
    · rintro out c'' (⟨e, raised, rfl, rfl⟩ | ⟨held, rests, result, rfl⟩)
      · have records := counted.records
        cases e with
        | postgresError | clientError =>
          exact (recordFailure_always records).seq fun _ _ ⟨rests, _⟩ => always_ret.mpr rests
        | timeoutError =>
          exact (recordTimeout_always records).seq fun _ _ ⟨rests, _⟩ => always_ret.mpr rests
        | _ => exact raised.elim
      · exact always_ret.mpr rests

end Expire

/-! ### Sessions -/

section Sessions

variable {X : External} {threshold : Nat} {c c' : Console} {command : Command}

theorem command_always (ready : Ready command) (pos : 0 < threshold) (rests : Rests threshold c) :
    Always (Sparing (handlerOf command)) (code X command) c fun _ c' => Rests threshold c' := by
  cases command with
  | expire self now command =>
    exact (expire_always ready pos rests now command).seq fun _ _ rests => always_ret.mpr rests
  | archive self now command =>
    exact (archive_always ready pos rests now command).seq fun _ _ rests => always_ret.mpr rests

/-- Time does not go back. -/
theorem Serves.clock_le {op : Op} {answer : Res op} (served : Serves op c answer c') :
    c.clock ≤ c'.clock := by
  cases op with
  | shouldAllowRequest =>
    obtain ⟨now, le, -, rfl⟩ := served
    exact le
  | recordFailure | recordTimeout =>
    obtain ⟨now, le, rfl⟩ := served
    exact le
  | acquire =>
    obtain ⟨-, rfl⟩ := served
    split <;> exact le_rfl
  | updateExpired | readState | selectMemory | updateArchived =>
    obtain ⟨-, rfl⟩ := served
    cases answer <;> exact le_rfl
  | release =>
    obtain ⟨-, rfl⟩ := served
    exact le_rfl
  | _ => exact (congrArg Console.clock served).ge

theorem refused_of_opened {b : CircuitBreaker} {now : ℚ} (opened : b.state = .opened)
    (early : ∀ last, b.lastFailureTime = some last → now - last < b.recoveryTimeout) :
    b.shouldAllowRequest now = (false, b) := by
  cases last : b.lastFailureTime with
  | none => simp [CircuitBreaker.shouldAllowRequest, opened, last]
  | some last' =>
    have soon := not_le_of_gt (early last' last)
    simp [CircuitBreaker.shouldAllowRequest, opened, last, soon]

/-- A program that asks the breaker first, and returns a failure when it is refused. -/
theorem failsFast_of_request {handler : Handler} {result : Result}
    {next : Bool → LifecycleProg (Except PyError Result)} (refused : next false = .ret (.ok result))
    (failed : result.success = false) :
    Always (Sparing handler) (shouldAllowRequest >>= next) c fun out c' =>
      FailsFast ⟨command, c, out, c'⟩ := by
  refine always_op.mpr fun allowed c₁ served out c' runs opened early => ?_
  obtain ⟨⟨now, -, rfl, rfl⟩, -⟩ := served
  have later := runs.rel (R := fun c c' => c.clock ≤ c'.clock) (fun _ => le_rfl)
    (fun first second => le_trans first second) fun _ _ _ _ served => served.1.clock_le
  have open_ : c.breaker.shouldAllowRequest now = (false, c.breaker) :=
    refused_of_opened opened fun last same =>
      (sub_le_sub_right later last).trans_lt (early last same)
  rw [open_, refused] at runs
  obtain ⟨returned, same⟩ := runs_ret.mp runs
  have log : c'.log = c.log := by rw [same]
  exact ⟨log, result, returned, failed⟩

/-- While the breaker is open and before its recovery timeout, a command returns a failure at once. -/
theorem command_fast {handler : Handler} (ready : Ready command) :
    Always (Sparing handler) (code X command) c fun out c' => FailsFast ⟨command, c, out, c'⟩ := by
  cases command with
  | expire self now command =>
    obtain ⟨initialized, dbPool, breaker⟩ := ready
    unfold code HandlerMemoryExpire.handle
    simp only [initialized, dbPool, breaker, Bool.not_true, Bool.false_eq_true, if_false, bind_assoc]
    exact failsFast_of_request rfl rfl
  | archive self now command =>
    obtain ⟨initialized, -, breaker⟩ := ready
    unfold code HandlerMemoryArchive.handle
    simp only [initialized, breaker, Bool.not_true, Bool.false_eq_true, if_false, bind_assoc]
    exact failsFast_of_request rfl rfl

/-- In a session whose calls spare the handlers, the breakers see every outage. -/
theorem session_seesOutages {served : List Served} {consoles : Handler → Console}
    (session : Session X Spares served consoles) : SeesOutages consoles served := by
  have all : (∀ handler, ∃ threshold, 0 < threshold ∧ Rests threshold (consoles handler)) ∧
      ∀ s ∈ served, FailsFast s := by
    induction session with
    | nil start fresh =>
      refine ⟨fun handler => ?_, by simp⟩
      obtain ⟨-, log, threshold, recovery, success, pos, breaker⟩ := fresh handler
      refine ⟨threshold, pos, Weak.rests ⟨?_, by rw [breaker]; rfl, fun _ => ?_⟩ (by rw [log]; rfl)⟩
      · rw [log]
        exact recordedOnce_nil
      · rw [breaker]
        exact pos
    | @snoc served consoles command out after session ready runs ih =>
      obtain ⟨resting, fast⟩ := ih
      refine ⟨fun handler => ?_, fun s mem => ?_⟩
      · by_cases same : handler = handlerOf command
        · subst same
          obtain ⟨threshold, pos, rests⟩ := resting (handlerOf command)
          rw [Function.update_self]
          exact ⟨threshold, pos, command_always ready pos rests _ _ runs⟩
        · rw [Function.update_of_ne same]
          exact resting handler
      · rcases List.mem_append.mp mem with mem | mem
        · exact fast s mem
        · rw [List.mem_singleton.mp mem]
          exact command_fast ready _ _ runs
  obtain ⟨resting, fast⟩ := all
  refine ⟨fun handler => ?_, fun handler row => ?_, fast⟩
  · obtain ⟨threshold, -, rests⟩ := resting handler
    exact rests.once
  · obtain ⟨threshold, pos, rests⟩ := resting handler
    exact rests.opens pos (rests.threshold_eq ▸ row)

end Sessions

/-- A console of a breaker that opens with one failure. -/
def freshConsole : Console := ⟨.new 1 60 2, 0, [], []⟩

theorem freshConsole_fresh (handler : Handler) :
    ((fun _ : Handler => freshConsole) handler).held = [] ∧
      ((fun _ : Handler => freshConsole) handler).log = [] ∧
      ∃ threshold recovery success, 0 < threshold ∧
        ((fun _ : Handler => freshConsole) handler).breaker = .new threshold recovery success :=
  ⟨rfl, rfl, 1, 60, 2, by decide, rfl⟩

/-- A command of the expire handler. -/
def expireCommand : Command :=
  .expire plainExpire ⟨2025, 1, 2, 0⟩ ⟨1, 0, none⟩

/-- A call that answers as named. -/
theorem served_call {serves : (op : Op) → Console → Res op → Console → Prop} {α : Type}
    {c c' c'' : Console} {a : α} (op : Op) (answer : Res op) {rest : Res op → LifecycleProg α}
    (served : serves op c answer c') (runs : Runs serves (rest answer) c' a c'') :
    Runs serves (.call op rest) c a c'' :=
  .call served runs

/-- A command whose connection cannot be acquired. -/
theorem session_seesOutages_refused :
    ∃ served consoles, served.length = 1 ∧ Session (.plain []) Spares served consoles ∧
      SeesOutages consoles served := by
  obtain ⟨out, after, runs⟩ : ∃ out after, Runs
      (fun op c answer c' => Serves op c answer c' ∧ Spares (handlerOf expireCommand) op c answer)
      (code (.plain []) expireCommand) freshConsole out after := by
    refine ⟨?_, ?_, ?runs⟩
    case runs =>
      apply served_call .shouldAllowRequest true
      · exact ⟨⟨0, le_rfl, rfl, rfl⟩, trivial⟩
      apply served_call .acquire (.error (.clientError "pool is closing"))
      · refine ⟨⟨?_, rfl⟩, ?_⟩ <;> rintro _ ⟨⟩ <;> trivial
      apply served_call .recordFailure ()
      · exact ⟨⟨0, le_rfl, rfl⟩, trivial⟩
      exact .ret _ _
  have session : Session (.plain []) Spares ([] ++ [⟨expireCommand, freshConsole, out, after⟩]) _ :=
    .snoc (.nil (fun _ => freshConsole) freshConsole_fresh) ⟨rfl, rfl, rfl⟩ runs
  exact ⟨_, _, rfl, session, session_seesOutages session⟩

/-- A connection is refused with an `OSError`: the command raises it, and it is not recorded. -/
theorem not_seesOutages_connectionRefused :
    ¬ ∀ (X : External) (served : List Served) (consoles : Handler → Console),
      Session X (fun _ _ _ _ => True) served consoles → SeesOutages consoles served := by
  intro holds
  obtain ⟨after, log, runs⟩ : ∃ after : Console, after.log = [.failed] ∧ Runs
      (fun op c answer c' => Serves op c answer c' ∧ True) (code (.plain []) expireCommand)
      freshConsole (.error (.osError "[Errno 111] Connection refused")) after := by
    refine ⟨?_, ?log, ?runs⟩
    case runs =>
      apply served_call .shouldAllowRequest true
      · exact ⟨⟨0, le_rfl, rfl, rfl⟩, trivial⟩
      apply served_call .acquire (.error (.osError "[Errno 111] Connection refused"))
      · refine ⟨⟨?_, rfl⟩, trivial⟩
        rintro _ ⟨⟩
        trivial
      exact .ret _ _
    case log => rfl
  have session : Session (.plain []) (fun _ _ _ _ => True)
      ([] ++ [⟨expireCommand, freshConsole, _, after⟩]) _ :=
    .snoc (.nil (fun _ => freshConsole) freshConsole_fresh) ⟨rfl, rfl, rfl⟩ runs
  have once := (holds _ _ _ session).once .expire
  rw [show Handler.expire = handlerOf expireCommand from rfl, Function.update_self, log] at once
  obtain ⟨rest, wrong, -⟩ := once [] [] rfl
  contradiction

end Breakers

end Lifecycle

end OmniMemory
