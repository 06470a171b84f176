import Mathlib.Data.List.Pairwise
import Mathlib.Data.Rat.Defs
import OmniMemory.Lib.Machine
import OmniMemory.Metrics.ObserveOperation

/-! `ObservabilityManager`: the correlation contexts and the traced operations that tasks are inside of, and
the dict of active traces that they share. A task enters and leaves contexts and operations in any order that
`async with` allows. The memory that a process uses is left out. -/

namespace OmniMemory

open Interleave

namespace Tracing

/-- `DEFAULT_MAX_ACTIVE_TRACES`. -/
def defaultMaxActiveTraces : Int := 1000

/-- The values of the four context variables. -/
structure Vars where
  correlationId : Option String := none
  requestId : Option String := none
  userId : Option String := none
  operation : Option String := none
deriving DecidableEq

structure CorrelationContext where
  correlationId : String
  requestId : Option String
  userId : Option String
  operation : Option String
  parentCorrelationId : Option String

structure PerformanceMetrics where
  startTime : ℚ
  endTime : Option ℚ := none
  duration : Option ℚ := none
  success : Option Bool := none
  errorType : Option String := none

/-- The arguments of `correlation_context`. -/
structure ContextArguments where
  correlationId : Option String
  requestId : Option String
  userId : Option String
  operation : Option String

/-- How the body of an `async with` ends; an exception that is no `Exception` is a cancellation. -/
inductive Outcome where
  | returns
  | raises (name : String)
  | cancelled

/-- The dict of active traces, the oldest first, with what its manager has logged of traces. A trace id is the
number of traces with metrics that were made before it. -/
structure Manager where
  maxActiveTraces : Int
  activeTraces : List (Nat × PerformanceMetrics) := []
  traceIds : Nat := 0
  /-- The ids of "trace_evicted_due_to_capacity". -/
  evicted : List Nat := []
  /-- The ids and metrics of "operation_completed". -/
  completed : List (Nat × PerformanceMetrics) := []

/-- What a task is inside of. -/
inductive Frame where
  /-- The tokens give the values that the variables had. -/
  | context (tokens : Vars) (context : CorrelationContext)
  /-- A trace without an id is one without metrics. -/
  | trace (traceId : Option Nat) (additionalContext : List String)

/-- A task, with what it is inside of, the innermost first, and the variables that it was started with. -/
structure Task where
  inherited : Vars
  vars : Vars
  frames : List Frame

inductive Move where
  | enterContext (arguments : ContextArguments) (uuid : String)
  | enterTrace (tracePerformance : Bool) (additionalContext : List String) (now later : ℚ)
  | leave (outcome : Outcome) (now : ℚ)

/-- The correlation id that is given, if it is not empty. -/
def ContextArguments.given (arguments : ContextArguments) : Option String :=
  arguments.correlationId.filter (· ≠ "")

/-- The context that a task makes; `uuid` is the id of one that is given none. -/
def ContextArguments.context (arguments : ContextArguments) (uuid : String) (vars : Vars) :
    CorrelationContext where
  correlationId := arguments.given.getD uuid
  requestId := arguments.requestId
  userId := arguments.userId
  operation := arguments.operation
  parentCorrelationId := vars.correlationId

/-- What the variables are set to inside of the context. -/
def CorrelationContext.vars (context : CorrelationContext) : Vars :=
  ⟨some context.correlationId, context.requestId, context.userId, context.operation⟩

/-- `correlation_context` up to its `yield`; `none` when it raises a `ValueError`. -/
def enterContext (arguments : ContextArguments) (uuid : String) (t : Task) : Option Task :=
  if arguments.given.any fun id => !Metrics.validateCorrelationId id then none
  else
    some
      { t with
        vars := (arguments.context uuid t.vars).vars
        frames := .context t.vars (arguments.context uuid t.vars) :: t.frames }

/-- The loop that evicts the oldest traces, with their ids. An empty dict has none, and `popitem` raises
then. -/
def makeRoom (maxActiveTraces : Int) : List (Nat × PerformanceMetrics) →
    List Nat × Option (List (Nat × PerformanceMetrics))
  | [] => ([], if maxActiveTraces ≤ 0 then none else some [])
  | (id, metrics) :: rest =>
    if maxActiveTraces ≤ rest.length + 1 then
      let (evicted, room) := makeRoom maxActiveTraces rest
      (id :: evicted, room)
    else ([], some ((id, metrics) :: rest))

/-- A keyword that is given twice is a `TypeError`. -/
def clashes (keywords additionalContext : List String) : Bool :=
  keywords.any fun keyword => additionalContext.contains keyword

/-- The log of "operation_started" raises. -/
def clashesStarted (additionalContext : List String) : Bool :=
  clashes ["event", "trace_id", "correlation_id"] additionalContext

/-- The log of "operation_completed" raises. -/
def clashesCompleted (additionalContext : List String) : Bool :=
  clashes ["event", "trace_id", "correlation_id", "duration", "memory_delta", "success", "error_type"]
    additionalContext

/-- The active trace with the id, edited. -/
def edit (id : Nat) (change : PerformanceMetrics → PerformanceMetrics)
    (traces : List (Nat × PerformanceMetrics)) : List (Nat × PerformanceMetrics) :=
  traces.map fun trace => if trace.1 = id then (id, change trace.2) else trace

/-- What the end of the body says of the trace. -/
def Outcome.mark (metrics : PerformanceMetrics) : Outcome → PerformanceMetrics
  | returns => { metrics with success := some true }
  | raises name => { metrics with success := some false, errorType := some name }
  | cancelled => metrics

/-- The metrics at the end of the operation. -/
def PerformanceMetrics.ended (metrics : PerformanceMetrics) (now : ℚ) : PerformanceMetrics :=
  { metrics with endTime := some now, duration := some (now - metrics.startTime) }

/-- `trace_operation` after its `yield`, for a trace with metrics. It is not deleted when the log raises. -/
def endTrace (id : Nat) (additionalContext : List String) (outcome : Outcome) (now : ℚ) (m : Manager) :
    Manager :=
  match m.activeTraces.find? (·.1 = id) with
  | none => m
  | some (_, metrics) =>
    let final := (outcome.mark metrics).ended now
    if clashesCompleted additionalContext then
      { m with activeTraces := edit id (fun _ => final) m.activeTraces }
    else
      { m with
        activeTraces := m.activeTraces.filter (·.1 ≠ id)
        completed := m.completed ++ [(id, final)] }

/-- `trace_operation` up to its `yield`. When it raises instead, the `finally` has run. -/
def enterTrace (tracePerformance : Bool) (additionalContext : List String) (now later : ℚ) (t : Task)
    (m : Manager) : Task × Manager :=
  if tracePerformance then
    match makeRoom m.maxActiveTraces m.activeTraces with
    | (evicted, none) => (t, { m with activeTraces := [], evicted := m.evicted ++ evicted })
    | (evicted, some room) =>
      let m : Manager :=
        { m with
          activeTraces := room ++ [(m.traceIds, ⟨now, none, none, none, none⟩)]
          traceIds := m.traceIds + 1
          evicted := m.evicted ++ evicted }
      if clashesStarted additionalContext then
        (t, endTrace (m.traceIds - 1) additionalContext (.raises "TypeError") later m)
      else ({ t with frames := .trace (some (m.traceIds - 1)) additionalContext :: t.frames }, m)
  else if clashesStarted additionalContext then (t, m)
  else ({ t with frames := .trace none additionalContext :: t.frames }, m)

/-- The end of the innermost context or operation. -/
def leave (outcome : Outcome) (now : ℚ) (t : Task) (m : Manager) : Option (Task × Manager) :=
  match t.frames with
  | [] => none
  | .context tokens _ :: rest => some ({ t with vars := tokens, frames := rest }, m)
  | .trace none _ :: rest => some ({ t with frames := rest }, m)
  | .trace (some id) additionalContext :: rest =>
    some ({ t with frames := rest }, endTrace id additionalContext outcome now m)

/-- Tasks that enter and leave contexts and operations. A task starts with a copy of the variables of the task
that makes it. -/
def tasks : Machine Manager Task Vars Move where
  enter _ vars := ⟨vars, vars, []⟩
  resume _ move t m :=
    match move with
    | .enterContext arguments uuid => (enterContext arguments uuid t).map fun t => (t, m)
    | .enterTrace tracePerformance additionalContext now later =>
      some (enterTrace tracePerformance additionalContext now later t m)
    | .leave outcome now => leave outcome now t m

/-! ### Traces -/

def ids (traces : List (Nat × PerformanceMetrics)) : List Nat := traces.map Prod.fst

def Frame.traceId? : Frame → Option Nat
  | .context .. => none
  | .trace traceId _ => traceId

/-- The ids of the operations with metrics that the task is inside of. -/
def Task.openTraces (t : Task) : List Nat := t.frames.filterMap Frame.traceId?

def openTraces (s : System Manager Task) : List Nat := s.tasks.flatMap Task.openTraces

/-- The metrics tell one story. -/
structure PerformanceMetrics.Sound (metrics : PerformanceMetrics) : Prop where
  duration : metrics.duration = metrics.endTime.map (· - metrics.startTime)
  error : metrics.errorType.isSome = true ↔ metrics.success = some false
  going : metrics.endTime = none → metrics.success = none

/-- Every trace with metrics is active, was evicted, or was completed, and only one of these. Those of
operations that go on are the active ones without an end, or were evicted. -/
structure Accounted (m : Manager) (open_ : List Nat) : Prop where
  once : (ids m.activeTraces ++ m.evicted ++ ids m.completed).Perm (List.range m.traceIds)
  bounded : m.activeTraces.length ≤ m.maxActiveTraces.toNat
  oldestFirst : (ids m.activeTraces).Pairwise (· < ·)
  distinct : open_.Nodup
  going : ∀ id ∈ open_, id ∈ ids m.activeTraces ∨ id ∈ m.evicted
  open_iff : ∀ trace ∈ m.activeTraces, trace.1 ∈ open_ ↔ trace.2.endTime = none
  ended : ∀ trace ∈ m.completed, trace.2.endTime.isSome = true
  sound : ∀ trace ∈ m.activeTraces ++ m.completed, trace.2.Sound

section Accounts

variable {m : Manager} {open_ : List Nat} {id : Nat} {evicted : List Nat}
  {traces room : List (Nat × PerformanceMetrics)} {max : Int}

theorem makeRoom_some (made : makeRoom max traces = (evicted, some room)) :
    ∃ old, traces = old ++ room ∧ evicted = ids old ∧ (room.length : Int) < max ∧
      ((traces.length : Int) < max → old = []) := by
  induction traces generalizing evicted with
  | nil =>
    by_cases none : max ≤ 0
    · simp [makeRoom, none] at made
    · simp only [makeRoom, if_neg none, Prod.mk.injEq, Option.some.injEq] at made
      obtain ⟨rfl, rfl⟩ := made
      exact ⟨[], rfl, rfl, by simpa using none, fun _ => rfl⟩
  | cons trace rest ih =>
    obtain ⟨id, metrics⟩ := trace
    simp only [makeRoom] at made
    split at made
    · rename_i full
      simp only [Prod.mk.injEq] at made
      obtain ⟨rfl, made⟩ := made
      obtain ⟨old, rfl, evicts, fits, -⟩ := ih (Prod.ext rfl made)
      refine ⟨(id, metrics) :: old, rfl, congrArg (id :: ·) evicts, fits, fun less => ?_⟩
      simp only [List.length_cons, List.length_append] at full less
      omega
    · rename_i free
      simp only [Prod.mk.injEq, Option.some.injEq] at made
      obtain ⟨rfl, rfl⟩ := made
      refine ⟨[], rfl, rfl, ?_, fun _ => rfl⟩
      simp only [List.length_cons]
      omega

theorem makeRoom_none (made : makeRoom max traces = (evicted, none)) :
    max ≤ 0 ∧ evicted = ids traces := by
  induction traces generalizing evicted with
  | nil =>
    by_cases none : max ≤ 0
    · simp only [makeRoom, if_pos none, Prod.mk.injEq] at made
      exact ⟨none, made.1.symm⟩
    · simp [makeRoom, none] at made
  | cons trace rest ih =>
    obtain ⟨id, metrics⟩ := trace
    simp only [makeRoom] at made
    split at made
    · simp only [Prod.mk.injEq] at made
      obtain ⟨rfl, made⟩ := made
      obtain ⟨low, evicts⟩ := ih (Prod.ext rfl made)
      exact ⟨low, congrArg (id :: ·) evicts⟩
    · simp at made

namespace Accounted

theorem congr (accounted : Accounted m open_) {open' : List Nat} (same : open_.Perm open') :
    Accounted m open' where
  once := accounted.once
  bounded := accounted.bounded
  oldestFirst := accounted.oldestFirst
  distinct := same.nodup_iff.mp accounted.distinct
  going id mem := accounted.going id (same.mem_iff.mpr mem)
  open_iff trace mem := same.mem_iff.symm.trans (accounted.open_iff trace mem)
  ended := accounted.ended
  sound := accounted.sound

theorem known (accounted : Accounted m open_) {id : Nat}
    (mem : id ∈ ids m.activeTraces ∨ id ∈ m.evicted ∨ id ∈ ids m.completed) : id < m.traceIds := by
  refine List.mem_range.mp (accounted.once.mem_iff.mp ?_)
  simp only [List.mem_append]
  tauto

theorem apart (accounted : Accounted m open_) (mem : id ∈ ids m.activeTraces) :
    id ∉ m.evicted ∧ id ∉ ids m.completed := by
  have nodup := accounted.once.nodup_iff.mpr List.nodup_range
  rw [List.append_assoc, List.nodup_append] at nodup
  have other := nodup.2.2 id mem
  exact ⟨fun mem => other id (List.mem_append_left _ mem) rfl,
    fun mem => other id (List.mem_append_right _ mem) rfl⟩

theorem fresh (accounted : Accounted m open_) : m.traceIds ∉ open_ := by
  intro mem
  have known : m.traceIds < m.traceIds :=
    accounted.known (by have := accounted.going _ mem; tauto)
  omega

/-- A new trace, after the loop has made room for it. -/
theorem added (accounted : Accounted m open_) (made : makeRoom m.maxActiveTraces m.activeTraces =
    (evicted, some room)) (now : ℚ) :
    Accounted { m with
        activeTraces := room ++ [(m.traceIds, ⟨now, none, none, none, none⟩)]
        traceIds := m.traceIds + 1
        evicted := m.evicted ++ evicted } (m.traceIds :: open_) := by
  obtain ⟨old, split, rfl, fits, -⟩ := makeRoom_some made
  have all : ids m.activeTraces = ids old ++ ids room := by rw [split, ids, List.map_append]; rfl
  have kept : ∀ trace ∈ room, trace ∈ m.activeTraces := fun trace mem => by
    rw [split]
    exact List.mem_append_right _ mem
  have older : ∀ trace ∈ m.activeTraces, trace.1 < m.traceIds := fun trace mem =>
    accounted.known (.inl (List.mem_map_of_mem mem))
  constructor
  · have once := accounted.once
    rw [all] at once
    rw [List.perm_iff_count] at once ⊢
    intro id
    have here := once id
    simp only [ids, List.map_append, List.map_cons, List.map_nil, List.count_append,
      List.range_succ] at here ⊢
    omega
  · simp only [List.length_append, List.length_singleton]
    omega
  · have sorted := accounted.oldestFirst
    rw [all] at sorted
    rw [ids, List.map_append]
    refine List.pairwise_append.mpr ⟨(List.pairwise_append.mp sorted).2.1, List.pairwise_singleton _ _, ?_⟩
    intro id mem id' new
    obtain ⟨trace, inside, rfl⟩ := List.mem_map.mp mem
    rw [List.mem_singleton.mp new]
    exact older trace (kept trace inside)
  · exact List.nodup_cons.mpr ⟨accounted.fresh, accounted.distinct⟩
  · intro id mem
    rcases List.mem_cons.mp mem with rfl | mem
    · exact .inl (by simp [ids])
    · rcases accounted.going id mem with active | gone
      · rw [all] at active
        rcases List.mem_append.mp active with old | room
        · exact .inr (List.mem_append_right _ old)
        · exact .inl (by simpa [ids] using .inl (by simpa [ids] using room))
      · exact .inr (List.mem_append_left _ gone)
  · intro trace mem
    rcases List.mem_append.mp mem with mem | mem
    · rw [← accounted.open_iff trace (kept trace mem), List.mem_cons]
      have := older trace (kept trace mem)
      exact ⟨fun h => h.resolve_left (by omega), .inr⟩
    · simp [List.mem_singleton.mp mem]
  · exact accounted.ended
  · intro trace mem
    rcases List.mem_append.mp mem with mem | mem
    · rcases List.mem_append.mp mem with mem | mem
      · exact accounted.sound trace (List.mem_append_left _ (kept trace mem))
      · rw [List.mem_singleton.mp mem]
        exact ⟨rfl, by simp, fun _ => rfl⟩
    · exact accounted.sound trace (List.mem_append_right _ mem)

/-- There is no room for any trace. -/
theorem cleared (accounted : Accounted m open_)
    (made : makeRoom m.maxActiveTraces m.activeTraces = (evicted, none)) :
    Accounted { m with activeTraces := [], evicted := m.evicted ++ evicted } open_ := by
  obtain ⟨low, rfl⟩ := makeRoom_none made
  have none : m.activeTraces = [] := by
    refine List.eq_nil_of_length_eq_zero ?_
    have := accounted.bounded
    omega
  have same : ({ m with activeTraces := [], evicted := m.evicted ++ ids m.activeTraces } : Manager) = m := by
    cases m
    simp_all [ids]
  rw [same]
  exact accounted

theorem sound_ended {metrics : PerformanceMetrics} (sound : metrics.Sound) (going : metrics.endTime = none)
    (outcome : Outcome) (now : ℚ) : ((outcome.mark metrics).ended now).Sound := by
  have error := sound.error
  rw [sound.going going] at error
  cases outcome with
  | returns => exact ⟨rfl, by simpa [Outcome.mark, PerformanceMetrics.ended] using error, nofun⟩
  | raises name => exact ⟨rfl, by simp [Outcome.mark, PerformanceMetrics.ended], nofun⟩
  | cancelled => exact ⟨rfl, sound.error, nofun⟩

theorem mem_edit {final : PerformanceMetrics} {trace : Nat × PerformanceMetrics}
    (mem : trace ∈ edit id (fun _ => final) traces) :
    (trace.1 ≠ id ∧ trace ∈ traces) ∨ trace = (id, final) := by
  obtain ⟨before, there, rfl⟩ := List.mem_map.mp mem
  by_cases same : before.1 = id
  · exact .inr (if_pos same)
  · rw [if_neg same]
    exact .inl ⟨same, there⟩

theorem ids_edit {change : PerformanceMetrics → PerformanceMetrics} :
    ids (edit id change traces) = ids traces := by
  rw [ids, edit, List.map_map]
  refine List.map_congr_left fun trace mem => ?_
  by_cases same : trace.1 = id
  · simp [same]
  · simp [same]

/-- The end of an operation. -/
theorem closed (accounted : Accounted m (id :: open_)) (additionalContext : List String) (outcome : Outcome)
    (now : ℚ) : Accounted (endTrace id additionalContext outcome now m) open_ := by
  obtain ⟨new, distinct⟩ := List.nodup_cons.mp accounted.distinct
  have others : ∀ trace ∈ m.activeTraces, trace.1 ≠ id → (trace.1 ∈ open_ ↔ trace.2.endTime = none) := by
    intro trace mem other
    rw [← accounted.open_iff trace mem, List.mem_cons]
    tauto
  unfold endTrace
  cases found : m.activeTraces.find? (·.1 = id) with
  | none =>
    have absent : ∀ trace ∈ m.activeTraces, trace.1 ≠ id := by simpa using found
    exact
      { once := accounted.once
        bounded := accounted.bounded
        oldestFirst := accounted.oldestFirst
        distinct
        going := fun id' mem => accounted.going id' (List.mem_cons_of_mem _ mem)
        open_iff := fun trace mem => others trace mem (absent trace mem)
        ended := accounted.ended
        sound := accounted.sound }
  | some trace =>
    obtain ⟨key, metrics⟩ := trace
    obtain rfl : key = id := by simpa using List.find?_some found
    have there := List.mem_of_find?_eq_some found
    have going := (accounted.open_iff _ there).mp List.mem_cons_self
    have sound := accounted.sound _ (List.mem_append_left _ there)
    have final := sound_ended sound going outcome now
    have gone := accounted.apart (List.mem_map_of_mem there)
    have edited : ∀ trace ∈ edit key (fun _ => (outcome.mark metrics).ended now) m.activeTraces,
        (trace.1 ≠ key ∧ trace ∈ m.activeTraces) ∨ trace = (key, (outcome.mark metrics).ended now) :=
      fun trace mem => mem_edit mem
    by_cases clash : clashesCompleted additionalContext = true
    · simp only [if_pos clash]
      refine ⟨by rw [ids_edit]; exact accounted.once, by simpa [edit] using accounted.bounded,
        by rw [ids_edit]; exact accounted.oldestFirst, distinct, ?_, ?_, accounted.ended, ?_⟩
      · intro id' mem
        rw [ids_edit]
        exact accounted.going id' (List.mem_cons_of_mem _ mem)
      · intro trace mem
        rcases edited trace mem with ⟨other, mem⟩ | rfl
        · exact others trace mem other
        · exact ⟨fun mem => absurd mem new, fun none => by cases none⟩
      · intro trace mem
        rcases List.mem_append.mp mem with mem | mem
        · rcases edited trace mem with ⟨other, mem⟩ | rfl
          · exact accounted.sound trace (List.mem_append_left _ mem)
          · exact final
        · exact accounted.sound trace (List.mem_append_right _ mem)
    · simp only [if_neg clash]
      have nodup : (ids m.activeTraces).Nodup := accounted.oldestFirst.imp fun less => by omega
      have split : (ids m.activeTraces).Perm (key :: ids (m.activeTraces.filter (·.1 ≠ key))) := by
        have rest : ids (m.activeTraces.filter (·.1 ≠ key)) = (ids m.activeTraces).erase key := by
          rw [nodup.erase_eq_filter, ids, ids, List.filter_map]
          exact congrArg (List.map Prod.fst) (List.filter_congr fun trace _ => by
            by_cases same : trace.1 = key <;> simp [same])
        rw [rest]
        exact List.perm_cons_erase (List.mem_map_of_mem there)
      refine ⟨?_, (List.length_filter_le _ _).trans accounted.bounded,
        accounted.oldestFirst.sublist (List.filter_sublist.map _), distinct, ?_, ?_, ?_, ?_⟩
      · have once := accounted.once
        rw [List.perm_iff_count] at once split ⊢
        intro id
        have here := once id
        have there := split id
        simp only [ids, List.map_append, List.map_cons, List.map_nil, List.count_append, List.count_cons,
          List.count_nil] at here there ⊢
        omega
      · intro id' mem
        have ne : id' ≠ key := fun same => new (same ▸ mem)
        rcases accounted.going id' (List.mem_cons_of_mem _ mem) with active | gone
        · exact .inl ((List.mem_cons.mp (split.mem_iff.mp active)).resolve_left ne)
        · exact .inr gone
      · intro trace mem
        obtain ⟨mem, other⟩ := List.mem_filter.mp mem
        exact others trace mem (by simpa using other)
      · intro trace mem
        rcases List.mem_append.mp mem with mem | mem
        · exact accounted.ended trace mem
        · rw [List.mem_singleton.mp mem]
          rfl
      · intro trace mem
        rcases List.mem_append.mp mem with mem | mem
        · exact accounted.sound trace (List.mem_append_left _ (List.mem_filter.mp mem).1)
        · rcases List.mem_append.mp mem with mem | mem
          · exact accounted.sound trace (List.mem_append_right _ mem)
          · rw [List.mem_singleton.mp mem]
            exact final

end Accounted

theorem initial (maxActiveTraces : Int) : Accounted { maxActiveTraces } [] where
  once := by simp [ids]
  bounded := Nat.zero_le _
  oldestFirst := by simp [ids]
  distinct := List.nodup_nil
  going := List.forall_mem_nil _
  open_iff := List.forall_mem_nil _
  ended := List.forall_mem_nil _
  sound := List.forall_mem_nil _

/-- A task that enters an operation adds what it is inside of. -/
theorem accounted_enterTrace {t : Task} {rest : List Nat} (accounted : Accounted m (t.openTraces ++ rest))
    (tracePerformance : Bool) (additionalContext : List String) (now later : ℚ) :
    Accounted (enterTrace tracePerformance additionalContext now later t m).2
      ((enterTrace tracePerformance additionalContext now later t m).1.openTraces ++ rest) := by
  unfold enterTrace
  cases tracePerformance with
  | false =>
    simp only [Bool.false_eq_true, if_false]
    split
    · exact accounted
    · exact accounted
  | true =>
    simp only [if_true]
    rcases made : makeRoom m.maxActiveTraces m.activeTraces with ⟨evicted, _ | room⟩
    · exact accounted.cleared made
    · have added := accounted.added made now
      by_cases clash : clashesStarted additionalContext = true
      · simp only [clash, if_true]
        exact added.closed additionalContext (.raises "TypeError") later
      · simp only [if_neg clash]
        exact added

theorem accounted_leave {t t' : Task} {m' : Manager} {rest : List Nat}
    (accounted : Accounted m (t.openTraces ++ rest)) {outcome : Outcome} {now : ℚ}
    (left : leave outcome now t m = some (t', m')) : Accounted m' (t'.openTraces ++ rest) := by
  obtain ⟨inherited, vars, frames⟩ := t
  cases frames with
  | nil => cases left
  | cons frame frames =>
    cases frame with
    | context tokens context =>
      cases left
      exact accounted
    | trace traceId additionalContext =>
      cases traceId with
      | none =>
        cases left
        exact accounted
      | some id =>
        cases left
        exact accounted.closed additionalContext outcome now

/-- The open operations of all tasks, those of the task at a position first. -/
theorem openTraces_perm {s : System Manager Task} {i : Nat} {t : Task} (task : s.tasks[i]? = some t) :
    ∃ rest, (openTraces s).Perm (t.openTraces ++ rest) ∧
      ∀ t' m, (openTraces (s.put i t' m)).Perm (t'.openTraces ++ rest) := by
  obtain ⟨bound, rfl⟩ := List.getElem?_eq_some_iff.mp task
  have around : ∀ t', (s.tasks.set i t').flatMap Task.openTraces =
      (s.tasks.take i).flatMap Task.openTraces ++
        (t'.openTraces ++ (s.tasks.drop (i + 1)).flatMap Task.openTraces) := by
    intro t'
    rw [List.set_eq_take_append_cons_drop, if_pos bound]
    simp
  refine ⟨(s.tasks.take i).flatMap Task.openTraces ++ (s.tasks.drop (i + 1)).flatMap Task.openTraces, ?_, ?_⟩
  · have here := around s.tasks[i]
    rw [List.set_getElem_self] at here
    rw [openTraces, here]
    exact List.perm_append_comm_assoc _ _ _
  · intro t' m
    rw [openTraces, System.put, around]
    exact List.perm_append_comm_assoc _ _ _

theorem endTrace_max (id : Nat) (additionalContext : List String) (outcome : Outcome) (now : ℚ) :
    (endTrace id additionalContext outcome now m).maxActiveTraces = m.maxActiveTraces := by
  unfold endTrace
  split
  · rfl
  · split <;> rfl

theorem enterTrace_max (tracePerformance : Bool) (additionalContext : List String) (now later : ℚ)
    (t : Task) :
    (enterTrace tracePerformance additionalContext now later t m).2.maxActiveTraces = m.maxActiveTraces := by
  unfold enterTrace
  split
  · split
    · rfl
    · split
      · exact endTrace_max _ _ _ _
      · rfl
  · split <;> rfl

theorem leave_max {t t' : Task} {m' : Manager} {outcome : Outcome} {now : ℚ}
    (left : leave outcome now t m = some (t', m')) : m'.maxActiveTraces = m.maxActiveTraces := by
  unfold leave at left
  split at left
  · cases left
  · cases left
    rfl
  · cases left
    rfl
  · cases left
    exact endTrace_max _ _ _ _

theorem enterContext_openTraces {arguments : ContextArguments} {uuid : String} {t t' : Task}
    (entered : enterContext arguments uuid t = some t') : t'.openTraces = t.openTraces := by
  unfold enterContext at entered
  split at entered
  · cases entered
  · cases entered
    rfl

/-- What a step of a task does to the traces. -/
theorem accounted_resume {t t' : Task} {m' : Manager} {i : Nat} {move : Move} {rest : List Nat}
    (accounted : Accounted m (t.openTraces ++ rest)) (ran : tasks.resume i move t m = some (t', m')) :
    m'.maxActiveTraces = m.maxActiveTraces ∧ Accounted m' (t'.openTraces ++ rest) := by
  cases move with
  | enterContext arguments uuid =>
    obtain ⟨entered, made, same⟩ := Option.map_eq_some_iff.mp ran
    cases same
    rw [enterContext_openTraces made]
    exact ⟨rfl, accounted⟩
  | enterTrace tracePerformance additionalContext now later =>
    have same : enterTrace tracePerformance additionalContext now later t m = (t', m') := Option.some.inj ran
    have kept := enterTrace_max (m := m) tracePerformance additionalContext now later t
    have accounts := accounted_enterTrace accounted tracePerformance additionalContext now later
    rw [same] at kept accounts
    exact ⟨kept, accounts⟩
  | leave outcome now => exact ⟨leave_max ran, accounted_leave accounted ran⟩

theorem accounts_of_reach {maxActiveTraces : Int} {s : System Manager Task}
    {ok : System Manager Task → Machine.Act Vars Move → Prop}
    (reach : tasks.Reach (· = { maxActiveTraces }) ok s) :
    s.shared.maxActiveTraces = maxActiveTraces ∧ Accounted s.shared (openTraces s) := by
  refine reach.invariant (P := fun s => s.shared.maxActiveTraces = maxActiveTraces ∧
    Accounted s.shared (openTraces s)) ?_ ?_ ?_
  · rintro - rfl
    exact ⟨rfl, initial maxActiveTraces⟩
  · rintro s vars ⟨same, accounted⟩ -
    have none : openTraces (s.add (tasks.enter s.tasks.length vars)) = openTraces s := by
      simp [openTraces, System.add, tasks, Task.openTraces]
    exact ⟨same, none ▸ accounted⟩
  · rintro s i move t t' m ⟨same, accounted⟩ - task ran
    obtain ⟨rest, before, after⟩ := openTraces_perm task
    obtain ⟨kept, accounted⟩ := accounted_resume (accounted.congr before) ran
    exact ⟨kept.trans same, accounted.congr (after t' m).symm⟩

/-- Two operations, where there is room for one. -/
def crowded : List (Machine.Act Vars Move) :=
  [.start {}, .start {}, .resume 0 (.enterTrace true [] 0 0), .resume 1 (.enterTrace true [] 1 1),
    .resume 0 (.leave .returns 2), .resume 1 (.leave (.raises "KeyError") 3)]

end Accounts

/-! ### Operations that find room -/

/-- The keys of the trace's additional context are not those of the log. -/
def Frame.Clean : Frame → Prop
  | .context .. => True
  | .trace _ additionalContext => clashesCompleted additionalContext = false

section Enter

variable {m : Manager} {t : Task} {additionalContext : List String} {now later : ℚ}

theorem clashesStarted_of_clean (clean : clashesCompleted additionalContext = false) :
    clashesStarted additionalContext = false := by
  simp only [clashesCompleted, clashesStarted, clashes, List.any_cons, List.any_nil, Bool.or_false,
    Bool.or_eq_false_iff] at clean ⊢
  tauto

theorem enterTrace_untraced (clean : clashesCompleted additionalContext = false) :
    enterTrace false additionalContext now later t m =
      ({ t with frames := .trace none additionalContext :: t.frames }, m) := by
  simp [enterTrace, clashesStarted_of_clean clean]

theorem makeRoom_roomy {max : Int} {traces : List (Nat × PerformanceMetrics)}
    (room : (traces.length : Int) < max) : makeRoom max traces = ([], some traces) := by
  cases traces with
  | nil =>
    have some : ¬ max ≤ 0 := by simpa using room
    rw [makeRoom, if_neg some]
  | cons trace rest =>
    simp only [List.length_cons] at room
    rw [makeRoom, if_neg (by omega)]

/-- An operation that finds room evicts nothing. -/
theorem enterTrace_roomy (clean : clashesCompleted additionalContext = false)
    (room : (m.activeTraces.length : Int) < m.maxActiveTraces) :
    enterTrace true additionalContext now later t m =
      ({ t with frames := .trace (some m.traceIds) additionalContext :: t.frames },
        { m with
          activeTraces := m.activeTraces ++ [(m.traceIds, ⟨now, none, none, none, none⟩)]
          traceIds := m.traceIds + 1 }) := by
  simp [enterTrace, makeRoom_roomy room, clashesStarted_of_clean clean]

end Enter

/-- An operation is entered with other keys than those of the logs, and while fewer operations go on than the
dict has room for. -/
def Roomy (s : System Manager Task) : Machine.Act Vars Move → Prop
  | .resume _ (.enterTrace _ additionalContext _ _) =>
    clashesCompleted additionalContext = false ∧
      ((openTraces s).length : Int) < s.shared.maxActiveTraces
  | _ => True

instance (s : System Manager Task) : DecidablePred (Roomy s)
  | .start _ | .resume _ (.enterContext ..) | .resume _ (.leave ..) => inferInstanceAs (Decidable True)
  | .resume _ (.enterTrace _ _ _ _) => inferInstanceAs (Decidable (_ ∧ _))

/-- Nothing is evicted or left behind. -/
structure Tidy (s : System Manager Task) : Prop where
  evicted : s.shared.evicted = []
  going : ∀ trace ∈ s.shared.activeTraces, trace.2.endTime = none
  clean : ∀ t ∈ s.tasks, ∀ frame ∈ t.frames, frame.Clean

section Room

variable {s : System Manager Task} {m m' : Manager} {t t' : Task}

theorem active_perm (accounted : Accounted m (openTraces s)) (evicted : m.evicted = [])
    (going : ∀ trace ∈ m.activeTraces, trace.2.endTime = none) :
    (ids m.activeTraces).Perm (openTraces s) := by
  have nodup : (ids m.activeTraces).Nodup := accounted.oldestFirst.imp fun less => by omega
  refine (List.perm_ext_iff_of_nodup nodup accounted.distinct).mpr fun id => ⟨fun mem => ?_, fun mem => ?_⟩
  · obtain ⟨trace, there, rfl⟩ := List.mem_map.mp mem
    exact (accounted.open_iff trace there).mpr (going trace there)
  · rcases accounted.going id mem with active | gone
    · exact active
    · simp [evicted] at gone

variable (m) in
/-- The end of an operation with other keys than those of the logs. -/
theorem endTrace_tidy (id : Nat) {additionalContext : List String}
    (clean : clashesCompleted additionalContext = false) (outcome : Outcome) (now : ℚ) :
    (endTrace id additionalContext outcome now m).evicted = m.evicted ∧
      ∀ trace ∈ (endTrace id additionalContext outcome now m).activeTraces, trace ∈ m.activeTraces := by
  unfold endTrace
  split
  · exact ⟨rfl, fun _ mem => mem⟩
  · rw [clean]
    exact ⟨rfl, fun _ mem => (List.mem_filter.mp mem).1⟩

theorem enterContext_frames {arguments : ContextArguments} {uuid : String}
    (entered : enterContext arguments uuid t = some t') :
    ∃ context, t'.frames = .context t.vars context :: t.frames := by
  unfold enterContext at entered
  split at entered
  · cases entered
  · cases entered
    exact ⟨_, rfl⟩

theorem tidy_step (tidy : Tidy s) (accounted : Accounted s.shared (openTraces s)) {i : Nat} {move : Move}
    (roomy : Roomy s (.resume i move)) (task : s.tasks[i]? = some t)
    (ran : tasks.resume i move t s.shared = some (t', m')) : Tidy (s.put i t' m') := by
  have clean := tidy.clean t (List.mem_of_getElem? task)
  suffices step : m'.evicted = [] ∧ (∀ trace ∈ m'.activeTraces, trace.2.endTime = none) ∧
      ∀ frame ∈ t'.frames, frame.Clean by
    refine ⟨step.1, step.2.1, fun u mem frame inside => ?_⟩
    rcases List.mem_or_eq_of_mem_set mem with old | new
    · exact tidy.clean u old frame inside
    · exact step.2.2 frame (new ▸ inside)
  cases move with
  | enterContext arguments uuid =>
    obtain ⟨entered, made, same⟩ := Option.map_eq_some_iff.mp ran
    cases same
    refine ⟨tidy.evicted, tidy.going, fun frame inside => ?_⟩
    obtain ⟨context, cons⟩ := enterContext_frames made
    rw [cons] at inside
    rcases List.mem_cons.mp inside with new | old
    · rw [new]
      trivial
    · exact clean frame old
  | enterTrace tracePerformance additionalContext now later =>
    have same : enterTrace tracePerformance additionalContext now later t s.shared = (t', m') :=
      Option.some.inj ran
    obtain ⟨kept, room⟩ := roomy
    have length := (active_perm accounted tidy.evicted tidy.going).length_eq
    simp only [ids, List.length_map] at length
    have inner : ∀ id, ∀ frame ∈ Frame.trace id additionalContext :: t.frames, frame.Clean := by
      intro id frame inside
      rcases List.mem_cons.mp inside with new | old
      · exact new ▸ kept
      · exact clean frame old
    cases tracePerformance with
    | false =>
      rw [enterTrace_untraced kept] at same
      cases same
      exact ⟨tidy.evicted, tidy.going, inner none⟩
    | true =>
      rw [enterTrace_roomy kept (by omega)] at same
      cases same
      refine ⟨tidy.evicted, fun trace mem => ?_, inner _⟩
      rcases List.mem_append.mp mem with old | new
      · exact tidy.going trace old
      · rw [List.mem_singleton.mp new]
  | leave outcome now =>
    obtain ⟨inherited, vars, frames⟩ := t
    cases frames with
    | nil => cases ran
    | cons frame frames =>
      have rest : ∀ frame ∈ frames, frame.Clean := fun frame mem => clean frame (List.mem_cons_of_mem _ mem)
      cases frame with
      | context tokens context =>
        cases ran
        exact ⟨tidy.evicted, tidy.going, rest⟩
      | trace traceId additionalContext =>
        cases traceId with
        | none =>
          cases ran
          exact ⟨tidy.evicted, tidy.going, rest⟩
        | some id =>
          cases ran
          obtain ⟨evicted, active⟩ := endTrace_tidy s.shared id (clean _ List.mem_cons_self)
            outcome now
          exact ⟨evicted.trans tidy.evicted, fun trace mem => tidy.going trace (active trace mem), rest⟩

theorem tidy_of_reach {maxActiveTraces : Int}
    (reach : tasks.Reach (· = { maxActiveTraces }) Roomy s) : Tidy s := by
  induction reach with
  | init start =>
    cases start
    exact ⟨rfl, List.forall_mem_nil _, List.forall_mem_nil _⟩
  | @step s s' act reach met next ih =>
    cases act with
    | start vars =>
      cases next
      refine ⟨ih.evicted, ih.going, fun t mem => ?_⟩
      rcases List.mem_append.mp mem with old | new
      · exact ih.clean t old
      · rw [List.mem_singleton.mp new]
        exact List.forall_mem_nil _
    | resume i move =>
      obtain ⟨t, t', m', task, ran, rfl⟩ := Machine.next_resume.mp next
      exact tidy_step ih (accounts_of_reach reach).2 met task ran

/-- One operation in the other, and both have ended. -/
def oneInOther : List (Machine.Act Vars Move) :=
  [.start {}, .resume 0 (.enterTrace true ["user"] 0 0), .resume 0 (.enterTrace true [] 1 1),
    .resume 0 (.leave .cancelled 2), .resume 0 (.leave .returns 3)]

end Room

/-! ### Contexts -/

/-- The variables of the innermost context among the frames. -/
def innermost (inherited : Vars) : List Frame → Vars
  | [] => inherited
  | .context _ context :: _ => context.vars
  | .trace .. :: rest => innermost inherited rest

/-- Each context was made in the one around it, and its tokens lead back to this. -/
def Nested (inherited : Vars) : List Frame → Prop
  | [] => True
  | .context tokens context :: rest =>
    tokens = innermost inherited rest ∧
      context.parentCorrelationId = (innermost inherited rest).correlationId ∧ Nested inherited rest
  | .trace .. :: rest => Nested inherited rest

/-- The variables are those of the innermost context that the task is inside of, or that it was started
in. -/
structure Task.Scoped (t : Task) : Prop where
  vars : t.vars = innermost t.inherited t.frames
  nested : Nested t.inherited t.frames

section Scopes

variable {t t' : Task} {m m' : Manager}

theorem enterTrace_task (tracePerformance : Bool) (additionalContext : List String) (now later : ℚ) :
    (enterTrace tracePerformance additionalContext now later t m).1 = t ∨
      ∃ id, (enterTrace tracePerformance additionalContext now later t m).1 =
        { t with frames := .trace id additionalContext :: t.frames } := by
  unfold enterTrace
  split
  · split
    · exact .inl rfl
    · split
      · exact .inl rfl
      · exact .inr ⟨_, rfl⟩
  · split
    · exact .inl rfl
    · exact .inr ⟨none, rfl⟩

theorem scoped_resume (within : t.Scoped) {move : Move} {i : Nat}
    (ran : tasks.resume i move t m = some (t', m')) : t'.Scoped := by
  cases move with
  | enterContext arguments uuid =>
    obtain ⟨entered, made, same⟩ := Option.map_eq_some_iff.mp ran
    cases same
    unfold enterContext at made
    split at made
    · cases made
    · cases made
      exact ⟨rfl, within.vars, congrArg Vars.correlationId within.vars, within.nested⟩
  | enterTrace tracePerformance additionalContext now later =>
    have same : enterTrace tracePerformance additionalContext now later t m = (t', m') := Option.some.inj ran
    rcases enterTrace_task (t := t) (m := m) tracePerformance additionalContext now later with
      kept | ⟨id, entered⟩
    · rw [same] at kept
      obtain rfl : t' = t := kept
      exact within
    · rw [same] at entered
      obtain rfl : t' = _ := entered
      exact ⟨within.vars, within.nested⟩
  | leave outcome now =>
    obtain ⟨inherited, vars, frames⟩ := t
    cases frames with
    | nil => cases ran
    | cons frame frames =>
      cases frame with
      | context tokens context =>
        cases ran
        exact ⟨within.nested.1, within.nested.2.2⟩
      | trace traceId additionalContext =>
        cases traceId with
        | none =>
          cases ran
          exact ⟨within.vars, within.nested⟩
        | some id =>
          cases ran
          exact ⟨within.vars, within.nested⟩

/-- Whatever other tasks do, a task reads the variables of the innermost context around it, each context
knows the one around it, and leaving a context leads back to this. -/
theorem contexts_scoped {init : Manager → Prop} {s : System Manager Task}
    (reach : tasks.Reach init Machine.Free s) : ∀ t ∈ s.tasks, t.Scoped := by
  refine reach.invariant (P := fun s => ∀ t ∈ s.tasks, t.Scoped) ?_ ?_ ?_
  · exact fun m first => List.forall_mem_nil _
  · rintro s vars within - t mem
    rcases List.mem_append.mp mem with old | new
    · exact within t old
    · rw [List.mem_singleton.mp new]
      exact ⟨rfl, trivial⟩
  · rintro s i move t t' m within - task ran u mem
    rcases List.mem_or_eq_of_mem_set mem with old | new
    · exact within u old
    · exact new ▸ scoped_resume (within t (List.mem_of_getElem? task)) ran

/-- Two tasks that take turns, one of them in two contexts. -/
def takingTurns : List (Machine.Act Vars Move) :=
  [.start {}, .start {}, .resume 0 (.enterContext ⟨some "outer", none, some "user", none⟩ "a"),
    .resume 1 (.enterContext ⟨some "other", none, none, none⟩ "b"),
    .resume 0 (.enterContext ⟨none, none, none, none⟩ "inner"), .resume 1 (.leave .returns 0),
    .resume 0 (.leave (.raises "ValueError") 0)]

theorem contexts_scoped_takingTurns : ∃ s : System Manager Task, (∀ t ∈ s.tasks, t.Scoped) ∧
    s.tasks.map Task.vars = [⟨some "outer", none, some "user", none⟩, {}] := by
  have run : (tasks.schedule (fun _ _ => true) ⟨{ maxActiveTraces := 1 }, []⟩ takingTurns).any
      (fun s => s.tasks.map Task.vars == [⟨some "outer", none, some "user", none⟩, {}]) = true := by
    decide +kernel
  obtain ⟨s, reach, last⟩ := Machine.Reach.of_run _ _ _ (fun _ _ _ => trivial) run
  exact ⟨s, contexts_scoped reach, by simpa using last⟩

end Scopes

end Tracing

end OmniMemory
