import OmniMemory.Lifecycle.World

/-! `handle_with_retry` while other writers change the row between its calls. What it reports is what
it did and saw, but for one case: the read that explains a miss may find the revision that the UPDATE
asked for, and then the state is blamed, which may have been ACTIVE all along. -/

namespace OmniMemory

open Interleave Prog

namespace Lifecycle

namespace Retry

/-- What `initialize` makes of a handler. -/
def initialized : HandlerMemoryExpire := ⟨true, true, true⟩

/-- One UPDATE of a row: the revision that it expects, the row before and after it, and what the
first read after it found. -/
structure Attempt where
  expected : Nat
  before : Option MemoryRow
  after : Option MemoryRow
  found : Option (Option MemoryRow)

/-- What a read that finds `row` tells about the attempts, of which the last comes first. -/
def Attempt.explain (row : Option MemoryRow) : List Attempt → List Attempt
  | [] => []
  | a :: rest => { a with found := a.found.orElse fun _ => some row } :: rest

/-- The attempts after one more call. -/
def Attempt.note (attempts : List Attempt) (e : CallEvent) : List Attempt :=
  match e.op with
  | .updateExpired id revision _ =>
    ⟨revision, e.before.memories id, e.after.memories id, none⟩ :: attempts
  | .readState id => explain (e.before.memories id) attempts
  | _ => attempts

/-- The attempts among the calls. -/
def attemptsOf (calls : List CallEvent) : List Attempt := calls.foldl Attempt.note []

/-- The shared state while a call of the handler runs, the row at every moment so far, and the calls
made. -/
structure Watch where
  state : State
  moments : List (Option MemoryRow)
  calls : List CallEvent

def Watch.attempts (w : Watch) : List Attempt := attemptsOf w.calls

/-- Nothing fails: the call is executed, or the breaker answers. -/
def Healthy : Choice → Prop
  | .run | .answer _ => True
  | _ => False

/-- Other writers put the shared state through any states before a call is executed. -/
def Serves (X : External) (id : UUID) (op : Op) (w : Watch) (answer : Res op) (w' : Watch) : Prop :=
  ∃ (others : List State) (choice : Choice) (after : State), Healthy choice ∧
    exec X op choice (others.getLast?.getD w.state) = some (answer, after) ∧
    w'.state = after ∧ w'.moments = w.moments ++ (others ++ [after]).map (·.memories id) ∧
    w'.calls = w.calls ++ [⟨op, others.getLast?.getD w.state, answer, after⟩]

/-- The row is there and in the state. -/
def inState (state : EnumLifecycleState) (row : Option MemoryRow) : Bool :=
  row.any (·.lifecycleState == state)

/-- The UPDATE moved the row from ACTIVE to EXPIRED. -/
def Attempt.moved (a : Attempt) : Bool := inState .active a.before && inState .expired a.after

/-- The result is a failure that names a state. -/
def NamesState (result : ModelMemoryExpireResult) : Prop :=
  result.success = false ∧ result.conflict = false ∧ ∃ state, result.previousState = some state

/-- What a result should tell about the call that has returned it. -/
structure RetryOutcome (maxRetries : Nat) (w : Watch) (result : ModelMemoryExpireResult) : Prop where
  bounded : w.attempts.length ≤ maxRetries
  success : result.success = true ↔ w.attempts.countP (·.moved) = 1
  conflict : result.conflict = true → w.attempts.length = maxRetries ∧
    ∀ a ∈ w.attempts, ∃ row, a.found = some (some row) ∧ row.lifecycleRevision ≠ a.expected
  state : NamesState result → ∃ row ∈ w.moments, inState .active row = false
  absent : result.errorMessage = some "Memory not found" ∨
    result.errorMessage = some "Memory not found during retry" → none ∈ w.moments

/-- The read after the UPDATE found the row ACTIVE with the revision that the UPDATE expected. -/
def Attempt.Misleads (a : Attempt) : Prop :=
  ∃ row, a.found = some (some row) ∧ row.lifecycleRevision = a.expected ∧
    row.lifecycleState = .active

/-- A read misleads, and the row was ACTIVE at every moment. -/
def Misled (w : Watch) : Prop :=
  (∃ a ∈ w.attempts, a.Misleads) ∧ ∀ row ∈ w.moments, inState .active row = true

/-! ### Calls -/

section Calls

variable {X : External} {id : UUID} {w w' : Watch} {l : List Attempt} {seen : List (Option MemoryRow)}

/-- The attempts so far, and moments that were seen. -/
structure Watch.At (w : Watch) (l : List Attempt) (seen : List (Option MemoryRow)) : Prop where
  attempts : w.attempts = l
  moments : seen ⊆ w.moments

def isPlain : Op → Bool
  | .shouldAllowRequest | .recordSuccess | .recordFailure | .recordTimeout | .acquire | .release => true
  | _ => false

theorem Watch.attempts_snoc {w w' : Watch} {e : CallEvent} (calls : w'.calls = w.calls ++ [e]) :
    w'.attempts = Attempt.note w.attempts e := by
  rw [Watch.attempts, attemptsOf, calls, List.foldl_append]
  rfl

theorem Serves.moments {op : Op} {answer : Res op} (served : Serves X id op w answer w') :
    w.moments ⊆ w'.moments := by
  obtain ⟨others, choice, after, -, -, -, moments, -⟩ := served
  rw [moments]
  exact List.subset_append_left _ _

/-- A call that is no statement leaves the attempts. -/
theorem Serves.at_plain {op : Op} {answer : Res op} (served : Serves X id op w answer w')
    (plain : isPlain op = true) (here : w.At l seen) : w'.At l seen := by
  refine ⟨?_, List.Subset.trans here.moments served.moments⟩
  obtain ⟨others, choice, after, -, -, -, -, calls⟩ := served
  rw [Watch.attempts_snoc calls, here.attempts]
  cases op <;> first | rfl | contradiction

theorem Serves.acquired {answer : Res .acquire} (served : Serves X id .acquire w answer w') :
    answer = .ok () := by
  obtain ⟨others, choice, after, healthy, executed, -⟩ := served
  cases choice <;> first | exact healthy.elim | cases executed
  rfl

theorem Serves.released {answer : Res .release} (served : Serves X id .release w answer w') :
    answer = .ok () := by
  obtain ⟨others, choice, after, healthy, executed, -⟩ := served
  cases choice <;> first | exact healthy.elim | cases executed
  rfl

theorem Serves.updated {revision : Nat} {time : DateTime} {answer : Res (.updateExpired id revision time)}
    (served : Serves X id (.updateExpired id revision time) w answer w') (here : w.At l seen) :
    (∃ row, row.lifecycleRevision = revision ∧ row.lifecycleState = .active ∧
      answer = .ok (some (revision + 1)) ∧
      w'.At (⟨revision, some row, some (row.expire time), none⟩ :: l) seen) ∨
    ∃ row, answer = .ok none ∧ w'.At (⟨revision, row, row, none⟩ :: l) (row :: seen) := by
  have moments := served.moments
  obtain ⟨others, choice, after, healthy, executed, -, seen', calls⟩ := served
  have attempts := Watch.attempts_snoc calls
  cases choice <;> first | exact healthy.elim | cases executed
  generalize others.getLast?.getD w.state = before at *
  simp only [Attempt.note, here.attempts] at attempts
  cases guard : before.memories.guarded id revision .active with
  | none =>
    have same : (before.expire id revision time).memories = before.memories :=
      Memories.updateWhere_none guard
    rw [same] at attempts
    refine .inr ⟨before.memories id, by simp [expireAnswer, guard], attempts, ?_⟩
    refine List.cons_subset.mpr ⟨?_, List.Subset.trans here.moments moments⟩
    rw [seen', List.map_append, List.map_singleton, same]
    simp
  | some row =>
    obtain ⟨found, expected, active⟩ := Memories.guarded_eq_some.mp guard
    have changed : (before.expire id revision time).memories id = some (row.expire time) := by
      rw [State.expire, Memories.updateWhere_some guard]
      exact Function.update_self ..
    rw [changed, found] at attempts
    refine .inl ⟨row, expected, active, ?_, attempts, List.Subset.trans here.moments moments⟩
    simp [expireAnswer, guard, expected]

theorem Serves.read {answer : Res (.readState id)}
    (served : Serves X id (.readState id) w answer w') (here : w.At l seen) :
    ∃ row, answer = .ok (row.map fun row => (row.lifecycleState, row.lifecycleRevision)) ∧
      w'.At (Attempt.explain row l) (row :: seen) := by
  have moments := served.moments
  obtain ⟨others, choice, after, healthy, executed, -, seen', calls⟩ := served
  have attempts := Watch.attempts_snoc calls
  cases choice <;> first | exact healthy.elim | cases executed
  generalize others.getLast?.getD w.state = before at *
  simp only [Attempt.note, here.attempts] at attempts
  refine ⟨before.memories id, rfl, attempts, ?_⟩
  refine List.cons_subset.mpr ⟨?_, List.Subset.trans here.moments moments⟩
  rw [seen']
  simp

end Calls

/-! ### The functions of the handler -/

section Handler

variable {X : External} {id : UUID} {w : Watch} {l : List Attempt} {seen : List (Option MemoryRow)}

/-- A call that is no statement, and does not fail, leaves the attempts. -/
theorem always_plain {op : Op} {α : Type} {next : Res op → LifecycleProg α} {Q : α → Watch → Prop}
    (plain : isPlain op = true) (here : w.At l seen)
    (rest : ∀ answer w', Serves X id op w answer w' → w'.At l seen →
      Always (Serves X id) (next answer) w' Q) :
    Always (Serves X id) (.perform op >>= next) w Q :=
  always_op.mpr fun answer w' served => rest answer w' served (served.at_plain plain here)

theorem withConnection_always {α : Type} {body : LifecycleProg (Except PyError α)}
    {Q : Except PyError α → Watch → Prop} (here : w.At l seen)
    (block : ∀ w' : Watch, w'.At l seen → Always (Serves X id) body w' fun out w'' =>
      ∃ l' seen', w''.At l' seen' ∧ ∀ w''' : Watch, w'''.At l' seen' → Q out w''') :
    Always (Serves X id) (withConnection body) w Q := by
  refine always_plain rfl here fun answer w' served here => ?_
  obtain rfl := served.acquired
  refine (block w' here).seq ?_
  rintro out w'' ⟨l', seen', here, closes⟩
  refine always_plain rfl here fun answer w''' served here => ?_
  obtain rfl := served.released
  exact always_ret.mpr (closes w''' here)

/-- The breaker refuses the read, or it finds a row. -/
theorem readCurrentState_always (here : w.At l seen) :
    Always (Serves X id) (initialized.readCurrentState id) w fun out w' =>
      (out = .error (.circuitBreakerOpenError "Circuit breaker is open") ∧ w'.At l seen) ∨
      ∃ row, w'.At (Attempt.explain row l) (row :: seen) ∧
        out = .ok (row.map fun row => ⟨id, row.lifecycleState, row.lifecycleRevision⟩) := by
  refine always_plain rfl here fun allowed w' _ here => ?_
  cases allowed with
  | false => exact always_ret.mpr (.inl ⟨rfl, here⟩)
  | true =>
    refine Always.seq (withConnection_always (Q := fun out w' => ∃ row,
      w'.At (Attempt.explain row l) (row :: seen) ∧
        out = .ok (row.map fun row => ⟨id, row.lifecycleState, row.lifecycleRevision⟩)) here
      fun w' here => ?_) ?_
    · refine always_op.mpr fun answer w'' served => ?_
      obtain ⟨row, rfl, here⟩ := served.read here
      cases row with
      | none =>
        refine always_plain rfl here fun _ w''' _ here => always_ret.mpr ?_
        exact ⟨_, _, here, fun _ here => ⟨none, here, rfl⟩⟩
      | some row =>
        refine always_plain rfl here fun _ w''' _ here => always_ret.mpr ?_
        exact ⟨_, _, here, fun _ here => ⟨some row, here, rfl⟩⟩
    · rintro out w' ⟨row, here, rfl⟩
      exact always_ret.mpr (.inr ⟨row, here, rfl⟩)

/-- A failure that is no conflict and names no state. -/
def failure (id : UUID) (message : String) : ModelMemoryExpireResult :=
  { memoryId := id, success := false, errorMessage := some message }

/-- The messages that a row was absent. -/
def notFound : List String := ["Memory not found", "Memory not found during retry"]

/-- What a miss is reported as when the row is read. -/
def explanation (id : UUID) (expected : Nat) : Option MemoryRow → ModelMemoryExpireResult
  | none => failure id "Memory not found"
  | some row =>
    if row.lifecycleRevision ≠ expected then
      { failure id (s!"Revision conflict: expected {expected}, " ++
          s!"found {row.lifecycleRevision}") with
        conflict := true
        previousState := some row.lifecycleState }
    else
      { failure id (s!"Cannot expire memory in state {row.lifecycleState.value}. " ++
          "Only ACTIVE memories can be expired.") with
        previousState := some row.lifecycleState }

/-- What an attempt at `expected` reports, and the attempts and moments after it. -/
inductive Handled (id : UUID) (expected : Nat) (l : List Attempt) (seen : List (Option MemoryRow)) :
    ModelMemoryExpireResult → List Attempt → List (Option MemoryRow) → Prop where
  | refused (message : String) (other : message ∉ notFound) :
    Handled id expected l seen (failure id message) l seen
  | moved (row : MemoryRow) (time : DateTime) (active : row.lifecycleState = .active) :
    Handled id expected l seen ⟨id, true, some (expected + 1), false, none, some .active⟩
      (⟨expected, some row, some (row.expire time), none⟩ :: l) seen
  | unexplained (row : Option MemoryRow) (message : String) (other : message ∉ notFound) :
    Handled id expected l seen (failure id message) (⟨expected, row, row, none⟩ :: l) (row :: seen)
  | explained (row found : Option MemoryRow) :
    Handled id expected l seen (explanation id expected found)
      (⟨expected, row, row, some found⟩ :: l) (found :: row :: seen)

theorem explainMiss_always {command : ModelExpireMemoryCommand} {row : Option MemoryRow}
    (same : command.memoryId = id)
    (here : w.At (⟨command.expectedRevision, row, row, none⟩ :: l) (row :: seen)) :
    Always (Serves X id) (initialized.explainMiss command) w fun out w' =>
      ∃ result l' seen', Handled id command.expectedRevision l seen result l' seen' ∧
        out = .ok result ∧ w'.At l' seen' := by
  subst same
  refine Always.seq (readCurrentState_always here) ?_
  rintro out w' (⟨rfl, here⟩ | ⟨found, here, rfl⟩)
  · exact always_ret.mpr ⟨_, _, _, .unexplained row _ (by decide +kernel), rfl, here⟩
  · have told : Handled command.memoryId command.expectedRevision l seen _ _ _ :=
      .explained row found
    cases found with
    | none =>
      refine always_plain rfl here fun _ w'' _ here => always_ret.mpr ?_
      exact ⟨_, _, _, told, rfl, here⟩
    | some found =>
      refine always_plain rfl here fun _ w'' _ here => ?_
      by_cases conflict : found.lifecycleRevision = command.expectedRevision
      · simp only [explanation, conflict, ne_eq, not_true, if_false] at told ⊢
        exact always_ret.mpr ⟨_, _, _, told, rfl, here⟩
      · simp only [explanation, conflict, ne_eq, not_false_iff, if_true] at told ⊢
        exact always_ret.mpr ⟨_, _, _, told, rfl, here⟩

theorem handle_always {now : DateTime} {command : ModelExpireMemoryCommand}
    (same : command.memoryId = id) (here : w.At l seen) :
    Always (Serves X id) (initialized.handle now command) w fun out w' =>
      ∃ result l' seen', Handled id command.expectedRevision l seen result l' seen' ∧
        out = .ok result ∧ w'.At l' seen' := by
  subst same
  refine always_plain rfl here fun allowed w' _ here => ?_
  cases allowed with
  | false => exact always_ret.mpr ⟨_, _, _, .refused _ (by decide +kernel), rfl, here⟩
  | true =>
    refine Always.seq (withConnection_always here (Q := fun out w' => ∃ result l' seen',
      Handled command.memoryId command.expectedRevision l seen result l' seen' ∧
        out = .ok result ∧ w'.At l' seen') fun w' here => ?_) ?_
    · refine always_op.mpr fun answer w'' served => ?_
      rcases served.updated here with ⟨row, expected, active, rfl, here⟩ | ⟨row, rfl, here⟩
      · refine always_plain rfl here fun _ w''' _ here => always_ret.mpr ?_
        exact ⟨_, _, here, fun _ here => ⟨_, _, _, .moved row _ active, rfl, here⟩⟩
      · refine (explainMiss_always rfl here).imp ?_
        rintro out w''' ⟨result, l', seen', told, rfl, here⟩
        exact ⟨l', seen', here, fun _ here => ⟨result, l', seen', told, rfl, here⟩⟩
    · rintro out w' ⟨result, l', seen', told, rfl, here⟩
      exact always_ret.mpr ⟨result, l', seen', told, rfl, here⟩

end Handler

/-! ### The loop -/

section Loop

variable {X : External} {id : UUID} {expected max : Nat} {l l' : List Attempt}
  {seen seen' : List (Option MemoryRow)} {result : ModelMemoryExpireResult}

/-- The attempts that a conflict ended. -/
def Contended (l : List Attempt) : Prop :=
  ∀ a ∈ l, a.moved = false ∧
    ∃ row, a.found = some (some row) ∧ row.lifecycleRevision ≠ a.expected

/-- What the last result tells, where what was seen may be less than all moments. -/
structure Ended (max : Nat) (l : List Attempt) (seen : List (Option MemoryRow))
    (result : ModelMemoryExpireResult) : Prop where
  bounded : l.length ≤ max
  success : result.success = true ↔ l.countP (·.moved) = 1
  conflict : result.conflict = true → l.length = max ∧
    ∀ a ∈ l, ∃ row, a.found = some (some row) ∧ row.lifecycleRevision ≠ a.expected
  state : NamesState result →
    (∃ row ∈ seen, inState .active row = false) ∨ ∃ a ∈ l, a.Misleads
  absent : (∃ message ∈ notFound, result.errorMessage = some message) → none ∈ seen
  misled : ∀ a ∈ l, a.Misleads → NamesState result

theorem Contended.countP (contended : Contended l) : l.countP (·.moved) = 0 :=
  List.countP_eq_zero.mpr fun a mem => by simp [(contended a mem).1]

theorem Contended.not_misleads (contended : Contended l) : ∀ a ∈ l, ¬ a.Misleads := by
  rintro a mem ⟨row, found, same, -⟩
  obtain ⟨-, row', found', other⟩ := contended a mem
  obtain rfl : row' = row := by simpa [found'] using found
  exact other same

/-- An UPDATE that misses moves nothing. -/
theorem not_moved_same (expected : Nat) (row : Option MemoryRow) (found : Option (Option MemoryRow)) :
    (⟨expected, row, row, found⟩ : Attempt).moved = false := by
  cases row with
  | none => rfl
  | some row => cases state : row.lifecycleState <;> simp [Attempt.moved, inState, state]

/-- A failure without a state ends the loop if the attempts moved nothing and were not misled. -/
theorem ended_failure {message : String} (bounded : l.length ≤ max)
    (still : l.countP (·.moved) = 0) (clear : ∀ a ∈ l, ¬ a.Misleads)
    (absent : message ∈ notFound → none ∈ seen) : Ended max l seen (failure id message) where
  bounded := bounded
  success := by simp [failure, still]
  conflict := by simp [failure]
  state := by simp [NamesState, failure]
  absent := by
    rintro ⟨message', mem, same⟩
    obtain rfl := Option.some.inj same
    exact absent mem
  misled a mem misleads := absurd misleads (clear a mem)

theorem Ended.failure_cons {message : String} {a : Attempt} (contended : Contended l)
    (room : l.length < max) (still : a.moved = false) (clear : ¬ a.Misleads)
    (absent : message ∈ notFound → none ∈ seen) : Ended max (a :: l) seen (failure id message) :=
  ended_failure room (by rw [List.countP_cons, contended.countP, still]; rfl)
    (List.forall_mem_cons.mpr ⟨clear, contended.not_misleads⟩) absent

theorem blame_notMem (state : EnumLifecycleState) :
    s!"Cannot expire memory in state {state.value}. " ++ "Only ACTIVE memories can be expired." ∉
      notFound := by
  cases state <;> decide +kernel

/-- The state is blamed for a miss though the revision is the expected one. -/
theorem ended_blamed {found : MemoryRow} {row : Option MemoryRow} (contended : Contended l)
    (room : l.length < max) (same : found.lifecycleRevision = expected) :
    Ended max (⟨expected, row, row, some (some found)⟩ :: l) (some found :: row :: seen)
      (explanation id expected (some found)) := by
  have told : explanation id expected (some found) =
      { failure id (s!"Cannot expire memory in state {found.lifecycleState.value}. " ++
          "Only ACTIVE memories can be expired.") with
        previousState := some found.lifecycleState } := by
    simp [explanation, same]
  rw [told]
  refine ⟨room, ?_, by simp [failure], fun _ => ?_, ?_, fun _ _ _ => ⟨rfl, rfl, _, rfl⟩⟩
  · rw [List.countP_cons, contended.countP, not_moved_same]
    simp [failure]
  · by_cases active : found.lifecycleState = .active
    · exact .inr ⟨_, List.mem_cons_self, found, rfl, same, active⟩
    · exact .inl ⟨_, List.mem_cons_self, by simp [inState, active]⟩
  · rintro ⟨message, mem, same⟩
    obtain rfl := Option.some.inj same
    exact absurd mem (blame_notMem _)

/-- An attempt ends the loop, or a conflict ended it. -/
theorem Handled.cases (handled : Handled id expected l seen result l' seen')
    (contended : Contended l) (room : l.length < max) :
    (result.success = true ∨ result.conflict = false) ∧ Ended max l' seen' result ∨
      result.success = false ∧ result.conflict = true ∧ Contended l' ∧
        l'.length = l.length + 1 := by
  cases handled with
  | refused message other =>
    refine .inl ⟨.inr rfl, ended_failure room.le contended.countP contended.not_misleads ?_⟩
    exact fun mem => absurd mem other
  | moved row time active =>
    refine .inl ⟨.inl rfl, room, ?_, nofun, ?_, ?_, ?_⟩
    · rw [List.countP_cons, contended.countP]
      simp [Attempt.moved, inState, MemoryRow.expire, active]
    · rintro ⟨failed, -⟩
      contradiction
    · rintro ⟨message, -, none⟩
      contradiction
    · refine List.forall_mem_cons.mpr ⟨?_, fun a mem misleads => ?_⟩
      · rintro ⟨row, found, -⟩
        contradiction
      · exact absurd misleads (contended.not_misleads a mem)
  | unexplained row message other =>
    refine .inl ⟨.inr rfl, .failure_cons contended room (not_moved_same ..) ?_ ?_⟩
    · rintro ⟨row, found, -⟩
      contradiction
    · exact fun mem => absurd mem other
  | explained row found =>
    cases found with
    | none =>
      refine .inl ⟨.inr rfl, .failure_cons contended room (not_moved_same ..) ?_ ?_⟩
      · rintro ⟨row, found, -⟩
        exact nomatch Option.some.inj found
      · exact fun _ => List.mem_cons_self
    | some found =>
      by_cases same : found.lifecycleRevision = expected
      · refine .inl ⟨.inr ?_, ended_blamed contended room same⟩
        simp [explanation, same, failure]
      · refine .inr ⟨?_, ?_, ?_, rfl⟩
        · simp [explanation, same, failure]
        · simp [explanation, same]
        · exact List.forall_mem_cons.mpr ⟨⟨not_moved_same .., found, rfl, same⟩, contended⟩

/-- No attempt is left. -/
theorem ended_exceeded {message : String} (contended : Contended l) (spent : l.length = max)
    (other : message ∉ notFound) : Ended max l seen
      { memoryId := id, success := false, conflict := true, errorMessage := some message } where
  bounded := spent.le
  success := by simp [contended.countP]
  conflict _ := ⟨spent, fun a mem => (contended a mem).2⟩
  state := by simp [NamesState]
  absent := by
    rintro ⟨message', mem, same⟩
    obtain rfl := Option.some.inj same
    exact absurd mem other
  misled a mem misleads := absurd misleads (contended.not_misleads a mem)

theorem explain_contended (contended : Contended l) (found : Option MemoryRow) :
    Attempt.explain found l = l := by
  cases l with
  | nil => rfl
  | cons a l =>
    obtain ⟨-, row, read, -⟩ := contended a List.mem_cons_self
    cases a
    simp_all [Attempt.explain]

theorem exceeded_notMem (max : Nat) :
    s!"Max retries ({max}) exceeded due to contention" ∉ notFound := by
  intro mem
  have second : ∀ message ∈ notFound, message.toList[1]? = some 'e' := by decide +kernel
  have other := second _ mem
  have starts : (toString "Max retries (").toList = 'M' :: 'a' :: "x retries (".toList := by
    decide +kernel
  rw [String.toList_append, String.toList_append, starts] at other
  simp at other

theorem transitioned_notMem (state : EnumLifecycleState) :
    "Memory transitioned to invalid state during retry: " ++ state.value ∉ notFound := by
  cases state <;> decide +kernel

/-- The row is read before the next attempt, and its state is no longer ACTIVE. -/
theorem ended_transitioned {row : MemoryRow} (contended : Contended l) (bounded : l.length ≤ max)
    (other : row.lifecycleState ≠ .active) : Ended max l (some row :: seen)
      { failure id ("Memory transitioned to invalid state during retry: " ++
          row.lifecycleState.value) with
        previousState := some row.lifecycleState } where
  bounded := bounded
  success := by simp [contended.countP, failure]
  conflict := by simp [failure]
  state _ := .inl ⟨_, List.mem_cons_self, by simp [inState, other]⟩
  absent := by
    rintro ⟨message', mem, same⟩
    obtain rfl := Option.some.inj same
    exact absurd mem (transitioned_notMem _)
  misled _ _ _ := ⟨rfl, rfl, _, rfl⟩

/-- The loop ends with a result that tells what its attempts did and saw. -/
theorem attempts_always {expiredAt : Option DateTime} {w : Watch} {nows : List DateTime}
    {revision : Nat} (contended : Contended l) (left : l.length + nows.length = max)
    (here : w.At l seen) :
    Always (Serves X id) (initialized.attempts max id expiredAt nows revision) w fun out w' =>
      ∃ result l' seen', out = .ok result ∧ w'.At l' seen' ∧ Ended max l' seen' result := by
  induction nows generalizing l seen w revision with
  | nil =>
    exact always_ret.mpr
      ⟨_, l, seen, rfl, here, ended_exceeded contended (by simpa using left) (exceeded_notMem max)⟩
  | cons now nows ih =>
    rw [List.length_cons] at left
    refine Always.seq (handle_always rfl here) ?_
    rintro out w' ⟨result, l', seen', handled, rfl, here⟩
    rcases handled.cases contended (show l.length < max by omega) with
      ⟨ends, ended⟩ | ⟨failed, conflict, contended, length⟩
    · have stops : (result.success || !result.conflict) = true := by simpa using ends
      simp only [stops, if_true]
      exact always_ret.mpr ⟨result, l', seen', rfl, here, ended⟩
    · have goes : (result.success || !result.conflict) = false := by simp [failed, conflict]
      simp only [goes, Bool.false_eq_true, if_false]
      have bounded : l'.length ≤ max := by omega
      have failed : ∀ {message seen}, (message ∈ notFound → none ∈ seen) →
          Ended max l' seen (failure id message) := fun absent =>
        ended_failure bounded contended.countP contended.not_misleads absent
      refine Always.seq (readCurrentState_always here) ?_
      rintro out w'' (⟨rfl, here⟩ | ⟨found, here, rfl⟩)
      · refine always_ret.mpr ⟨_, l', seen', rfl, here, failed fun mem => absurd mem ?_⟩
        decide +kernel
      rw [explain_contended contended] at here
      cases found with
      | none => exact always_ret.mpr ⟨_, l', _, rfl, here, failed fun _ => List.mem_cons_self⟩
      | some row =>
        by_cases active : row.lifecycleState = .active
        · have valid : ¬ row.lifecycleState ∉ HandlerMemoryExpire.validFromStates := by
            simp [HandlerMemoryExpire.validFromStates, active]
          simp only [Option.map_some, valid, if_false]
          exact ih contended (by omega) here
        · have invalid : row.lifecycleState ∉ HandlerMemoryExpire.validFromStates := by
            simp [HandlerMemoryExpire.validFromStates, active]
          simp only [Option.map_some, invalid, not_false_iff, if_true]
          exact always_ret.mpr ⟨_, l', _, rfl, here, ended_transitioned contended bounded active⟩

end Loop

/-! ### Runs -/

/-- A watch at the start of the call. -/
def Watch.start (id : UUID) (s : State) : Watch := ⟨s, [s.memories id], []⟩

/-- In every run the result tells what the attempts did and saw, exactly if it is not misled. -/
theorem handleWithRetry_outcome_iff {X : External} {nows : List DateTime} {id : UUID}
    {initialRevision : Nat} {expiredAt : Option DateTime} {s : State} {w : Watch}
    {out : Except PyError ModelMemoryExpireResult}
    (runs : Runs (Serves X id) (initialized.handleWithRetry nows id initialRevision expiredAt)
      (.start id s) out w) :
    (∃ result, out = .ok result ∧ RetryOutcome nows.length w result) ↔ ¬ Misled w := by
  have start : (Watch.start id s).At [] [] := ⟨rfl, List.nil_subset _⟩
  obtain ⟨result, l, seen, rfl, here, ended⟩ :=
    attempts_always (by simp [Contended]) (by simp) start out w runs
  obtain rfl := here.attempts
  constructor
  · rintro ⟨_, ⟨⟩, outcome⟩ ⟨⟨a, mem, misleads⟩, active⟩
    obtain ⟨row, moment, other⟩ := outcome.state (ended.misled a mem misleads)
    rw [active row moment] at other
    contradiction
  · intro clear
    refine ⟨result, rfl, ended.bounded, ended.success, ended.conflict, fun names => ?_, ?_⟩
    · rcases ended.state names with ⟨row, mem, other⟩ | misled
      · exact ⟨row, here.moments mem, other⟩
      · by_contra all
        refine clear ⟨misled, fun row mem => ?_⟩
        by_contra other
        exact all ⟨row, mem, by simpa using other⟩
    · rintro (same | same)
      · exact here.moments (ended.absent ⟨_, by simp [notFound], same⟩)
      · exact here.moments (ended.absent ⟨_, by simp [notFound], same⟩)

theorem serves_of_exec {X : External} {id : UUID} {op : Op} {w : Watch} {answer : Res op}
    {after : State} (others : List State) (choice : Choice) (healthy : Healthy choice)
    (executed : exec X op choice (others.getLast?.getD w.state) = some (answer, after)) :
    Serves X id op w answer ⟨after, w.moments ++ (others ++ [after]).map (·.memories id),
      w.calls ++ [⟨op, others.getLast?.getD w.state, answer, after⟩]⟩ :=
  ⟨others, choice, after, healthy, executed, rfl, rfl, rfl⟩

/-- The row of `plainState` at a revision. -/
def revisedState (revision : Nat) : State :=
  { plainState [1] .active with memories := fun _ => some (plainRow .active revision) }

theorem handleWithRetry_outcome_iff_expires :
    ∃ out w, Runs (Serves (.plain []) 1) (initialized.handleWithRetry [⟨2025, 1, 2, 0⟩] 1 0 none)
        (.start 1 (revisedState 0)) out w ∧
      ((∃ result, out = .ok result ∧ RetryOutcome [(⟨2025, 1, 2, 0⟩ : DateTime)].length w result) ↔
        ¬ Misled w) := by
  obtain ⟨out, w, runs⟩ : ∃ out w, Runs (Serves (.plain []) 1)
      (initialized.handleWithRetry [⟨2025, 1, 2, 0⟩] 1 0 none) (.start 1 (revisedState 0)) out w :=
    ⟨_, _, .call (serves_of_exec [] (.answer true) trivial rfl) <|
      .call (serves_of_exec [] .run trivial rfl) <|
      .call (serves_of_exec [] .run trivial rfl) <|
      .call (serves_of_exec [] .run trivial rfl) <|
      .call (serves_of_exec [] .run trivial rfl) <| .ret _ _⟩
  exact ⟨out, w, runs, handleWithRetry_outcome_iff runs⟩

/-- Another writer brings the row to the expected revision between the UPDATE and the read. -/
theorem not_retryOutcome_caught_up :
    ¬ ∀ (X : External) (nows : List DateTime) (id : UUID) (initialRevision : Nat)
      (expiredAt : Option DateTime) (s : State) (w : Watch)
      (out : Except PyError ModelMemoryExpireResult), nows ≠ [] →
      Runs (Serves X id) (initialized.handleWithRetry nows id initialRevision expiredAt)
        (.start id s) out w → ∃ result, out = .ok result ∧ RetryOutcome nows.length w result := by
  intro holds
  obtain ⟨w, runs, active⟩ : ∃ w, Runs (Serves (.plain []) 1)
      (initialized.handleWithRetry [⟨2025, 1, 2, 0⟩] 1 3 none) (.start 1 (revisedState 2))
      (.ok (explanation 1 3 (some (plainRow .active 3)))) w ∧
        w.moments.all (inState .active) = true := by
    exact ⟨_, .call (serves_of_exec [] (.answer true) trivial rfl) <|
      .call (serves_of_exec [] .run trivial rfl) <|
      .call (serves_of_exec [] .run trivial rfl) <|
      .call (serves_of_exec [] (.answer true) trivial rfl) <|
      .call (serves_of_exec [] .run trivial rfl) <|
      .call (serves_of_exec [revisedState 3] .run trivial rfl) <|
      .call (serves_of_exec [] .run trivial rfl) <|
      .call (serves_of_exec [] .run trivial rfl) <|
      .call (serves_of_exec [] .run trivial rfl) <|
      .call (serves_of_exec [] .run trivial rfl) <| .ret _ _, by decide⟩
  obtain ⟨result, same, outcome⟩ := holds _ _ _ _ _ _ _ _ (by decide) runs
  cases same
  obtain ⟨row, moment, other⟩ := outcome.state ⟨rfl, rfl, _, rfl⟩
  rw [List.all_eq_true.mp active row moment] at other
  contradiction

end Retry

end Lifecycle

end OmniMemory
