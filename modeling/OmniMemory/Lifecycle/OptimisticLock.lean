import OmniMemory.Lifecycle.Handlers

/-! The optimistic lock of the lifecycle: over any interleaving of expire and archive commands, a
success is one step along an edge of the lifecycle, at most one command succeeds for a revision of
a memory, and a failure leaves the row alone unless the database call was interrupted. -/

namespace OmniMemory

open Interleave

namespace Lifecycle

/-- What a pool tells of the lock. A failure with calls that are `excused` may have changed the
row. -/
structure OptimisticLock (excused : List CallEvent → Prop) (p : LifecyclePool) : Prop where
  success : ∀ t ∈ p.tasks, ∀ result, t.result? = some (.ok result) → result.success = true →
    Applied t.cmd t.calls ∧ isValid t.cmd.source t.cmd.target = true
  unique : ∀ (i j : Nat) (t u : Task Op Res (Except PyError Result) Command State)
    (result result' : Result), p.tasks[i]? = some t → p.tasks[j]? = some u →
    t.result? = some (.ok result) → u.result? = some (.ok result') →
    result.success = true → result'.success = true → t.cmd.memoryId = u.cmd.memoryId →
    t.cmd.expectedRevision = u.cmd.expectedRevision → i = j
  failure : ∀ t ∈ p.tasks, ∀ out, t.result? = some out → told (·.success) out = false →
    Quiet t.calls ∨ excused t.calls

variable {X : External}

theorem isValid_source_target (c : Command) : isValid c.source c.target = true := by
  cases c <;> rfl

/-- An UPDATE that advanced a row comes after no other one at the same revision. -/
theorem Advances.not_ahead {c d : Command} {e f : CallEvent} (first : Advances c e)
    (second : Advances d f) (id : c.memoryId = d.memoryId)
    (revision : c.expectedRevision = d.expectedRevision) :
    ¬ e.after.memories.Ahead f.before.memories := by
  intro ahead
  obtain ⟨row, row', -, expected, -, changed, next, -⟩ := first
  obtain ⟨later, -, here, expected', -, -⟩ := second
  have there : e.after.memories d.memoryId = some row' := by
    rw [changed, id, Function.update_self]
  obtain ⟨row'', found, -, le⟩ := ahead _ _ there
  obtain rfl := Option.some.inj (found.symm.trans here)
  omega

theorem Applied.exists_advances {c : Command} {calls : List CallEvent} (applied : Applied c calls) :
    ∃ e ∈ calls, Advances c e := by
  obtain ⟨pre, e, post, rfl, -, -, -, advances⟩ := applied
  exact ⟨e, by simp, advances⟩

theorem optimisticLock_of_reach {p : LifecyclePool}
    (reach : (world X).Reach (fun _ => True) World.Free p) : OptimisticLock Interrupted p := by
  have holds := handlers_hold (X := X) (fun _ => True) World.Free
  have applied : ∀ t ∈ p.tasks, ∀ result, t.result? = some (.ok result) →
      result.success = true → Applied t.cmd t.calls := by
    intro t ht result returned success
    have tells := (reports_of_reach reach ht returned).1
    rwa [Tells, told, if_pos success] at tells
  constructor
  · intro t ht result returned success
    exact ⟨applied t ht result returned success, isValid_source_target t.cmd⟩
  · intro i j t u result result' hi hj returned returned' success success' id revision
    by_contra ne
    have ht := List.mem_of_getElem? hi
    have hu := List.mem_of_getElem? hj
    obtain ⟨e, he, first⟩ := (applied t ht result returned success).exists_advances
    obtain ⟨f, hf, second⟩ := (applied u hu result' returned' success').exists_advances
    rcases holds.ordered reach i j t u hi hj ne e he f hf with ahead | ahead
    · exact first.not_ahead second id revision ahead
    · exact second.not_ahead first id.symm revision.symm ahead
  · intro t ht out returned failed
    have tells := (reports_of_reach reach ht returned).1
    rwa [Tells, failed] at tells

def succeeded (p : LifecyclePool) : Nat :=
  p.tasks.countP fun t => t.result?.any (told (·.success))

/-- A memory is expired and then archived. -/
def expireThenArchive : List (Act Command Choice Empty) :=
  [.start (.expire plainExpire ⟨2025, 1, 2, 0⟩ ⟨1, 0, none⟩),
    .call 0 (.answer true), .call 0 .run, .call 0 .run, .call 0 .run, .call 0 .run,
    .start (.archive plainArchive ⟨2025, 1, 3, 0⟩ ⟨1, 1, none⟩),
    .call 1 (.answer true), .call 1 .run, .call 1 .run, .call 1 .run, .call 1 .run,
    .call 1 .run, .call 1 .run, .call 1 .run, .call 1 .run, .call 1 .run, .call 1 .run,
    .call 1 .run, .call 1 .run, .call 1 .run, .call 1 .run]

theorem optimisticLock_expireThenArchive :
    ∃ p : LifecyclePool, succeeded p = 2 ∧ OptimisticLock Interrupted p := by
  obtain ⟨p, reach, both⟩ : ∃ p : LifecyclePool,
      (world (.plain [])).Reach (· = plainState [1] .active) World.Free p ∧
        decide (succeeded p = 2) = true :=
    World.Reach.of_run (fun _ _ => true) _ expireThenArchive (fun _ _ _ _ => trivial) (by decide)
  exact ⟨p, of_decide_eq_true both,
    optimisticLock_of_reach (reach.mono (fun _ _ => trivial) fun _ _ met => met)⟩

/-- A task reported failure though it changed its row and its UPDATE raised nothing. -/
def misreports (t : Task Op Res (Except PyError Result) Command State) : Bool :=
  t.result?.any (!told (·.success) ·) &&
    t.calls.any (fun e =>
      decide (e.after.memories t.cmd.memoryId ≠ e.before.memories t.cmd.memoryId)) &&
    t.calls.all fun e => !(e.op.writesTable && raised e.op e.answer)

/-- The UPDATE of an expire command commits and the release of its connection times out. -/
def releaseTimesOut : List (Act Command Choice Empty) :=
  [.start (.expire plainExpire ⟨2025, 1, 2, 0⟩ ⟨1, 0, none⟩),
    .call 0 (.answer true), .call 0 .run, .call 0 .run, .call 0 .run,
    .call 0 (.fail (.timeoutError "")), .call 0 .run]

/-- A failure may be reported after an UPDATE that took effect and did not raise. -/
theorem not_optimisticLock_updateRaised :
    ¬ ∀ (X : External) (p : LifecyclePool), (world X).Reach (fun _ => True) World.Free p →
      OptimisticLock UpdateRaised p := by
  intro all
  obtain ⟨p, reach, wrong⟩ : ∃ p : LifecyclePool,
      (world (.plain [])).Reach (· = plainState [1] .active) World.Free p ∧
        p.tasks.any misreports = true :=
    World.Reach.of_run (fun _ _ => true) _ releaseTimesOut (fun _ _ _ _ => trivial) (by decide)
  have reach := reach.mono (fun _ _ => trivial) fun _ _ met => met
  obtain ⟨t, ht, misreports⟩ := List.any_eq_true.mp wrong
  simp only [Lifecycle.misreports, Bool.and_eq_true, Option.any_eq_true, List.any_eq_true,
    List.all_eq_true, decide_eq_true_eq] at misreports
  obtain ⟨⟨⟨out, returned, failed⟩, e, he, changed⟩, calm⟩ := misreports
  rcases (all (.plain []) p reach).failure t ht out returned (by simpa using failed) with
    quiet | ⟨f, hf, update, raised⟩
  · exact changed (congrFun (quiet e he) _)
  · have := calm f hf
    rw [update, raised] at this
    contradiction

end Lifecycle

end OmniMemory
