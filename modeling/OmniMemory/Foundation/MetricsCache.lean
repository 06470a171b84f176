import OmniMemory.Foundation.MigrationProgress

/-! When the rates of a migration are those of its counters although they are cached. Completing a
file empties the cache, and adding one does not, so `completion_percentage` may be that of fewer
files for as long as the cache is valid. `success_rate` counts completed files only. -/

namespace OmniMemory

open Sequential

namespace Migration

open MigrationProgressMetrics

/-- `ProgressSummaryResponse`, as far as it tells of the counters. -/
structure ProgressSummaryResponse where
  completionPercentage : ℚ
  successRate : ℚ
  totalItems : Int
  processedItems : Int
  successfulItems : Int
  failedItems : Int

namespace MigrationProgressTracker

variable (self : MigrationProgressTracker)

/-- `get_progress_summary`, with the times at which it reads the two rates. -/
def getProgressSummary (now later : Int) : ProgressSummaryResponse × MigrationProgressTracker :=
  let (completionPercentage, metrics) := self.metrics.completionPercentage now
  let (successRate, metrics) := metrics.successRate later
  ({ completionPercentage := completionPercentage
     successRate := successRate
     totalItems := metrics.totalFiles
     processedItems := metrics.processedFiles
     successfulItems := metrics.processedFiles - metrics.failedFiles
     failedItems := metrics.failedFiles },
    { self with metrics := metrics })

/-- The rates of the counters as they are. -/
def completion : ℚ := percentage self.metrics.processedFiles self.metrics.totalFiles

def success : ℚ :=
  percentage (self.metrics.processedFiles - self.metrics.failedFiles) self.metrics.processedFiles

/-- The number of times that a file was completed, with success or without. -/
def finished : Int := self.metrics.processedFiles + self.metrics.failedFiles

/-- Nothing was cached yet. -/
def Uncached : Prop :=
  self.metrics.cachedCompletionPercentage = none ∧ self.metrics.cachedSuccessRate = none

end MigrationProgressTracker

open MigrationProgressTracker

/-- An operation, a read of one rate, or a summary. -/
inductive Call where
  | op (op : Op)
  | getProgressSummary (now later : Int)

inductive Response where
  | answer (answer : Answer)
  | summary (summary : ProgressSummaryResponse)

/-- The time at which a call reads `completion_percentage`. -/
def Call.readsCompletion : Call → Option Int
  | .op (.completionPercentage now) | .getProgressSummary now _ => some now
  | .op _ => none

def monitor : Automaton Call Response MigrationProgressTracker where
  step t
    | .op op => (step t op).map .answer id
    | .getProgressSummary now later => (t.getProgressSummary now later).map .summary id

/-- The rates that a call returns are those of the counters. -/
def Current (t : MigrationProgressTracker) : Call → Prop
  | .op (.completionPercentage now) => (t.metrics.completionPercentage now).1 = t.completion
  | .op (.successRate now) => (t.metrics.successRate now).1 = t.success
  | .op _ => True
  | .getProgressSummary now later =>
    (t.getProgressSummary now later).1.completionPercentage = t.completion ∧
      (t.getProgressSummary now later).1.successRate = t.success

instance (t : MigrationProgressTracker) : DecidablePred (Current t)
  | .getProgressSummary .. => inferInstanceAs (Decidable (_ = _ ∧ _ = _))
  | .op (.completionPercentage _) | .op (.successRate _) => inferInstanceAs (Decidable (_ = _))
  | .op (.addFile ..) | .op (.startFileProcessing _) | .op (.completeFileProcessing ..)
  | .op (.skipFileProcessing ..) | .op (.retryFailedFiles _) => .isTrue trivial

section Cache

variable {t : MigrationProgressTracker} {calls : List Call} {call : Call} {q : ℚ}

variable (t calls) in
/-- `completion_percentage` was read since a file was last completed, and when it was last read the
percentage of the counters was `q`. -/
def LastRead (q : ℚ) : Prop :=
  ∃ before read between, calls = before ++ read :: between ∧ read.readsCompletion.isSome = true ∧
    (∀ call ∈ between, call.readsCompletion = none) ∧
    (monitor.run t before).finished = (monitor.run t calls).finished ∧
    q = (monitor.run t before).completion

variable (t calls) in
/-- Whenever the percentage is read while the cache is valid, it is as it was when it was last read:
no file that was added meanwhile has changed it. -/
def Undisturbed : Prop :=
  ∀ before read after now, calls = before ++ read :: after → read.readsCompletion = some now →
    (monitor.run t before).metrics.isCacheValid now = true →
    ∀ q, LastRead t before q → q = (monitor.run t before).completion

/-! ### What a call does to the cache -/

theorem cachedOr_eq {metrics : MigrationProgressMetrics} {cached : Option ℚ} {now : Int} {value : ℚ} :
    metrics.cachedOr cached now value = value ↔
      (metrics.isCacheValid now = true → ∀ q, cached = some q → q = value) := by
  unfold cachedOr
  cases metrics.isCacheValid now <;> cases cached <;> simp

/-- A call caches the percentage that it reads, or leaves the cache as it is, or completes a file
and empties it. -/
theorem completion_cases (t : MigrationProgressTracker) (call : Call) :
    (∃ now, call.readsCompletion = some now ∧
        (monitor.step t call).2.completion = t.completion ∧
        (monitor.step t call).2.finished = t.finished ∧
        (monitor.step t call).2.metrics.cachedCompletionPercentage =
          some (t.metrics.completionPercentage now).1) ∨
      (call.readsCompletion = none ∧ (monitor.step t call).2.finished = t.finished ∧
        (monitor.step t call).2.metrics.cachedCompletionPercentage =
          t.metrics.cachedCompletionPercentage) ∨
      (call.readsCompletion = none ∧ t.finished < (monitor.step t call).2.finished ∧
        (monitor.step t call).2.metrics.cachedCompletionPercentage = none) := by
  cases call with
  | getProgressSummary now later => exact .inl ⟨now, rfl, rfl, rfl, rfl⟩
  | op op =>
    cases op with
    | completionPercentage now => exact .inl ⟨now, rfl, rfl, rfl, rfl⟩
    | addFile | successRate | retryFailedFiles => exact .inr (.inl ⟨rfl, rfl, rfl⟩)
    | startFileProcessing filePath =>
      refine .inr (.inl ⟨rfl, ?_⟩)
      simp only [monitor, step, startFileProcessing]
      split <;> exact ⟨rfl, rfl⟩
    | skipFileProcessing filePath reason =>
      refine .inr (.inl ⟨rfl, ?_⟩)
      simp only [monitor, step, skipFileProcessing]
      split <;> exact ⟨rfl, rfl⟩
    | completeFileProcessing filePath success errorMessage now =>
      refine .inr ?_
      simp only [monitor, step, completeFileProcessing]
      split
      · exact .inl ⟨rfl, rfl, rfl⟩
      · refine .inr ⟨rfl, ?_, ?_⟩
        · cases success <;> simp [finished, invalidateCache]
        · cases success <;> rfl

/-- A call leaves the success rate, and caches the one that it reads, or it empties the cache. -/
theorem success_cases (t : MigrationProgressTracker) (call : Call) :
    ((monitor.step t call).2.success = t.success ∧
        ((monitor.step t call).2.metrics.cachedSuccessRate = t.metrics.cachedSuccessRate ∨
          ∃ now, (monitor.step t call).2.metrics.cachedSuccessRate =
            some (t.metrics.successRate now).1)) ∨
      (monitor.step t call).2.metrics.cachedSuccessRate = none := by
  cases call with
  | getProgressSummary now later => exact .inl ⟨rfl, .inr ⟨later, rfl⟩⟩
  | op op =>
    cases op with
    | successRate now => exact .inl ⟨rfl, .inr ⟨now, rfl⟩⟩
    | addFile | completionPercentage | retryFailedFiles => exact .inl ⟨rfl, .inl rfl⟩
    | startFileProcessing filePath =>
      refine .inl ?_
      simp only [monitor, step, startFileProcessing]
      split <;> exact ⟨rfl, .inl rfl⟩
    | skipFileProcessing filePath reason =>
      refine .inl ?_
      simp only [monitor, step, skipFileProcessing]
      split <;> exact ⟨rfl, .inl rfl⟩
    | completeFileProcessing filePath success errorMessage now =>
      simp only [monitor, step, completeFileProcessing]
      split
      · exact .inl ⟨rfl, .inl rfl⟩
      · refine .inr ?_
        cases success <;> rfl

theorem finished_mono (t : MigrationProgressTracker) (calls : List Call) :
    t.finished ≤ (monitor.run t calls).finished := by
  induction calls generalizing t with
  | nil => exact le_rfl
  | cons call calls ih =>
    refine le_trans ?_ (ih _)
    rcases completion_cases t call with ⟨_, -, -, same, -⟩ | ⟨-, same, -⟩ | ⟨-, more, -⟩
    · exact same.ge
    · exact same.ge
    · exact more.le

/-! ### Runs -/

/-- A cached success rate is that of the counters. -/
def SuccessKept (t : MigrationProgressTracker) : Prop :=
  ∀ q, t.metrics.cachedSuccessRate = some q → q = t.success

theorem SuccessKept.successRate_eq (kept : SuccessKept t) (now : Int) :
    (t.metrics.successRate now).1 = t.success :=
  cachedOr_eq.mpr fun _ => kept

theorem SuccessKept.step (kept : SuccessKept t) (call : Call) :
    SuccessKept (monitor.step t call).2 := by
  rcases success_cases t call with ⟨same, cached | ⟨now, cached⟩⟩ | empty
  · intro q here
    rw [same]
    exact kept q (cached.symm.trans here)
  · intro q here
    rw [same, ← kept.successRate_eq now]
    exact (Option.some.inj (cached.symm.trans here)).symm
  · intro q here
    rw [empty] at here
    contradiction

theorem concat_eq_append_cons {α : Type} {l before after : List α} {a b : α}
    (same : l ++ [a] = before ++ b :: after) :
    (after = [] ∧ l = before ∧ a = b) ∨ ∃ start, after = start ++ [a] ∧ l = before ++ b :: start := by
  rcases List.eq_nil_or_concat' after with rfl | ⟨start, last, rfl⟩
  · obtain ⟨rfl, here⟩ := List.append_inj' same rfl
    exact .inl ⟨rfl, rfl, List.singleton_inj.mp here⟩
  · rw [← List.cons_append, ← List.append_assoc] at same
    obtain ⟨rfl, here⟩ := List.append_inj' same rfl
    exact .inr ⟨start, by rw [List.singleton_inj.mp here], rfl⟩

theorem lastRead_concat_read (reads : call.readsCompletion.isSome = true) :
    LastRead t (calls ++ [call]) q ↔
      (monitor.run t calls).finished = (monitor.run t (calls ++ [call])).finished ∧
        q = (monitor.run t calls).completion := by
  constructor
  · rintro ⟨before, read, between, same, -, unread, finished, rfl⟩
    rcases concat_eq_append_cons same with ⟨-, rfl, -⟩ | ⟨start, rfl, -⟩
    · exact ⟨finished, rfl⟩
    · rw [unread call (by simp)] at reads
      contradiction
  · rintro ⟨finished, rfl⟩
    exact ⟨calls, call, [], rfl, reads, nofun, finished, rfl⟩

theorem lastRead_concat_other (unread : call.readsCompletion = none) :
    LastRead t (calls ++ [call]) q ↔ LastRead t calls q ∧
      (monitor.run t calls).finished = (monitor.run t (calls ++ [call])).finished := by
  constructor
  · rintro ⟨before, read, between, same, reads, others, finished, rfl⟩
    rcases concat_eq_append_cons same with ⟨-, -, rfl⟩ | ⟨start, rfl, rfl⟩
    · rw [unread] at reads
      contradiction
    · have first := finished_mono (monitor.run t before) (read :: start)
      have last := finished_mono (monitor.run t (before ++ read :: start)) [call]
      rw [← Automaton.run_append] at first last
      have kept := le_antisymm first (last.trans_eq finished.symm)
      refine ⟨⟨before, read, start, rfl, reads, fun c mem => ?_, kept, rfl⟩, ?_⟩
      · exact others c (List.mem_append_left _ mem)
      · exact kept.symm.trans finished
  · rintro ⟨⟨before, read, between, rfl, reads, others, finished, rfl⟩, same⟩
    refine ⟨before, read, between ++ [call], by simp, reads, ?_, finished.trans same, rfl⟩
    intro c mem
    rcases List.mem_append.mp mem with mem | mem
    · exact others c mem
    · rw [List.mem_singleton.mp mem, unread]

/-- What is cached was read last, and the success rate is that of the counters. -/
structure Faithful (t : MigrationProgressTracker) (calls : List Call) : Prop where
  completion : ∀ q, (monitor.run t calls).metrics.cachedCompletionPercentage = some q ↔
    LastRead t calls q
  success : SuccessKept (monitor.run t calls)

theorem Current.completionPercentage_eq (current : Current t call) {now : Int}
    (reads : call.readsCompletion = some now) :
    (t.metrics.completionPercentage now).1 = t.completion := by
  cases call with
  | getProgressSummary =>
    obtain rfl := Option.some.inj reads
    exact current.1
  | op op =>
    cases op with
    | completionPercentage =>
      obtain rfl := Option.some.inj reads
      exact current
    | _ => cases reads

theorem faithful_nil (uncached : t.Uncached) : Faithful t [] where
  completion q := by
    refine iff_of_false (by simp [uncached.1]) ?_
    rintro ⟨before, read, between, same, -⟩
    simp at same
  success q here := by
    rw [Automaton.run_nil, uncached.2] at here
    contradiction

theorem Faithful.step (faithful : Faithful t calls) (current : Current (monitor.run t calls) call) :
    Faithful t (calls ++ [call]) where
  success := by
    rw [Automaton.run_concat]
    exact faithful.success.step call
  completion q := by
    have cases := completion_cases (monitor.run t calls) call
    rw [← Automaton.run_concat] at cases
    rcases cases with ⟨now, reads, -, same, cached⟩ | ⟨unread, same, cached⟩ | ⟨unread, more, cached⟩
    · rw [lastRead_concat_read (by rw [reads]; rfl), cached, current.completionPercentage_eq reads,
        Option.some.injEq, eq_comm]
      exact (and_iff_right same.symm).symm
    · rw [lastRead_concat_other unread, cached, faithful.completion]
      exact (and_iff_left same.symm).symm
    · rw [lastRead_concat_other unread, cached]
      exact iff_of_false nofun fun last => absurd last.2 more.ne

theorem Faithful.current_iff (faithful : Faithful t calls) :
    Current (monitor.run t calls) call ↔ ∀ now, call.readsCompletion = some now →
      (monitor.run t calls).metrics.isCacheValid now = true →
      ∀ q, LastRead t calls q → q = (monitor.run t calls).completion := by
  have reads : ∀ now, ((monitor.run t calls).metrics.completionPercentage now).1 =
      (monitor.run t calls).completion ↔ ((monitor.run t calls).metrics.isCacheValid now = true →
        ∀ q, LastRead t calls q → q = (monitor.run t calls).completion) := by
    intro now
    simp only [← faithful.completion]
    exact cachedOr_eq
  have success := faithful.success.successRate_eq
  cases call with
  | getProgressSummary now later =>
    simp only [Call.readsCompletion, Option.some.injEq, forall_eq', ← reads]
    exact and_iff_left (success later)
  | op op =>
    cases op with
    | completionPercentage now =>
      simp only [Call.readsCompletion, Option.some.injEq, forall_eq', ← reads]
      rfl
    | successRate now => exact iff_of_true (success now) nofun
    | _ => exact iff_of_true trivial nofun

theorem undisturbed_concat : Undisturbed t (calls ++ [call]) ↔ Undisturbed t calls ∧
    ∀ now, call.readsCompletion = some now →
      (monitor.run t calls).metrics.isCacheValid now = true →
      ∀ q, LastRead t calls q → q = (monitor.run t calls).completion := by
  constructor
  · intro undisturbed
    refine ⟨?_, fun now => undisturbed calls call [] now rfl⟩
    rintro before read after now rfl
    exact undisturbed before read (after ++ [call]) now (by simp)
  · rintro ⟨earlier, last⟩ before read after now same
    rcases concat_eq_append_cons same with ⟨-, rfl, rfl⟩ | ⟨start, rfl, rfl⟩
    · exact last now
    · exact earlier before read start now rfl

/-- Every rate that is read is that of the counters exactly if no file that changes the percentage
is added between two reads of it while what the first one cached is valid. -/
theorem current_iff_undisturbed (uncached : t.Uncached) :
    monitor.Meets Current t calls ↔ Undisturbed t calls := by
  suffices both : (monitor.Meets Current t calls ↔ Undisturbed t calls) ∧
      (monitor.Meets Current t calls → Faithful t calls) from both.1
  induction calls using List.reverseRecOn with
  | nil =>
    refine ⟨iff_of_true trivial ?_, fun _ => faithful_nil uncached⟩
    intro before read after now same
    simp at same
  | append_singleton calls call ih =>
    rw [Automaton.meets_concat, undisturbed_concat, ← ih.1]
    refine ⟨and_congr_right fun meets => (ih.2 meets).current_iff, ?_⟩
    rintro ⟨meets, current⟩
    exact (ih.2 meets).step current

end Cache

/-- Two files, the second of which is completed after the percentage was read. -/
theorem undisturbed_completed : Undisturbed .empty
    [.op (.addFile "a" none), .op (.addFile "b" none),
      .op (.completeFileProcessing "a" true none 0), .getProgressSummary 1 1,
      .op (.completeFileProcessing "b" true none 2), .getProgressSummary 3 3] :=
  (current_iff_undisturbed ⟨rfl, rfl⟩).mp (by decide +kernel)

/-- A file is added after the only one was completed and the percentage was read. -/
theorem not_current_added : ¬ ∀ (t : MigrationProgressTracker) (calls : List Call), t.Uncached →
    monitor.Meets Current t calls := by
  intro current
  have meets := current .empty
    [.op (.addFile "a" none), .op (.completeFileProcessing "a" true none 0),
      .op (.completionPercentage 1), .op (.addFile "b" none), .op (.completionPercentage 2)]
    ⟨rfl, rfl⟩
  exact absurd meets (by decide +kernel)

end Migration

end OmniMemory
