import OmniMemory.Foundation.MigrationProgress
import Mathlib.Algebra.BigOperators.Group.List.Basic
import Mathlib.Tactic.Linarith

/-! When the counters of a tracker agree with the statuses of its files. They count what the
operations did, and so they agree as long as no operation takes a file out of a status that was
counted, and as long as none fails or skips a file, which `remaining_files` would still count. -/

namespace OmniMemory

open Sequential Binary64

namespace Migration

open MigrationProgressTracker

/-! ### The files -/

/-- The number of files in a status. -/
def countOf (status : EnumFileProcessingStatus) (files : List FileProcessingInfo) : Nat :=
  files.countP (·.status = status)

/-- The number of files that are neither completed, failed nor skipped. -/
def countOpen (files : List FileProcessingInfo) : Nat :=
  files.countP fun file => file.status ∉ [.completed, .failed, .skipped]

/-- The size of the completed files whose size is known. -/
def completedSize (files : List FileProcessingInfo) : Int :=
  ((files.filter (·.status = .completed)).map fun file => file.fileSize.getD 0).sum

section Files

variable {files : List FileProcessingInfo} {file : FileProcessingInfo} {filePath : String}
  {change : FileProcessingInfo → FileProcessingInfo}

theorem length_updateFirst : (updateFirst filePath change files).length = files.length := by
  induction files with
  | nil => rfl
  | cons a rest ih =>
    rw [updateFirst]
    split
    · rfl
    · rw [List.length_cons, List.length_cons, ih]

/-- A sum over the files after a change of the first one with a path. -/
theorem sum_updateFirst (weight : FileProcessingInfo → Int)
    (found : files.find? (·.filePath = filePath) = some file) :
    ((updateFirst filePath change files).map weight).sum =
      (files.map weight).sum - weight file + weight (change file) := by
  induction files with
  | nil => simp at found
  | cons a rest ih =>
    by_cases here : a.filePath = filePath
    · simp only [List.find?_cons, here, decide_true] at found
      obtain rfl := Option.some.inj found
      simp only [updateFirst, here, if_true, List.map_cons, List.sum_cons]
      omega
    · simp only [List.find?_cons, here, decide_false] at found
      simp only [updateFirst, here, if_false, List.map_cons, List.sum_cons, ih found]
      omega

theorem mem_updateFirst {a : FileProcessingInfo} (mem : a ∈ updateFirst filePath change files) :
    a ∈ files ∨ ∃ file ∈ files, a = change file := by
  induction files with
  | nil => simp [updateFirst] at mem
  | cons b rest ih =>
    rw [updateFirst] at mem
    split at mem
    · rcases List.mem_cons.mp mem with rfl | mem
      · exact .inr ⟨b, by simp, rfl⟩
      · exact .inl (List.mem_cons_of_mem _ mem)
    · rcases List.mem_cons.mp mem with rfl | mem
      · exact .inl (by simp)
      · rcases ih mem with mem | ⟨file, mem, same⟩
        · exact .inl (List.mem_cons_of_mem _ mem)
        · exact .inr ⟨file, List.mem_cons_of_mem _ mem, same⟩

theorem countP_eq_sum (p : FileProcessingInfo → Bool) :
    (files.countP p : Int) = (files.map fun file => if p file then 1 else 0).sum := by
  induction files with
  | nil => rfl
  | cons a rest ih =>
    rw [List.countP_cons, List.map_cons, List.sum_cons, ← ih]
    split <;> push_cast <;> omega

theorem completedSize_eq_sum : completedSize files =
    (files.map fun file => if file.status = .completed then file.fileSize.getD 0 else 0).sum := by
  induction files with
  | nil => rfl
  | cons a rest ih =>
    unfold completedSize at ih ⊢
    rw [List.map_cons, List.sum_cons, ← ih, List.filter_cons]
    split <;> simp_all

theorem countOf_updateFirst (status : EnumFileProcessingStatus)
    (change : FileProcessingInfo → FileProcessingInfo)
    (found : files.find? (·.filePath = filePath) = some file) :
    (countOf status (updateFirst filePath change files) : Int) =
      countOf status files - (if file.status = status then 1 else 0) +
        if (change file).status = status then 1 else 0 := by
  simp only [countOf, countP_eq_sum, sum_updateFirst _ found, decide_eq_true_eq]

theorem completedSize_updateFirst (change : FileProcessingInfo → FileProcessingInfo)
    (found : files.find? (·.filePath = filePath) = some file) :
    completedSize (updateFirst filePath change files) =
      completedSize files - (if file.status = .completed then file.fileSize.getD 0 else 0) +
        if (change file).status = .completed then (change file).fileSize.getD 0 else 0 := by
  simp only [completedSize_eq_sum, sum_updateFirst _ found]

/-- Every file is counted once. -/
theorem counts_eq_length : countOf .completed files + countOf .failed files +
    countOf .skipped files + countOpen files = files.length := by
  induction files with
  | nil => rfl
  | cons a rest ih =>
    have once : ∀ status : EnumFileProcessingStatus,
        (if decide (status = .completed) = true then 1 else 0) +
          (if decide (status = .failed) = true then 1 else 0) +
          (if decide (status = .skipped) = true then 1 else 0) +
          (if decide (status ∉ [EnumFileProcessingStatus.completed, .failed, .skipped]) = true
            then 1 else 0) = 1 := by
      intro status
      cases status <;> rfl
    have here := once a.status
    simp only [countOf, countOpen, List.countP_cons, List.length_cons] at ih ⊢
    omega

end Files

/-! ### The invariant -/

def MigrationProgressTracker.count (t : MigrationProgressTracker)
    (status : EnumFileProcessingStatus) : Nat := countOf status t.files

def IsPercentage (q : ℚ) : Prop := 0 ≤ q ∧ q ≤ 100

/-- The counters agree with the statuses, and the rates, whenever they are read, are
percentages. -/
structure Conserved (t : MigrationProgressTracker) : Prop where
  processed : t.metrics.processedFiles = t.count .completed
  failed : t.metrics.failedFiles = t.count .failed
  skipped : t.metrics.skippedFiles = t.count .skipped
  size : t.metrics.processedSizeBytes = completedSize t.files
  remaining : t.metrics.remainingFiles = countOpen t.files
  completion : ∀ now, IsPercentage (t.metrics.completionPercentage now).1
  success : ∀ now, IsPercentage (t.metrics.successRate now).1

/-- The operation fails or skips no file, and starts or completes none that is completed. -/
def Careful (t : MigrationProgressTracker) : Op → Prop
  | .startFileProcessing filePath | .completeFileProcessing filePath true _ _ =>
    (t.findFile filePath).map (·.status) ≠ some .completed
  | .completeFileProcessing filePath false _ _ | .skipFileProcessing filePath _ =>
    t.findFile filePath = none
  | _ => True

instance (t : MigrationProgressTracker) : (op : Op) → Decidable (Careful t op)
  | .addFile _ _ | .retryFailedFiles _ | .completionPercentage _ | .successRate _ => .isTrue trivial
  | .startFileProcessing _ | .completeFileProcessing _ true _ _ =>
    inferInstanceAs (Decidable (_ ≠ _))
  | .completeFileProcessing _ false _ _ | .skipFileProcessing _ _ =>
    inferInstanceAs (Decidable (_ = _))

/-- What careful operations keep: no file has failed or was skipped. -/
structure Plain (t : MigrationProgressTracker) : Prop where
  statuses : ∀ file ∈ t.files, file.status ≠ .failed ∧ file.status ≠ .skipped
  processed : t.metrics.processedFiles = t.count .completed
  failed : t.metrics.failedFiles = 0
  skipped : t.metrics.skippedFiles = 0
  size : t.metrics.processedSizeBytes = completedSize t.files
  total : t.metrics.totalFiles = t.files.length
  cachedCompletion : ∀ q, t.metrics.cachedCompletionPercentage = some q → IsPercentage q
  cachedSuccess : ∀ q, t.metrics.cachedSuccessRate = some q → IsPercentage q

theorem percentage_mem {part whole : Int} (nonneg : 0 ≤ part) (le : part ≤ whole) :
    IsPercentage (MigrationProgressMetrics.percentage part whole) := by
  unfold MigrationProgressMetrics.percentage
  split
  · exact ⟨le_rfl, by norm_num⟩
  · have ratio : 0 ≤ (part / whole : ℚ) ∧ (part / whole : ℚ) ≤ ((1 : ℕ) : ℚ) := by
      have whole_nonneg : (0 : ℚ) ≤ whole := by exact_mod_cast nonneg.trans le
      refine ⟨div_nonneg (by exact_mod_cast nonneg) whole_nonneg, ?_⟩
      rw [Nat.cast_one]
      exact div_le_one_of_le₀ (by exact_mod_cast le) whole_nonneg
    obtain ⟨low, high⟩ := nearest_mem ratio.1 ratio.2 (by norm_num)
    have scaled : nearest (part / whole : ℚ) * 100 ≤ ((100 : ℕ) : ℚ) := by
      push_cast at high ⊢
      linarith
    have percentage := nearest_mem (mul_nonneg low (by norm_num)) scaled (by norm_num)
    exact ⟨percentage.1, by exact_mod_cast percentage.2⟩

theorem cachedOr_mem {metrics : MigrationProgressMetrics} {cached : Option ℚ} {now : Int} {q : ℚ}
    (old : ∀ q, cached = some q → IsPercentage q) (new : IsPercentage q) :
    IsPercentage (metrics.cachedOr cached now q) := by
  unfold MigrationProgressMetrics.cachedOr
  split
  · cases found : cached with
    | none => exact new
    | some q => exact old q found
  · exact new

section Plain

variable {t : MigrationProgressTracker} {filePath : String} {file : FileProcessingInfo}

theorem Plain.counts (plain : Plain t) : t.count .failed = 0 ∧ t.count .skipped = 0 := by
  constructor
  · exact List.countP_eq_zero.mpr fun file mem => by simp [(plain.statuses file mem).1]
  · exact List.countP_eq_zero.mpr fun file mem => by simp [(plain.statuses file mem).2]

theorem Plain.completion (plain : Plain t) (now : Int) :
    IsPercentage (t.metrics.completionPercentage now).1 := by
  refine cachedOr_mem plain.cachedCompletion (percentage_mem ?_ ?_)
  · rw [plain.processed]
    omega
  · rw [plain.processed, plain.total]
    exact_mod_cast List.countP_le_length

theorem Plain.success (plain : Plain t) (now : Int) :
    IsPercentage (t.metrics.successRate now).1 := by
  refine cachedOr_mem plain.cachedSuccess (percentage_mem ?_ ?_)
  · rw [plain.processed, plain.failed]
    omega
  · rw [plain.failed]
    omega

theorem Plain.conserved (plain : Plain t) : Conserved t where
  processed := plain.processed
  failed := by rw [plain.failed, plain.counts.1]; rfl
  skipped := by rw [plain.skipped, plain.counts.2]; rfl
  size := plain.size
  remaining := by
    have all := @counts_eq_length t.files
    obtain ⟨failed, skipped⟩ := plain.counts
    unfold MigrationProgressTracker.count at failed skipped
    rw [MigrationProgressMetrics.remainingFiles, plain.total, plain.processed,
      MigrationProgressTracker.count]
    omega
  completion := plain.completion
  success := plain.success

theorem findFile_status (found : t.findFile filePath = some file) :
    (t.findFile filePath).map (·.status) ≠ some .completed ↔ file.status ≠ .completed := by
  simp [found]

theorem Plain.addFile (plain : Plain t) (filePath : String) (fileSize : Option Int) :
    Plain (t.addFile filePath fileSize) where
  statuses file mem := by
    rcases List.mem_append.mp mem with mem | mem
    · exact plain.statuses file mem
    · rw [List.mem_singleton.mp mem]
      exact ⟨by simp, by simp⟩
  processed := by
    refine plain.processed.trans ?_
    simp [MigrationProgressTracker.count, MigrationProgressTracker.addFile, countOf]
  failed := plain.failed
  skipped := plain.skipped
  size := by
    refine plain.size.trans ?_
    simp [completedSize, MigrationProgressTracker.addFile]
  total := rfl
  cachedCompletion := plain.cachedCompletion
  cachedSuccess := plain.cachedSuccess

theorem Plain.startFileProcessing (plain : Plain t)
    (unfinished : (t.findFile filePath).map (·.status) ≠ some .completed) :
    Plain (t.startFileProcessing filePath).2 := by
  unfold MigrationProgressTracker.startFileProcessing
  cases found : t.findFile filePath with
  | none => exact plain
  | some file =>
    have uncounted : file.status ≠ .completed := (findFile_status found).mp unfinished
    refine ⟨?_, ?_, plain.failed, plain.skipped, ?_, ?_, plain.cachedCompletion,
      plain.cachedSuccess⟩
    · intro a mem
      rcases mem_updateFirst mem with mem | ⟨b, -, rfl⟩
      · exact plain.statuses a mem
      · exact ⟨by simp, by simp⟩
    · refine plain.processed.trans ?_
      simp [MigrationProgressTracker.count, countOf_updateFirst .completed _ found, uncounted]
    · refine plain.size.trans ?_
      simp [completedSize_updateFirst _ found, uncounted]
    · exact plain.total.trans (by rw [length_updateFirst])

theorem Plain.completeFileProcessing (plain : Plain t)
    (unfinished : (t.findFile filePath).map (·.status) ≠ some .completed)
    (errorMessage : Option String) (now : Int) : Plain (t.completeFileProcessing filePath true errorMessage now) := by
  unfold MigrationProgressTracker.completeFileProcessing
  cases found : t.findFile filePath with
  | none => exact plain
  | some file =>
    have uncounted : file.status ≠ .completed := (findFile_status found).mp unfinished
    refine ⟨?_, ?_, plain.failed, plain.skipped, ?_, ?_, ?_, ?_⟩
    · intro a mem
      rcases mem_updateFirst mem with mem | ⟨b, -, rfl⟩
      · exact plain.statuses a mem
      · exact ⟨by simp, by simp⟩
    · have counted := countOf_updateFirst .completed
        (fun file => { file with status := .completed }) found
      simp only [uncounted, if_false, if_true, sub_zero] at counted
      exact (congrArg (· + 1) plain.processed).trans counted.symm
    · have counted := completedSize_updateFirst
        (fun file => { file with status := .completed }) found
      simp only [uncounted, if_false, if_true, sub_zero] at counted
      exact (congrArg (· + _) plain.size).trans counted.symm
    · exact plain.total.trans (by simp [length_updateFirst])
    · exact fun q none => by contradiction
    · exact fun q none => by contradiction

theorem Plain.retryFailedFiles (plain : Plain t) (maxRetries : Int) :
    Plain (t.retryFailedFiles maxRetries).2 := by
  have none : ∀ file ∈ t.files, retryable maxRetries file = false := by
    intro file mem
    simp [retryable, (plain.statuses file mem).1]
  have same : t.files.map (fun file =>
      if retryable maxRetries file then retried file else file) = t.files := by
    refine (List.map_congr_left fun file mem => ?_).trans (List.map_id _)
    rw [none file mem]
    rfl
  unfold MigrationProgressTracker.retryFailedFiles
  dsimp only
  rw [same]
  exact ⟨plain.statuses, plain.processed, plain.failed, plain.skipped, plain.size, plain.total,
    plain.cachedCompletion, plain.cachedSuccess⟩

theorem Plain.step (plain : Plain t) {op : Op} (careful : Careful t op) :
    Plain (tracker.step t op).2 := by
  cases op with
  | addFile filePath fileSize => exact plain.addFile filePath fileSize
  | startFileProcessing filePath => exact plain.startFileProcessing careful
  | completeFileProcessing filePath success errorMessage now =>
    cases success with
    | true => exact plain.completeFileProcessing careful errorMessage now
    | false =>
      have absent : t.findFile filePath = none := careful
      change Plain (t.completeFileProcessing filePath false errorMessage now)
      rw [MigrationProgressTracker.completeFileProcessing, absent]
      exact plain
  | skipFileProcessing filePath reason =>
    have absent : t.findFile filePath = none := careful
    change Plain (t.skipFileProcessing filePath reason)
    rw [MigrationProgressTracker.skipFileProcessing, absent]
    exact plain
  | retryFailedFiles maxRetries => exact plain.retryFailedFiles maxRetries
  | completionPercentage now =>
    refine ⟨plain.statuses, plain.processed, plain.failed, plain.skipped, plain.size, plain.total,
      fun q cached => ?_, plain.cachedSuccess⟩
    rw [← Option.some.inj cached]
    exact plain.completion now
  | successRate now =>
    refine ⟨plain.statuses, plain.processed, plain.failed, plain.skipped, plain.size, plain.total,
      plain.cachedCompletion, fun q cached => ?_⟩
    rw [← Option.some.inj cached]
    exact plain.success now

/-! ### Other operations -/

/-- Counters that agree leave no file failed or skipped. -/
theorem Conserved.none_failed (conserved : Conserved t)
    (total : t.metrics.totalFiles = t.files.length) :
    t.metrics.failedFiles = 0 ∧ t.metrics.skippedFiles = 0 := by
  have all := @counts_eq_length t.files
  have remaining := conserved.remaining
  rw [MigrationProgressMetrics.remainingFiles, total, conserved.processed] at remaining
  rw [conserved.failed, conserved.skipped]
  unfold MigrationProgressTracker.count at remaining ⊢
  omega

theorem Plain.not_conserved_start (plain : Plain t) (found : t.findFile filePath = some file)
    (completed : file.status = .completed) :
    ¬ Conserved (t.startFileProcessing filePath).2 := by
  unfold MigrationProgressTracker.startFileProcessing
  rw [found]
  intro conserved
  have counted := countOf_updateFirst .completed
        (fun file => { file with status := .processing }) found
  simp only [completed, if_true, reduceCtorEq, if_false] at counted
  have before := plain.processed
  have after := conserved.processed
  simp only [MigrationProgressTracker.count] at before after
  rw [before, counted] at after
  omega

theorem Plain.not_conserved_complete (plain : Plain t) (found : t.findFile filePath = some file)
    (completed : file.status = .completed) (errorMessage : Option String) (now : Int) :
    ¬ Conserved (t.completeFileProcessing filePath true errorMessage now) := by
  unfold MigrationProgressTracker.completeFileProcessing
  rw [found]
  intro conserved
  have counted := countOf_updateFirst .completed
        (fun file => { file with status := .completed }) found
  simp only [completed, if_true] at counted
  have before := plain.processed
  have after := conserved.processed
  simp only [MigrationProgressTracker.count, MigrationProgressMetrics.invalidateCache,
    if_true] at before after
  rw [before, counted] at after
  omega

theorem Plain.not_conserved_fail (plain : Plain t) (found : t.findFile filePath = some file)
    (errorMessage : Option String) (now : Int) :
    ¬ Conserved (t.completeFileProcessing filePath false errorMessage now) := by
  unfold MigrationProgressTracker.completeFileProcessing
  rw [found]
  intro conserved
  have one := (conserved.none_failed (plain.total.trans (by simp [length_updateFirst]))).1
  have before := plain.failed
  simp only [Bool.false_eq_true, if_false, MigrationProgressMetrics.invalidateCache] at one
  omega

theorem Plain.not_conserved_skip (plain : Plain t) (found : t.findFile filePath = some file)
    (reason : String) : ¬ Conserved (t.skipFileProcessing filePath reason) := by
  unfold MigrationProgressTracker.skipFileProcessing
  rw [found]
  intro conserved
  have one := (conserved.none_failed (plain.total.trans (by simp [length_updateFirst]))).2
  have before := plain.skipped
  dsimp only at one
  omega

theorem Plain.careful_of_conserved (plain : Plain t) {op : Op}
    (conserved : Conserved (tracker.step t op).2) : Careful t op := by
  cases op with
  | startFileProcessing filePath =>
    intro completed
    obtain ⟨file, found, completed⟩ := Option.map_eq_some_iff.mp completed
    exact plain.not_conserved_start found completed conserved
  | completeFileProcessing filePath success errorMessage now =>
    cases success with
    | true =>
      intro completed
      obtain ⟨file, found, completed⟩ := Option.map_eq_some_iff.mp completed
      exact plain.not_conserved_complete found completed errorMessage now conserved
    | false =>
      refine Option.eq_none_iff_forall_ne_some.mpr fun file found => ?_
      exact plain.not_conserved_fail found errorMessage now conserved
  | skipFileProcessing filePath reason =>
    refine Option.eq_none_iff_forall_ne_some.mpr fun file found => ?_
    exact plain.not_conserved_skip found reason conserved
  | _ => trivial

end Plain

/-! ### Runs -/

theorem plain_empty : Plain MigrationProgressTracker.empty where
  statuses _ mem := absurd mem List.not_mem_nil
  processed := rfl
  failed := rfl
  skipped := rfl
  size := rfl
  total := rfl
  cachedCompletion q cached := by contradiction
  cachedSuccess q cached := by contradiction

theorem plain_run {ops : List Op} (careful : tracker.Meets Careful .empty ops) :
    Plain (tracker.run .empty ops) :=
  Automaton.invariant plain_empty (fun _ _ plain careful => plain.step careful) careful

/-- The counters agree with the statuses in every state of a run, and the rates are percentages
there, exactly if each operation is careful. -/
theorem conserved_iff (ops : List Op) :
    (∀ start, start <+: ops → Conserved (tracker.run .empty start)) ↔
      tracker.Meets Careful .empty ops := by
  constructor
  · intro all
    induction ops using List.reverseRecOn with
    | nil => trivial
    | append_singleton ops op ih =>
      have careful := ih fun start inside => all start (inside.trans (List.prefix_append _ _))
      have last := all (ops ++ [op]) List.prefix_rfl
      rw [Automaton.run_concat] at last
      exact Automaton.meets_concat.mpr ⟨careful, (plain_run careful).careful_of_conserved last⟩
  · rintro careful start ⟨rest, rfl⟩
    exact (plain_run (Automaton.meets_append.mp careful).1).conserved

/-- A file that is completed twice is counted twice. -/
theorem not_conserved_twice : ¬ ∀ (ops : List Op) (start : List Op), start <+: ops →
    Conserved (tracker.run .empty start) := by
  intro all
  have twice := all [.addFile "a.md" (some 7), .completeFileProcessing "a.md" true none 0,
    .completeFileProcessing "a.md" true none 0] _ List.prefix_rfl
  have processed := twice.processed
  revert processed
  decide

end Migration

end OmniMemory
