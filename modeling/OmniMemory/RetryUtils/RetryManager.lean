import OmniMemory.Lib.Keyed
import OmniMemory.RetryUtils.PlainLoop

/-! `RetryManager`. It is told how a run of `retry_with_backoff` ends, and not how often the operation
was called in it: no retry is counted, and the average is that of calls without one. -/

namespace OmniMemory

namespace RetryUtils

/-- `ModelRetryStatistics`. -/
structure Statistics where
  totalOperations : ℕ := 0
  successfulOperations : ℕ := 0
  failedOperations : ℕ := 0
  totalRetries : ℕ := 0
  averageAttempts : ℚ := 0
  commonExceptions : List (String × ℕ) := []

/-- What `execute_with_retry` is called with, and what is drawn and raised in the call. -/
structure Call (E T : Type) where
  config : Option ModelRetryConfig
  draws : ℕ → Draw
  operation : ℕ → Except E T

/-- An exception that `except Exception` takes. -/
def Raised.isException {E : Type} (X : Exceptions E) : Raised E → Bool
  | exception e => X.isException e
  | machinery _ => true

namespace RetryManager

variable {E T : Type} (X : Exceptions E) (P : Power) (defaultConfig : ModelRetryConfig)

/-- One more exception of a type. -/
def countException (name : String) (counts : List (String × ℕ)) : List (String × ℕ) :=
  if (Keyed.find? Prod.fst counts name).isSome then
    Keyed.editFirst Prod.fst name (fun row => (row.1, row.2 + 1)) counts
  else counts ++ [(name, 1)]

/-- The run of `retry_with_backoff` in a call. -/
def retried (call : Call E T) : Trace E T :=
  retryWithBackoff X P (call.config.getD defaultConfig) call.draws call.operation

/-- `execute_with_retry`. -/
def executeWithRetry (statistics : Statistics) (call : Call E T) :
    Statistics × Except (Raised E) T :=
  match (retried X P defaultConfig call).received with
  | .ok result =>
    ({ statistics with
        totalOperations := statistics.totalOperations + 1
        successfulOperations := statistics.successfulOperations + 1 }, .ok result)
  | .error e =>
    if e.isException X then
      ({ statistics with
          totalOperations := statistics.totalOperations + 1
          failedOperations := statistics.failedOperations + 1
          commonExceptions := countException (e.name X) statistics.commonExceptions }, .error e)
    else (statistics, .error e)

/-- `get_statistics`. -/
def getStatistics (statistics : Statistics) : Statistics :=
  if 0 < statistics.totalOperations then
    { statistics with
      averageAttempts := ((statistics.totalOperations + statistics.totalRetries : ℕ) : ℚ) /
        statistics.totalOperations }
  else statistics

/-- The statistics of a new manager after calls. -/
def executeAll (calls : List (Call E T)) : Statistics :=
  calls.foldl (fun statistics call => (executeWithRetry X P defaultConfig statistics call).1) {}

/-- How often the operation is invoked in a call. -/
def invocations (call : Call E T) : ℕ := (retried X P defaultConfig call).calls.length

/-- The statistics say what was done in the calls. -/
structure Truthful (calls : List (Call E T)) (statistics : Statistics) : Prop where
  total : statistics.totalOperations =
    statistics.successfulOperations + statistics.failedOperations
  retries : statistics.totalRetries =
    (calls.map fun call => invocations X P defaultConfig call - 1).sum
  average : (getStatistics statistics).averageAttempts =
    ((calls.map (invocations X P defaultConfig)).sum : ℚ) / calls.length

/-- What the first invocation ends with is not retried: it is no exception that a retry is for, there
is but one attempt, or its text raises. -/
def NotRetried (call : Call E T) : Prop :=
  let config := call.config.getD defaultConfig
  isRetried X config (call.operation 0) = false ∨ config.maxAttempts = 1 ∨
    ∃ e, call.operation 0 = .error e ∧ (Raised.exception e).strRaises X ≠ none

/-- An `Exception`, as one that ends an iteration is. -/
def Ordinary (e : E) : Prop := X.isException e = true ∨ X.isStopIteration e = true

/-- What an invocation ends with is counted when it is the last: it returns, or raises an `Exception`
of which neither the text nor the truth raises what is none. -/
def Counted : Except E T → Prop
  | .ok _ => True
  | .error e => Ordinary X e ∧ (X.isException e = true →
      match (Raised.exception e).strRaises X with
      | some raised => Ordinary X raised
      | none => ∀ raised, X.truth e = .error raised → Ordinary X raised)

section Attempts

variable {X P defaultConfig} {config : ModelRetryConfig} {draws : ℕ → Draw}
  {operation : ℕ → Except E T} {call : Call E T} {attempt : ℕ}

variable (P config draws) in
/-- The first two attempts have a delay. -/
theorem exists_delay (early : attempt ≤ 2) :
    ∃ ms, calculateDelay P config (draws attempt) attempt = .ok ms ∧ 0 ≤ ms := by
  by_cases fits : Fits P config (draws attempt) attempt
  · obtain ⟨ms, delay, nonneg, -⟩ := calculateDelay_of_fits fits
    exact ⟨ms, delay, nonneg⟩
  · have later : ¬ attempt ≤ 1 := fun first => fits (.inl first)
    cases jitter : config.jitter with
    | true =>
      obtain ⟨ms, delay, nonneg, -⟩ := calculateDelay_jitter P (draws attempt) jitter later
      exact ⟨ms, delay, nonneg⟩
    | false =>
      refine absurd (.inr ?_) fits
      rw [jitter, if_neg Bool.false_ne_true]
      exact .inr (by omega)

/-- A sleep changes neither the calls nor what is received. -/
theorem slept (ms : ℤ) (t : Trace E T) :
    (t.sleep ms).calls = t.calls ∧ (t.sleep ms).received = t.received := by
  rw [Trace.sleep]
  split <;> exact ⟨rfl, rfl⟩

/-- The second attempt invokes the operation. -/
theorem calls_second_ne_nil {remaining called : ℕ} {last : Option (Raised E)}
    {attempts : List AttemptInfo} :
    (attemptLoop X P config draws operation (remaining + 1) 2 called last attempts).calls ≠ [] := by
  obtain ⟨ms, delay, nonneg⟩ := exists_delay P config draws le_rfl
  have info : attemptInfo 2 ms = .ok ⟨2, ms, none⟩ := by rw [attemptInfo, if_pos ⟨by omega, nonneg⟩]
  rw [attemptLoop, delay]
  simp only [info]
  rw [(slept ms _).1]
  exact List.cons_ne_nil _ _

/-- A call that begins with an attempt: the operation is invoked, and the run ends as the attempt
does. -/
theorem retried_of_attempt {ms : ℤ} {t : Trace E T}
    (loop : attemptLoop X P (call.config.getD defaultConfig) call.draws call.operation
      (call.config.getD defaultConfig).maxAttempts 1 0 none [] =
        .sleep ms (.call (call.operation 0) t)) :
    (retried X P defaultConfig call).calls = call.operation 0 :: t.calls ∧
      (retried X P defaultConfig call).received = leaveCoroutine X t.received := by
  rw [retried, retryWithBackoff, loop]
  exact ⟨(slept ms _).1, congrArg (leaveCoroutine X) (slept ms _).2⟩

/-- A call: the operation is invoked, and either it is not retried and the run ends with what the
handler leaves of the outcome, or it is and there is another invocation. -/
theorem retried_cases (X : Exceptions E) (P : Power) (defaultConfig : ModelRetryConfig)
    (call : Call E T) :
    (NotRetried X defaultConfig call ∧ (retried X P defaultConfig call).calls = [call.operation 0] ∧
      (retried X P defaultConfig call).received = leaveCoroutine X (match call.operation 0 with
        | .ok result => .ok result
        | .error e => ending X e)) ∨
    (¬ NotRetried X defaultConfig call ∧ ∃ rest ≠ [],
      (retried X P defaultConfig call).calls = call.operation 0 :: rest) := by
  have attempt := @retried_of_attempt _ _ X P defaultConfig call
  obtain ⟨config?, draws, operation⟩ := call
  generalize same : config?.getD defaultConfig = config at attempt
  obtain ⟨remaining, most⟩ : ∃ remaining, config.maxAttempts = remaining + 1 :=
    ⟨config.maxAttempts - 1, by have := config.maxAttempts_mem.1; omega⟩
  have fits : Fits P config (draws (0 + 1)) (0 + 1) := .inl le_rfl
  obtain ⟨ms, -, t, loop, succeeds, fails, again⟩ := attemptLoop_of_fits X operation none []
    (show 0 + 1 + remaining = config.maxAttempts by omega) fits
  rw [← most] at loop
  obtain ⟨calls, received⟩ := attempt loop
  simp only [NotRetried, same, calls, received]
  cases first : operation 0 with
  | ok result =>
    rw [succeeds result first]
    exact .inl ⟨.inl rfl, rfl, rfl⟩
  | error e =>
    by_cases ends : isRetried X config (operation 0) = false ∨ remaining = 0
    · rw [fails e first ends]
      rw [first] at ends
      exact .inl ⟨ends.imp id fun none => .inl (by omega), rfl, rfl⟩
    · obtain ⟨again_, more⟩ := not_or.mp ends
      rw [Bool.not_eq_false] at again_
      obtain ⟨raises, goesOn⟩ := again e first again_ more
      rw [first] at again_
      cases text : (Raised.exception e).strRaises X with
      | some raised =>
        have caught : X.isException e = true := (Bool.and_eq_true_iff.mp again_).1
        rw [raises raised text]
        refine .inl ⟨.inr (.inr ⟨e, rfl, by simp [text]⟩), rfl, ?_⟩
        simp only [ending, caught, if_true, text]
        rfl
      | none =>
        obtain ⟨attempts, rfl⟩ := goesOn text
        obtain ⟨remaining, rfl⟩ := Nat.exists_eq_succ_of_ne_zero more
        refine .inr ⟨?_, _, calls_second_ne_nil, rfl⟩
        rintro (other | one | ⟨e, own, raises⟩)
        · rw [again_] at other
          cases other
        · omega
        · obtain rfl := Except.error.inj own
          exact raises text

variable (X P defaultConfig call) in
theorem one_le_invocations : 1 ≤ invocations X P defaultConfig call := by
  rcases retried_cases X P defaultConfig call with ⟨-, calls, -⟩ | ⟨-, rest, -, calls⟩
  · rw [invocations, calls, List.length_singleton]
  · rw [invocations, calls, List.length_cons]
    omega

theorem invocations_eq_one_iff :
    invocations X P defaultConfig call = 1 ↔ NotRetried X defaultConfig call := by
  rcases retried_cases X P defaultConfig call with ⟨once, calls, -⟩ | ⟨again, rest, some, calls⟩
  · rw [invocations, calls]
    exact iff_of_true rfl once
  · rw [invocations, calls, List.length_cons, Nat.add_eq_right, List.length_eq_zero_iff]
    exact iff_of_false some again

end Attempts

section Counting

variable {X P defaultConfig} {call : Call E T} {calls : List (Call E T)} {statistics : Statistics}

variable (X) in
/-- The manager counts a call that ends so. -/
def counts : Except (Raised E) T → Bool
  | .ok _ => true
  | .error e => e.isException X

theorem counts_exception {e : E} :
    counts (T := T) X (leaveCoroutine X (.error (.exception e))) = true ↔ Ordinary X e := by
  unfold leaveCoroutine Ordinary
  dsimp only
  split
  · rename_i stops
    exact iff_of_true rfl (.inr stops)
  · rename_i goes
    exact (or_iff_left goes).symm

/-- A call whose first invocation is its last is counted just when the outcome says so. -/
theorem counts_iff (once : NotRetried X defaultConfig call) :
    counts X (retried X P defaultConfig call).received = true ↔ Counted X (call.operation 0) := by
  obtain ⟨-, -, received⟩ :=
    (retried_cases X P defaultConfig call).resolve_right fun other => other.1 once
  rw [received]
  cases call.operation 0 with
  | ok result => exact iff_of_true rfl trivial
  | error e =>
    simp only [Counted, ending]
    by_cases caught : X.isException e = true
    · have ordinary : Ordinary X e := .inl caught
      simp only [caught, if_true, ordinary, true_and, true_implies]
      cases (Raised.exception e).strRaises X with
      | some raised => exact counts_exception
      | none =>
        dsimp only [raiseLast]
        cases truth : X.truth e with
        | ok value =>
          refine iff_of_true ?_ (by rintro _ ⟨⟩)
          cases value
          · rfl
          · exact counts_exception.mpr ordinary
        | error raised =>
          refine counts_exception.trans ⟨?_, fun all => all raised rfl⟩
          rintro ordinary _ ⟨⟩
          exact ordinary
    · simp only [caught, if_false, Bool.false_eq_true, false_implies, and_true]
      exact counts_exception

theorem sum_countException (name : String) (counts : List (String × ℕ)) :
    ((countException name counts).map Prod.snd).sum = (counts.map Prod.snd).sum + 1 := by
  unfold countException
  split
  · rename_i known
    induction counts with
    | nil => cases known
    | cons row rest ih =>
      rw [Keyed.editFirst]
      split
      · simp only [List.map_cons, List.sum_cons]
        omega
      · rename_i other
        rw [Keyed.find?_cons_of_ne other] at known
        simp only [List.map_cons, List.sum_cons, ih known]
        omega
  · rw [List.map_append, List.sum_append, List.map_singleton, List.sum_singleton]

variable (X P defaultConfig) in
/-- What the statistics are after calls. -/
structure Tallied (calls : List (Call E T)) (statistics : Statistics) : Prop where
  total : statistics.totalOperations =
    statistics.successfulOperations + statistics.failedOperations
  counted : statistics.totalOperations =
    calls.countP fun call => counts X (retried X P defaultConfig call).received
  retries : statistics.totalRetries = 0
  average : statistics.averageAttempts = 0
  exceptions : (statistics.commonExceptions.map Prod.snd).sum = statistics.failedOperations

theorem Tallied.executeWithRetry (tallied : Tallied X P defaultConfig calls statistics) :
    Tallied X P defaultConfig (calls ++ [call])
      (executeWithRetry X P defaultConfig statistics call).1 := by
  obtain ⟨total, counted, retries, average, exceptions⟩ := tallied
  unfold RetryManager.executeWithRetry
  cases received : (retried X P defaultConfig call).received with
  | ok result =>
    refine ⟨?_, ?_, retries, average, exceptions⟩
    · dsimp only
      omega
    · simp [counted, List.countP_append, received, counts]
  | error e =>
    dsimp only
    split
    · rename_i caught
      refine ⟨?_, ?_, retries, average, ?_⟩
      · dsimp only
        omega
      · simp [counted, List.countP_append, received, counts, caught]
      · rw [sum_countException, exceptions]
    · rename_i uncaught
      refine ⟨total, ?_, retries, average, exceptions⟩
      simp [counted, List.countP_append, received, counts, uncaught]

theorem tallied (X : Exceptions E) (P : Power) (defaultConfig : ModelRetryConfig)
    (calls : List (Call E T)) :
    Tallied X P defaultConfig calls (executeAll X P defaultConfig calls) := by
  induction calls using List.reverseRecOn with
  | nil => exact ⟨rfl, rfl, rfl, rfl, rfl⟩
  | append_singleton calls call ih =>
    rw [executeAll, List.foldl_append]
    exact ih.executeWithRetry

/-- The average that is reported: one, as soon as a call is counted. -/
theorem average_getStatistics (tallied : Tallied X P defaultConfig calls statistics) :
    (getStatistics statistics).averageAttempts =
      if 0 < statistics.totalOperations then 1 else 0 := by
  unfold getStatistics
  split
  · rename_i some
    have ne : (statistics.totalOperations : ℚ) ≠ 0 := by
      have : statistics.totalOperations ≠ 0 := by omega
      exact_mod_cast this
    dsimp only
    rw [tallied.retries, Nat.add_zero, div_self ne]
  · exact tallied.average

theorem sum_invocations (once : ∀ call ∈ calls, NotRetried X defaultConfig call) :
    (calls.map (invocations X P defaultConfig)).sum = calls.length := by
  have all : calls.map (invocations X P defaultConfig) = List.replicate calls.length 1 := by
    rw [List.eq_replicate_iff]
    refine ⟨List.length_map _, fun n mem => ?_⟩
    obtain ⟨call, here, rfl⟩ := List.mem_map.mp mem
    exact invocations_eq_one_iff.mpr (once call here)
  rw [all, List.sum_replicate, smul_eq_mul, mul_one]

end Counting

/-- The statistics after calls are true just when no call is retried, and one is counted if there are
any. -/
theorem truthful_iff (X : Exceptions E) (P : Power) (defaultConfig : ModelRetryConfig)
    (calls : List (Call E T)) :
    Truthful X P defaultConfig calls (executeAll X P defaultConfig calls) ↔
      (∀ call ∈ calls, NotRetried X defaultConfig call) ∧
        (calls = [] ∨ ∃ call ∈ calls, Counted X (call.operation 0)) := by
  have tallied := tallied X P defaultConfig calls
  have positive (once : ∀ call ∈ calls, NotRetried X defaultConfig call) :
      0 < (executeAll X P defaultConfig calls).totalOperations ↔
        ∃ call ∈ calls, Counted X (call.operation 0) := by
    rw [tallied.counted, List.countP_pos_iff]
    exact exists_congr fun call => and_congr_right fun mem => counts_iff (once call mem)
  constructor
  · rintro ⟨-, retries, average⟩
    have once (call : Call E T) (mem : call ∈ calls) : NotRetried X defaultConfig call := by
      rw [tallied.retries, eq_comm, List.sum_eq_zero_iff] at retries
      have none := retries _ (List.mem_map_of_mem mem)
      have some := one_le_invocations X P defaultConfig call
      exact invocations_eq_one_iff.mp (show invocations X P defaultConfig call = 1 by omega)
    refine ⟨once, ?_⟩
    rw [← positive once, or_iff_not_imp_left]
    intro some
    have ne : (calls.length : ℚ) ≠ 0 := by
      exact_mod_cast fun none => some (List.length_eq_zero_iff.mp none)
    rw [average_getStatistics tallied, sum_invocations once, div_self ne] at average
    by_contra zero
    rw [if_neg zero] at average
    exact zero_ne_one average
  · rintro ⟨once, counted⟩
    refine ⟨tallied.total, ?_, ?_⟩
    · rw [tallied.retries, eq_comm, List.sum_eq_zero_iff]
      intro n mem
      obtain ⟨call, here, rfl⟩ := List.mem_map.mp mem
      rw [invocations_eq_one_iff.mpr (once call here), Nat.sub_self]
    · rw [average_getStatistics tallied, sum_invocations once]
      rcases counted with rfl | some
      · simp [executeAll]
      · obtain ⟨call, mem, -⟩ := id some
        have ne : (calls.length : ℚ) ≠ 0 := by
          exact_mod_cast (List.length_pos_of_mem mem).ne'
        rw [if_pos ((positive once).mpr some), div_self ne]

/-- One retry and a success: no retry is counted. -/
theorem not_truthful_retry :
    ¬ ∀ calls : List (Call String Unit), Truthful named exactPower {} calls
      (executeAll named exactPower {} calls) := by
  intro all
  have retries := (all [⟨some oneRetry, fun _ => ⟨0, by norm_num⟩,
    fun n => if n = 0 then .error "ConnectionError" else .ok ()⟩]).retries
  revert retries
  decide +kernel

end RetryManager

end RetryUtils

end OmniMemory
