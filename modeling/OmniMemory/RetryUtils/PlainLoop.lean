import OmniMemory.RetryUtils.RetryWithBackoff

/-! The loop of `retry_with_backoff` beside a plain one, which calls the operation until it succeeds,
raises what is not retried or has been called as often as allowed. They are the same, and no delay is
above its maximum, exactly when the jitter leaves it there and the machinery lets the last exception
through. -/

namespace OmniMemory

open Binary64

namespace RetryUtils

variable {E T : Type}

section Plain

variable (X : Exceptions E) (config : ModelRetryConfig) (operation : ℕ → Except E T)

/-- The operation is to be called again after what a call ended with. -/
def isRetried : Except E T → Bool
  | .ok _ => false
  | .error e => X.isException e && isRetryableException (X.name e) config.retryableExceptions

/-- What the calls of a plain loop end with. -/
def plainLoop : (remaining called : ℕ) → List (Except E T)
  | 0, _ => []
  | remaining + 1, called =>
    operation called ::
      if isRetried X config (operation called) then plainLoop remaining (called + 1) else []

/-- The calls from one on go on after what is retried only, and stop at what is not. -/
structure Calls (most called : ℕ) (calls : List (Except E T)) : Prop where
  some : calls ≠ []
  outcomes : calls = (List.range' called calls.length).map operation
  length_le : calls.length ≤ most
  goesOn : ∀ outcome ∈ calls.dropLast, isRetried X config outcome = true
  stops : calls.length = most ∨ ∀ outcome ∈ calls.getLast?, isRetried X config outcome = false

/-- A run as the simple loop would have it: the calls, what the caller receives, and the delays. -/
structure Sound (t : Trace E T) : Prop where
  calls : Calls X config operation config.maxAttempts 0 t.calls
  received : ∀ outcome ∈ t.calls.getLast?, t.received = outcome.mapError .exception
  sleeps : ∀ ms ∈ t.sleeps, ms ≤ config.maxDelayMs

variable {X config operation}

theorem plainLoop_ne_nil {remaining called : ℕ} :
    plainLoop X config operation (remaining + 1) called ≠ [] := by
  rw [plainLoop]
  exact List.cons_ne_nil _ _

/-- The calls of the plain loop are the only ones that stop in time. -/
theorem calls_iff {most called : ℕ} {calls : List (Except E T)} :
    Calls X config operation (most + 1) called calls ↔
      calls = plainLoop X config operation (most + 1) called := by
  constructor
  · intro fine
    induction most generalizing called calls with
    | zero =>
      obtain ⟨outcome, rfl⟩ := List.length_eq_one_iff.mp
        (Nat.le_antisymm fine.length_le (List.length_pos_iff.mpr fine.some))
      have same : outcome = operation called := by simpa using fine.outcomes
      rw [plainLoop, plainLoop, ← same]
      simp
    | succ most ih =>
      cases calls with
      | nil => exact absurd rfl fine.some
      | cons outcome rest =>
        have outcomes := fine.outcomes
        rw [List.length_cons, List.range'_succ, List.map_cons, List.cons.injEq] at outcomes
        rw [plainLoop, ← outcomes.1]
        cases rest with
        | nil =>
          have last := fine.stops.resolve_left (by simp)
          rw [if_neg (by simpa using last outcome (by simp))]
        | cons next rest =>
          have first := fine.goesOn outcome (by simp)
          rw [if_pos first, ← ih]
          have short := fine.length_le
          refine ⟨by simp, outcomes.2, by simpa using short, fun o mem => ?_, ?_⟩
          · exact fine.goesOn o (by simpa using .inr mem)
          · refine fine.stops.imp (fun same => by simpa using same) fun last o mem => ?_
            exact last o (by simpa using mem)
  · rintro rfl
    induction most generalizing called with
    | zero => exact ⟨plainLoop_ne_nil, by simp [plainLoop], by simp [plainLoop], by simp [plainLoop],
        .inl (by simp [plainLoop])⟩
    | succ most ih =>
      rw [plainLoop]
      split
      · rename_i retried
        have rest := @ih (called + 1)
        refine ⟨by simp, ?_, by simpa using rest.length_le, fun o mem => ?_, ?_⟩
        · rw [List.length_cons, List.range'_succ, List.map_cons, ← rest.outcomes]
        · rw [List.dropLast_cons_of_ne_nil plainLoop_ne_nil, List.mem_cons] at mem
          rcases mem with rfl | mem
          · exact retried
          · exact rest.goesOn o mem
        · refine rest.stops.imp (fun same => by simpa using same) fun last o mem => last o ?_
          rwa [List.getLast?_cons_of_ne_nil plainLoop_ne_nil] at mem
      · rename_i retried
        exact ⟨by simp, by simp, by simp, by simp, .inr (by simpa using retried)⟩

end Plain

section Deliver

variable {X : Exceptions E} {caller : Caller}

variable (X caller) in
/-- What the caller receives of what leaves the coroutine. -/
def rerun (received : Except (Raised E) T) : Except (Raised E) T :=
  match received with
  | .ok result => .ok result
  | .error e =>
    if caller = .sync true ∧ e.isRuntimeError X = true then
      .error (.machinery .calledFromRunningLoop)
    else .error e

variable (X caller) in
/-- An exception with which the loop ends reaches the caller: with a running loop it is no
`RuntimeError`, it does not end an iteration, it is true and its text does not raise another. -/
structure Delivered (e : E) : Prop where
  raised : X.isException e = true →
    match (Raised.exception e).strRaises X with
    | some raised => raised = e
    | none => X.truth e = .ok true ∨ X.truth e = .error e
  iteration : X.isStopIteration e = false
  runtime : caller = .sync true → X.isRuntimeError e = false

theorem decorated_eq {P : Power} {config : ModelRetryConfig} {draws : ℕ → Draw}
    {operation : ℕ → Except E T} : decorated X P config draws operation caller =
      let t := attemptLoop X P config draws operation config.maxAttempts 1 0 none []
      { t with received := rerun X caller (leaveCoroutine X t.received) } := by
  cases caller with
  | async =>
    simp only [decorated, asyncWrapper, retryWithBackoff, rerun, reduceCtorEq, false_and, if_false]
    split <;> simp_all
  | sync running =>
    cases running with
    | false =>
      simp only [decorated, syncWrapper, asyncioRun, retryWithBackoff, rerun, Bool.false_eq_true,
        Caller.sync.injEq, false_and, if_false]
      split <;> simp_all
    | true =>
      simp only [decorated, syncWrapper, asyncioRun, retryWithBackoff, rerun, true_and, if_true,
        Bool.false_eq_true, if_false]
      split
      · simp_all
      · split <;> simp_all [Trace.append, Trace.done]

theorem leaveCoroutine_eq_iff {received : Except (Raised E) T} {e : E} :
    leaveCoroutine X received = .error (.exception e) ↔
      received = .error (.exception e) ∧ X.isStopIteration e = false := by
  cases received with
  | ok result => simp [leaveCoroutine]
  | error r =>
    simp only [leaveCoroutine]
    split
    · rename_i stops
      simp only [Except.error.injEq, reduceCtorEq, false_iff, not_and]
      rintro rfl not
      rw [Raised.isStopIteration, not] at stops
      cases stops
    · rename_i goes
      rw [Except.error.injEq, iff_self_and]
      rintro rfl
      exact Bool.eq_false_iff.mpr goes

theorem rerun_eq_iff {received : Except (Raised E) T} {e : E} :
    rerun X caller received = .error (.exception e) ↔
      received = .error (.exception e) ∧ (caller = .sync true → X.isRuntimeError e = false) := by
  cases received with
  | ok result => simp [rerun]
  | error r =>
    simp only [rerun]
    split
    · rename_i taken
      simp only [Except.error.injEq, reduceCtorEq, false_iff, not_and, not_forall]
      rintro rfl
      exact ⟨taken.1, ne_of_eq_of_ne taken.2 (by decide)⟩
    · rename_i goes
      rw [Except.error.injEq, iff_self_and]
      rintro rfl running
      exact Bool.eq_false_iff.mpr fun runtime => goes ⟨running, runtime⟩

variable (X) in
/-- What the loop is left with after an exception that is not retried. -/
def ending (e : E) : Except (Raised E) T :=
  if X.isException e then
    match (Raised.exception e).strRaises X with
    | some raised => .error (.exception raised)
    | none => raiseLast X (some (.exception e))
  else .error (.exception e)

/-- The caller receives the exception exactly when it is delivered. -/
theorem delivered_iff {e : E} :
    rerun X caller (leaveCoroutine X (ending (T := T) X e)) = .error (.exception e) ↔
      Delivered X caller e := by
  have raised : ending (T := T) X e = .error (.exception e) ↔ (X.isException e = true →
      match (Raised.exception e).strRaises X with
      | some raised => raised = e
      | none => X.truth e = .ok true ∨ X.truth e = .error e) := by
    rw [ending]
    split
    · rename_i caught
      simp only [caught, true_implies]
      split
      · rw [Except.error.injEq, Raised.exception.injEq]
      · simp only [raiseLast]
        split <;> simp_all
    · rename_i uncaught
      simp [uncaught]
  rw [rerun_eq_iff, leaveCoroutine_eq_iff, raised, and_assoc]
  exact ⟨fun ⟨raised, iteration, runtime⟩ => ⟨raised, iteration, runtime⟩,
    fun ⟨raised, iteration, runtime⟩ => ⟨raised, iteration, runtime⟩⟩

end Deliver

section Loop

variable {X : Exceptions E} {P : Power} {config : ModelRetryConfig} {draws : ℕ → Draw}
  {operation : ℕ → Except E T} {caller : Caller}

theorem setException_of_ne_nil (name : String) {attempts : List AttemptInfo} (some_ : attempts ≠ []) :
    ∃ attempts', setException name attempts = some attempts' ∧ attempts' ≠ [] := by
  rw [setException, List.getLast?_eq_some_getLast some_]
  exact ⟨_, rfl, by simp⟩

/-- The handler, when an attempt is recorded. -/
theorem handle_eq (X : Exceptions E) (config : ModelRetryConfig) {attempts : List AttemptInfo}
    (some_ : attempts ≠ []) (attempt : ℕ) (e : Raised E)
    (next : List AttemptInfo → Trace E T) : ∃ attempts', attempts' ≠ [] ∧
      handle X config attempt e attempts next =
        match e.strRaises X with
        | some raised => .done (.error (.exception raised))
        | none =>
          if attempt < config.maxAttempts &&
              isRetryableException (e.name X) config.retryableExceptions then next attempts'
          else .done (raiseLast X (some e)) := by
  obtain ⟨attempts', same, some_'⟩ := setException_of_ne_nil (e.name X) some_
  refine ⟨attempts', some_', ?_⟩
  unfold handle
  generalize setException (e.name X) attempts = found at same ⊢
  subst same
  rfl

/-- With a multiplier that is not a number and no jitter, the operation is not called from the third
attempt on. -/
theorem calls_of_nan (jitter : config.jitter = false) (nan_ : config.exponentialMultiplier = .nan)
    (remaining attempt called : ℕ) (last : Option (Raised E)) (attempts : List AttemptInfo)
    (later : 2 < attempt) :
    (attemptLoop X P config draws operation remaining attempt called last attempts).calls = [] := by
  induction remaining generalizing attempt last attempts with
  | zero => rfl
  | succ remaining ih =>
    have raises : calculateDelay P config (draws attempt) attempt = .error .valueError := by
      simp only [calculateDelay, if_neg (show ¬ attempt ≤ 1 by omega), jitter, Bool.false_eq_true,
        if_false, backoff_nan nan_ later, toInt]
    rw [attemptLoop, raises]
    simp only [handle]
    split
    · rfl
    · simp only [Raised.strRaises]
      split
      · exact ih _ _ _ (by omega)
      · rfl

variable (X P config draws caller) in
/-- Nothing comes between the loop and the plain one, for calls whose first is an attempt's: the
delays fit, the texts of what is retried can be had, and what the last call raises is delivered. -/
structure Undisturbed (first : ℕ) (calls : List (Except E T)) : Prop where
  fits : ∀ i < calls.length, Fits P config (draws (first + i)) (first + i)
  retried : ∀ e, .error e ∈ calls.dropLast → (Raised.exception e).strRaises X = none
  last : ∀ e, calls.getLast? = some (.error e) → Delivered X caller e

theorem undisturbed_singleton {first : ℕ} {outcome : Except E T} :
    Undisturbed X P config draws caller first [outcome] ↔
      Fits P config (draws first) first ∧ ∀ e, outcome = .error e → Delivered X caller e := by
  constructor
  · intro fine
    exact ⟨fine.fits 0 (by simp), fun e same => fine.last e (by simp [same])⟩
  · rintro ⟨fits, last⟩
    refine ⟨fun i less => ?_, by simp, fun e same => last e (by simpa using same)⟩
    obtain rfl : i = 0 := by simpa using less
    exact fits

theorem undisturbed_cons {first : ℕ} {outcome : Except E T} {rest : List (Except E T)}
    (some_ : rest ≠ []) : Undisturbed X P config draws caller first (outcome :: rest) ↔
      Fits P config (draws first) first ∧
        (∀ e, outcome = .error e → (Raised.exception e).strRaises X = none) ∧
          Undisturbed X P config draws caller (first + 1) rest := by
  have last : (outcome :: rest).getLast? = rest.getLast? := by
    rw [List.getLast?_cons_of_ne_nil some_]
  have drop : (outcome :: rest).dropLast = outcome :: rest.dropLast :=
    List.dropLast_cons_of_ne_nil some_
  constructor
  · rintro ⟨fits, retried, delivered⟩
    rw [drop] at retried
    rw [last] at delivered
    refine ⟨fits 0 (by simp), fun e same => retried e (by simp [same]), fun i less => ?_,
      fun e mem => retried e (by simp [mem]), delivered⟩
    have shifted := fits (i + 1) (by simpa using less)
    rwa [show first + (i + 1) = first + 1 + i by omega] at shifted
  · rintro ⟨fits, retried, fine⟩
    refine ⟨fun i less => ?_, fun e mem => ?_, fun e same => fine.last e (by rwa [last] at same)⟩
    · cases i with
      | zero => exact fits
      | succ i =>
        rw [show first + (i + 1) = first + 1 + i by omega]
        exact fine.fits i (by simpa using less)
    · rw [drop, List.mem_cons] at mem
      exact mem.elim (fun same => retried e same.symm) (fine.retried e)

/-- A run of the loop against the calls of the plain one. -/
structure Follows (X : Exceptions E) (config : ModelRetryConfig) (caller : Caller)
    (plain : List (Except E T)) (t : Trace E T) : Prop where
  calls : t.calls = plain
  received : ∀ outcome ∈ plain.getLast?,
    rerun X caller (leaveCoroutine X t.received) = outcome.mapError .exception
  sleeps : ∀ ms ∈ t.sleeps, ms ≤ config.maxDelayMs

theorem follows_sleep {calls : List (Except E T)} {t : Trace E T} {ms : ℤ}
    (le : ms ≤ config.maxDelayMs) :
    Follows X config caller calls (t.sleep ms) ↔ Follows X config caller calls t := by
  have same : (t.sleep ms).calls = t.calls ∧ (t.sleep ms).received = t.received ∧
      ((∀ m ∈ (t.sleep ms).sleeps, m ≤ config.maxDelayMs) ↔ ∀ m ∈ t.sleeps, m ≤ config.maxDelayMs) := by
    rw [Trace.sleep]
    split <;> simp [le]
  exact ⟨fun ⟨calls, received, sleeps⟩ =>
      ⟨same.1 ▸ calls, same.2.1 ▸ received, same.2.2.mp sleeps⟩,
    fun ⟨calls, received, sleeps⟩ =>
      ⟨same.1 ▸ calls, same.2.1 ▸ received, same.2.2.mpr sleeps⟩⟩

theorem follows_call {outcome : Except E T} {rest : List (Except E T)} {t : Trace E T}
    (some_ : rest ≠ []) : Follows X config caller (outcome :: rest) (t.call outcome) ↔
      Follows X config caller rest t := by
  have last : (outcome :: rest).getLast? = rest.getLast? := List.getLast?_cons_of_ne_nil some_
  constructor
  · rintro ⟨calls, received, sleeps⟩
    rw [last] at received
    exact ⟨(List.cons.inj calls).2, received, sleeps⟩
  · rintro ⟨calls, received, sleeps⟩
    refine ⟨?_, ?_, sleeps⟩
    · rw [Trace.call, calls]
    · rw [last]
      exact received

theorem follows_done {outcome : Except E T} {received : Except (Raised E) T} :
    Follows X config caller [outcome] (Trace.call outcome (.done received)) ↔
      rerun X caller (leaveCoroutine X received) = outcome.mapError .exception := by
  constructor
  · rintro ⟨-, received, -⟩
    exact received outcome rfl
  · intro same
    exact ⟨rfl, fun o last => by obtain rfl := Option.some.inj last; exact same, by simp [Trace.call, Trace.done]⟩

/-- An attempt whose delay fits: the operation is called, and what follows depends on how that call
ends. -/
theorem attemptLoop_of_fits (X : Exceptions E) (operation : ℕ → Except E T) {remaining called : ℕ}
    (last : Option (Raised E)) (attempts : List AttemptInfo) (most : called + 1 + remaining = config.maxAttempts)
    (fits : Fits P config (draws (called + 1)) (called + 1)) :
    ∃ ms ≤ (config.maxDelayMs : ℤ), ∃ t,
      attemptLoop X P config draws operation (remaining + 1) (called + 1) called last attempts =
        .sleep ms (.call (operation called) t) ∧
      (∀ result, operation called = .ok result → t = .done (.ok result)) ∧
      (∀ e, operation called = .error e →
        (isRetried X config (operation called) = false ∨ remaining = 0) → t = .done (ending X e)) ∧
      (∀ e, operation called = .error e →
        isRetried X config (operation called) = true → remaining ≠ 0 →
          (∀ raised, (Raised.exception e).strRaises X = some raised →
            t = .done (.error (.exception raised))) ∧
          ((Raised.exception e).strRaises X = none → ∃ attempts',
            t = attemptLoop X P config draws operation remaining (called + 2) (called + 1)
              (some (.exception e)) attempts')) := by
  obtain ⟨ms, delay, nonneg, le⟩ := calculateDelay_of_fits fits
  have info : attemptInfo (called + 1) ms = .ok ⟨called + 1, ms, none⟩ := by
    rw [attemptInfo, if_pos ⟨by omega, nonneg⟩]
  have handled := fun e => handle_eq X config
    (show attempts ++ [⟨called + 1, ms, none⟩] ≠ [] by simp) (called + 1) (.exception e)
    (attemptLoop X P config draws operation remaining (called + 2) (called + 1)
      (some (.exception e)))
  refine ⟨ms, le, _, by rw [attemptLoop, delay]; simp only [info]; rfl, ?_, ?_, ?_⟩
  · intro result same
    simp only [same]
  · intro e same ends
    simp only [same, ending]
    split
    · rename_i caught
      obtain ⟨attempts', -, handled⟩ := handled e
      refine handled.trans ?_
      have leaves : (decide (called + 1 < config.maxAttempts) &&
          isRetryableException (X.name e) config.retryableExceptions) = false := by
        rcases ends with other | none
        · rw [same, isRetried, caught, Bool.true_and] at other
          rw [other, Bool.and_false]
        · simp [show ¬ called + 1 < config.maxAttempts by omega]
      split
      · rfl
      · rw [Raised.name, leaves]
        rfl
    · rfl
  · intro e same retried more
    rw [same, isRetried, Bool.and_eq_true] at retried
    obtain ⟨attempts', -, handled⟩ := handled e
    simp only [same, retried.1, if_true]
    rw [handled]
    refine ⟨fun raised raises => by simp only [raises], fun fine => ⟨attempts', ?_⟩⟩
    have goesOn : (decide (called + 1 < config.maxAttempts) &&
        isRetryableException (X.name e) config.retryableExceptions) = true := by
      rw [retried.2, Bool.and_true, decide_eq_true_eq]
      omega
    simp only [fine, Raised.name, goesOn, if_true]

/-- An attempt whose delay does not fit sleeps it, or does not call the operation. -/
theorem not_follows_of_not_fits {remaining called attempt : ℕ} {last : Option (Raised E)}
    {attempts : List AttemptInfo} {plain : List (Except E T)} (some_ : plain ≠ [])
    (not : ¬ Fits P config (draws attempt) attempt) : ¬ Follows X config caller plain
      (attemptLoop X P config draws operation (remaining + 1) attempt called last attempts) := by
  rintro ⟨calls, -, sleeps⟩
  rcases calculateDelay_of_not_fits not with ⟨ms, delay, above⟩ | ⟨jitter, nan_, later, -⟩
  · rw [attemptLoop, delay] at sleeps
    have pos : 0 < ms := lt_of_le_of_lt (Int.natCast_nonneg _) above
    have slept := sleeps ms (by simp [Trace.sleep, pos])
    omega
  · exact some_ (calls ▸ calls_of_nan jitter nan_ _ _ _ _ _ later)

/-- An attempt after which the loop ends. -/
theorem follows_last {remaining called : ℕ} {last : Option (Raised E)} {attempts : List AttemptInfo}
    (most : called + 1 + remaining = config.maxAttempts)
    (ends : isRetried X config (operation called) = false ∨ remaining = 0) :
    Follows X config caller [operation called]
        (attemptLoop X P config draws operation (remaining + 1) (called + 1) called last attempts) ↔
      Undisturbed X P config draws caller (called + 1) [operation called] := by
  by_cases fits : Fits P config (draws (called + 1)) (called + 1)
  · obtain ⟨ms, le, t, same, succeeds, fails, -⟩ := attemptLoop_of_fits X operation last
      attempts most fits
    rw [same, follows_sleep le, undisturbed_singleton]
    cases outcome : operation called with
    | ok result =>
      rw [succeeds result outcome, follows_done]
      exact iff_of_true rfl ⟨fits, by rintro e ⟨⟩⟩
    | error e =>
      rw [fails e outcome ends, follows_done]
      refine delivered_iff.trans ⟨fun fine => ⟨fits, ?_⟩, fun ⟨_, fine⟩ => fine e rfl⟩
      rintro _ ⟨⟩
      exact fine
  · exact iff_of_false (not_follows_of_not_fits (by simp) fits) fun fine =>
      fits (fine.fits 0 (by simp))

/-- The loop, from an attempt on that comes after as many calls, follows the plain loop exactly when
nothing comes between them. -/
theorem attemptLoop_follows_iff (remaining called : ℕ) (last : Option (Raised E))
    (attempts : List AttemptInfo) (most : called + 1 + remaining = config.maxAttempts) :
    Follows X config caller (plainLoop X config operation (remaining + 1) called)
        (attemptLoop X P config draws operation (remaining + 1) (called + 1) called last attempts) ↔
      Undisturbed X P config draws caller (called + 1)
        (plainLoop X config operation (remaining + 1) called) := by
  induction remaining generalizing called last attempts with
  | zero =>
    have plain : plainLoop X config operation (0 + 1) called = [operation called] := by
      simp [plainLoop]
    rw [plain]
    exact follows_last most (.inr rfl)
  | succ remaining ih =>
    rw [plainLoop]
    cases retried : isRetried X config (operation called) with
    | false => exact follows_last most (.inl retried)
    | true =>
      rw [if_pos rfl]
      by_cases fits : Fits P config (draws (called + 1)) (called + 1)
      · obtain ⟨ms, le, t, same, -, -, again⟩ := attemptLoop_of_fits X operation
          last attempts most fits
        obtain ⟨e, outcome⟩ : ∃ e, operation called = .error e := by
          cases outcome : operation called with
          | ok result => rw [outcome] at retried; cases retried
          | error e => exact ⟨e, rfl⟩
        obtain ⟨raises, goesOn⟩ := again e outcome retried (by omega)
        rw [same, follows_sleep le, follows_call plainLoop_ne_nil, undisturbed_cons plainLoop_ne_nil]
        cases text : (Raised.exception e).strRaises X with
        | some raised =>
          rw [raises raised text]
          refine iff_of_false (fun follows => plainLoop_ne_nil follows.calls.symm) fun fine => ?_
          rw [fine.2.1 e outcome] at text
          cases text
        | none =>
          obtain ⟨attempts', rfl⟩ := goesOn text
          rw [ih (called + 1) (some (.exception e)) attempts' (by omega)]
          refine ⟨fun fine => ⟨fits, ?_, fine⟩, fun ⟨_, _, fine⟩ => fine⟩
          rw [outcome]
          rintro _ ⟨⟩
          exact text
      · refine iff_of_false (not_follows_of_not_fits (by simp) fits) fun fine => fits ?_
        exact fine.fits 0 (by simp)

/-- The operation is called as by the plain loop, its last outcome is received and no delay is above
its maximum, exactly when nothing comes between them. -/
theorem decorated_sound_iff :
    Sound X config operation (decorated X P config draws operation caller) ↔
      Undisturbed X P config draws caller 1 (plainLoop X config operation config.maxAttempts 0) := by
  obtain ⟨most, same⟩ : ∃ most, config.maxAttempts = most + 1 :=
    ⟨config.maxAttempts - 1, by have := config.maxAttempts_mem.1; omega⟩
  have follows : _ ↔ Undisturbed X P config draws caller 1 (plainLoop X config operation (most + 1) 0) :=
    attemptLoop_follows_iff most 0 none [] (by omega)
  rw [same, ← follows, decorated_eq, same]
  constructor
  · rintro ⟨calls, received, sleeps⟩
    rw [same] at calls
    have plain := calls_iff.mp calls
    exact ⟨plain, fun outcome last => received outcome (by rw [← plain] at last; exact last), sleeps⟩
  · rintro ⟨plain, received, sleeps⟩
    refine ⟨?_, fun outcome last => received outcome (plain ▸ last), sleeps⟩
    rw [same]
    exact calls_iff.mpr plain

end Loop

section Disturbed

/-- Powers that are not rounded. -/
def exactPower : Power where
  pow x n :=
    match x with
    | .finite q => .finite (q ^ n)
    | x => if n = 0 then .finite 1 else x
  pow_zero x := by cases x <;> simp
  pow_nan n := by simp
  one_le_pow x n least := by
    cases x with
    | nan => cases least
    | infinite negative =>
      dsimp only
      split
      · decide
      · exact least
    | finite q => exact decide_eq_true (one_le_pow₀ (of_decide_eq_true least))

/-- Exceptions that are known by the names of their types. -/
def named : Exceptions String where
  name := id
  isException _ := true
  isRuntimeError e := e == "RuntimeError"
  isStopIteration e := e == "StopIteration"
  truth _ := .ok true
  str e := .ok e

theorem two_attempts : 1 ≤ 2 ∧ 2 ≤ 10 := by decide

/-- A second of delay at the most, and one attempt more after the first. -/
def oneRetry : ModelRetryConfig where
  maxAttempts := 2
  maxAttempts_mem := two_attempts
  baseDelayMs := 60000
  maxDelayMs := 1000

/-- The jitter takes a capped delay above the cap, and with a running loop a `RuntimeError` of the
operation is replaced. -/
theorem jitter_above_cap :
    (decorated named exactPower oneRetry (fun _ => ⟨9 / 10, by norm_num⟩)
      (fun n => if n = 0 then .error "ConnectionError" else .ok ()) .async).sleeps = [1200] ∧
    ¬ Sound named oneRetry (fun n => if n = 0 then .error "ConnectionError" else .ok ())
      (decorated named exactPower oneRetry (fun _ => ⟨9 / 10, by norm_num⟩)
        (fun n => if n = 0 then .error "ConnectionError" else .ok ()) .async) ∧
    (decorated named exactPower oneRetry (fun _ => ⟨1 / 2, by norm_num⟩)
      (fun _ => (.error "RuntimeError" : Except String Unit)) (.sync true)).received =
        .error (.machinery .calledFromRunningLoop) := by
  have slept : (decorated named exactPower oneRetry (fun _ => ⟨9 / 10, by norm_num⟩)
      (fun n => if n = 0 then .error "ConnectionError" else .ok ()) .async).sleeps = [1200] := by
    decide +kernel
  refine ⟨slept, fun sound => ?_, rfl⟩
  have le := sound.sleeps 1200 (by rw [slept]; simp)
  revert le
  decide

end Disturbed

end RetryUtils

end OmniMemory
