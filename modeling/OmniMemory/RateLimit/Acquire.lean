import OmniMemory.Lib.Machine
import OmniMemory.RateLimit.ProviderRateLimiter

/-! `ProviderRateLimiter.acquire`, which asks for permission until it has it and sleeps in between. The
clock stands still while a task runs, and timers may be late. Nobody waits for the turn of another
task, so a call may be overtaken for ever; but no call waits while nothing is granted. -/

namespace OmniMemory

open Interleave SlidingWindow
open Asyncio (Guarded)

namespace ProviderRateLimiter

/-- The other fields of `ModelRateLimiterConfig`. -/
structure Waiting where
  provider : String
  model : String
  initialBackoffSeconds : ℚ
  maxBackoffSeconds : ℚ
  backoffMultiplier : ℚ
  initialBackoffSeconds_ge : 1 / 100 ≤ initialBackoffSeconds
  initialBackoffSeconds_le : initialBackoffSeconds ≤ 10
  maxBackoffSeconds_ge : 1 / 10 ≤ maxBackoffSeconds
  maxBackoffSeconds_le : maxBackoffSeconds ≤ 60
  backoffMultiplier_ge : 1 ≤ backoffMultiplier
  backoffMultiplier_le : backoffMultiplier ≤ 10

def Waiting.default (provider model : String) : Waiting :=
  ⟨provider, model, 1 / 10, 5, 2, by norm_num, by norm_num, by norm_num, by norm_num, by norm_num,
    by norm_num⟩

/-- `get_reset_time`. -/
def getResetTime (now : ℚ) : List Entry → ℚ
  | [] => 0
  | oldest :: _ => max 0 (oldest.1 + secondsPerMinute - now)

/-- `get_remaining`. -/
def getRemaining (self : ProviderRateLimiter) (window : List Entry) : Nat :=
  self.maxRequests - window.length

/-- A call of `acquire` or of `try_acquire` that was made at a time; a call of `acquire` that sleeps,
with its backoff and the time to wake up; the end of a call; or a task that only looks at the
clock. -/
inductive Acquiring where
  | calls (called : ℚ) (tokens : ℤ)
  | tries (called : ℚ) (tokens : ℤ)
  | sleeps (called : ℚ) (tokens : ℤ) (backoff wake : ℚ)
  | returned (answer : Bool)
  | raised (text : String)
  | looks
deriving DecidableEq

/-- The time before which the task does not go on. -/
def Acquiring.wake : Acquiring → Option ℚ
  | calls called _ | tries called _ => some called
  | sleeps _ _ _ wake => some wake
  | _ => none

/-- The limiter, the time, and the requests that were granted so far. -/
structure Clocked where
  clock : ℚ
  guarded : Guarded (List Entry)
  granted : List Entry

inductive Start where
  | acquire (now : ℚ) (tokens : ℤ)
  | tryAcquire (now : ℚ) (tokens : ℤ)
  | look

variable (self : ProviderRateLimiter) (waiting : Waiting)

/-- A call of `try_acquire`, with what is granted. It does not suspend when the lock is free. -/
def permit (i : Nat) (now : ℚ) (tokens : ℤ) (sh : Clocked) : Answer × Clocked :=
  let answered := self.tryAcquire ⟨i, false, now, tokens⟩ sh.guarded
  (answered.1, ⟨now, answered.2, sh.granted ++ (Call.entry ⟨i, false, now, tokens⟩ answered.1).toList⟩)

/-- Once around the loop of `acquire`. -/
def attempt (i : Nat) (called now : ℚ) (tokens : ℤ) (pause : ℚ) (sh : Clocked) :
    Option (Acquiring × Clocked) :=
  match self.permit i now tokens sh with
  | (.granted, sh) => some (.returned true, sh)
  | (.refused, sh) =>
    let waitTime := min (getResetTime now sh.guarded.data) pause
    some (.sleeps called tokens (min (pause * waiting.backoffMultiplier) waiting.maxBackoffSeconds)
      (now + waitTime), sh)
  | (.valueError text, sh) => some (.raised text, sh)
  | (.waits, _) => none

/-- `acquire`, up to its first sleep. -/
def acquire (i : Nat) (called now : ℚ) (tokens : ℤ) (sh : Clocked) : Option (Acquiring × Clocked) :=
  if tokens < 1 then some (.raised ("tokens must be >= 1, got " ++ toString tokens), { sh with clock := now })
  else if self.maxTokens > 0 ∧ tokens > self.maxTokens then
    some (.raised ("tokens (" ++ toString tokens ++ ") exceeds maximum allowed (" ++
      toString self.maxTokens ++ ") for " ++ waiting.provider ++ "/" ++ waiting.model), { sh with clock := now })
  else self.attempt waiting i called now tokens waiting.initialBackoffSeconds sh

/-- Tasks that go on at the time given. -/
def acquiring : Machine Clocked Acquiring Start ℚ where
  enter _
    | .acquire now tokens => .calls now tokens
    | .tryAcquire now tokens => .tries now tokens
    | .look => .looks
  resume i now task sh :=
    match task with
    | .calls called tokens => self.acquire waiting i called now tokens sh
    | .tries _ tokens =>
      match self.permit i now tokens sh with
      | (.granted, sh) => some (.returned true, sh)
      | (.refused, sh) => some (.returned false, sh)
      | (.valueError text, sh) => some (.raised text, sh)
      | (.waits, _) => none
    | .sleeps called tokens pause _ => self.attempt waiting i called now tokens pause sh
    | .looks => some (.looks, { sh with clock := now })
    | _ => none

/-- Time goes on, and no task goes on before its time or more than `late` after it. -/
def Punctual (late : ℚ) (s : System Clocked Acquiring) : Machine.Act Start ℚ → Prop
  | .start (.acquire now _) | .start (.tryAcquire now _) => s.shared.clock ≤ now
  | .start .look => True
  | .resume i now => s.shared.clock ≤ now ∧ s.At i (fun t => ∀ wake ∈ t.wake, wake ≤ now) ∧
      ∀ t ∈ s.tasks, ∀ wake ∈ t.wake, now ≤ wake + late

instance (late : ℚ) (s : System Clocked Acquiring) : DecidablePred (Punctual late s)
  | .start (.acquire now _) | .start (.tryAcquire now _) =>
    inferInstanceAs (Decidable (s.shared.clock ≤ now))
  | .start .look => .isTrue trivial
  | .resume i now => inferInstanceAs (Decidable (s.shared.clock ≤ now ∧
      s.At i (fun t => ∀ wake ∈ t.wake, wake ≤ now) ∧
      ∀ t ∈ s.tasks, ∀ wake ∈ t.wake, now ≤ wake + late))

/-- A limiter that has not been called. -/
def Unused (sh : Clocked) : Prop := sh.guarded = initial ∧ sh.granted = []

/-- A sleeping call could be granted, and wakes up when the first request of the last minute leaves
it at the latest. -/
def Acquiring.Awaits (granted : List Entry) : Acquiring → Prop
  | .sleeps _ tokens pause wake => 0 ≤ pause ∧ 1 ≤ tokens ∧
      (0 < self.maxTokens → tokens ≤ self.maxTokens) ∧
      ∃ entry ∈ granted, wake ≤ entry.1 + secondsPerMinute
  | _ => True

/-- What holds in every interleaving. -/
structure Coherent (limiter : ProviderRateLimiter) (late : ℚ) (s : System Clocked Acquiring) :
    Prop where
  between : Between limiter s.shared.clock s.shared.granted s.shared.guarded
  awaits : ∀ t ∈ s.tasks, t.Awaits limiter s.shared.granted
  punctual : ∀ t ∈ s.tasks, ∀ wake ∈ t.wake, s.shared.clock ≤ wake + late

section Runs

variable {self : ProviderRateLimiter} {waiting : Waiting} {late now called pause : ℚ} {tokens : ℤ}
  {granted window : List Entry} {i : Nat} {sh : Clocked} {t t' : Acquiring}
  {s : System Clocked Acquiring}

theorem getResetTime_le {oldest : Entry} {rest : List Entry}
    (recent : now - secondsPerMinute ≤ oldest.1) :
    now + getResetTime now (oldest :: rest) ≤ oldest.1 + secondsPerMinute := by
  rw [getResetTime, max_eq_right (by linarith)]
  linarith

/-- The section that holds the lock refuses nothing when the last minute is empty. -/
theorem Keeps.nonempty_of_refused (keeps : Keeps self now granted window)
    (fits : 0 < self.maxTokens → tokens ≤ self.maxTokens)
    (refused : (self.acquireWithin now tokens window).1 = .refused) :
    ∃ oldest rest, (self.acquireWithin now tokens window).2 = oldest :: rest ∧ oldest ∈ granted ∧
      now - secondsPerMinute ≤ oldest.1 := by
  have cleaned := keeps.cleanupWindow
  have left : (self.acquireWithin now tokens window).2 = since Prod.fst (now - 60) granted := by
    simp only [ProviderRateLimiter.acquireWithin, getCurrentUsage, cleaned] at refused ⊢
    split_ifs at refused ⊢ <;> rfl
  cases recent : since Prod.fst (now - 60) granted with
  | nil =>
    have requests : 0 < self.maxRequests := ceiling_pos self.config.requestsPerMinute_ge
    rw [ProviderRateLimiter.acquireWithin] at refused
    simp only [cleaned, recent, getCurrentUsage, List.length_nil, load, List.map_nil, List.sum_nil,
      zero_add] at refused
    rw [if_neg (by omega), if_neg (by rintro ⟨set, more⟩; exact absurd (fits set) (by omega))] at refused
    cases refused
  | cons oldest rest =>
    rw [recent] at left
    have mem : oldest ∈ since Prod.fst (now - 60) granted := by
      rw [recent]
      exact List.mem_cons_self
    obtain ⟨mem, after⟩ := List.mem_filter.mp mem
    exact ⟨oldest, rest, left, mem, of_decide_eq_true after⟩

/-- What a call of `try_acquire` leaves. -/
structure Permitted (limiter : ProviderRateLimiter) (now : ℚ) (tokens : ℤ) (sh : Clocked)
    (out : Answer × Clocked) : Prop where
  answers : out.1 ≠ .waits
  clock : out.2.clock = now
  between : Between limiter now out.2.granted out.2.guarded
  more : ∃ new, out.2.granted = sh.granted ++ new
  refused : out.1 = .refused → 1 ≤ tokens ∧ ((0 < limiter.maxTokens → tokens ≤ limiter.maxTokens) →
    ∃ oldest rest, out.2.guarded.data = oldest :: rest ∧ oldest ∈ sh.granted ∧
      now - secondsPerMinute ≤ oldest.1)

theorem tryAcquire_free (self : ProviderRateLimiter) (call : Call) (now_call : call.waited = false) (data : List Entry) :
    self.tryAcquire call ⟨.free, data⟩ =
      if call.tokens < 1 then (.valueError ("tokens must be >= 1, got " ++ toString call.tokens), ⟨.free, data⟩)
      else if self.maxTokens > 0 ∧ call.tokens > self.maxTokens then (.refused, ⟨.free, data⟩)
      else ((self.acquireWithin call.now call.tokens data).1,
        ⟨.free, (self.acquireWithin call.now call.tokens data).2⟩) := by
  simp only [tryAcquire, now_call, Guarded.withLock?_free]

theorem permit_permitted (i : Nat) (tokens : ℤ) (between : Between self now sh.granted sh.guarded) :
    Permitted self now tokens sh (self.permit i now tokens sh) := by
  have steps : Steps self sh.granted sh.guarded ⟨i, false, now, tokens⟩ := tryAcquire_steps between
  obtain ⟨clock, ⟨lock, data⟩, granted⟩ := sh
  obtain rfl : lock = .free := between.lock
  have step := self.tryAcquire_free ⟨i, false, now, tokens⟩ rfl data
  simp only at step
  refine ⟨?_, rfl, steps.between, ⟨_, rfl⟩, fun refused => ?_⟩
  · simp only [permit]
    rw [step]
    split_ifs
    · simp
    · simp
    · have pos : 1 ≤ tokens := by omega
      rcases between.keeps.acquireWithin pos with ⟨on, -⟩ | ⟨off, -⟩
      · rw [on]
        simp
      · rw [off]
        simp
  · simp only [permit] at refused ⊢
    rw [step] at refused ⊢
    split_ifs at refused ⊢ with invalid large
    · exact ⟨by omega, fun fits => absurd (fits large.1) (by omega)⟩
    · exact ⟨by omega, fun fits => between.keeps.nonempty_of_refused fits refused⟩

/-- What a step of a task leaves. -/
structure Moves (limiter : ProviderRateLimiter) (now : ℚ) (sh : Clocked) (t' : Acquiring)
    (sh' : Clocked) : Prop where
  clock : sh'.clock = now
  between : Between limiter now sh'.granted sh'.guarded
  more : ∃ new, sh'.granted = sh.granted ++ new
  awaits : t'.Awaits limiter sh'.granted
  later : ∀ wake ∈ t'.wake, now ≤ wake

theorem Acquiring.Awaits.append {new : List Entry} (awaits : t.Awaits self granted) :
    t.Awaits self (granted ++ new) := by
  cases t with
  | sleeps called tokens pause wake =>
    obtain ⟨nonneg, pos, fits, entry, mem, le⟩ := awaits
    exact ⟨nonneg, pos, fits, entry, List.mem_append_left _ mem, le⟩
  | _ => trivial

theorem attempt_moves {sh' : Clocked} (between : Between self now sh.granted sh.guarded)
    (fits : 0 < self.maxTokens → tokens ≤ self.maxTokens) (nonneg : 0 ≤ pause)
    (ran : self.attempt waiting i called now tokens pause sh = some (t', sh')) :
    Moves self now sh t' sh' := by
  have permitted := permit_permitted i tokens between
  simp only [attempt] at ran
  generalize self.permit i now tokens sh = out at permitted ran
  obtain ⟨answer, after⟩ := out
  obtain ⟨answers, clock, between, more, refused⟩ := permitted
  cases answer with
  | waits => exact absurd rfl answers
  | granted =>
    obtain ⟨rfl, rfl⟩ : Acquiring.returned true = t' ∧ after = sh' := by simpa using ran
    exact ⟨clock, between, more, trivial, by simp [Acquiring.wake]⟩
  | valueError text =>
    obtain ⟨rfl, rfl⟩ : Acquiring.raised text = t' ∧ after = sh' := by simpa using ran
    exact ⟨clock, between, more, trivial, by simp [Acquiring.wake]⟩
  | refused =>
    obtain ⟨pos, window⟩ := refused rfl
    obtain ⟨oldest, rest, window, mem, recent⟩ := window fits
    obtain ⟨new, more⟩ := more
    obtain ⟨rfl, rfl⟩ : Acquiring.sleeps called tokens
        (min (pause * waiting.backoffMultiplier) waiting.maxBackoffSeconds)
        (now + min (getResetTime now after.guarded.data) pause) = t' ∧ after = sh' := by simpa using ran
    refine ⟨clock, between, ⟨new, more⟩, ⟨?_, pos, fits, oldest, ?_, ?_⟩, ?_⟩
    · have := waiting.backoffMultiplier_ge
      have := waiting.maxBackoffSeconds_ge
      exact le_min (mul_nonneg nonneg (by linarith)) (by linarith)
    · rw [more]
      exact List.mem_append_left _ mem
    · rw [window]
      exact (add_le_add_right (min_le_left _ _) now).trans (getResetTime_le recent)
    · intro wake there
      obtain rfl := Option.mem_some_iff.mp there
      have : 0 ≤ getResetTime now after.guarded.data := by
        rw [window]
        exact le_max_left _ _
      have := le_min this nonneg
      linarith

theorem acquire_moves {sh' : Clocked} (between : Between self now sh.granted sh.guarded)
    (ran : self.acquire waiting i called now tokens sh = some (t', sh')) : Moves self now sh t' sh' := by
  simp only [acquire] at ran
  split_ifs at ran with invalid large
  · cases ran
    exact ⟨rfl, between, ⟨[], by simp⟩, trivial, by simp [Acquiring.wake]⟩
  · cases ran
    exact ⟨rfl, between, ⟨[], by simp⟩, trivial, by simp [Acquiring.wake]⟩
  · have := waiting.initialBackoffSeconds_ge
    refine attempt_moves between (fun set => ?_) (by linarith) ran
    by_contra more
    exact large ⟨set, by omega⟩

theorem acquiring_moves {sh' : Clocked} (between : Between self now sh.granted sh.guarded)
    (awaits : t.Awaits self sh.granted)
    (ran : (self.acquiring waiting).resume i now t sh = some (t', sh')) : Moves self now sh t' sh' := by
  cases t with
  | calls called tokens => exact acquire_moves between ran
  | tries called tokens =>
    have permitted := permit_permitted i tokens between
    simp only [acquiring] at ran
    generalize self.permit i now tokens sh = out at permitted ran
    obtain ⟨answer, after⟩ := out
    obtain ⟨answers, clock, between, more, -⟩ := permitted
    cases answer with
    | waits => exact absurd rfl answers
    | _ =>
      simp only [Option.some.injEq, Prod.mk.injEq] at ran
      obtain ⟨rfl, rfl⟩ := ran
      exact ⟨clock, between, more, trivial, by simp [Acquiring.wake]⟩
  | sleeps called tokens pause wake =>
    obtain ⟨nonneg, -, fits, -⟩ := awaits
    exact attempt_moves between fits nonneg ran
  | looks =>
    obtain ⟨rfl, rfl⟩ : Acquiring.looks = t' ∧ { sh with clock := now } = sh' := by
      simpa [acquiring] using ran
    exact ⟨rfl, between, ⟨[], by simp⟩, trivial, by simp [Acquiring.wake]⟩
  | returned answer => cases ran
  | raised text => cases ran

theorem Coherent.start (coherent : Coherent self late s) (nonneg : 0 ≤ late) {a : Start}
    (met : Punctual late s (.start a)) :
    Coherent self late (s.add ((self.acquiring waiting).enter s.tasks.length a)) := by
  refine ⟨coherent.between, fun t mem => ?_, fun t mem wake there => ?_⟩
  · rcases List.mem_append.mp mem with mem | mem
    · exact coherent.awaits t mem
    · obtain rfl := List.mem_singleton.mp mem
      cases a <;> trivial
  · rcases List.mem_append.mp mem with mem | mem
    · exact coherent.punctual t mem wake there
    · obtain rfl := List.mem_singleton.mp mem
      show s.shared.clock ≤ wake + late
      cases a with
      | look => cases there
      | acquire now tokens =>
        have le : s.shared.clock ≤ now := met
        obtain rfl := Option.mem_some_iff.mp there
        linarith
      | tryAcquire now tokens =>
        have le : s.shared.clock ≤ now := met
        obtain rfl := Option.mem_some_iff.mp there
        linarith

theorem Coherent.resume (coherent : Coherent self late s) (nonneg : 0 ≤ late) {sh' : Clocked}
    (met : Punctual late s (.resume i now)) (task : s.tasks[i]? = some t)
    (ran : (self.acquiring waiting).resume i now t s.shared = some (t', sh')) :
    Coherent self late (s.put i t' sh') := by
  obtain ⟨after, -, punctual⟩ := met
  have between : Between self now s.shared.granted s.shared.guarded :=
    ⟨coherent.between.lock, coherent.between.keeps.later after⟩
  have moves := acquiring_moves between (coherent.awaits t (List.mem_of_getElem? task)) ran
  obtain ⟨new, more⟩ := moves.more
  refine ⟨?_, fun u mem => ?_, fun u mem wake there => ?_⟩
  · rw [System.shared_put, moves.clock]
    exact moves.between
  · rcases List.mem_or_eq_of_mem_set mem with mem | rfl
    · rw [System.shared_put, more]
      exact (coherent.awaits u mem).append
    · exact moves.awaits
  · rw [System.shared_put, moves.clock]
    rcases List.mem_or_eq_of_mem_set mem with mem | rfl
    · exact punctual u mem wake there
    · have := moves.later wake there
      linarith

theorem acquiring_coherent (nonneg : 0 ≤ late)
    (reach : (self.acquiring waiting).Reach Unused (Punctual late) s) : Coherent self late s := by
  refine reach.invariant (fun sh unused => ?_) (fun s a coherent met => coherent.start nonneg met)
    fun s i now t t' sh coherent met task ran => coherent.resume nonneg met task ran
  refine ⟨?_, by simp, by simp⟩
  rw [unused.1, unused.2]
  exact ⟨rfl, .nil⟩

end Runs

/-- Whatever calls there are and in whatever order they go on: the requests granted in every minute
are within the limits, and when a call of `acquire` sleeps that was made with tokens that can be
granted, a request was granted within the last minute, and as much as timers are late. -/
theorem acquire_waits_for_grants (self : ProviderRateLimiter) (waiting : Waiting) {late : ℚ}
    (nonneg : 0 ≤ late) {s : System Clocked Acquiring}
    (reach : (self.acquiring waiting).Reach Unused (Punctual late) s) :
    Limits self s.shared.granted ∧
      ∀ (called : ℚ) (tokens : ℤ) (pause wake : ℚ), .sleeps called tokens pause wake ∈ s.tasks →
        1 ≤ tokens ∧ (0 < self.config.tokensPerMinute → tokens ≤ self.maxTokens) ∧
        ∃ entry ∈ s.shared.granted, s.shared.clock ≤ entry.1 + 60 + late := by
  have coherent := acquiring_coherent nonneg reach
  refine ⟨coherent.between.keeps.limits, fun called tokens pause wake mem => ?_⟩
  obtain ⟨-, pos, fits, entry, granted, le⟩ := coherent.awaits _ mem
  have punctual := coherent.punctual _ mem wake rfl
  refine ⟨pos, fun set => fits (maxTokens_pos.mpr set), entry, granted, ?_⟩
  rw [secondsPerMinute] at le
  linarith

/-- A call that asks for too many tokens sleeps, and is overtaken by one that asks for few. -/
theorem acquire_waits_for_grants_overtaken : ∃ s,
    (sample.acquiring (.default "openai" "small")).Reach Unused (Punctual 1) s ∧
      s.shared.granted = [(0, 12), (51 / 50, 3)] ∧
      (∃ pause wake, Acquiring.sleeps 1 15 pause wake ∈ s.tasks) ∧
      Limits sample s.shared.granted ∧
      ∀ (called : ℚ) (tokens : ℤ) (pause wake : ℚ), .sleeps called tokens pause wake ∈ s.tasks →
        1 ≤ tokens ∧ (0 < sample.config.tokensPerMinute → tokens ≤ sample.maxTokens) ∧
        ∃ entry ∈ s.shared.granted, s.shared.clock ≤ entry.1 + 60 + 1 := by
  let goal (s : System Clocked Acquiring) : Bool := s.shared.granted = [(0, 12), (51 / 50, 3)] ∧
    s.tasks[1]? = some (.sleeps 1 15 (2 / 5) (13 / 10))
  obtain ⟨s, reach, last⟩ : ∃ s,
      (sample.acquiring (.default "openai" "small")).Reach (· = ⟨0, initial, []⟩) (Punctual 1) s ∧
        goal s = true := Machine.Reach.of_run
    (fun s a => decide (Punctual 1 s a))
    ⟨0, initial, []⟩
    [.start (.acquire 0 12), .start (.acquire 1 15), .resume 0 0, .resume 1 1,
      .start (.tryAcquire (51 / 50) 3), .resume 2 (51 / 50), .resume 1 (11 / 10)]
    (fun _ _ => of_decide_eq_true) (by decide +kernel)
  have reach : (sample.acquiring (.default "openai" "small")).Reach Unused (Punctual 1) s :=
    reach.mono (by rintro sh rfl; exact ⟨rfl, rfl⟩) fun _ _ met => met
  obtain ⟨granted, task⟩ := of_decide_eq_true last
  exact ⟨s, reach, granted, ⟨_, _, List.mem_of_getElem? task⟩,
    acquire_waits_for_grants sample _ (by norm_num) reach⟩

end ProviderRateLimiter

end OmniMemory
