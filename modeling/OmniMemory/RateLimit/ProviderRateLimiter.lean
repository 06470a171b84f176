import OmniMemory.Asyncio
import OmniMemory.Lib.Automaton
import OmniMemory.Lib.Binary64
import OmniMemory.Lib.SlidingWindow

/-! `ProviderRateLimiter.try_acquire`. The requests that were granted are kept in a deque, from
which those older than a minute are dropped at the front. Times are in seconds. -/

namespace OmniMemory

open Sequential SlidingWindow
open Asyncio (Guarded)

/-- `ModelRateLimiterConfig`, as far as it sets the limits. -/
structure ModelRateLimiterConfig where
  requestsPerMinute : Nat
  tokensPerMinute : Nat
  burstMultiplier : ℚ
  requestsPerMinute_ge : 1 ≤ requestsPerMinute
  requestsPerMinute_le : requestsPerMinute ≤ 10000
  tokensPerMinute_le : tokensPerMinute ≤ 10000000
  burstMultiplier_ge : 1 ≤ burstMultiplier
  burstMultiplier_le : burstMultiplier ≤ 10

structure ProviderRateLimiter where
  config : ModelRateLimiterConfig

namespace ProviderRateLimiter

/-- A granted request: when, and for how many tokens. -/
abbrev Entry := ℚ × ℤ

/-- What a call of `try_acquire` comes to. A call that waits for the lock has no answer yet. -/
inductive Answer where
  | granted
  | refused
  | valueError (text : String)
  | waits
deriving DecidableEq

/-- A call of `try_acquire`, or its going on when it has waited for the lock, and the time that it
reads. -/
structure Call where
  task : Nat
  waited : Bool
  now : ℚ
  tokens : ℤ

def secondsPerMinute : ℚ := 60

def dequeSafetyCeilingMultiplier : Nat := 2

variable (self : ProviderRateLimiter)

/-- `math.ceil(per_minute * config.burst_multiplier)`. -/
def ceiling (perMinute : Nat) : Nat := ⌈Binary64.round (perMinute * self.config.burstMultiplier)⌉₊

def maxRequests : Nat := self.ceiling self.config.requestsPerMinute

def maxTokens : Nat :=
  if self.config.tokensPerMinute > 0 then self.ceiling self.config.tokensPerMinute else 0

/-- `_request_window.append`, to a deque of bounded length. -/
def append (window : List Entry) (entry : Entry) : List Entry :=
  let window := window ++ [entry]
  window.drop (window.length - self.maxRequests * dequeSafetyCeilingMultiplier)

/-- `_cleanup_window`. -/
def cleanupWindow (now : ℚ) (window : List Entry) : List Entry :=
  expire Prod.fst (now - secondsPerMinute) window

/-- `_get_current_usage`. -/
def getCurrentUsage (window : List Entry) : Nat × ℤ := (window.length, load Prod.snd window)

/-- The section of `try_acquire` that holds the lock. -/
def acquireWithin (now : ℚ) (tokens : ℤ) (window : List Entry) : Answer × List Entry :=
  let window := cleanupWindow now window
  let (requestCount, tokenCount) := getCurrentUsage window
  if requestCount ≥ self.maxRequests then (.refused, window)
  else if self.maxTokens > 0 ∧ tokenCount + tokens > self.maxTokens then (.refused, window)
  else (.granted, self.append window (now, tokens))

def tryAcquire (call : Call) (g : Guarded (List Entry)) : Answer × Guarded (List Entry) :=
  if call.tokens < 1 then (.valueError ("tokens must be >= 1, got " ++ toString call.tokens), g)
  else if self.maxTokens > 0 ∧ call.tokens > self.maxTokens then (.refused, g)
  else
    match g.withLock? call.task call.waited (self.acquireWithin call.now call.tokens) with
    | some answered => answered
    | none => (.waits, g.park call.task call.waited)

/-- A limiter, in the course of calls. -/
def automaton : Automaton Call Answer (Guarded (List Entry)) where
  step g call := self.tryAcquire call g

/-- A limiter that has not been called. -/
def initial : Guarded (List Entry) := ⟨.free, []⟩

/-- The entry of a call that was granted. -/
def Call.entry (call : Call) : Answer → Option Entry
  | .granted => some (call.now, call.tokens)
  | _ => none

/-- The requests that were granted in the course of calls. -/
def grants (calls : List Call) : List Entry := self.automaton.marks Call.entry initial calls

/-- The granted requests of every minute are within the limits. -/
structure Limits (limiter : ProviderRateLimiter) (granted : List Entry) : Prop where
  requests : ∀ start, (within Prod.fst start (start + 60) granted).length ≤
    limiter.ceiling limiter.config.requestsPerMinute
  tokens : 0 < limiter.config.tokensPerMinute → ∀ start,
    load Prod.snd (within Prod.fst start (start + 60) granted) ≤
      limiter.ceiling limiter.config.tokensPerMinute

/-- One more request would be too many, or too large, in the minute that ends with it. -/
def Breaks (granted : List Entry) (now : ℚ) (tokens : ℤ) : Prop :=
  self.ceiling self.config.requestsPerMinute <
      (within Prod.fst (now - 60) now granted).length + 1 ∨
    0 < self.config.tokensPerMinute ∧
      self.ceiling self.config.tokensPerMinute <
        load Prod.snd (within Prod.fst (now - 60) now granted) + tokens

/-- What the deque has to do with the requests granted up to a time. -/
structure Keeps (limiter : ProviderRateLimiter) (now : ℚ) (granted window : List Entry) : Prop where
  past : ∀ entry ∈ granted, entry.1 ≤ now
  sorted : granted.Pairwise fun entry later => entry.1 ≤ later.1
  nonneg : ∀ entry ∈ granted, 0 ≤ entry.2
  part : window.Sublist granted
  recent : ∀ later, now ≤ later →
    since Prod.fst (later - 60) window = since Prod.fst (later - 60) granted
  limits : Limits limiter granted

section Runs

variable {self : ProviderRateLimiter} {now : ℚ} {tokens : ℤ} {granted window : List Entry}

theorem ceiling_pos {perMinute : Nat} (pos : 0 < perMinute) : 0 < self.ceiling perMinute := by
  have burst : (0 : ℚ) < self.config.burstMultiplier :=
    lt_of_lt_of_le one_pos self.config.burstMultiplier_ge
  exact Nat.ceil_pos.mpr (Binary64.round_pos (mul_pos (by exact_mod_cast pos) burst))

theorem maxTokens_pos : 0 < self.maxTokens ↔ 0 < self.config.tokensPerMinute := by
  unfold maxTokens
  split
  · simp [ceiling_pos, *]
  · simp [*]

theorem maxTokens_eq (set : 0 < self.config.tokensPerMinute) :
    self.maxTokens = self.ceiling self.config.tokensPerMinute := if_pos set

theorem length_eq_load (log : List Entry) : log.length = load (fun _ => 1) log := by
  simp [load]

/-- The bound on the length of the deque drops nothing while the limit is not reached. -/
theorem append_eq {entry : Entry} (room : window.length < self.maxRequests) :
    self.append window entry = window ++ [entry] := by
  have short : (window ++ [entry]).length -
      self.maxRequests * dequeSafetyCeilingMultiplier = 0 := by
    rw [List.length_append, List.length_singleton, dequeSafetyCeilingMultiplier]
    omega
  simp only [append, short, List.drop_zero]

namespace Keeps

theorem nil : Keeps self now [] [] where
  past := by simp
  sorted := .nil
  nonneg := by simp
  part := .slnil
  recent _ _ := rfl
  limits := ⟨by simp [within], by simp [within, load]⟩

theorem later {now' : ℚ} (keeps : Keeps self now granted window) (le : now ≤ now') :
    Keeps self now' granted window :=
  { keeps with
    past := fun entry there => (keeps.past entry there).trans le
    recent := fun _ after => keeps.recent _ (le.trans after) }

/-- After the clean-up, the deque holds the requests granted in the last minute. -/
theorem cleanupWindow (keeps : Keeps self now granted window) :
    cleanupWindow now window = since Prod.fst (now - 60) granted := by
  rw [ProviderRateLimiter.cleanupWindow, secondsPerMinute,
    expire_eq_since (keeps.sorted.sublist keeps.part), keeps.recent now le_rfl]

theorem cleaned (keeps : Keeps self now granted window) :
    Keeps self now granted (since Prod.fst (now - 60) granted) :=
  { keeps with
    part := List.filter_sublist
    recent := fun _ after => since_since (sub_le_sub_right after 60) }

/-- A request that is within the limits of the last minute. -/
theorem concat (keeps : Keeps self now granted window) (pos : 1 ≤ tokens)
    (requests : (since Prod.fst (now - 60) granted).length < self.maxRequests)
    (fits : 0 < self.config.tokensPerMinute →
      load Prod.snd (since Prod.fst (now - 60) granted) + tokens ≤ self.maxTokens) :
    Keeps self now (granted ++ [(now, tokens)])
      (since Prod.fst (now - 60) granted ++ [(now, tokens)]) where
  past := by
    intro entry there
    rcases List.mem_append.mp there with there | there
    · exact keeps.past entry there
    · rw [List.mem_singleton.mp there]
  sorted := by
    refine List.pairwise_append.mpr ⟨keeps.sorted, List.pairwise_singleton _ _, ?_⟩
    intro entry there last here
    rw [List.mem_singleton.mp here]
    exact keeps.past entry there
  nonneg := by
    intro entry there
    rcases List.mem_append.mp there with there | there
    · exact keeps.nonneg entry there
    · rw [List.mem_singleton.mp there]
      exact le_trans (by norm_num) pos
  part := List.filter_sublist.append (List.Sublist.refl _)
  recent := by
    intro later after
    have same : since Prod.fst (later - 60) (since Prod.fst (now - 60) granted) =
        since Prod.fst (later - 60) granted := since_since (sub_le_sub_right after 60)
    unfold since at same ⊢
    rw [List.filter_append, List.filter_append, same]
  limits := by
    refine ⟨fun start => ?_, fun set start => ?_⟩
    · rw [length_eq_load]
      refine load_within_concat (fun _ _ => Nat.zero_le 1) ?_ ?_
      · rw [← length_eq_load]
        exact keeps.limits.requests start
      · rw [← length_eq_load]
        exact requests
    · have within := fits set
      rw [maxTokens_eq set] at within
      exact load_within_concat keeps.nonneg (keeps.limits.tokens set start) within

/-- The section that holds the lock keeps the deque, and refuses what would break a limit. -/
theorem acquireWithin (keeps : Keeps self now granted window) (pos : 1 ≤ tokens) :
    let step := self.acquireWithin now tokens window
    (step.1 = .granted ∧ Keeps self now (granted ++ [(now, tokens)]) step.2) ∨
      (step.1 = .refused ∧ Keeps self now granted step.2 ∧ self.Breaks granted now tokens) := by
  simp only [ProviderRateLimiter.acquireWithin, getCurrentUsage, keeps.cleanupWindow]
  by_cases many : (since Prod.fst (now - 60) granted).length ≥ self.maxRequests
  · rw [if_pos many]
    refine .inr ⟨rfl, keeps.cleaned, .inl ?_⟩
    rw [within_eq_since keeps.past]
    exact Nat.lt_succ_of_le many
  · rw [if_neg many]
    by_cases large : self.maxTokens > 0 ∧
        load Prod.snd (since Prod.fst (now - 60) granted) + tokens > self.maxTokens
    · have set := maxTokens_pos.mp large.1
      rw [if_pos large]
      refine .inr ⟨rfl, keeps.cleaned, .inr ⟨set, ?_⟩⟩
      rw [within_eq_since keeps.past, ← maxTokens_eq set]
      exact large.2
    · have requests := not_le.mp many
      rw [if_neg large]
      refine .inl ⟨rfl, ?_⟩
      simp only [append_eq requests]
      refine keeps.concat pos requests fun set => ?_
      by_contra more
      exact large ⟨maxTokens_pos.mpr set, not_le.mp more⟩

end Keeps

/-- A limiter in the course of calls: its lock is free between them. -/
structure Between (limiter : ProviderRateLimiter) (now : ℚ) (granted : List Entry)
    (g : Guarded (List Entry)) : Prop where
  lock : g.lock = .free
  keeps : Keeps limiter now granted g.data

/-- One more call: it does not wait, and is refused only when it would break a limit. -/
structure Steps (limiter : ProviderRateLimiter) (granted : List Entry) (g : Guarded (List Entry))
    (call : Call) : Prop where
  between : Between limiter call.now
    (granted ++ (call.entry (limiter.tryAcquire call g).1).toList) (limiter.tryAcquire call g).2
  refused : (limiter.tryAcquire call g).1 = .refused →
    limiter.Breaks granted call.now call.tokens

variable {g : Guarded (List Entry)} {call : Call}

theorem load_nonneg {log : List Entry} (nonneg : ∀ entry ∈ log, 0 ≤ entry.2) :
    0 ≤ load Prod.snd log := by
  simpa [load] using load_sublist log.nil_sublist nonneg

theorem Keeps.oversized (keeps : Keeps self now granted window) (set : 0 < self.maxTokens)
    (large : tokens > self.maxTokens) : self.Breaks granted now tokens := by
  have set := maxTokens_pos.mp set
  refine .inr ⟨set, ?_⟩
  rw [← maxTokens_eq set]
  have before : 0 ≤ load Prod.snd (within Prod.fst (now - 60) now granted) :=
    load_nonneg fun entry there => keeps.nonneg entry (List.mem_of_mem_filter there)
  omega

theorem tryAcquire_steps (between : Between self call.now granted g) :
    Steps self granted g call := by
  obtain ⟨lock, data⟩ := g
  obtain ⟨rfl, keeps⟩ := between
  -- A call that is granted nothing, and does not touch the deque.
  have same {answer : Answer} (step : self.tryAcquire call ⟨.free, data⟩ = (answer, ⟨.free, data⟩))
      (none : call.entry answer = none)
      (refused : answer = .refused → self.Breaks granted call.now call.tokens) :
      Steps self granted ⟨.free, data⟩ call := by
    constructor
    · rw [step, none]
      simpa using Between.mk rfl keeps
    · rwa [step]
  by_cases invalid : call.tokens < 1
  · exact same (if_pos invalid) rfl (by simp)
  · by_cases large : self.maxTokens > 0 ∧ call.tokens > self.maxTokens
    · have step : self.tryAcquire call ⟨.free, data⟩ = (.refused, ⟨.free, data⟩) := by
        rw [tryAcquire, if_neg invalid, if_pos large]
      exact same step rfl fun _ => keeps.oversized large.1 large.2
    · cases waited : call.waited with
      | true =>
        have step : self.tryAcquire call ⟨.free, data⟩ = (.waits, ⟨.free, data⟩) := by
          simp [tryAcquire, if_neg invalid, if_neg large, waited, Guarded.withLock?_waited,
            Guarded.park]
        exact same step rfl (by simp)
      | false =>
        have step : self.tryAcquire call ⟨.free, data⟩ =
            ((self.acquireWithin call.now call.tokens data).1,
              ⟨.free, (self.acquireWithin call.now call.tokens data).2⟩) := by
          simp only [tryAcquire, if_neg invalid, if_neg large, waited, Guarded.withLock?_free]
        rcases keeps.acquireWithin (not_lt.mp invalid) with ⟨on, next⟩ | ⟨off, next, breaks⟩
        · constructor
          · rw [step, on]
            exact ⟨rfl, next⟩
          · rw [step, on]
            simp
        · constructor
          · rw [step, off]
            simpa [Call.entry] using Between.mk rfl next
          · exact fun _ => breaks

theorem grants_concat {calls : List Call} : self.grants (calls ++ [call]) = self.grants calls ++
    (call.entry (self.tryAcquire call (self.automaton.run initial calls)).1).toList :=
  Automaton.marks_concat

theorem between_run {calls : List Call} (sorted : calls.Pairwise fun c c' => c.now ≤ c'.now)
    (past : ∀ c ∈ calls, c.now ≤ now) :
    Between self now (self.grants calls) (self.automaton.run initial calls) := by
  induction calls using List.reverseRecOn generalizing now with
  | nil => exact ⟨rfl, .nil⟩
  | append_singleton calls call ih =>
    obtain ⟨sorted, -, before⟩ := List.pairwise_append.mp sorted
    have between := ih sorted fun c there => before c there call (List.mem_singleton_self call)
    have next := (tryAcquire_steps between).between
    rw [grants_concat, Automaton.run_concat]
    exact ⟨next.lock, next.keeps.later (past call (by simp))⟩

end Runs

/-- In the course of calls at times that do not decrease, the requests granted in every minute are
within the limits, and a request is refused only when it would break one of them in the minute that
ends with it. -/
theorem limits_every_minute (self : ProviderRateLimiter) (calls : List Call)
    (sorted : calls.Pairwise fun c c' => c.now ≤ c'.now) :
    Limits self (self.grants calls) ∧
      ∀ before call after, calls = before ++ call :: after →
        (self.tryAcquire call (self.automaton.run initial before)).1 = .refused →
          self.Breaks (self.grants before) call.now call.tokens := by
  constructor
  · cases calls using List.reverseRecOn with
    | nil => exact (Keeps.nil : Keeps self 0 [] []).limits
    | append_singleton calls call =>
      obtain ⟨_, -, before⟩ := List.pairwise_append.mp sorted
      have past : ∀ c ∈ calls ++ [call], c.now ≤ call.now := by
        intro c there
        rcases List.mem_append.mp there with there | there
        · exact before c there call (List.mem_singleton_self call)
        · rw [List.mem_singleton.mp there]
      exact (between_run sorted past).keeps.limits
  · rintro before call after rfl refused
    obtain ⟨sorted, -, past⟩ := List.pairwise_append.mp sorted
    have between : Between self call.now (self.grants before) (self.automaton.run initial before) :=
      between_run sorted fun c there => past c there call List.mem_cons_self
    exact (tryAcquire_steps between).refused refused

theorem ten_requests : 1 ≤ 10 := by decide

/-- Ten requests, and 20 tokens, a minute, each times 1.1. -/
def sample : ProviderRateLimiter where
  config := ⟨10, 20, 2476979795053773 / 2 ^ 51, ten_requests, by decide, by decide, by norm_num,
    by norm_num⟩

/-- A request is refused whose tokens would be too many, and granted when a minute has passed. -/
theorem limits_every_minute_sample :
    let call (now : ℚ) (tokens : ℤ) : Call := ⟨0, false, now, tokens⟩
    let calls : List Call := [call 0 12, call 30 10, call 60 11, call 61 0, call 61 11]
    Limits sample (sample.grants calls) ∧
      sample.automaton.answers initial calls = [.granted, .granted, .refused,
        .valueError "tokens must be >= 1, got 0", .granted] :=
  ⟨(limits_every_minute sample _ (by decide +kernel)).1, by decide +kernel⟩

end ProviderRateLimiter

end OmniMemory
