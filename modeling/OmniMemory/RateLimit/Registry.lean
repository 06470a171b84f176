import OmniMemory.Lowercase
import OmniMemory.RateLimit.ProviderRateLimiter

/-! `RateLimiterRegistry`, which has one limiter for every provider and model. Its sections that hold the
lock await nothing, so the lock is free at every call and a call is one step; so is a call of
`try_acquire`, whoever makes it. Limiters are numbered as they are made. -/

namespace OmniMemory

open Sequential SlidingWindow
open Asyncio (Guarded)

namespace RateLimiterRegistry

open ProviderRateLimiter (Entry)

/-- `(provider, model)` of `_normalize_key`. -/
abbrev Key := String × String

/-- A limiter that was made, and the requests that it granted so far. -/
structure Made where
  key : Key
  limiter : ProviderRateLimiter
  window : Guarded (List Entry)
  granted : List Entry

structure State where
  /-- `_limiters`: for each key, which limiter. -/
  limiters : Key → Option Nat
  made : List Made

/-- A registry without limiters. -/
def empty : State := ⟨fun _ => none, []⟩

inductive Event where
  | getOrCreate (provider model : String) (requestsPerMinute tokensPerMinute : Int) (burstMultiplier : ℚ)
  | get (provider model : String)
  | remove (provider model : String)
  | clear
  | tryAcquire (limiter : Nat) (now : ℚ) (tokens : ℤ)

inductive Answer where
  | limiter (limiter : Option Nat)
  | removed (found : Bool)
  | cleared
  | permission (answer : ProviderRateLimiter.Answer)
  | raised (e : PyError)
deriving DecidableEq

/-- What the registry uses of texts: lower case, and `repr`. -/
structure Texts where
  table : CaseTable
  repr : String → String

variable (X : Texts)

/-- `_IDENTIFIER_PATTERN`. -/
def isIdentifierChar (c : Char) : Bool :=
  ('a' ≤ c && c ≤ 'z') || ('A' ≤ c && c ≤ 'Z') || ('0' ≤ c && c ≤ '9') || c == '.' || c == '_' ||
    c == '/' || c == '-'

/-- `_validate_identifier`. -/
def validateIdentifier (value fieldName : String) : Except PyError Unit :=
  if isBlank value then .error (.valueError s!"{fieldName} cannot be empty")
  else if (strip value).toList.all isIdentifierChar then .ok ()
  else
    .error (.valueError (s!"{fieldName} contains invalid characters: {X.repr value}. " ++
      "Only alphanumeric characters, hyphens, underscores, periods, and forward slashes are allowed."))

/-- `value.lower().strip()`. -/
def normalized (value : String) : String := strip (String.ofList (X.table.lowered value.toList))

/-- `_normalize_key`. -/
def normalizeKey (provider model : String) : Except PyError Key :=
  match validateIdentifier X provider "provider" with
  | .error e => .error e
  | .ok () => (validateIdentifier X model "model").map fun () => (normalized X provider, normalized X model)

/-- `ModelRateLimiterConfig(...)`, as far as it sets the limits. -/
def config? (requestsPerMinute tokensPerMinute : Int) (burstMultiplier : ℚ) : Option ModelRateLimiterConfig :=
  if requests : 1 ≤ requestsPerMinute.toNat ∧ requestsPerMinute.toNat ≤ 10000 then
    if tokens : 0 ≤ tokensPerMinute ∧ tokensPerMinute.toNat ≤ 10000000 then
      if burst : 1 ≤ burstMultiplier ∧ burstMultiplier ≤ 10 then
        some ⟨requestsPerMinute.toNat, tokensPerMinute.toNat, burstMultiplier, requests.1, requests.2,
          tokens.2, burst.1, burst.2⟩
      else none
    else none
  else none

/-- `get_or_create`, for a key. -/
def getOrCreate (key : Key) (config : Option ModelRateLimiterConfig) (s : State) : Answer × State :=
  match s.limiters key with
  | some limiter => (.limiter (some limiter), s)
  | none =>
    match config with
    | none => (.raised (.valueError "validation error for ModelRateLimiterConfig"), s)
    | some config =>
      (.limiter (some s.made.length),
        { limiters := Function.update s.limiters key (some s.made.length)
          made := s.made ++ [⟨key, ⟨config⟩, ProviderRateLimiter.initial, []⟩] })

/-- `try_acquire` of the limiter. -/
def Made.tryAcquire (self : Made) (now : ℚ) (tokens : ℤ) : ProviderRateLimiter.Answer × Made :=
  let call : ProviderRateLimiter.Call := ⟨0, false, now, tokens⟩
  let (answer, window) := self.limiter.tryAcquire call self.window
  (answer, { self with window, granted := self.granted ++ (call.entry answer).toList })

def step (s : State) : Event → Answer × State
  | .getOrCreate provider model requestsPerMinute tokensPerMinute burstMultiplier =>
    match normalizeKey X provider model with
    | .error e => (.raised e, s)
    | .ok key => getOrCreate key (config? requestsPerMinute tokensPerMinute burstMultiplier) s
  | .get provider model =>
    match normalizeKey X provider model with
    | .error e => (.raised e, s)
    | .ok key => (.limiter (s.limiters key), s)
  | .remove provider model =>
    match normalizeKey X provider model with
    | .error e => (.raised e, s)
    | .ok key =>
      (.removed (s.limiters key).isSome, { s with limiters := Function.update s.limiters key none })
  | .clear => (.cleared, { s with limiters := fun _ => none })
  | .tryAcquire limiter now tokens =>
    match s.made[limiter]? with
    | none => (.raised (.other "no limiter"), s)
    | some made =>
      let (answer, made) := made.tryAcquire now tokens
      (.permission answer, { s with made := s.made.set limiter made })

/-- The registry and its limiters, in the course of calls. -/
def automaton : Automaton Event Answer State where
  step := step X

/-! ### Runs -/

/-- The time that a call reads. -/
def Event.now? : Event → Option ℚ
  | tryAcquire _ now _ => some now
  | _ => none

/-- The call asks for the limiter of the key. -/
def Event.Asks (key : Key) : Event → Prop
  | getOrCreate provider model .. | get provider model => normalizeKey X provider model = .ok key
  | _ => False

/-- The call takes the limiter of the key out of the registry. -/
def Event.Forgets (key : Key) : Event → Prop
  | remove provider model => normalizeKey X provider model = .ok key
  | clear => True
  | _ => False

/-- What holds between calls. -/
structure Coherent (now : ℚ) (s : State) : Prop where
  named : ∀ key limiter, s.limiters key = some limiter →
    ∃ made, s.made[limiter]? = some made ∧ made.key = key
  between : ∀ made ∈ s.made, ProviderRateLimiter.Between made.limiter now made.granted made.window

/-- Each key has one limiter of its own until it is forgotten, and each limiter keeps to its limits, whoever
calls it. -/
structure Shared (X : Texts) (events : List Event) : Prop where
  named : ∀ key limiter, ((automaton X).run empty events).limiters key = some limiter →
    ∃ made, ((automaton X).run empty events).made[limiter]? = some made ∧ made.key = key
  limits : ∀ made ∈ ((automaton X).run empty events).made,
    ProviderRateLimiter.Limits made.limiter made.granted
  one : ∀ before after key limiter, events = before ++ after →
    ((automaton X).run empty before).limiters key = some limiter → (∀ e ∈ after, ¬ e.Forgets X key) →
    ∀ asked ∈ after.zip ((automaton X).answers ((automaton X).run empty before) after),
      asked.1.Asks X key → asked.2 = .limiter (some limiter)

section Runs

variable {X : Texts} {now now' : ℚ} {s : State} {key : Key} {limiter : Nat}

theorem Coherent.later (coherent : Coherent now s) (le : now ≤ now') : Coherent now' s where
  named := coherent.named
  between made mem := ⟨(coherent.between made mem).lock, (coherent.between made mem).keeps.later le⟩

theorem coherent_empty : Coherent now empty where
  named := by
    rintro key limiter ⟨⟩
  between := List.forall_mem_nil _

/-- A limiter that is made is a new one. -/
theorem Coherent.getOrCreate (coherent : Coherent now s) (key : Key)
    (config : Option ModelRateLimiterConfig) :
    Coherent now (getOrCreate key config s).2 := by
  unfold RateLimiterRegistry.getOrCreate
  split
  · exact coherent
  · split
    · exact coherent
    · constructor
      · intro key' limiter found
        by_cases same : key' = key
        · subst same
          simp only [Function.update_self, Option.some.injEq] at found
          exact ⟨_, by rw [← found, List.getElem?_concat_length], rfl⟩
        · simp only [Function.update_of_ne same] at found
          obtain ⟨made, there, named⟩ := coherent.named key' limiter found
          obtain ⟨bound, -⟩ := List.getElem?_eq_some_iff.mp there
          exact ⟨made, by rw [List.getElem?_append_left bound, there], named⟩
      · intro made mem
        rcases List.mem_append.mp mem with old | new
        · exact coherent.between made old
        · rw [List.mem_singleton.mp new]
          exact ⟨rfl, .nil⟩

/-- A call of a limiter. -/
theorem Coherent.tryAcquire (coherent : Coherent now s) {made : Made} (there : s.made[limiter]? = some made)
    (tokens : ℤ) : Coherent now { s with made := s.made.set limiter (made.tryAcquire now tokens).2 } := by
  have between := coherent.between made (List.mem_of_getElem? there)
  constructor
  · intro key other found
    obtain ⟨made', here, named⟩ := coherent.named key other found
    obtain ⟨bound, -⟩ := List.getElem?_eq_some_iff.mp there
    by_cases same : limiter = other
    · subst same
      rw [there] at here
      cases here
      exact ⟨(made.tryAcquire now tokens).2, List.getElem?_set_self bound, named⟩
    · exact ⟨made', by rw [List.getElem?_set_ne same, here], named⟩
  · intro made' mem
    rcases List.mem_or_eq_of_mem_set mem with old | new
    · exact coherent.between made' old
    · have steps : ProviderRateLimiter.Steps made.limiter made.granted made.window ⟨0, false, now, tokens⟩ :=
        ProviderRateLimiter.tryAcquire_steps between
      rw [new]
      exact steps.between

theorem Coherent.forget (coherent : Coherent now s) (limiters : Key → Option Nat)
    (part : ∀ key limiter, limiters key = some limiter → s.limiters key = some limiter) :
    Coherent now { s with limiters } where
  named key limiter found := coherent.named key limiter (part key limiter found)
  between := coherent.between

/-- What a call leaves, at the time that it reads. -/
theorem Coherent.step (coherent : Coherent now s) (e : Event) (le : ∀ t ∈ e.now?, t = now) :
    Coherent now (step X s e).2 := by
  cases e with
  | getOrCreate provider model requestsPerMinute tokensPerMinute burstMultiplier =>
    simp only [RateLimiterRegistry.step]
    split
    · exact coherent
    · exact coherent.getOrCreate _ _
  | get provider model =>
    simp only [RateLimiterRegistry.step]
    split
    · exact coherent
    · exact coherent
  | remove provider model =>
    simp only [RateLimiterRegistry.step]
    split
    · exact coherent
    · refine coherent.forget _ fun key limiter found => ?_
      simp only [Function.update_apply] at found
      split at found
      · cases found
      · exact found
  | clear => exact coherent.forget _ nofun
  | tryAcquire limiter t tokens =>
    obtain rfl := le t rfl
    simp only [RateLimiterRegistry.step]
    split
    · exact coherent
    · exact coherent.tryAcquire ‹_› tokens

theorem coherent_run {events : List Event} (sorted : (events.filterMap Event.now?).Pairwise (· ≤ ·))
    (past : ∀ t ∈ events.filterMap Event.now?, t ≤ now) :
    Coherent now ((automaton X).run empty events) := by
  induction events using List.reverseRecOn generalizing now with
  | nil => exact coherent_empty
  | append_singleton events e ih =>
    rw [List.filterMap_append] at sorted past
    obtain ⟨sorted, -, before⟩ := List.pairwise_append.mp sorted
    rw [Automaton.run_concat]
    cases reads : e.now? with
    | none =>
      exact (ih sorted fun t mem => past t (List.mem_append_left _ mem)).step e (by simp [reads])
    | some t =>
      have here : t ∈ [e].filterMap Event.now? := by simp [reads]
      have coherent := ih sorted fun t' mem => before t' mem t here
      refine Coherent.later ?_ (past t (List.mem_append_right _ here))
      exact coherent.step e fun t' same => Option.some.inj (same.symm.trans reads)

/-- A call that does not forget the key leaves its limiter, and answers with this one when it is asked. -/
theorem step_kept (found : s.limiters key = some limiter) {e : Event} (kept : ¬ e.Forgets X key) :
    (step X s e).2.limiters key = some limiter ∧
      (e.Asks X key → (step X s e).1 = .limiter (some limiter)) := by
  cases e with
  | getOrCreate provider model requestsPerMinute tokensPerMinute burstMultiplier =>
    simp only [RateLimiterRegistry.step, Event.Asks]
    cases normal : normalizeKey X provider model with
    | error e => exact ⟨found, nofun⟩
    | ok key' =>
      have one : ∀ config, (getOrCreate key' config s).2.limiters key = some limiter ∧
          (key' = key → (getOrCreate key' config s).1 = .limiter (some limiter)) := by
        intro config
        unfold getOrCreate
        cases there : s.limiters key' with
        | some other =>
          refine ⟨found, ?_⟩
          rintro rfl
          exact congrArg Answer.limiter (there.symm.trans found)
        | none =>
          have ne : key ≠ key' := by
            rintro rfl
            rw [found] at there
            cases there
          refine ⟨?_, fun same => absurd same.symm ne⟩
          cases config with
          | none => exact found
          | some config => exact (Function.update_of_ne ne _ _).trans found
      exact ⟨(one _).1, fun asks => (one _).2 (Except.ok.inj asks)⟩
  | get provider model =>
    simp only [RateLimiterRegistry.step, Event.Asks]
    cases normal : normalizeKey X provider model with
    | error e => exact ⟨found, nofun⟩
    | ok key' =>
      refine ⟨found, fun asks => ?_⟩
      obtain rfl := Except.ok.inj asks
      exact congrArg Answer.limiter found
  | remove provider model =>
    simp only [RateLimiterRegistry.step, Event.Forgets] at kept ⊢
    cases normal : normalizeKey X provider model with
    | error e => exact ⟨found, nofun⟩
    | ok key' =>
      have ne : key ≠ key' := fun same => kept (normal.trans (congrArg _ same.symm))
      exact ⟨(Function.update_of_ne ne _ _).trans found, nofun⟩
  | clear => exact absurd trivial kept
  | tryAcquire other t tokens =>
    refine ⟨?_, nofun⟩
    simp only [RateLimiterRegistry.step]
    split
    · exact found
    · exact found

theorem answers_kept (found : s.limiters key = some limiter) {events : List Event}
    (kept : ∀ e ∈ events, ¬ e.Forgets X key) :
    ∀ asked ∈ events.zip ((automaton X).answers s events), asked.1.Asks X key →
      asked.2 = .limiter (some limiter) := by
  induction events generalizing s with
  | nil => exact List.forall_mem_nil _
  | cons e events ih =>
    obtain ⟨still, answered⟩ := step_kept found (kept e List.mem_cons_self)
    intro asked mem
    rcases List.mem_cons.mp mem with rfl | mem
    · exact answered
    · exact ih still (fun e mem => kept e (List.mem_cons_of_mem _ mem)) asked mem

theorem exists_later (times : List ℚ) : ∃ now, ∀ t ∈ times, t ≤ now := by
  induction times with
  | nil => exact ⟨0, List.forall_mem_nil _⟩
  | cons t times ih =>
    obtain ⟨now, past⟩ := ih
    refine ⟨max t now, fun t' mem => ?_⟩
    rcases List.mem_cons.mp mem with rfl | mem
    · exact le_max_left _ _
    · exact (past t' mem).trans (le_max_right _ _)

/-- The second caller spells the names in another way, and asks for more. -/
def twoCallers : List Event :=
  [.getOrCreate "OpenAI" "embedding" 2 0 1, .getOrCreate " openai" "EMBEDDING " 500 0 1, .tryAcquire 0 0 1,
    .tryAcquire 0 1 1, .tryAcquire 0 2 1]

end Runs

end RateLimiterRegistry

end OmniMemory
