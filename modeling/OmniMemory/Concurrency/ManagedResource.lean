import OmniMemory.Asyncio
import OmniMemory.Concurrency.CircuitBreaker
import OmniMemory.Lib.Machine

/-! `AsyncResourceManager.managed_resource`, for the contexts of one resource name. The semaphore
is acquired inside the `try` block whose `finally` gives it back, so a context that is cancelled
while it waits gives back a permit that it never had, and one that is cancelled while it awaits its
`release_func` keeps its permit for ever. In all other runs the semaphore limits its holders and
ends at its limit. -/

namespace OmniMemory

open Interleave Asyncio

namespace ManagedResource

open CircuitBreaker (Outcome)

inductive ReleaseFunc where
  | absent
  | plain
  | coroutine
deriving DecidableEq

/-- The arguments of a context. -/
structure Context where
  releaseFunc : ReleaseFunc
  circuitBreakerConfig : Option ModelCircuitBreakerConfig
  semaphoreLimit : Option Int

/-- How `acquire_func` ends: with a resource, which may be `None`, or without. -/
inductive Acquired where
  | resource (there : Bool)
  | timeoutError
  | raised
  | cancelled
deriving DecidableEq

/-- A semaphore, and the limit that it was made with. -/
structure Limited where
  limit : Nat
  semaphore : Semaphore
deriving DecidableEq

/-- What the manager keeps under the name. -/
structure Manager where
  circuitBreaker : Option (Guarded AsyncCircuitBreaker)
  semaphore : Option Limited

namespace Manager

def initial : Manager := ⟨none, none⟩

def getCircuitBreaker (config : Option ModelCircuitBreakerConfig) (s : Manager) : Manager :=
  { s with
    circuitBreaker := some (s.circuitBreaker.getD ⟨.free, .new (config.getD .default)⟩) }

/-- A new `Semaphore` raises `ValueError` for a negative value. -/
def getSemaphore (limit : Int) (s : Manager) : Option Manager :=
  match s.semaphore with
  | some _ => some s
  | none =>
    if limit < 0 then none else some { s with semaphore := some ⟨limit.toNat, limit.toNat, []⟩ }

def setSemaphore (s : Manager) (semaphore : Semaphore) : Manager :=
  { s with semaphore := s.semaphore.map fun l => { l with semaphore } }

def release (s : Manager) : Manager :=
  { s with semaphore := s.semaphore.map fun l => { l with semaphore := l.semaphore.release } }

/-- `async with self._lock` of the circuit breaker; `none` when the task has to wait. -/
def withLock? {β : Type} (s : Manager) (i : Nat) (waited : Bool)
    (body : AsyncCircuitBreaker → β × AsyncCircuitBreaker) : Option (β × Manager) :=
  s.circuitBreaker.bind fun g => (g.withLock? i waited body).map fun r =>
    (r.1, { s with circuitBreaker := some r.2 })

def onLock (s : Manager) (f : Guarded AsyncCircuitBreaker → Guarded AsyncCircuitBreaker) :
    Manager :=
  { s with circuitBreaker := s.circuitBreaker.map f }

end Manager

/-- Where a context is suspended. -/
inductive Pc where
  | ready
  /-- in `semaphore.acquire` -/
  | waiting
  /-- for the breaker's `_lock`, to be let on -/
  | enterLock
  /-- in `acquire_func` -/
  | acquiring
  /-- for the breaker's `_lock`, to record the outcome -/
  | outcomeLock (got : Acquired)
  | body (resource : Bool)
  /-- in `release_func` -/
  | releasing (out : Outcome)
  | left (out : Outcome)
deriving DecidableEq

/-- A context; `limited` says that it has a semaphore. -/
structure Task where
  id : Nat
  context : Context
  limited : Bool
  pc : Pc

/-- What the surroundings choose: that the context goes on, how `acquire_func` or the body ends,
that `release_func` ends, or that the context is cancelled. -/
inductive Choice where
  | go (now draw : ℚ)
  | acquired (got : Acquired) (now : ℚ)
  | finish (out : Outcome)
  | released
  | cancel
deriving DecidableEq

namespace Task

/-- The end of `finally`. -/
def leave (t : Task) (out : Outcome) (s : Manager) : Task × Manager :=
  ({ t with pc := .left out }, if t.limited then s.release else s)

/-- `finally`. What `release_func` raises is caught. -/
def final (t : Task) (resource : Bool) (out : Outcome) (s : Manager) : Task × Manager :=
  if resource ∧ t.context.releaseFunc = .coroutine then ({ t with pc := .releasing out }, s)
  else t.leave out s

/-- `_on_failure`, and the exception goes up. -/
def fail (t : Task) (waited : Bool) (now : ℚ) (got : Acquired) (out : Outcome) (s : Manager) :
    Task × Manager :=
  match s.withLock? t.id waited fun b => ((), b.onFailure now) with
  | none => ({ t with pc := .outcomeLock got }, s.onLock (·.park t.id waited))
  | some (_, s) => t.final false out s

/-- `circuit_breaker.call`, from when `acquire_func` has ended. -/
def settle (t : Task) (waited : Bool) (now : ℚ) (got : Acquired) (s : Manager) : Task × Manager :=
  match got with
  | .cancelled => t.final false .cancelled s
  | .timeoutError => t.fail waited now got .timeoutError s
  | .raised => t.fail waited now got .raised s
  | .resource there =>
    match s.withLock? t.id waited fun b => ((), b.onSuccess) with
    | none => ({ t with pc := .outcomeLock got }, s.onLock (·.park t.id waited))
    | some (_, s) => ({ t with pc := .body there }, s)

/-- `circuit_breaker.call`, up to `acquire_func`. -/
def call (t : Task) (waited : Bool) (now draw : ℚ) (s : Manager) : Task × Manager :=
  match s.withLock? t.id waited fun b => b.enterCall now draw with
  | none => ({ t with pc := .enterLock }, s.onLock (·.park t.id waited))
  | some (true, s) => ({ t with pc := .acquiring }, s)
  | some (false, s) => t.final false .raised s

/-- The `try` block, for a context with a semaphore. -/
def acquire (t : Task) (now draw : ℚ) (s : Manager) : Task × Manager :=
  match s.semaphore with
  | none => t.call false now draw s
  | some l =>
    match l.semaphore.tryAcquire with
    | some semaphore => t.call false now draw (s.setSemaphore semaphore)
    | none => ({ t with pc := .waiting }, s.setSemaphore (l.semaphore.park t.id))

/-- From the start. A limit of 0 counts as none. -/
def enter (t : Task) (now draw : ℚ) (s : Manager) : Task × Manager :=
  let s := s.getCircuitBreaker t.context.circuitBreakerConfig
  match t.context.semaphoreLimit with
  | none => t.call false now draw s
  | some limit =>
    if limit = 0 then t.call false now draw s
    else
      match s.getSemaphore limit with
      | none => ({ t with pc := .left .raised }, s)
      | some s => { t with limited := true }.acquire now draw s

/-- A context that is cancelled. While it waits for the semaphore, `finally` gives back a permit all
the same; while it awaits `release_func`, the rest of `finally` is left out. -/
def cancel (t : Task) (s : Manager) : Option (Task × Manager) :=
  match t.pc with
  | .ready | .releasing _ => some ({ t with pc := .left .cancelled }, s)
  | .waiting => s.semaphore.map fun l =>
    t.final false .cancelled (s.setSemaphore (l.semaphore.abandon t.id))
  | .enterLock | .outcomeLock _ => some (t.final false .cancelled (s.onLock (·.abandon t.id)))
  | _ => none

/-- The lock of the breaker is there for a context that waits for it. -/
def woken (t : Task) (s : Manager) : Bool :=
  s.circuitBreaker.any fun g => (g.lock.wake t.id).isSome

def resume (t : Task) (s : Manager) : Choice → Option (Task × Manager)
  | .cancel => t.cancel s
  | .go now draw =>
    match t.pc with
    | .ready => some (t.enter now draw s)
    | .waiting => s.semaphore.bind fun l => (l.semaphore.wake t.id).map fun semaphore =>
      t.call false now draw (s.setSemaphore semaphore)
    | .enterLock => if t.woken s then some (t.call true now draw s) else none
    | .outcomeLock got => if t.woken s then some (t.settle true now got s) else none
    | _ => none
  | .acquired got now =>
    match t.pc with
    | .acquiring =>
      if got = .timeoutError then
        some (t.settle false now got (s.onLock fun g => { g with data := g.data.countTimeout }))
      else some (t.settle false now got s)
    | _ => none
  | .finish out =>
    match t.pc with
    | .body resource => some (t.final resource out s)
    | _ => none
  | .released =>
    match t.pc with
    | .releasing out => some (t.leave out s)
    | _ => none

end Task

/-- Any number of contexts of one resource name. -/
def machine : Machine Manager Task Context Choice where
  enter i context := ⟨i, context, false, .ready⟩
  resume _ ch t s := t.resume s ch

abbrev ManagerSystem := System Manager Task

/-- The context is between the acquisition of the semaphore and its release. -/
def Task.holds (t : Task) : Bool :=
  t.limited && match t.pc with
    | .ready | .waiting | .left _ => false
    | _ => true

/-- The context is in `release_func`. -/
def Pc.releases : Pc → Bool
  | releasing _ => true
  | _ => false

/-- The context has been let into the `try` block and does not wait. -/
def Pc.inside : Pc → Bool
  | acquiring | body _ | releasing _ | left _ => true
  | _ => false

namespace Manager

/-- No task holds the breaker's lock or waits for it. -/
def Free (s : Manager) : Prop := ∀ g, s.circuitBreaker = some g → g.lock = .free

def limit (s : Manager) : Nat := s.semaphore.elim 0 (·.limit)

def permits (s : Manager) : Nat := s.semaphore.elim 0 (·.semaphore.permits)

def ids (s : Manager) : List Nat := s.semaphore.elim [] (·.semaphore.ids)

section

variable {s s' : Manager} {l : Limited} {semaphore : Semaphore} {β : Type}

/-- A section under the free lock of the breaker does not wait, and changes nothing else. -/
theorem withLock?_free (i : Nat) (body : AsyncCircuitBreaker → β × AsyncCircuitBreaker)
    (free : s.Free) (there : s.circuitBreaker.isSome) :
    ∃ r g, s.withLock? i false body = some (r, { s with circuitBreaker := some g }) ∧
      g.lock = .free := by
  obtain ⟨⟨lock, data⟩, found⟩ := Option.isSome_iff_exists.mp there
  obtain rfl : lock = .free := free _ found
  refine ⟨(body data).1, ⟨.free, (body data).2⟩, ?_, rfl⟩
  simp only [withLock?, found, Option.bind_some, Guarded.withLock?_free, Option.map_some]

theorem permits_release (there : s.semaphore = some l) :
    s.release.permits = s.permits + 1 ∧ s.release.ids = s.ids ∧ s.release.limit = s.limit := by
  simp only [permits, ids, limit, release, there, Option.map_some, Option.elim_some, and_true]
  exact Semaphore.release_permits

theorem permits_setSemaphore (there : s.semaphore = some l) :
    (s.setSemaphore semaphore).permits = semaphore.permits ∧
      (s.setSemaphore semaphore).ids = semaphore.ids ∧
      (s.setSemaphore semaphore).limit = s.limit := by
  simp [permits, ids, limit, setSemaphore, there]

/-- A semaphore that is made has as many permits as its limit. -/
theorem getSemaphore_some {limit : Int} (got : s.getSemaphore limit = some s') :
    s'.circuitBreaker = s.circuitBreaker ∧ s'.semaphore.isSome ∧ s'.ids = s.ids ∧
      s'.permits + s.limit = s.permits + s'.limit := by
  simp only [getSemaphore] at got
  cases there : s.semaphore with
  | some l =>
    rw [there] at got
    cases got
    exact ⟨rfl, by simp [there], rfl, rfl⟩
  | none =>
    rw [there] at got
    obtain ⟨-, eq⟩ := Option.ite_none_left_eq_some.mp got
    cases eq
    refine ⟨rfl, rfl, ?_, ?_⟩
    · simp [ids, there, Semaphore.ids]
    · simp [permits, Manager.limit, there, Semaphore.permits]

theorem getCircuitBreaker_free {config : Option ModelCircuitBreakerConfig} (free : s.Free) :
    (s.getCircuitBreaker config).Free := by
  rintro _ ⟨⟩
  cases there : s.circuitBreaker with
  | none => rfl
  | some g => exact free g there

end

end Manager

/-- What a context inside the `try` block leads to, when it has a permit if it needs one. -/
structure Goes (t : Task) (s : Manager) (r : Task × Manager) : Prop where
  free : r.2.Free
  breaker : r.2.circuitBreaker.isSome
  same : r.1.id = t.id ∧ r.1.limited = t.limited
  inside : r.1.pc.inside = true
  semaphore : r.2.semaphore.isSome = s.semaphore.isSome
  ids : r.2.ids = s.ids
  limit : r.2.limit = s.limit
  permits : r.2.permits + (if r.1.holds then 1 else 0) = s.permits + (if t.limited then 1 else 0)

section Goes

variable {t : Task} {s : Manager} {r : Task × Manager} {resource : Bool} {out : Outcome}
  {got : Acquired} {now draw : ℚ} {g : Guarded AsyncCircuitBreaker}

theorem leave_goes (free : s.Free) (breaker : s.circuitBreaker.isSome)
    (semaphore : t.limited → s.semaphore.isSome) : Goes t s (t.leave out s) := by
  cases limited : t.limited with
  | false =>
    simp only [Task.leave, limited]
    exact ⟨free, breaker, ⟨rfl, limited.symm⟩, rfl, rfl, rfl, rfl, by simp [Task.holds, limited]⟩
  | true =>
    obtain ⟨l, there⟩ := Option.isSome_iff_exists.mp (semaphore limited)
    obtain ⟨permits, ids, limit⟩ := Manager.permits_release there
    simp only [Task.leave, limited]
    refine ⟨free, breaker, ⟨rfl, limited.symm⟩, rfl, by simp [Manager.release], ids, limit, ?_⟩
    simpa [Task.holds, limited] using permits

theorem final_goes (free : s.Free) (breaker : s.circuitBreaker.isSome)
    (semaphore : t.limited → s.semaphore.isSome) : Goes t s (t.final resource out s) := by
  simp only [Task.final]
  split
  · exact ⟨free, breaker, ⟨rfl, rfl⟩, rfl, rfl, rfl, rfl, by simp [Task.holds]⟩
  · exact leave_goes free breaker semaphore

theorem free_of_breaker (unlocked : g.lock = .free) :
    Manager.Free { s with circuitBreaker := some g } := by
  rintro _ ⟨⟩
  exact unlocked

theorem call_goes (free : s.Free) (breaker : s.circuitBreaker.isSome)
    (semaphore : t.limited → s.semaphore.isSome) : Goes t s (t.call false now draw s) := by
  obtain ⟨on, g, entered, unlocked⟩ := Manager.withLock?_free t.id
    (fun b => b.enterCall now draw) free breaker
  have free := free_of_breaker (s := s) unlocked
  simp only [Task.call, entered]
  cases on with
  | true => exact ⟨free, rfl, ⟨rfl, rfl⟩, rfl, rfl, rfl, rfl, by simp [Task.holds, Manager.permits]⟩
  | false => exact { final_goes free rfl semaphore with }

theorem fail_goes (free : s.Free) (breaker : s.circuitBreaker.isSome)
    (semaphore : t.limited → s.semaphore.isSome) : Goes t s (t.fail false now got out s) := by
  obtain ⟨_, g, recorded, unlocked⟩ := Manager.withLock?_free t.id
    (fun b => ((), b.onFailure now)) free breaker
  simp only [Task.fail, recorded]
  exact { final_goes (free_of_breaker unlocked) rfl semaphore with }

theorem settle_goes (free : s.Free) (breaker : s.circuitBreaker.isSome)
    (semaphore : t.limited → s.semaphore.isSome) : Goes t s (t.settle false now got s) := by
  cases got with
  | cancelled => exact final_goes free breaker semaphore
  | timeoutError => exact fail_goes free breaker semaphore
  | raised => exact fail_goes free breaker semaphore
  | resource there =>
    obtain ⟨_, g, recorded, unlocked⟩ := Manager.withLock?_free t.id
      (fun b => ((), b.onSuccess)) free breaker
    simp only [Task.settle, recorded]
    exact ⟨free_of_breaker unlocked, rfl, ⟨rfl, rfl⟩, rfl, rfl, rfl, rfl,
      by simp [Task.holds, Manager.permits]⟩

end Goes

/-- A context and the manager between steps. -/
structure Task.Ok (t : Task) (s : Manager) : Prop where
  calm : t.pc = .ready ∨ t.pc = .waiting ∨ t.pc.inside = true
  ready : t.pc = .ready → t.limited = false
  waiting : t.pc = .waiting → t.limited = true
  breaker : t.pc ≠ .ready → (∀ out, t.pc ≠ .left out) → s.circuitBreaker.isSome
  semaphore : t.limited = true → s.semaphore.isSome

/-- A step of a context, from and to a free lock of the breaker: permits and holders, and who
waits. -/
structure Steps (t : Task) (s : Manager) (r : Task × Manager) : Prop where
  free : r.2.Free
  id : r.1.id = t.id
  ok : r.1.Ok r.2
  breaker : s.circuitBreaker.isSome → r.2.circuitBreaker.isSome
  semaphore : s.semaphore.isSome → r.2.semaphore.isSome
  nodup : r.2.ids.Nodup
  ids : ∀ j ∈ r.2.ids, (j = t.id ∧ r.1.pc = .waiting) ∨ (j ≠ t.id ∧ j ∈ s.ids)
  permits : r.2.permits + (if r.1.holds then 1 else 0) + s.limit =
    s.permits + (if t.holds then 1 else 0) + r.2.limit

section Steps

variable {t t' : Task} {s s' : Manager} {r : Task × Manager} {ch : Choice} {now draw : ℚ}

/-- A step that goes on inside the `try` block, as a task `t'` on a manager `s'`. -/
theorem Goes.steps (goes : Goes t' s' r) (id : t'.id = t.id) (nodup : s'.ids.Nodup)
    (ids : ∀ j ∈ s'.ids, j ≠ t.id ∧ j ∈ s.ids)
    (semaphore : s.semaphore.isSome → s'.semaphore.isSome)
    (limited : t'.limited = true → s'.semaphore.isSome)
    (permits : s'.permits + (if t'.limited then 1 else 0) + s.limit =
      s.permits + (if t.holds then 1 else 0) + s'.limit) : Steps t s r := by
  have inside := goes.inside
  refine ⟨goes.free, goes.same.1.trans id, ?_, fun _ => goes.breaker, ?_, ?_, ?_, ?_⟩
  · refine ⟨.inr (.inr inside), fun h => ?_, fun h => ?_, fun _ _ => goes.breaker, fun h => ?_⟩
    · rw [h] at inside
      cases inside
    · rw [h] at inside
      cases inside
    · rw [goes.semaphore]
      exact limited (goes.same.2.symm.trans h)
  · rw [goes.semaphore]
    exact semaphore
  · rw [goes.ids]
    exact nodup
  · intro j mem
    rw [goes.ids] at mem
    exact .inr (ids j mem)
  · have := goes.permits
    have := goes.limit
    omega

theorem acquire_steps (limited : t.limited = false) (free : s'.Free)
    (breaker : s'.circuitBreaker.isSome) (there : s'.semaphore.isSome) (nodup : s.ids.Nodup)
    (absent : t.id ∉ s.ids) (ids : s'.ids = s.ids)
    (permits : s'.permits + s.limit = s.permits + s'.limit) :
    Steps t s (({ t with limited := true } : Task).acquire now draw s') := by
  obtain ⟨l, found⟩ := Option.isSome_iff_exists.mp there
  have holds : t.holds = false := by simp [Task.holds, limited]
  have same : s'.permits = l.semaphore.permits ∧ s'.ids = l.semaphore.ids := by
    simp [Manager.permits, Manager.ids, found]
  simp only [Task.acquire, found]
  cases taken : l.semaphore.tryAcquire with
  | some semaphore =>
    obtain ⟨count, none⟩ := Semaphore.tryAcquire_permits taken
    obtain ⟨set, waiters, limit⟩ : _ ∧ (s'.setSemaphore semaphore).ids = semaphore.ids ∧ _ :=
      Manager.permits_setSemaphore found
    have set_there : (s'.setSemaphore semaphore).semaphore.isSome := by
      simp [Manager.setSemaphore, found]
    have goes : Goes { t with limited := true } (s'.setSemaphore semaphore)
        (({ t with limited := true } : Task).call false now draw (s'.setSemaphore semaphore)) :=
      call_goes free breaker fun _ => set_there
    refine goes.steps rfl ?_ ?_ (fun _ => set_there) (fun _ => set_there) ?_
    · simp [waiters, none]
    · simp [waiters, none]
    · simp only [holds, if_true, Bool.false_eq_true, if_false]
      omega
  | none =>
    obtain ⟨count, more⟩ : (l.semaphore.park t.id).permits = l.semaphore.permits ∧ _ :=
      Semaphore.park_permits
    obtain ⟨set, waiters, limit⟩ :
        _ ∧ (s'.setSemaphore (l.semaphore.park t.id)).ids = (l.semaphore.park t.id).ids ∧ _ :=
      Manager.permits_setSemaphore found
    have set_there : (s'.setSemaphore (l.semaphore.park t.id)).semaphore.isSome := by
      simp [Manager.setSemaphore, found]
    have now_ids : (s'.setSemaphore (l.semaphore.park t.id)).ids = s.ids ++ [t.id] := by
      rw [waiters, more, ← same.2, ids]
    refine ⟨free, rfl, ?_, fun _ => breaker, fun _ => set_there, ?_, ?_, ?_⟩
    · exact ⟨.inr (.inl rfl), by rintro ⟨⟩, fun _ => rfl, fun _ _ => breaker, fun _ => set_there⟩
    · rw [now_ids]
      exact List.nodup_append.mpr ⟨nodup, by simp, by
        rintro a mem b here rfl
        exact absent (List.mem_singleton.mp here ▸ mem)⟩
    · intro j mem
      rw [now_ids] at mem
      rcases List.mem_append.mp mem with mem | mem
      · exact .inr ⟨fun eq => absent (eq ▸ mem), mem⟩
      · exact .inl ⟨List.mem_singleton.mp mem, rfl⟩
    · rw [holds]
      simp only [Task.holds, Bool.and_false, Bool.false_eq_true, if_false]
      omega

theorem enter_steps (limited : t.limited = false) (free : s.Free)
    (nodup : s.ids.Nodup) (absent : t.id ∉ s.ids) : Steps t s (t.enter now draw s) := by
  have free' : (s.getCircuitBreaker t.context.circuitBreakerConfig).Free :=
    Manager.getCircuitBreaker_free free
  have holds : t.holds = false := by simp [Task.holds, limited]
  have none : Steps t s (t.call false now draw
      (s.getCircuitBreaker t.context.circuitBreakerConfig)) := by
    refine Goes.steps (call_goes free' rfl (by simp [limited])) rfl nodup
      (fun j mem => ⟨fun eq => absent (eq ▸ mem), mem⟩) id (by simp [limited]) ?_
    simp only [limited, holds, Bool.false_eq_true, if_false]
    rfl
  simp only [Task.enter]
  split
  · exact none
  · split
    · exact none
    · split
      · refine ⟨free', rfl, ?_, fun _ => rfl, id, nodup, ?_, ?_⟩
        · exact ⟨.inr (.inr rfl), by rintro ⟨⟩, by rintro ⟨⟩, fun _ h => absurd rfl (h _),
            by simp [limited]⟩
        · exact fun j mem => .inr ⟨fun eq => absent (eq ▸ mem), mem⟩
        · simp only [Task.holds, limited, Bool.false_and]
          rfl
      · rename_i got
        obtain ⟨breaker, there, ids, permits⟩ := Manager.getSemaphore_some got
        refine acquire_steps limited ?_ ?_ there nodup absent ids permits
        · simpa only [Manager.Free, breaker] using free'
        · rw [breaker]
          rfl

/-- A waiter that is given a permit. -/
theorem wake_steps {l : Limited} {semaphore : Semaphore} (waiting : t.pc = .waiting)
    (ok : t.Ok s) (free : s.Free) (nodup : s.ids.Nodup) (found : s.semaphore = some l)
    (woken : l.semaphore.wake t.id = some semaphore) :
    Steps t s (t.call false now draw (s.setSemaphore semaphore)) := by
  have limited := ok.waiting waiting
  have holds : t.holds = false := by simp [Task.holds, waiting]
  have same : s.permits = l.semaphore.permits ∧ s.ids = l.semaphore.ids := by
    simp [Manager.permits, Manager.ids, found]
  obtain ⟨count, rest⟩ := Semaphore.wake_permits (same.2 ▸ nodup) woken
  obtain ⟨set, waiters, limit⟩ : _ ∧ (s.setSemaphore semaphore).ids = semaphore.ids ∧ _ :=
    Manager.permits_setSemaphore found
  have set_there : (s.setSemaphore semaphore).semaphore.isSome := by
    simp [Manager.setSemaphore, found]
  have goes : Goes t (s.setSemaphore semaphore)
      (t.call false now draw (s.setSemaphore semaphore)) :=
    call_goes free (ok.breaker (by simp [waiting]) (by simp [waiting])) fun _ => set_there
  rw [rest, ← same.2] at waiters
  refine goes.steps rfl ?_ ?_ (fun _ => set_there) (fun _ => set_there) ?_
  · rw [waiters]
    exact nodup.filter _
  · intro j mem
    rw [waiters, List.mem_filter, bne_iff_ne] at mem
    exact mem.symm
  · simp only [holds, limited, if_true, Bool.false_eq_true, if_false]
    omega

/-- A step from inside the `try` block. -/
theorem inside_steps (inside : t.pc.inside = true) (unready : ∀ out, t.pc ≠ .left out)
    (nodup : s.ids.Nodup) (absent : t.id ∉ s.ids) (goes : Goes t s r) (ok : t.Ok s) :
    Steps t s r := by
  have holds : t.holds = t.limited := by
    cases pc : t.pc with
    | left out => exact absurd pc (unready out)
    | _ => simp_all [Task.holds, Pc.inside]
  refine goes.steps rfl nodup (fun j mem => ⟨fun eq => absent (eq ▸ mem), mem⟩) id ok.semaphore ?_
  rw [holds]

/-- A context without a semaphore that is cancelled. -/
theorem stop_steps (limited : t.limited = false) (free : s.Free) (nodup : s.ids.Nodup)
    (absent : t.id ∉ s.ids) : Steps t s ({ t with pc := .left .cancelled }, s) := by
  refine ⟨free, rfl, ?_, id, id, nodup, ?_, ?_⟩
  · exact ⟨.inr (.inr rfl), by rintro ⟨⟩, by rintro ⟨⟩, fun _ h => absurd rfl (h _),
      by simp [limited]⟩
  · exact fun j mem => .inr ⟨fun eq => absent (eq ▸ mem), mem⟩
  · simp [Task.holds, limited]

theorem free_countTimeout (free : s.Free) :
    (s.onLock fun g => { g with data := g.data.countTimeout }).Free := by
  intro g found
  obtain ⟨g, there, rfl⟩ := Option.map_eq_some_iff.mp found
  exact free g there

/-- The context is cancelled neither while it waits for the semaphore nor, with a semaphore, while
it awaits its `release_func`. -/
def Task.Undisturbed (t : Task) (ch : Choice) : Prop :=
  ch = .cancel → t.pc ≠ .waiting ∧ (t.pc.releases = true → t.limited = false)

instance (t : Task) (ch : Choice) : Decidable (t.Undisturbed ch) :=
  inferInstanceAs (Decidable (_ → _ ∧ _))

theorem resume_steps (ok : t.Ok s) (free : s.Free) (nodup : s.ids.Nodup)
    (waits : t.id ∈ s.ids → t.pc = .waiting) (undisturbed : t.Undisturbed ch)
    (ran : t.resume s ch = some r) : Steps t s r := by
  have absent (h : t.pc ≠ .waiting) : t.id ∉ s.ids := fun mem => h (waits mem)
  cases pc : t.pc with
  | ready =>
    have absent := absent (by simp [pc])
    have limited := ok.ready pc
    cases ch with
    | go now draw =>
      simp only [Task.resume, pc] at ran
      cases ran
      exact enter_steps limited free nodup absent
    | cancel =>
      simp only [Task.resume, Task.cancel, pc] at ran
      cases ran
      exact stop_steps limited free nodup absent
    | _ => simp [Task.resume, pc] at ran
  | waiting =>
    cases ch with
    | go now draw =>
      simp only [Task.resume, pc] at ran
      obtain ⟨l, found, ran⟩ := Option.bind_eq_some_iff.mp ran
      obtain ⟨semaphore, woken, rfl⟩ := Option.map_eq_some_iff.mp ran
      exact wake_steps pc ok free nodup found woken
    | cancel => exact absurd pc (undisturbed rfl).1
    | _ => simp [Task.resume, pc] at ran
  | acquiring =>
    have absent := absent (by simp [pc])
    have breaker := ok.breaker (by simp [pc]) (by simp [pc])
    cases ch with
    | acquired got now =>
      simp only [Task.resume, pc] at ran
      have goes : Goes t s r := by
        split at ran
        · cases ran
          exact { settle_goes (free_countTimeout free) (by simpa [Manager.onLock] using breaker)
            ok.semaphore with }
        · cases ran
          exact settle_goes free breaker ok.semaphore
      exact inside_steps (by simp [pc, Pc.inside]) (by simp [pc]) nodup absent goes ok
    | _ => simp [Task.resume, Task.cancel, pc] at ran
  | body resource =>
    have absent := absent (by simp [pc])
    have breaker := ok.breaker (by simp [pc]) (by simp [pc])
    cases ch with
    | finish out =>
      simp only [Task.resume, pc] at ran
      cases ran
      exact inside_steps (by simp [pc, Pc.inside]) (by simp [pc]) nodup absent
        (final_goes free breaker ok.semaphore) ok
    | _ => simp [Task.resume, Task.cancel, pc] at ran
  | releasing out =>
    have absent := absent (by simp [pc])
    cases ch with
    | released =>
      simp only [Task.resume, pc] at ran
      cases ran
      have breaker := ok.breaker (by simp [pc]) (by simp [pc])
      exact inside_steps (by simp [pc, Pc.inside]) (by simp [pc]) nodup absent
        (leave_goes free breaker ok.semaphore) ok
    | cancel =>
      have limited := (undisturbed rfl).2 (by simp [pc, Pc.releases])
      simp only [Task.resume, Task.cancel, pc] at ran
      cases ran
      exact stop_steps limited free nodup absent
    | _ => simp [Task.resume, pc] at ran
  | left out => cases ch <;> simp [Task.resume, Task.cancel, pc] at ran
  | _ => simpa [pc, Pc.inside] using ok.calm

end Steps

/-- The lock of the breaker is free, the waiters are the contexts that wait, and every permit is
free, given to a waiter or with a holder. -/
structure Balanced (s : ManagerSystem) : Prop where
  free : s.shared.Free
  id : ∀ i (t : Task), s.tasks[i]? = some t → t.id = i
  ok : ∀ t ∈ s.tasks, t.Ok s.shared
  nodup : s.shared.ids.Nodup
  waits : ∀ i ∈ s.shared.ids, ∃ t : Task, s.tasks[i]? = some t ∧ t.pc = .waiting
  permits : s.shared.permits + s.count Task.holds = s.shared.limit

theorem Balanced.start {s : ManagerSystem} (bal : Balanced s) (context : Context) :
    Balanced (s.add (machine.enter s.tasks.length context)) := by
  refine ⟨bal.free, ?_, ?_, bal.nodup, ?_, ?_⟩
  · intro i t task
    rcases System.getElem?_add task with ⟨rfl, rfl⟩ | task
    · rfl
    · exact bal.id i t task
  · intro t mem
    rcases List.mem_append.mp mem with mem | mem
    · exact bal.ok t mem
    · rw [List.mem_singleton.mp mem]
      exact ⟨.inl rfl, fun _ => rfl, by rintro ⟨⟩, fun h => absurd rfl h, by rintro ⟨⟩⟩
  · intro i mem
    obtain ⟨t, task, waiting⟩ := bal.waits i mem
    exact ⟨t, System.getElem?_add_of_some task, waiting⟩
  · simpa [machine, Task.holds] using bal.permits

theorem Balanced.step {s : ManagerSystem} {i : Nat} {t : Task} {r : Task × Manager}
    (bal : Balanced s) (task : s.tasks[i]? = some t) (steps : Steps t s.shared r) :
    Balanced (s.put i r.1 r.2) := by
  have id := bal.id i t task
  refine ⟨steps.free, ?_, ?_, steps.nodup, ?_, ?_⟩
  · intro j u there
    rw [System.getElem?_put task] at there
    split at there
    · cases there
      rw [steps.id, id, ‹i = j›]
    · exact bal.id j u there
  · intro u mem
    obtain ⟨j, there⟩ := List.mem_iff_getElem?.mp mem
    rw [System.getElem?_put task] at there
    split at there
    · cases there
      exact steps.ok
    · have ok := bal.ok u (List.mem_of_getElem? there)
      exact { ok with
        breaker := fun h h' => steps.breaker (ok.breaker h h')
        semaphore := fun h => steps.semaphore (ok.semaphore h) }
  · intro j mem
    rcases steps.ids j mem with ⟨rfl, waiting⟩ | ⟨other, mem⟩
    · exact ⟨r.1, by rw [System.getElem?_put task, if_pos id.symm], waiting⟩
    · obtain ⟨u, there, waiting⟩ := bal.waits j mem
      refine ⟨u, ?_, waiting⟩
      rw [System.getElem?_put task, if_neg (fun eq : i = j => other (eq ▸ id.symm)), there]
  · have counted : (s.put i r.1 r.2).count Task.holds + (if t.holds then 1 else 0) =
        s.count Task.holds + (if r.1.holds then 1 else 0) := System.count_put task
    have := steps.permits
    have := bal.permits
    rw [System.shared_put]
    omega

/-- No context is cancelled while it waits for the semaphore or, with a semaphore, while it awaits
its `release_func`. -/
def Undisturbed (s : ManagerSystem) : Machine.Act Context Choice → Prop
  | .start _ => True
  | .resume i ch => s.At i (·.Undisturbed ch)

theorem balanced_of_reach {s : ManagerSystem}
    (reach : machine.Reach (· = Manager.initial) Undisturbed s) : Balanced s := by
  refine reach.invariant ?_ ?_ ?_
  · rintro sh rfl
    exact ⟨by rintro _ ⟨⟩, by simp, by simp, List.nodup_nil, by simp [Manager.ids, Manager.initial],
      rfl⟩
  · exact fun s context bal _ => bal.start context
  · intro s i ch t t' sh bal undisturbed task ran
    refine bal.step task (resume_steps (bal.ok t (List.mem_of_getElem? task)) bal.free bal.nodup
      (fun mem => ?_) (undisturbed t task) ran)
    rw [bal.id i t task] at mem
    obtain ⟨u, there, waiting⟩ := bal.waits i mem
    rw [task] at there
    cases there
    exact waiting

/-- Never more holders than the limit, and the value is the limit when all contexts have been
left. -/
structure Limits (s : ManagerSystem) (l : Limited) : Prop where
  holders : s.count Task.holds ≤ l.limit
  value : (∀ t ∈ s.tasks, ∃ out, t.pc = .left out) → l.semaphore.value = l.limit

theorem limits_of_reach {s : ManagerSystem}
    (reach : machine.Reach (· = Manager.initial) Undisturbed s) {l : Limited}
    (there : s.shared.semaphore = some l) : Limits s l := by
  have bal := balanced_of_reach reach
  have permits : l.semaphore.permits + s.count Task.holds = l.limit := by
    simpa [Manager.permits, Manager.limit, there] using bal.permits
  constructor
  · omega
  · intro left
    have none : s.count Task.holds = 0 := by
      refine List.countP_eq_zero.mpr fun t mem => ?_
      obtain ⟨out, pc⟩ := left t mem
      simp [Task.holds, pc]
    have waiters : l.semaphore.waiters = [] := by
      have : s.shared.ids = [] := by
        refine List.eq_nil_iff_forall_not_mem.mpr fun i mem => ?_
        obtain ⟨t, task, waiting⟩ := bal.waits i mem
        obtain ⟨out, pc⟩ := left t (List.mem_of_getElem? task)
        cases waiting.symm.trans pc
      simpa [Manager.ids, Semaphore.ids, there] using this
    simpa [Semaphore.permits, waiters, none] using permits

instance (s : ManagerSystem) :
    (a : Machine.Act Context Choice) → Decidable (Undisturbed s a)
  | .start _ => inferInstanceAs (Decidable True)
  | .resume i _ => inferInstanceAs (Decidable (s.At i _))

/-- A context with a semaphore of one permit, and no other settings of its own. -/
def Context.single (releaseFunc : ReleaseFunc) : Context :=
  ⟨releaseFunc, none, some 1⟩

/-- One context waits while another is in its body and its `release_func`; in the end both have been
left. -/
theorem limits_handed_on : ∃ s l, s.shared.semaphore = some l ∧ Limits s l ∧
    s.tasks.map (·.pc) = [.left .raised, .left .returned] := by
  obtain ⟨s, reach, pcs⟩ : ∃ s, machine.Reach (· = Manager.initial) Undisturbed s ∧
      decide (s.shared.semaphore = some ⟨1, 1, []⟩ ∧
        s.tasks.map (·.pc) = [.left .raised, .left .returned]) = true :=
    Machine.Reach.of_run (fun s a => decide (Undisturbed s a)) _
      [.start (.single .coroutine), .start (.single .absent), .resume 0 (.go 0 0),
        .resume 1 (.go 0 0), .resume 0 (.acquired (.resource true) 1), .resume 0 (.finish .raised),
        .resume 0 .released, .resume 1 (.go 2 0), .resume 1 (.acquired (.resource true) 3),
        .resume 1 (.finish .returned)]
      (fun _ _ => of_decide_eq_true) (by decide +kernel)
  obtain ⟨there, left⟩ := of_decide_eq_true pcs
  exact ⟨s, _, there, limits_of_reach reach there, left⟩

/-- A context that is cancelled while it waits lets two others hold the one permit. -/
theorem not_limits_cancelled : ¬ ∀ (s : ManagerSystem) (l : Limited),
    machine.Reach (· = Manager.initial) Machine.Free s → s.shared.semaphore = some l →
      Limits s l := by
  intro limits
  obtain ⟨s, reach, held⟩ : ∃ s, machine.Reach (· = Manager.initial) Machine.Free s ∧
      decide (s.shared.semaphore = some ⟨1, 0, []⟩ ∧ s.count Task.holds = 2) = true :=
    Machine.Reach.of_run (fun _ _ => true) _
      [.start (.single .absent), .start (.single .absent), .start (.single .absent),
        .resume 0 (.go 0 0), .resume 1 (.go 0 0), .resume 1 .cancel, .resume 2 (.go 0 0)]
      (fun _ _ _ => trivial) (by decide +kernel)
  obtain ⟨there, two⟩ := of_decide_eq_true held
  have : 2 ≤ 1 := two ▸ (limits s _ reach there).holders
  omega

end ManagedResource

end OmniMemory
