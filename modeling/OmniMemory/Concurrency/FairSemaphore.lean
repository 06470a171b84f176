import OmniMemory.Asyncio
import OmniMemory.Lib.Machine

/-! `FairSemaphore` and its statistics. A task is an acquire context; its bookkeeping is done in
four sections under `_lock`: on entering, when it has its permit, when a `TimeoutError` comes up,
and at the end. A `TimeoutError` is counted as the end of a wait wherever it comes from, and a wait
that is cancelled is not counted, so `waiting_count` is off by exactly these two kinds of exits. -/

namespace OmniMemory

open Interleave Asyncio

namespace FairSemaphore

inductive Outcome where
  | returned
  | timeoutError
  | raised
  | cancelled
deriving DecidableEq

/-- `SemaphoreStats`, as far as it counts. -/
structure SemaphoreStats where
  totalPermits : Int
  availablePermits : Int
  waitingCount : Int
  totalAcquisitions : Nat
  totalReleases : Nat
  totalTimeouts : Nat

/-- The attributes of a `FairSemaphore` besides `_lock`. -/
structure Data where
  semaphore : Semaphore
  totalPermits : Nat
  activeHolders : List Nat
  stats : SemaphoreStats

abbrev State := Guarded Data

def State.initial (value : Nat) : State :=
  ⟨.free, ⟨⟨value, []⟩, value, [], ⟨value, value, 0, 0, 0, 0⟩⟩⟩

/-- Where a task is suspended. -/
inductive Pc where
  | ready
  /-- for `_lock`, to be counted as waiting -/
  | enterLock
  /-- in `_semaphore.acquire` -/
  | waiting
  /-- for `_lock`, to be counted as a holder -/
  | acquiredLock
  | body
  /-- for `_lock`, in `except TimeoutError` -/
  | timeoutLock (acquired : Bool)
  /-- for `_lock`, in `finally` -/
  | finalLock (out : Outcome)
  | left (acquired : Bool) (out : Outcome)
  /-- cancelled before `acquire` began -/
  | never
deriving DecidableEq

/-- An acquire context; `holderId` is its position. -/
structure Task where
  holderId : Nat
  timeout : Option Int
  pc : Pc

/-- What the surroundings choose: that the task goes on, that its timeout fires, that it is
cancelled, or how the body ends. -/
inductive Choice where
  | go
  | timeout
  | cancel
  | finish (out : Outcome)
deriving DecidableEq

/-- The first section: one more task waits. -/
def Data.enter (d : Data) : Data :=
  { d with stats := { d.stats with waitingCount := d.stats.waitingCount + 1 } }

/-- The second section: the task holds a permit. -/
def Data.hold (holderId : Nat) (d : Data) : Data :=
  { d with
    activeHolders := d.activeHolders ++ [holderId]
    stats := { d.stats with
      waitingCount := d.stats.waitingCount - 1
      availablePermits := d.stats.availablePermits - 1
      totalAcquisitions := d.stats.totalAcquisitions + 1 } }

/-- The section of `except TimeoutError`. -/
def Data.timedOut (d : Data) : Data :=
  { d with stats := { d.stats with
      waitingCount := d.stats.waitingCount - 1
      totalTimeouts := d.stats.totalTimeouts + 1 } }

/-- The section of `finally`. -/
def Data.release (holderId : Nat) (d : Data) : Data :=
  { d with
    activeHolders := d.activeHolders.filter (· != holderId)
    stats := { d.stats with
      availablePermits := d.stats.availablePermits + 1
      totalReleases := d.stats.totalReleases + 1 } }

def setSemaphore (s : State) (semaphore : Semaphore) : State :=
  { s with data := { s.data with semaphore } }

/-- `finally`. -/
def final (holderId : Nat) (acquired : Bool) (out : Outcome) (waited : Bool) (s : State) :
    Pc × State :=
  if acquired then
    match s.withLock? holderId waited fun d => ((), d.release holderId) with
    | none => (.finalLock out, s.park holderId waited)
    | some (_, s) => (.left true out, setSemaphore s s.data.semaphore.release)
  else (.left false out, s)

/-- The `try` block ends with `out`. -/
def leave (holderId : Nat) (acquired : Bool) (out : Outcome) (waited : Bool) (s : State) :
    Pc × State :=
  if out = .timeoutError then
    match s.withLock? holderId waited fun d => ((), d.timedOut) with
    | none => (.timeoutLock acquired, s.park holderId waited)
    | some (_, s) => final holderId acquired out false s
  else final holderId acquired out false s

/-- From where the permit is there to the body. -/
def hold (holderId : Nat) (waited : Bool) (s : State) : Pc × State :=
  match s.withLock? holderId waited fun d => ((), d.hold holderId) with
  | none => (.acquiredLock, s.park holderId waited)
  | some (_, s) => (.body, s)

/-- `_semaphore.acquire`, under `wait_for` when there is a timeout. With a negative timeout
`wait_for` does not start to wait. -/
def wait (holderId : Nat) (timeout : Option Int) (s : State) : Pc × State :=
  if timeout.any (· < 0) then (.waiting, s)
  else
    match s.data.semaphore.tryAcquire with
    | some semaphore => hold holderId false (setSemaphore s semaphore)
    | none => (.waiting, setSemaphore s (s.data.semaphore.park holderId))

def enter (holderId : Nat) (timeout : Option Int) (waited : Bool) (s : State) : Pc × State :=
  match s.withLock? holderId waited fun d => ((), d.enter) with
  | none => (.enterLock, s.park holderId waited)
  | some (_, s) => wait holderId timeout s

/-- What a task does next. A timeout of 0 counts as none. -/
def resume (holderId : Nat) (timeout : Option Int) : Pc → Choice → State → Option (Pc × State)
  | .ready, .go, s => some (enter holderId timeout false s)
  | .ready, .cancel, s => some (.never, s)
  | .enterLock, .go, s =>
    if (s.lock.wake holderId).isSome then some (enter holderId timeout true s) else none
  | .enterLock, .cancel, s => some (final holderId false .cancelled false (s.abandon holderId))
  | .waiting, .go, s =>
    (s.data.semaphore.wake holderId).map fun semaphore =>
      hold holderId false (setSemaphore s semaphore)
  | .waiting, .timeout, s =>
    if timeout.any (· ≠ 0) then
      some (leave holderId false .timeoutError false
        (setSemaphore s (s.data.semaphore.abandon holderId)))
    else none
  | .waiting, .cancel, s =>
    some (leave holderId false .cancelled false
      (setSemaphore s (s.data.semaphore.abandon holderId)))
  | .acquiredLock, .go, s =>
    if (s.lock.wake holderId).isSome then some (hold holderId true s) else none
  | .acquiredLock, .cancel, s => some (final holderId true .cancelled false (s.abandon holderId))
  | .body, .finish out, s => some (leave holderId true out false s)
  | .timeoutLock acquired, .go, s =>
    if (s.lock.wake holderId).isSome then some (leave holderId acquired .timeoutError true s)
    else none
  | .timeoutLock acquired, .cancel, s =>
    some (final holderId acquired .cancelled false (s.abandon holderId))
  | .finalLock out, .go, s =>
    if (s.lock.wake holderId).isSome then some (final holderId true out true s) else none
  | .finalLock _, .cancel, s => some (.left true .cancelled, s.abandon holderId)
  | _, _, _ => none

/-- Any number of acquire contexts on one `FairSemaphore`. -/
def machine : Machine State Task (Option Int) Choice where
  enter i timeout := ⟨i, timeout, .ready⟩
  resume _ ch t s := (resume t.holderId t.timeout t.pc ch s).map fun (pc, s) =>
    (⟨t.holderId, t.timeout, pc⟩, s)

abbrev SemaphoreSystem := System State Task

def Pc.atLock : Pc → Bool
  | enterLock | acquiredLock | timeoutLock _ | finalLock _ => true
  | _ => false

def Pc.waits : Pc → Bool
  | waiting => true
  | _ => false

def Pc.holds : Pc → Bool
  | body => true
  | _ => false

def Pc.cancelledWait : Pc → Bool
  | left false .cancelled => true
  | _ => false

def Pc.bodyTimeout : Pc → Bool
  | left true .timeoutError => true
  | _ => false

section Steps

variable {holderId : Nat} {timeout : Option Int} {pc pc' : Pc} {ch : Choice} {d d' : Data}
  {s : State} {out : Outcome}

/-- What a task counts for in `waiting_count`. -/
def Pc.owes (pc : Pc) : Int :=
  (if pc.waits then 1 else 0) + (if pc.cancelledWait then 1 else 0) -
    (if pc.bodyTimeout then 1 else 0)

/-- What a task counts for in `available_permits`. -/
def Pc.uses (pc : Pc) : Int := if pc.holds then 1 else 0

/-- The bookkeeping of a step: the counters change as the task's place does. -/
structure Booked (pc : Pc) (d : Data) (pc' : Pc) (d' : Data) : Prop where
  waiting : d'.stats.waitingCount + pc.owes = d.stats.waitingCount + pc'.owes
  available : d'.stats.availablePermits + pc'.uses = d.stats.availablePermits + pc.uses
  total : d'.totalPermits = d.totalPermits ∧ d'.stats.totalPermits = d.stats.totalPermits

/-- A step of a task that does not wait for `_lock`, from a free `_lock`. -/
structure Steps (pc : Pc) (d : Data) (r : Pc × State) : Prop where
  free : r.2.lock = .free
  calm : r.1.atLock = false
  booked : Booked pc d r.1 r.2.data

theorem hold_waits {semaphore : Semaphore} :
    Steps .waiting d (hold holderId false (setSemaphore ⟨.free, d⟩ semaphore)) := by
  refine ⟨rfl, rfl, ?_, ?_, rfl, rfl⟩
  · show d.stats.waitingCount - 1 + 1 = d.stats.waitingCount + 0
    omega
  · show d.stats.availablePermits - 1 + 1 = d.stats.availablePermits + 0
    omega

theorem enter_ready : Steps .ready d (enter holderId timeout false ⟨.free, d⟩) := by
  simp only [enter, Guarded.withLock?_free, wait]
  split
  · exact ⟨rfl, rfl, Int.add_zero _, rfl, rfl, rfl⟩
  · split
    · refine ⟨rfl, rfl, ?_, ?_, rfl, rfl⟩
      · show d.stats.waitingCount + 1 - 1 + 0 = d.stats.waitingCount + 0
        omega
      · show d.stats.availablePermits - 1 + 1 = d.stats.availablePermits + 0
        omega
    · exact ⟨rfl, rfl, Int.add_zero _, rfl, rfl, rfl⟩

theorem timeout_waits {semaphore : Semaphore} : Steps .waiting d
    (leave holderId false .timeoutError false (setSemaphore ⟨.free, d⟩ semaphore)) := by
  refine ⟨rfl, rfl, ?_, rfl, rfl, rfl⟩
  show d.stats.waitingCount - 1 + 1 = d.stats.waitingCount + 0
  omega

theorem leave_holds : Steps .body d (leave holderId true out false ⟨.free, d⟩) := by
  cases out with
  | timeoutError =>
    refine ⟨rfl, rfl, ?_, ?_, rfl, rfl⟩
    · show d.stats.waitingCount - 1 + 0 = d.stats.waitingCount + -1
      omega
    · show d.stats.availablePermits + 1 + 0 = d.stats.availablePermits + 1
      omega
  | _ =>
    refine ⟨rfl, rfl, rfl, ?_, rfl, rfl⟩
    show d.stats.availablePermits + 1 + 0 = d.stats.availablePermits + 1
    omega

/-- Every step of a task that does not wait for `_lock`, from a free `_lock`. -/
theorem resume_steps {r : Pc × State} (calm : pc.atLock = false)
    (ran : resume holderId timeout pc ch ⟨.free, d⟩ = some r) : Steps pc d r := by
  cases pc with
  | ready =>
    cases ch with
    | go => cases ran; exact enter_ready
    | cancel => cases ran; exact ⟨rfl, rfl, rfl, rfl, rfl, rfl⟩
    | timeout => cases ran
    | finish out => cases ran
  | waiting =>
    cases ch with
    | go =>
      obtain ⟨semaphore, -, rfl⟩ := Option.map_eq_some_iff.mp ran
      exact hold_waits
    | timeout =>
      simp only [resume] at ran
      split at ran
      · cases ran
        exact timeout_waits
      · cases ran
    | cancel => cases ran; exact ⟨rfl, rfl, rfl, rfl, rfl, rfl⟩
    | finish out => cases ran
  | body =>
    cases ch with
    | finish out => cases ran; exact leave_holds
    | _ => cases ran
  | left acquired out => cases ch <;> cases ran
  | never => cases ch <;> cases ran
  | _ => cases calm

/-- A step that neither cancels a wait nor ends a body by `TimeoutError` leads to no such exit. -/
theorem resume_clean {r : Pc × State} (calm : pc.atLock = false)
    (ran : resume holderId timeout pc ch ⟨.free, d⟩ = some r)
    (waits : ¬ (pc = .waiting ∧ ch = .cancel)) (body : ¬ (pc = .body ∧ ch = .finish .timeoutError)) :
    r.1.cancelledWait = false ∧ r.1.bodyTimeout = false := by
  cases pc with
  | ready =>
    cases ch with
    | go =>
      cases ran
      simp only [enter, Guarded.withLock?_free, wait]
      split
      · exact ⟨rfl, rfl⟩
      · split <;> exact ⟨rfl, rfl⟩
    | cancel => cases ran; exact ⟨rfl, rfl⟩
    | timeout => cases ran
    | finish out => cases ran
  | waiting =>
    cases ch with
    | go =>
      obtain ⟨semaphore, -, rfl⟩ := Option.map_eq_some_iff.mp ran
      exact ⟨rfl, rfl⟩
    | timeout =>
      simp only [resume] at ran
      split at ran
      · cases ran
        exact ⟨rfl, rfl⟩
      · cases ran
    | cancel => exact absurd ⟨rfl, rfl⟩ waits
    | finish out => cases ran
  | body =>
    cases ch with
    | finish out =>
      cases ran
      cases out with
      | timeoutError => exact absurd ⟨rfl, rfl⟩ body
      | _ => exact ⟨rfl, rfl⟩
    | _ => cases ran
  | left acquired out => cases ch <;> cases ran
  | never => cases ch <;> cases ran
  | _ => cases calm

end Steps

def countAt (s : SemaphoreSystem) (p : Pc → Bool) : Nat := s.count fun t => p t.pc

/-- `_lock` is free, no task waits for it, and the counters are off by the waits that were cancelled
and the timeouts that bodies raised. -/
structure Balanced (permits : Nat) (s : SemaphoreSystem) : Prop where
  free : s.shared.lock = .free
  calm : ∀ t ∈ s.tasks, t.pc.atLock = false
  waiting : s.shared.data.stats.waitingCount =
    (countAt s Pc.waits : Int) + countAt s Pc.cancelledWait - countAt s Pc.bodyTimeout
  available : s.shared.data.stats.availablePermits = permits - (countAt s Pc.holds : Int)
  total : s.shared.data.totalPermits = permits ∧ s.shared.data.stats.totalPermits = permits

/-- The systems that any interleaving of acquire contexts reaches, on a semaphore of `permits`, when
every step meets `ok`. -/
abbrev Reachable (permits : Nat)
    (ok : SemaphoreSystem → Machine.Act (Option Int) Choice → Prop) (s : SemaphoreSystem) : Prop :=
  machine.Reach (· = State.initial permits) ok s

theorem Balanced.step {permits : Nat} {s : SemaphoreSystem} {i : Nat} {t : Task} {r : Pc × State}
    (bal : Balanced permits s) (task : s.tasks[i]? = some t) (steps : Steps t.pc s.shared.data r) :
    Balanced permits (s.put i ⟨t.holderId, t.timeout, r.1⟩ r.2) := by
  have moved (p : Pc → Bool) :
      (countAt (s.put i ⟨t.holderId, t.timeout, r.1⟩ r.2) p : Int) + (if p t.pc then 1 else 0) =
        countAt s p + (if p r.1 then 1 else 0) := by
    have counted : countAt (s.put i ⟨t.holderId, t.timeout, r.1⟩ r.2) p +
        (if p t.pc then 1 else 0) = countAt s p + (if p r.1 then 1 else 0) :=
      System.count_put task
    cases here : p t.pc <;> cases there : p r.1
    all_goals
      simp only [here, there, if_true, if_false, Bool.false_eq_true] at counted ⊢
      omega
  have booked := steps.booked
  have waits := moved Pc.waits
  have cancelled := moved Pc.cancelledWait
  have timeouts := moved Pc.bodyTimeout
  have holders := moved Pc.holds
  refine ⟨steps.free, ?_, ?_, ?_, ?_, ?_⟩
  · intro u mem
    obtain ⟨j, there⟩ := List.mem_iff_getElem?.mp mem
    rw [System.getElem?_put task] at there
    split at there
    · cases there
      exact steps.calm
    · exact bal.calm u (List.mem_of_getElem? there)
  · have := booked.waiting
    have := bal.waiting
    simp only [Pc.owes, System.shared_put] at *
    omega
  · have := booked.available
    have := bal.available
    simp only [Pc.uses, System.shared_put] at *
    omega
  · exact booked.total.1.trans bal.total.1
  · exact booked.total.2.trans bal.total.2

/-- In every reachable state, whatever times out, is cancelled or raises, and when. -/
theorem balanced_of_reach {permits : Nat} {s : SemaphoreSystem}
    {ok : SemaphoreSystem → Machine.Act (Option Int) Choice → Prop}
    (reach : Reachable permits ok s) : Balanced permits s := by
  refine reach.invariant ?_ ?_ ?_
  · rintro sh rfl
    exact ⟨rfl, by simp, rfl, (Int.sub_zero _).symm, rfl, rfl⟩
  · intro s a bal _
    have same (p : Pc → Bool) (other : p .ready = false) :
        countAt (s.add (machine.enter s.tasks.length a)) p = countAt s p := by
      simp [countAt, machine, other]
    refine ⟨bal.free, ?_, ?_, ?_, bal.total⟩
    · intro t mem
      rcases List.mem_append.mp mem with mem | mem
      · exact bal.calm t mem
      · rw [List.mem_singleton.mp mem]
        rfl
    · rw [same _ rfl, same _ rfl, same _ rfl]
      exact bal.waiting
    · rw [same _ rfl]
      exact bal.available
  · rintro ⟨⟨lock, data⟩, tasks⟩ i ch t t' sh bal _ task ran
    obtain rfl : lock = .free := bal.free
    obtain ⟨r, resumed, same⟩ := Option.map_eq_some_iff.mp ran
    cases same
    exact bal.step task (resume_steps (bal.calm _ (List.mem_of_getElem? task)) resumed)

/-- No wait is cancelled, and no body raises `TimeoutError`. -/
def Calm (s : SemaphoreSystem) : Machine.Act (Option Int) Choice → Prop
  | .start _ => True
  | .resume i ch => s.At i fun t =>
      ¬ (t.pc = .waiting ∧ ch = .cancel) ∧ ¬ (t.pc = .body ∧ ch = .finish .timeoutError)

instance (s : SemaphoreSystem) : (a : Machine.Act (Option Int) Choice) → Decidable (Calm s a)
  | .start _ => inferInstanceAs (Decidable True)
  | .resume i _ => inferInstanceAs (Decidable (s.At i _))

theorem clean_of_reach {permits : Nat} {s : SemaphoreSystem} (reach : Reachable permits Calm s) :
    ∀ t ∈ s.tasks, t.pc.cancelledWait = false ∧ t.pc.bodyTimeout = false := by
  induction reach with
  | init start => simp
  | @step s s' a reach met next ih =>
    have bal := balanced_of_reach reach
    intro u mem
    obtain ⟨j, there⟩ := List.mem_iff_getElem?.mp mem
    cases a with
    | start a =>
      cases next
      rcases System.getElem?_add there with ⟨-, rfl⟩ | there
      · exact ⟨rfl, rfl⟩
      · exact ih u (List.mem_of_getElem? there)
    | resume i ch =>
      obtain ⟨t, t', sh, task, ran, rfl⟩ := Machine.next_resume.mp next
      rw [System.getElem?_put task] at there
      split at there
      · cases there
        obtain ⟨r, resumed, same⟩ := Option.map_eq_some_iff.mp ran
        cases same
        obtain ⟨⟨lock, data⟩, tasks⟩ := s
        obtain rfl : lock = .free := bal.free
        obtain ⟨waits, body⟩ := met t task
        exact resume_clean (bal.calm _ (List.mem_of_getElem? task)) resumed waits body
      · exact ih u (List.mem_of_getElem? there)

/-- The statistics tell how many tasks wait for a permit, and how many permits nobody holds. -/
structure Told (s : SemaphoreSystem) : Prop where
  waiting : s.shared.data.stats.waitingCount = (countAt s Pc.waits : Int)
  available : s.shared.data.stats.availablePermits =
    s.shared.data.stats.totalPermits - (countAt s Pc.holds : Int)

/-- When no wait is cancelled and no body raises `TimeoutError`, the statistics are right in every
reachable state. -/
theorem told_of_reach {permits : Nat} {s : SemaphoreSystem} (reach : Reachable permits Calm s) :
    Told s := by
  have bal := balanced_of_reach reach
  have clean := clean_of_reach reach
  have cancelled : countAt s Pc.cancelledWait = 0 :=
    List.countP_eq_zero.mpr fun t mem => by simp [(clean t mem).1]
  have timeouts : countAt s Pc.bodyTimeout = 0 :=
    List.countP_eq_zero.mpr fun t mem => by simp [(clean t mem).2]
  refine ⟨?_, ?_⟩
  · have := bal.waiting
    omega
  · rw [bal.available, bal.total.2]

/-- One permit: a holder, a task that waits, and one whose wait timed out. -/
theorem told_contended : ∃ s : SemaphoreSystem,
    s.tasks.map (·.pc) = [.body, .waiting, .left false .timeoutError] ∧ Told s := by
  obtain ⟨s, reach, pcs⟩ : ∃ s, Reachable 1 Calm s ∧
      decide (s.tasks.map (·.pc) = [.body, .waiting, .left false .timeoutError]) = true :=
    Machine.Reach.of_run (fun s a => decide (Calm s a)) _
      [.start none, .resume 0 .go, .start none, .resume 1 .go, .start (some 3), .resume 2 .go,
        .resume 2 .timeout]
      (fun _ _ => of_decide_eq_true) (by decide +kernel)
  exact ⟨s, of_decide_eq_true pcs, told_of_reach reach⟩

/-- A body that raises `TimeoutError` leaves `waiting_count` below zero. -/
theorem not_told_timeout : ¬ ∀ (permits : Nat) (s : SemaphoreSystem),
    Reachable permits Machine.Free s → Told s := by
  intro told
  obtain ⟨s, reach, off⟩ : ∃ s, Reachable 1 Machine.Free s ∧
      decide (s.shared.data.stats.waitingCount = -1) = true :=
    Machine.Reach.of_run (fun _ _ => true) _
      [.start none, .resume 0 .go, .resume 0 (.finish .timeoutError)]
      (fun _ _ _ => trivial) (by decide +kernel)
  have right := (told 1 s reach).waiting
  rw [of_decide_eq_true off] at right
  omega

end FairSemaphore

end OmniMemory
