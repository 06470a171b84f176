import OmniMemory.Asyncio
import OmniMemory.Lib.Machine
import Mathlib.Data.List.Sort

/-! `PriorityLock`: `acquire` enqueues a request, polls until the request is at the front of the
queue and nobody holds the lock, runs the body, and cleans up. A task is an acquire context; it runs
alone from one suspension point to the next. The sections under `_lock` do not suspend, but a task
may have to wait for `_lock`, and be cancelled there. The id of a request is the position of its
task. -/

namespace OmniMemory

open Interleave Asyncio

inductive LockPriority where
  | low
  | normal
  | high
  | critical
deriving DecidableEq

def LockPriority.value : LockPriority → Nat
  | low => 1
  | normal => 2
  | high => 3
  | critical => 4

/-- `LockRequest`. Times are readings of the monotonic clock. -/
structure LockRequest where
  requestId : Nat
  priority : LockPriority
  requestedAtMonotonic : Int
  timeout : Option Int
deriving DecidableEq

namespace LockRequest

/-- `request.timeout` is set, and has passed at `now`. A timeout of 0 counts as none. -/
def expired (request : LockRequest) (now : Int) : Bool :=
  match request.timeout with
  | none => false
  | some timeout => timeout != 0 && decide (timeout ≤ now - request.requestedAtMonotonic)

end LockRequest

namespace PriorityLock

/-- How a task leaves `acquire`. -/
inductive Outcome where
  | returned
  | timeoutError
  | raised
  | cancelled
deriving DecidableEq

structure Stats where
  totalAcquisitions : Nat
  totalReleases : Nat
  totalTimeouts : Nat

/-- The attributes of a `PriorityLock` besides `_lock`. `enqueued` is not one of them: it records
the order in which requests came into the queue. -/
structure Data where
  queue : List LockRequest
  currentHolder : Option LockRequest
  stats : Stats
  enqueued : List Nat

abbrev State := Guarded Data

def State.initial : State := ⟨.free, ⟨[], none, ⟨0, 0, 0⟩, []⟩⟩

/-- Where a task is suspended. -/
inductive Pc where
  | ready
  /-- for `_lock` in `_enqueue_request` -/
  | enqueueLock
  /-- for `_lock` in `_wait_for_turn` -/
  | turnLock
  | sleeping
  | body
  /-- for `_lock` in `_cleanup_request` -/
  | cleanupLock (acquired : Bool) (out : Outcome)
  | left (out : Outcome)
deriving DecidableEq

structure Task where
  request : LockRequest
  pc : Pc
deriving DecidableEq

/-- What the surroundings choose: that the task goes on when the clock reads `now`, that it is
cancelled, or how the body ends. -/
inductive Choice where
  | go (now : Int)
  | cancel
  | finish (out : Outcome)

/-- The arguments of `acquire`, and the clock at the call. -/
structure Arg where
  priority : LockPriority
  timeout : Option Int
  now : Int

/-- Under `_lock` in `_enqueue_request`: before the first request of lower priority, or last. -/
def Data.enqueueRequest (request : LockRequest) (d : Data) : Data :=
  { d with
    queue := d.queue.orderedInsert
      (fun new queued => queued.priority.value < new.priority.value) request
    enqueued := d.enqueued ++ [request.requestId] }

/-- Under `_lock` in `_wait_for_turn`: whether it is this request's turn, which it then takes. -/
def Data.takeTurn (request : LockRequest) (d : Data) : Bool × Data :=
  match d.queue with
  | [] => (false, d)
  | front :: rest =>
    if front.requestId = request.requestId ∧ d.currentHolder = none then
      (true, { d with queue := rest })
    else (false, d)

/-- Under `_lock` in `_cleanup_request`. -/
def Data.cleanupRequest (request : LockRequest) (acquired : Bool) (d : Data) : Data :=
  { d with
    stats := if acquired then { d.stats with totalReleases := d.stats.totalReleases + 1 }
      else d.stats
    queue := d.queue.filter fun queued => queued.requestId != request.requestId
    currentHolder := d.currentHolder.filter fun holder => holder.requestId != request.requestId }

def Data.hold (request : LockRequest) (d : Data) : Data :=
  { d with
    currentHolder := some request
    stats := { d.stats with totalAcquisitions := d.stats.totalAcquisitions + 1 } }

def Data.countTimeout (out : Outcome) (d : Data) : Data :=
  if out = .timeoutError then
    { d with stats := { d.stats with totalTimeouts := d.stats.totalTimeouts + 1 } }
  else d

/-- `finally`, as far as `_cleanup_request` comes. -/
def cleanup (request : LockRequest) (acquired : Bool) (out : Outcome) (waited : Bool) (s : State) :
    Pc × State :=
  match s.withLock? request.requestId waited
      fun d => ((), d.cleanupRequest request acquired) with
  | none => (.cleanupLock acquired out, s.park request.requestId waited)
  | some (_, s) => (.left out, s)

/-- The `try` block of `acquire` ends with `out`. -/
def leave (request : LockRequest) (acquired : Bool) (out : Outcome) (s : State) : Pc × State :=
  cleanup request acquired out false ⟨s.lock, s.data.countTimeout out⟩

/-- One round of the loop of `_wait_for_turn`, and what follows when it returns or raises. -/
def waitForTurn (request : LockRequest) (now : Int) (waited : Bool) (s : State) : Pc × State :=
  match s.withLock? request.requestId waited fun d => d.takeTurn request with
  | none => (.turnLock, s.park request.requestId waited)
  | some (true, s) => (.body, ⟨s.lock, s.data.hold request⟩)
  | some (false, s) =>
    if request.expired now then leave request false .timeoutError s else (.sleeping, s)

/-- The `try` block of `acquire`. -/
def enqueue (request : LockRequest) (now : Int) (waited : Bool) (s : State) : Pc × State :=
  match s.withLock? request.requestId waited fun d => ((), d.enqueueRequest request) with
  | none => (.enqueueLock, s.park request.requestId waited)
  | some (_, s) => waitForTurn request now false s

/-- What a task does next. A task that is cancelled before its first step never comes to `acquire`;
one that is cancelled in `_cleanup_request` does not clean up. -/
def resume (request : LockRequest) : Pc → Choice → State → Option (Pc × State)
  | .ready, .go now, s => some (enqueue request now false s)
  | .ready, .cancel, s => some (.left .cancelled, s)
  | .enqueueLock, .go now, s =>
    if (s.lock.wake request.requestId).isSome then some (enqueue request now true s) else none
  | .enqueueLock, .cancel, s =>
    some (leave request false .cancelled (s.abandon request.requestId))
  | .turnLock, .go now, s =>
    if (s.lock.wake request.requestId).isSome then some (waitForTurn request now true s) else none
  | .turnLock, .cancel, s => some (leave request false .cancelled (s.abandon request.requestId))
  | .sleeping, .go now, s => some (waitForTurn request now false s)
  | .sleeping, .cancel, s => some (leave request false .cancelled s)
  | .body, .finish out, s => some (leave request true out s)
  | .cleanupLock acquired out, .go _, s =>
    if (s.lock.wake request.requestId).isSome then some (cleanup request acquired out true s)
    else none
  | .cleanupLock _ _, .cancel, s => some (.left .cancelled, s.abandon request.requestId)
  | _, _, _ => none

/-- Any number of acquire contexts on one `PriorityLock`. -/
def machine : Machine State Task Arg Choice where
  enter i arg := ⟨⟨i, arg.priority, arg.now, arg.timeout⟩, .ready⟩
  resume _ ch t s := (resume t.request t.pc ch s).map fun (pc, s) => (⟨t.request, pc⟩, s)

abbrev PriorityLockSystem := System State Task

section Steps

variable {request front : LockRequest} {pc pc' : Pc} {ch : Choice} {d d' : Data} {s : State}

def Pc.atLock : Pc → Bool
  | enqueueLock | turnLock | cleanupLock _ _ => true
  | _ => false

/-- What a poll does to the state. -/
inductive Polls (request : LockRequest) (d : Data) : Pc → Data → Prop where
  | turn {front : LockRequest} {rest : List LockRequest} (queue : d.queue = front :: rest)
      (same : front.requestId = request.requestId) (vacant : d.currentHolder = none) :
      Polls request d .body (Data.hold request { d with queue := rest })
  | again : Polls request d .sleeping d
  | leave (out : Outcome) :
      Polls request d (.left out) ((d.countTimeout out).cleanupRequest request false)

/-- What a step does to the state when `_lock` is free. -/
inductive Moves (request : LockRequest) (d : Data) : Pc → Pc → Data → Prop where
  | never : Moves request d .ready (.left .cancelled) d
  | enqueue {pc' : Pc} {d' : Data} (polls : Polls request (d.enqueueRequest request) pc' d') :
      Moves request d .ready pc' d'
  | poll {pc' : Pc} {d' : Data} (polls : Polls request d pc' d') :
      Moves request d .sleeping pc' d'
  | finish (out : Outcome) :
      Moves request d .body (.left out) ((d.countTimeout out).cleanupRequest request true)

theorem waitForTurn_free (request : LockRequest) (d : Data) (now : Int) : ∃ d',
    waitForTurn request now false ⟨.free, d⟩ =
      ((waitForTurn request now false ⟨.free, d⟩).1, ⟨.free, d'⟩) ∧
    Polls request d (waitForTurn request now false ⟨.free, d⟩).1 d' := by
  simp only [waitForTurn, Guarded.withLock?_free]
  cases turn : d.takeTurn request with
  | mk taken d1 =>
    simp only [Data.takeTurn] at turn
    split at turn
    · cases turn
      dsimp only
      split
      · exact ⟨_, rfl, .leave _⟩
      · exact ⟨_, rfl, .again⟩
    · rename_i front rest queue
      split at turn
      · cases turn
        rename_i mine
        exact ⟨_, rfl, .turn queue mine.1 mine.2⟩
      · cases turn
        dsimp only
        split
        · exact ⟨_, rfl, .leave _⟩
        · exact ⟨_, rfl, .again⟩

/-- The front request is granted when nobody holds the lock. -/
theorem waitForTurn_front {rest : List LockRequest} (queue : d.queue = front :: rest)
    (vacant : d.currentHolder = none) (now : Int) :
    (waitForTurn front now false ⟨.free, d⟩).1 = .body := by
  simp [waitForTurn, Guarded.withLock?_free, Data.takeTurn, queue, vacant]

theorem Polls.calm (polls : Polls request d pc' d') : pc'.atLock = false := by
  cases polls <;> rfl

theorem Moves.calm (moves : Moves request d pc pc' d') : pc'.atLock = false := by
  cases moves with
  | never => rfl
  | enqueue polls => exact polls.calm
  | poll polls => exact polls.calm
  | finish out => rfl

/-- A task that does not wait for `_lock`, and finds it free, leaves it free. -/
theorem resume_free (calm : pc.atLock = false)
    (ran : resume request pc ch ⟨.free, d⟩ = some (pc', s)) :
    s.lock = .free ∧ Moves request d pc pc' s.data := by
  obtain ⟨lock, data⟩ := s
  cases pc with
  | ready =>
    cases ch with
    | go now =>
      obtain ⟨d', eq, polls⟩ := waitForTurn_free request (d.enqueueRequest request) now
      simp only [resume, enqueue, Guarded.withLock?_free, Option.some.injEq] at ran
      rw [ran] at eq polls
      cases eq
      exact ⟨rfl, .enqueue polls⟩
    | cancel => cases ran; exact ⟨rfl, .never⟩
    | finish out => cases ran
  | sleeping =>
    cases ch with
    | go now =>
      obtain ⟨d', eq, polls⟩ := waitForTurn_free request d now
      simp only [resume, Option.some.injEq] at ran
      rw [ran] at eq polls
      cases eq
      exact ⟨rfl, .poll polls⟩
    | cancel => cases ran; exact ⟨rfl, .poll (.leave _)⟩
    | finish out => cases ran
  | body =>
    cases ch with
    | finish out => cases ran; exact ⟨rfl, .finish out⟩
    | go now => cases ran
    | cancel => cases ran
  | left out => cases ch <;> cases ran
  | enqueueLock => cases calm
  | turnLock => cases calm
  | cleanupLock acquired out => cases calm

end Steps

end PriorityLock

end OmniMemory
