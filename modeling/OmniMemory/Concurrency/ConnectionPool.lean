import OmniMemory.Asyncio
import OmniMemory.Lib.Machine

/-! `AsyncConnectionPool`. A task is an acquire context or a call of `close`, and runs alone from
one suspension point to the next. Connections are numbered in the order in which they are created.
`close_connection` is a coroutine function here; where it is a plain function the task goes on at
once. What `finally` shields runs on when its task is cancelled. -/

namespace OmniMemory

open Interleave Asyncio

namespace ConnectionPool

abbrev Connection := Nat

/-- The attributes of an `AsyncConnectionPool`: the queue, the connections in use by the id of their
context, and the lock. `created` and `destroyed` are not attributes: they count the connections that
`create_connection` made, and record the calls of `close_connection`. -/
structure State where
  maxConnections : Nat
  available : List Connection
  active : List (Nat × Connection)
  lock : Lock
  created : Nat
  destroyed : List Connection

def State.initial (maxConnections : Nat) : State := ⟨maxConnections, [], [], .free, 0, []⟩

inductive Validation where
  | valid
  | invalid
  | raises
deriving DecidableEq

/-- Where a connection is being destroyed in the loop of `acquire`. -/
inductive Reason where
  /-- it failed its validation -/
  | invalid
  /-- `except Exception` -/
  | error
deriving DecidableEq

/-- Where a task is suspended. -/
inductive Pc where
  | ready
  /-- for `_lock`, to check the capacity -/
  | checkLock
  /-- in `create_connection`, with `_lock` -/
  | creating
  /-- in `_available.get`, with `_lock` -/
  | waiting
  | destroying (reason : Reason)
  /-- for `_lock`, to record the connection as active -/
  | trackLock
  | body
  /-- `_return_connection` is about to start -/
  | returning
  /-- for `_lock` in `_return_connection` -/
  | returnLock
  /-- in `_destroy_connection` in `_return_connection` -/
  | returnDestroying
  | left
  /-- `close` is about to start -/
  | closeReady
  /-- in the first loop of `close`, that began with `size` connections and has come to `visited` -/
  | closingActive (size : Nat) (visited : List Nat)
  /-- in the second loop of `close` -/
  | closingAvailable
deriving DecidableEq

/-- The variables of an acquire context; its `connection_id` is its position. -/
structure Task where
  connection : Option Connection
  currentRetry : Nat
  pc : Pc
deriving DecidableEq

inductive Arg where
  | acquire
  | close

/-- What the surroundings choose: that the task goes on, with what the call that it awaits did
(`done`) and what `validate_connection` does if it is called next; that it is cancelled; that its
wait times out; or that its body ends. -/
inductive Choice where
  | go (done : Bool) (validation : Validation)
  | cancel
  | timeout
  | finish
deriving DecidableEq

def Choice.isGo : Choice → Bool
  | go _ _ => true
  | _ => false

def maxRetries : Nat := 3

def Task.at (t : Task) (pc : Pc) : Task := { t with pc }

/-- `_destroy_connection`, up to its `await`. -/
def destroy (c : Connection) (t : Task) (pc : Pc) (s : State) : Task × State :=
  (t.at pc, { s with destroyed := s.destroyed ++ [c] })

/-- `finally`. -/
def final (t : Task) (s : State) : Task × State :=
  match t.connection with
  | some _ => (t.at .returning, s)
  | none => (t.at .left, s)

/-- `except Exception` in the loop. -/
def failed (t : Task) (s : State) : Task × State :=
  match t.connection with
  | some c => destroy c t (.destroying .error) s
  | none => final t s

/-- Under `_lock`: the connection is recorded as active. -/
def track (i : Nat) (c : Connection) (t : Task) (s : State) : Task × State :=
  (t.at .body, { s with active := s.active ++ [(i, c)] })

/-- From where `connection` is assigned. -/
def got (i : Nat) (c : Connection) (validation : Validation) (t : Task) (s : State) :
    Task × State :=
  let t := { t with connection := some c }
  match validation with
  | .valid =>
    match s.lock.tryAcquire with
    | some lock => track i c t { s with lock := lock.release }
    | none => (t.at .trackLock, { s with lock := s.lock.park i })
  | .invalid => destroy c t (.destroying .invalid) s
  | .raises => failed t s

/-- Under `_lock`: the capacity check. -/
def checkCapacity (i : Nat) (validation : Validation) (t : Task) (s : State) : Task × State :=
  if s.active.length + s.available.length < s.maxConnections then (t.at .creating, s)
  else
    match s.available with
    | c :: rest => got i c validation t { s with available := rest, lock := s.lock.release }
    | [] => (t.at .waiting, s)

def attempt (i : Nat) (validation : Validation) (t : Task) (s : State) : Task × State :=
  match s.available with
  | c :: rest => got i c validation t { s with available := rest }
  | [] =>
    match s.lock.tryAcquire with
    | some lock => checkCapacity i validation t { s with lock }
    | none => (t.at .checkLock, { s with lock := s.lock.park i })

/-- After the connection that failed its validation has been destroyed. -/
def retry (i : Nat) (validation : Validation) (t : Task) (s : State) : Task × State :=
  if maxRetries ≤ t.currentRetry then failed t s
  else attempt i validation { t with currentRetry := t.currentRetry + 1 } s

/-- `_return_connection`, from where it has `_lock`. -/
def giveBack (i : Nat) (c : Connection) (validation : Validation) (t : Task) (s : State) :
    Task × State :=
  let s := { s with active := s.active.filter (·.1 != i), lock := s.lock.release }
  match validation with
  | .valid =>
    if s.available.length < s.maxConnections then
      (t.at .left, { s with available := s.available ++ [c] })
    else destroy c t .returnDestroying s
  | .invalid => destroy c t .returnDestroying s
  | .raises => destroy c t .returnDestroying s

/-- The second loop of `close`, and its end. -/
def drain (t : Task) (s : State) : Task × State :=
  match s.available with
  | c :: rest => destroy c t .closingAvailable { s with available := rest }
  | [] => (t.at .left, { s with active := [] })

/-- The first loop of `close`, over a dict that may change: a change of its size is an error. -/
def closeNext (size : Nat) (visited : List Nat) (t : Task) (s : State) : Task × State :=
  if s.active.length ≠ size then (t.at .left, s)
  else
    match s.active.find? fun entry => !visited.contains entry.1 with
    | some (key, c) => destroy c t (.closingActive size (visited ++ [key])) s
    | none => drain t s

def resume (i : Nat) (ch : Choice) (t : Task) (s : State) : Option (Task × State) :=
  match t.pc, ch with
  | .ready, .go _ v => some (attempt i v t s)
  | .ready, .cancel => some (t.at .left, s)
  | .checkLock, .go _ v =>
    (s.lock.wake i).map fun lock => checkCapacity i v t { s with lock }
  | .checkLock, .cancel => some (final t { s with lock := s.lock.abandon i })
  | .creating, .go true v =>
    some (got i s.created v t { s with created := s.created + 1, lock := s.lock.release })
  | .creating, .go false _ => some (failed t { s with lock := s.lock.release })
  | .creating, .cancel => some (final t { s with lock := s.lock.release })
  | .waiting, .go _ v =>
    match s.available with
    | c :: rest => some (got i c v t { s with available := rest, lock := s.lock.release })
    | [] => none
  | .waiting, .timeout => some (failed t { s with lock := s.lock.release })
  | .waiting, .cancel => some (final t { s with lock := s.lock.release })
  | .destroying .invalid, .go _ v => some (retry i v t s)
  | .destroying .invalid, .cancel => some (final t s)
  | .destroying .error, .go _ _ => some (final t s)
  | .destroying .error, .cancel => some (final t s)
  | .trackLock, .go _ _ =>
    match s.lock.wake i, t.connection with
    | some lock, some c => some (track i c t { s with lock := lock.release })
    | _, _ => none
  | .trackLock, .cancel => some (final t { s with lock := s.lock.abandon i })
  | .body, .finish => some (final t s)
  | .returning, .go _ v =>
    match t.connection with
    | none => none
    | some c =>
      match s.lock.tryAcquire with
      | some lock => some (giveBack i c v t { s with lock })
      | none => some (t.at .returnLock, { s with lock := s.lock.park i })
  | .returnLock, .go _ v =>
    match s.lock.wake i, t.connection with
    | some lock, some c => some (giveBack i c v t { s with lock })
    | _, _ => none
  | .returnDestroying, .go _ _ => some (t.at .left, s)
  | .closeReady, .go _ _ => some (closeNext s.active.length [] t s)
  | .closeReady, .cancel => some (t.at .left, s)
  | .closingActive size visited, .go _ _ => some (closeNext size visited t s)
  | .closingActive _ _, .cancel => some (t.at .left, s)
  | .closingAvailable, .go _ _ => some (drain t s)
  | .closingAvailable, .cancel => some (t.at .left, s)
  | _, _ => none

def machine : Machine State Task Arg Choice where
  enter _
    | .acquire => ⟨none, 0, .ready⟩
    | .close => ⟨none, 0, .closeReady⟩
  resume := resume

abbrev PoolSystem := System State Task

/-- The systems that any interleaving reaches, on a pool of at most `maxConnections`, when every
step meets `ok`. -/
abbrev Reachable (maxConnections : Nat) (ok : PoolSystem → Machine.Act Arg Choice → Prop)
    (s : PoolSystem) : Prop :=
  machine.Reach (· = State.initial maxConnections) ok s

/-- The code that a step of the task at position `i` runs, and the state in which it begins. -/
inductive Runs (i : Nat) (t : Task) (s : State) : Choice → Task × State → Prop where
  | quit {ch : Choice} (out : t.pc = .ready ∧ ch = .cancel ∨ t.pc = .returnDestroying ∨
      t.pc = .closeReady ∨ t.pc = .closingAvailable ∨ ∃ size visited,
      t.pc = .closingActive size visited) : Runs i t s ch (t.at .left, s)
  | attempt {done : Bool} {v : Validation} (at_ : t.pc = .ready) :
      Runs i t s (.go done v) (attempt i v t s)
  | retry {done : Bool} {v : Validation} (at_ : t.pc = .destroying .invalid) :
      Runs i t s (.go done v) (retry i v t s)
  | checkCapacity {done : Bool} {v : Validation} {lock : Lock} (at_ : t.pc = .checkLock)
      (woken : s.lock.wake i = some lock) :
      Runs i t s (.go done v) (checkCapacity i v t { s with lock })
  | create {v : Validation} (at_ : t.pc = .creating) : Runs i t s (.go true v)
      (got i s.created v t { s with created := s.created + 1, lock := s.lock.release })
  | get {done : Bool} {v : Validation} {c : Connection} {rest : List Connection}
      (at_ : t.pc = .waiting) (queue : s.available = c :: rest) : Runs i t s (.go done v)
      (got i c v t { s with available := rest, lock := s.lock.release })
  | fail {ch : Choice} (at_ : t.pc = .creating ∧ (∃ v, ch = .go false v) ∨
      t.pc = .waiting ∧ ch = .timeout) : Runs i t s ch (failed t { s with lock := s.lock.release })
  | stop (at_ : t.pc = .creating ∨ t.pc = .waiting) :
      Runs i t s .cancel (final t { s with lock := s.lock.release })
  | abandon (at_ : t.pc = .checkLock ∨ t.pc = .trackLock) :
      Runs i t s .cancel (final t { s with lock := s.lock.abandon i })
  | final {ch : Choice} (at_ : t.pc = .body ∨ t.pc = .destroying .error ∨
      t.pc = .destroying .invalid ∧ ch = .cancel) : Runs i t s ch (final t s)
  | track {ch : Choice} {c : Connection} {lock : Lock} (at_ : t.pc = .trackLock)
      (woken : s.lock.wake i = some lock) (here : t.connection = some c) :
      Runs i t s ch (track i c t { s with lock := lock.release })
  | park {ch : Choice} (at_ : t.pc = .returning) (busy : s.lock.tryAcquire = none) :
      Runs i t s ch (t.at .returnLock, { s with lock := s.lock.park i })
  | giveBack {done : Bool} {v : Validation} {c : Connection} {lock : Lock}
      (at_ : t.pc = .returning ∧ s.lock.tryAcquire = some lock ∨
        t.pc = .returnLock ∧ s.lock.wake i = some lock) (here : t.connection = some c) :
      Runs i t s (.go done v) (giveBack i c v t { s with lock })
  | close {done : Bool} {v : Validation} {size : Nat} {visited : List Nat}
      (at_ : t.pc = .closeReady ∧ size = s.active.length ∧ visited = [] ∨
        t.pc = .closingActive size visited) : Runs i t s (.go done v) (closeNext size visited t s)
  | drain {ch : Choice} (at_ : t.pc = .closingAvailable) : Runs i t s ch (drain t s)

theorem runs_of_resume {i : Nat} {ch : Choice} {t : Task} {s : State} {r : Task × State}
    (ran : resume i ch t s = some r) : Runs i t s ch r := by
  unfold resume at ran
  split at ran <;> rename_i at_
  · cases ran; exact .attempt at_
  · cases ran; exact .quit (.inl ⟨at_, rfl⟩)
  · obtain ⟨lock, woken, rfl⟩ := Option.map_eq_some_iff.mp ran
    exact .checkCapacity at_ woken
  · cases ran; exact .abandon (.inl at_)
  · cases ran; exact .create at_
  · cases ran; exact .fail (.inl ⟨at_, _, rfl⟩)
  · cases ran; exact .stop (.inl at_)
  · split at ran
    · cases ran
      exact .get at_ ‹_›
    · cases ran
  · cases ran; exact .fail (.inr ⟨at_, rfl⟩)
  · cases ran; exact .stop (.inr at_)
  · cases ran; exact .retry at_
  · cases ran; exact .final (.inr (.inr ⟨at_, rfl⟩))
  · cases ran; exact .final (.inr (.inl at_))
  · cases ran; exact .final (.inr (.inl at_))
  · split at ran
    · cases ran
      exact .track at_ ‹_› ‹_›
    · cases ran
  · cases ran; exact .abandon (.inr at_)
  · cases ran; exact .final (.inl at_)
  · split at ran
    · cases ran
    · split at ran
      · cases ran
        exact .giveBack (.inl ⟨at_, ‹_›⟩) ‹_›
      · cases ran
        exact .park at_ ‹_›
  · split at ran
    · cases ran
      exact .giveBack (.inr ⟨at_, ‹_›⟩) ‹_›
    · cases ran
  · cases ran; exact .quit (.inr (.inl at_))
  · cases ran; exact .close (.inl ⟨at_, rfl, rfl⟩)
  · cases ran; exact .quit (.inr (.inr (.inl at_)))
  · cases ran; exact .close (.inr at_)
  · cases ran; exact .quit (.inr (.inr (.inr (.inr ⟨_, _, at_⟩))))
  · cases ran; exact .drain at_
  · cases ran; exact .quit (.inr (.inr (.inr (.inl at_))))
  · cases ran

/-! The lock. It is held exactly while a task creates a connection, or waits for one. -/

def Pc.locks : Pc → Bool
  | creating | waiting => true
  | _ => false

section Lock

variable {i : Nat} {ch : Choice} {t : Task} {s : State} {v : Validation} {c : Connection}
  {r : Task × State}

/-- The code that leads to `r` leaves the lock as it is, and its task does not hold it. -/
structure Unlocked (s : State) (r : Task × State) : Prop where
  locked : r.2.lock.locked = s.lock.locked
  outside : r.1.pc.locks = false

theorem final_unlocked : Unlocked s (final t s) := by
  unfold final
  split <;> exact ⟨rfl, rfl⟩

theorem failed_unlocked : Unlocked s (failed t s) := by
  unfold failed
  split
  · exact ⟨rfl, rfl⟩
  · exact final_unlocked

theorem got_unlocked : Unlocked s (got i c v t s) := by
  unfold got
  cases v with
  | valid =>
    dsimp only
    split
    · rename_i lock taken
      obtain ⟨free, -, rfl⟩ := Lock.tryAcquire_eq_some.mp taken
      exact ⟨free.symm, rfl⟩
    · exact ⟨rfl, rfl⟩
  | invalid => exact ⟨rfl, rfl⟩
  | raises => exact failed_unlocked

theorem giveBack_unlocked :
    Unlocked { s with lock := s.lock.release } (giveBack i c v t s) := by
  unfold giveBack
  cases v with
  | valid =>
    dsimp only
    split <;> exact ⟨rfl, rfl⟩
  | invalid => exact ⟨rfl, rfl⟩
  | raises => exact ⟨rfl, rfl⟩

theorem drain_unlocked : Unlocked s (drain t s) := by
  unfold drain
  split <;> exact ⟨rfl, rfl⟩

theorem closeNext_unlocked {size : Nat} {visited : List Nat} :
    Unlocked s (closeNext size visited t s) := by
  unfold closeNext
  split
  · exact ⟨rfl, rfl⟩
  · split
    · exact ⟨rfl, rfl⟩
    · exact drain_unlocked

theorem checkCapacity_lock (held : s.lock.locked = true) :
    (checkCapacity i v t s).2.lock.locked = (checkCapacity i v t s).1.pc.locks := by
  unfold checkCapacity
  split
  · exact held
  · split
    · exact got_unlocked.locked.trans got_unlocked.outside.symm
    · exact held

/-- The code that leads to `r` takes the lock as the place that it leads to says. -/
def LockKept (s : State) (r : Task × State) : Prop :=
  r.2.lock.locked.toNat = s.lock.locked.toNat + r.1.pc.locks.toNat

theorem Unlocked.kept (h : Unlocked s r) : LockKept s r := by
  rw [LockKept, h.locked, h.outside]
  rfl

theorem attempt_lock : LockKept s (attempt i v t s) := by
  unfold attempt
  split
  · exact got_unlocked.kept
  · split
    · rename_i lock taken
      obtain ⟨free, -, rfl⟩ := Lock.tryAcquire_eq_some.mp taken
      rw [LockKept, checkCapacity_lock rfl, free]
      exact (Nat.zero_add _).symm
    · exact Unlocked.kept ⟨rfl, rfl⟩

theorem granted_lock {lock : Lock}
    (granted : s.lock.tryAcquire = some lock ∨ s.lock.wake i = some lock) :
    s.lock.locked = false ∧ lock.locked = true := by
  rcases granted with taken | woken
  · obtain ⟨free, -, rfl⟩ := Lock.tryAcquire_eq_some.mp taken
    exact ⟨free, rfl⟩
  · obtain ⟨free, -, rfl⟩ := Lock.wake_eq_some.mp woken
    exact ⟨free, rfl⟩

/-- Every step takes or leaves the lock as the places of its task say. -/
theorem resume_lock (ran : resume i ch t s = some r)
    (held : t.pc.locks = true → s.lock.locked = true) :
    r.2.lock.locked.toNat + t.pc.locks.toNat = s.lock.locked.toNat + r.1.pc.locks.toNat := by
  -- code that starts without the lock
  have plain {s' : State} {r' : Task × State} (kept : LockKept s' r') (out : t.pc.locks = false)
      (same : s'.lock.locked = s.lock.locked) : r'.2.lock.locked.toNat + t.pc.locks.toNat =
        s.lock.locked.toNat + r'.1.pc.locks.toNat := by
    rw [out, ← same]
    exact kept
  -- code that starts by giving the lock up
  have released {s' : State} {r' : Task × State} (kept : LockKept s' r') (inside : t.pc.locks = true)
      (free : s'.lock.locked = false) : r'.2.lock.locked.toNat + t.pc.locks.toNat =
        s.lock.locked.toNat + r'.1.pc.locks.toNat := by
    rw [held inside, inside, kept, free]
    simp [Nat.add_comm]
  cases runs_of_resume ran with
  | quit at_ =>
    refine plain (Unlocked.kept ⟨rfl, rfl⟩ : LockKept s (t.at .left, s)) ?_ rfl
    rcases at_ with ⟨h, -⟩ | h | h | h | ⟨_, _, h⟩ <;> rw [h] <;> rfl
  | attempt at_ => exact plain attempt_lock (by rw [at_]; rfl) rfl
  | retry at_ =>
    have out : t.pc.locks = false := by rw [at_]; rfl
    unfold retry
    split
    · exact plain failed_unlocked.kept out rfl
    · exact plain attempt_lock out rfl
  | checkCapacity at_ woken =>
    obtain ⟨free, taken⟩ := granted_lock (.inr woken)
    rw [checkCapacity_lock taken, free, at_]
    simp [Pc.locks]
  | create at_ => exact released got_unlocked.kept (by rw [at_]; rfl) rfl
  | get at_ => exact released got_unlocked.kept (by rw [at_]; rfl) rfl
  | fail at_ =>
    refine released failed_unlocked.kept ?_ rfl
    rcases at_ with ⟨h, -⟩ | ⟨h, -⟩ <;> rw [h] <;> rfl
  | stop at_ =>
    refine released final_unlocked.kept ?_ rfl
    rcases at_ with h | h <;> rw [h] <;> rfl
  | abandon at_ =>
    refine plain final_unlocked.kept ?_ rfl
    rcases at_ with h | h <;> rw [h] <;> rfl
  | final at_ =>
    refine plain final_unlocked.kept ?_ rfl
    rcases at_ with h | h | ⟨h, -⟩ <;> rw [h] <;> rfl
  | track at_ woken =>
    obtain ⟨free, -⟩ := granted_lock (.inr woken)
    rw [at_, free]
    rfl
  | park at_ =>
    rw [at_]
    rfl
  | giveBack at_ =>
    obtain ⟨free, -⟩ := granted_lock (at_.imp And.right And.right)
    rw [giveBack_unlocked.locked, giveBack_unlocked.outside, free]
    rcases at_ with ⟨h, -⟩ | ⟨h, -⟩ <;> rw [h] <;> rfl
  | close at_ =>
    refine plain closeNext_unlocked.kept ?_ rfl
    rcases at_ with ⟨h, -⟩ | h <;> rw [h] <;> rfl
  | drain at_ => exact plain drain_unlocked.kept (by rw [at_]; rfl) rfl

end Lock

/-- The lock is held exactly by the task that creates a connection or waits for one. -/
theorem locked_of_reach {maxConnections : Nat} {ok : PoolSystem → Machine.Act Arg Choice → Prop}
    {s : PoolSystem} (reach : Reachable maxConnections ok s) :
    s.shared.lock.locked.toNat = s.count fun t => t.pc.locks := by
  refine reach.invariant (P := fun s => s.shared.lock.locked.toNat = s.count fun t => t.pc.locks)
    ?_ ?_ ?_
  · rintro sh rfl
    rfl
  · intro s a kept _
    rw [System.count_add]
    cases a <;> exact kept
  · intro s i ch t t' sh kept _ task ran
    have moved := resume_lock ran fun locks => by
      have := System.count_pos_of_task (p := fun t => t.pc.locks) task locks
      cases locked : s.shared.lock.locked with
      | true => rfl
      | false => simp [locked] at kept; omega
    have counted : (s.put i t' sh).count (fun t => t.pc.locks) + (if t.pc.locks then 1 else 0) =
        s.count (fun t => t.pc.locks) + (if t'.pc.locks then 1 else 0) := System.count_put task
    simp only [System.shared_put] at *
    cases ht : t.pc.locks <;> cases ht' : t'.pc.locks
    all_goals
      simp only [ht, ht', Bool.toNat_true, Bool.toNat_false, if_true, if_false,
        Bool.false_eq_true] at *
      omega

/-! The capacity check. A task comes to it with the lock, when it found the queue empty. -/

def Checks (i : Nat) (ch : Choice) (t : Task) (s : State) : Prop :=
  ch.isGo = true ∧ ((t.pc = .checkLock ∧ s.lock.wake i ≠ none) ∨
    (s.available = [] ∧ s.lock.tryAcquire ≠ none ∧
      (t.pc = .ready ∨ t.pc = .destroying .invalid ∧ t.currentRetry < maxRetries)))

instance (i : Nat) (ch : Choice) (t : Task) (s : State) : Decidable (Checks i ch t s) :=
  inferInstanceAs (Decidable (_ ∧ _))

/-- What a capacity check has found when its task is then suspended with the lock. -/
structure Found (s : State) (pc : Pc) : Prop where
  room : pc = .creating → s.active.length + s.available.length < s.maxConnections
  full : pc = .waiting → s.available = [] ∧ s.maxConnections ≤ s.active.length

section Checks

variable {i : Nat} {ch : Choice} {t : Task} {s : State} {v : Validation} {r : Task × State}

theorem Found.of_outside {pc : Pc} (outside : pc.locks = false) : Found s pc := by
  constructor <;> (rintro rfl; cases outside)

theorem checkCapacity_found : Found s (checkCapacity i v t s).1.pc := by
  unfold checkCapacity
  split
  · exact ⟨fun _ => ‹_›, nofun⟩
  · split
    · exact .of_outside got_unlocked.outside
    · rename_i full _ empty
      rw [empty] at full
      exact ⟨nofun, fun _ => ⟨empty, Nat.le_of_not_lt full⟩⟩

theorem attempt_found (locks : (attempt i v t s).1.pc.locks = true) :
    s.available = [] ∧ s.lock.tryAcquire ≠ none ∧ Found s (attempt i v t s).1.pc := by
  unfold attempt at locks ⊢
  split at locks
  · rw [got_unlocked.outside] at locks
    cases locks
  · rename_i empty
    split at locks
    · rename_i lock taken
      rw [taken]
      have found := checkCapacity_found (i := i) (v := v) (t := t) (s := { s with lock })
      exact ⟨empty, nofun, found.room, found.full⟩
    · cases locks

/-- A task comes to hold the lock while it is suspended by a capacity check. -/
theorem resume_found (ran : resume i ch t s = some r) (locks : r.1.pc.locks = true) :
    Checks i ch t s ∧ Found s r.1.pc := by
  have absurd_of {s' : State} {r' : Task × State} (h : Unlocked s' r') (same : r'.1.pc.locks = true) :
      False := by
    rw [h.outside] at same
    cases same
  cases runs_of_resume ran with
  | quit _ => cases locks
  | attempt at_ =>
    obtain ⟨empty, free, found⟩ := attempt_found locks
    exact ⟨⟨rfl, .inr ⟨empty, free, .inl at_⟩⟩, found⟩
  | retry at_ =>
    unfold retry at locks ⊢
    split at locks
    · exact (absurd_of failed_unlocked locks).elim
    · rename_i more
      obtain ⟨empty, free, found⟩ := attempt_found locks
      rw [if_neg more]
      exact ⟨⟨rfl, .inr ⟨empty, free, .inr ⟨at_, Nat.lt_of_not_le more⟩⟩⟩, found⟩
  | @checkCapacity done v lock at_ woken =>
    have found := checkCapacity_found (i := i) (v := v) (t := t) (s := { s with lock })
    exact ⟨⟨rfl, .inl ⟨at_, by rw [woken]; nofun⟩⟩, found.room, found.full⟩
  | create _ => exact (absurd_of got_unlocked locks).elim
  | get _ _ => exact (absurd_of got_unlocked locks).elim
  | fail _ => exact (absurd_of failed_unlocked locks).elim
  | stop _ => exact (absurd_of final_unlocked locks).elim
  | abandon _ => exact (absurd_of final_unlocked locks).elim
  | final _ => exact (absurd_of final_unlocked locks).elim
  | track _ _ _ => cases locks
  | park _ _ => cases locks
  | giveBack _ _ => exact (absurd_of giveBack_unlocked locks).elim
  | close _ => exact (absurd_of closeNext_unlocked locks).elim
  | drain _ => exact (absurd_of drain_unlocked locks).elim

end Checks

end ConnectionPool

end OmniMemory
