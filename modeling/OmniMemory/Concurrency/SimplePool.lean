import Mathlib.Algebra.Order.Field.Rat
import Mathlib.Data.List.Nodup
import OmniMemory.Asyncio
import OmniMemory.Lib.Machine

/-! `ConnectionPool`, the simple pool. A task is an acquire context: a loop of attempts, each with
one section under `_lock`, then the body, then a section that gives the connection back. The
sections do not suspend, so no task ever waits for `_lock`. Connections are named in the order in
which they were created, and `connection_id` is the number of the task. -/

namespace OmniMemory

open Interleave Asyncio

namespace SimplePool

inductive Outcome where
  | returned
  | timeoutError
  | osError
  | raised
  | cancelled
deriving DecidableEq

/-- Caught by `except (ConnectionError, OSError)`: `TimeoutError` is an `OSError`. -/
def Outcome.retried : Outcome → Bool
  | timeoutError | osError => true
  | _ => false

/-- The attributes of a `ConnectionPool` besides its locks. -/
structure Data where
  maxSize : Nat
  timeout : ℚ
  connections : List Nat
  active : List (Nat × Nat)
  connectionCounter : Nat

abbrev State := Guarded Data

def State.initial (maxSize : Nat) (timeout : ℚ) : State := ⟨.free, ⟨maxSize, timeout, [], [], 0⟩⟩

/-- The arguments of `acquire`, and the time at which it begins. -/
structure Args where
  timeout : Option ℚ
  maxRetries : Nat
  startTime : ℚ

/-- Where a context is suspended. -/
inductive Pc where
  | ready
  /-- for `_lock`, in an attempt -/
  | lockWait (attempt : Nat)
  /-- before the next attempt -/
  | backoff (attempt : Nat)
  | body (connection : Option Nat)
  /-- for `_lock`, in `finally` -/
  | finalLock (connection : Nat) (out : Outcome)
  | left (out : Outcome)
deriving DecidableEq

structure Task where
  connectionId : Nat
  args : Args
  pc : Pc

/-- What the surroundings choose: that the task goes on, with the clock and how `_create_connection`
ends if it is called (with `Outcome.returned`: it gives a new connection), that its timeout fires,
that it is cancelled, or how the body ends. -/
inductive Choice where
  | go (now : ℚ) (created : Outcome)
  | timeout
  | cancel
  | finish (out : Outcome)

/-- The section of an attempt: a connection, or how it fails. -/
def Data.take (connectionId : Nat) (created : Outcome) (d : Data) :
    (Option Nat × Outcome) × Data :=
  let hold (connection : Nat) (d : Data) : (Option Nat × Outcome) × Data :=
    ((some connection, .returned), { d with
      active := d.active.filter (·.1 != connectionId) ++ [(connectionId, connection)] })
  match d.connections.getLast? with
  | some connection => hold connection { d with connections := d.connections.dropLast }
  | none =>
    if d.active.length < d.maxSize then
      if created = .returned then
        hold (d.connectionCounter + 1) { d with connectionCounter := d.connectionCounter + 1 }
      else ((none, created), d)
    else ((none, .timeoutError), d)

/-- The section of `finally`. -/
def Data.giveBack (connectionId connection : Nat) (d : Data) : Data :=
  let d := { d with active := d.active.filter (·.1 != connectionId) }
  let totalPoolSize := d.connections.length + d.active.length
  if totalPoolSize < d.maxSize ∧ d.connections.length < d.maxSize then
    { d with connections := d.connections ++ [connection] }
  else d

namespace Task

/-- `finally`, with a connection. -/
def final (t : Task) (connection : Nat) (out : Outcome) (waited : Bool) (s : State) :
    Task × State :=
  match s.withLock? t.connectionId waited fun d => ((), d.giveBack t.connectionId connection) with
  | none => ({ t with pc := .finalLock connection out }, s.park t.connectionId waited)
  | some (_, s) => ({ t with pc := .left out }, s)

/-- An attempt has failed. -/
def failed (t : Task) (attempt : Nat) (out : Outcome) (s : State) : Task × State :=
  if out.retried ∧ attempt < t.args.maxRetries - 1 then ({ t with pc := .backoff attempt }, s)
  else ({ t with pc := .left out }, s)

/-- An attempt, from where it asks for `_lock`. -/
def lock (t : Task) (attempt : Nat) (created : Outcome) (waited : Bool) (s : State) :
    Task × State :=
  match s.withLock? t.connectionId waited fun d => d.take t.connectionId created with
  | none => ({ t with pc := .lockWait attempt }, s.park t.connectionId waited)
  | some ((some connection, _), s) => ({ t with pc := .body (some connection) }, s)
  | some ((none, out), s) => t.failed attempt out s

def attempt (t : Task) (attempt : Nat) (now : ℚ) (created : Outcome) (s : State) : Task × State :=
  let effectiveTimeout := t.args.timeout.getD s.data.timeout
  if now - t.args.startTime ≥ effectiveTimeout then t.failed attempt .timeoutError s
  else t.lock attempt created false s

/-- What a task does next. Without retries there is no attempt, and the body has no connection. -/
def resume (t : Task) (s : State) : Choice → Option (Task × State)
  | .go now created =>
    match t.pc with
    | .ready =>
      if t.args.maxRetries = 0 then some ({ t with pc := .body none }, s)
      else some (t.attempt 0 now created s)
    | .lockWait attempt =>
      if (s.lock.wake t.connectionId).isSome then some (t.lock attempt created true s) else none
    | .backoff attempt => some (t.attempt (attempt + 1) now created s)
    | .finalLock connection out =>
      if (s.lock.wake t.connectionId).isSome then some (t.final connection out true s) else none
    | _ => none
  | .timeout =>
    match t.pc with
    | .lockWait attempt => some (t.failed attempt .timeoutError (s.abandon t.connectionId))
    | _ => none
  | .cancel =>
    match t.pc with
    | .ready | .backoff _ => some ({ t with pc := .left .cancelled }, s)
    | .lockWait _ | .finalLock _ _ =>
      some ({ t with pc := .left .cancelled }, s.abandon t.connectionId)
    | _ => none
  | .finish out =>
    match t.pc with
    | .body (some connection) => some (t.final connection out false s)
    | .body none => some ({ t with pc := .left out }, s)
    | _ => none

end Task

/-- Any number of acquire contexts on one `ConnectionPool`. -/
def machine : Machine State Task Args Choice where
  enter i args := ⟨i, args, .ready⟩
  resume _ ch t s := t.resume s ch

abbrev PoolSystem := System State Task

def Pc.atLock : Pc → Bool
  | lockWait _ | finalLock _ _ => true
  | _ => false

/-- The connections that are idle, and those that are active. -/
def Data.all (d : Data) : List Nat := d.connections ++ d.active.map (·.2)

/-- The connections of the pool: not too many, no one twice, and all of them created. -/
structure Accounts (d : Data) : Prop where
  size : d.all.length ≤ d.maxSize
  distinct : d.all.Nodup
  created : ∀ c ∈ d.all, c ≤ d.connectionCounter

section Sections

variable {d d' : Data} {i c : Nat} {created : Outcome}

theorem filter_other (absent : ∀ c, (i, c) ∉ d.active) :
    d.active.filter (·.1 != i) = d.active := by
  refine List.filter_eq_self.mpr fun e mem => ?_
  have : e.1 ≠ i := by
    rintro rfl
    exact absent e.2 mem
  simpa using this

theorem Accounts.of_perm (ok : Accounts d) (perm : d'.all.Perm d.all)
    (size : d'.maxSize = d.maxSize) (counter : d'.connectionCounter = d.connectionCounter) :
    Accounts d' := by
  refine ⟨?_, perm.nodup_iff.mpr ok.distinct, fun c mem => ?_⟩
  · rw [perm.length_eq, size]
    exact ok.size
  · rw [counter]
    exact ok.created c (perm.mem_iff.mp mem)

/-- One more connection, when there is room for it. -/
theorem Accounts.snoc (ok : Accounts d) (perm : d'.all.Perm (d.all ++ [c])) (fresh : c ∉ d.all)
    (room : d.all.length < d'.maxSize) (counter : d.connectionCounter ≤ d'.connectionCounter)
    (created : c ≤ d'.connectionCounter) : Accounts d' := by
  refine ⟨?_, perm.nodup_iff.mpr (by simpa using ok.distinct.concat fresh), fun c' mem => ?_⟩
  · rw [perm.length_eq, List.length_append]
    exact room
  · rcases List.mem_append.mp (perm.mem_iff.mp mem) with mem | mem
    · exact (ok.created c' mem).trans counter
    · rwa [List.mem_singleton.mp mem]

/-- A connection is taken from the pool, or created when there is room for it. -/
theorem take_accounts (ok : Accounts d) (absent : ∀ c, (i, c) ∉ d.active) :
    Accounts (d.take i created).2 ∧ (d.take i created).2.maxSize = d.maxSize ∧
      (d.take i created).2.active =
        d.active ++ ((d.take i created).1.1.map fun c => (i, c)).toList := by
  simp only [Data.take, filter_other absent]
  split
  · rename_i c last
    refine ⟨ok.of_perm ?_ rfl rfl, rfl, rfl⟩
    have whole : d.connections.dropLast ++ [c] = d.connections :=
      List.dropLast_append_getLast? c last
    have perm : (d.active.map (·.2) ++ [c]).Perm ([c] ++ d.active.map (·.2)) :=
      List.perm_append_comm
    simp only [Data.all, List.map_append, List.map_singleton]
    rw [← whole, List.append_assoc, List.dropLast_concat]
    exact perm.append_left _
  · rename_i none
    have empty : d.connections = [] := List.getLast?_eq_none_iff.mp none
    split
    · split
      · refine ⟨ok.snoc (c := d.connectionCounter + 1) ?_ (fun mem => ?_) ?_ (Nat.le_succ _)
          le_rfl, rfl, rfl⟩
        · simp [Data.all]
        · have := ok.created _ mem
          omega
        · simpa [Data.all, empty] using ‹d.active.length < d.maxSize›
      · exact ⟨ok, rfl, (List.append_nil _).symm⟩
    · exact ⟨ok, rfl, (List.append_nil _).symm⟩

/-- A connection that is given back is idle again, or dropped when there is no room for it. -/
theorem giveBack_accounts (ok : Accounts d) (held : (i, c) ∈ d.active) :
    Accounts (d.giveBack i c) ∧ (d.giveBack i c).maxSize = d.maxSize ∧
      (d.giveBack i c).active = d.active.filter (·.1 != i) := by
  have sub : (d.connections ++ (d.active.filter (·.1 != i)).map (·.2)).Sublist d.all :=
    (List.filter_sublist.map _).append_left _
  have dropped : Accounts { d with active := d.active.filter (·.1 != i) } :=
    ⟨sub.length_le.trans ok.size, ok.distinct.sublist sub,
      fun c mem => ok.created c (sub.subset mem)⟩
  simp only [Data.giveBack]
  split
  · rename_i room
    refine ⟨?_, rfl, rfl⟩
    have distinct := List.nodup_append.mp ok.distinct
    have absent : c ∉ ({ d with active := d.active.filter (·.1 != i) } : Data).all := by
      intro mem
      rcases List.mem_append.mp mem with mem | mem
      · exact distinct.2.2 c mem c (List.mem_map.mpr ⟨(i, c), held, rfl⟩) rfl
      · obtain ⟨e, mem, same⟩ := List.mem_map.mp mem
        obtain ⟨there, other⟩ := List.mem_filter.mp mem
        have : e = (i, c) := List.inj_on_of_nodup_map distinct.2.1 there held same
        simp [this] at other
    refine dropped.snoc ?_ absent ?_ le_rfl ?_
    · simp only [Data.all, List.append_assoc]
      exact List.perm_append_comm.append_left _
    · simpa [Data.all] using room.1
    · exact ok.created c (List.mem_append_right _ (List.mem_map.mpr ⟨(i, c), held, rfl⟩))
  · exact ⟨dropped, rfl, rfl⟩

end Sections

/-- A step of a task from a free lock, and what the task holds before and after. -/
structure Steps (t : Task) (d : Data) (r : Task × State) : Prop where
  free : r.2.lock = .free
  id : r.1.connectionId = t.connectionId
  calm : r.1.pc.atLock = false
  accounts : Accounts r.2.data
  maxSize : r.2.data.maxSize = d.maxSize
  active : ∀ j c, (j, c) ∈ r.2.data.active ↔
    if j = t.connectionId then r.1.pc = .body (some c) else (j, c) ∈ d.active

section Steps

variable {t : Task} {d : Data} {r : Task × State} {ch : Choice} {n c : Nat} {now : ℚ}
  {created out : Outcome}

theorem stay_steps {pc : Pc} (ok : Accounts d) (absent : ∀ c, (t.connectionId, c) ∉ d.active)
    (calm : pc.atLock = false) (empty : ∀ c, pc ≠ .body (some c)) :
    Steps t d ({ t with pc }, ⟨.free, d⟩) := by
  refine ⟨rfl, rfl, calm, ok, rfl, fun j c => ?_⟩
  split
  · rename_i same
    rw [same]
    exact iff_of_false (absent c) (empty c)
  · rfl

theorem failed_steps (ok : Accounts d) (absent : ∀ c, (t.connectionId, c) ∉ d.active) :
    Steps t d (t.failed n out ⟨.free, d⟩) := by
  simp only [Task.failed]
  split
  · exact stay_steps ok absent rfl (by simp)
  · exact stay_steps ok absent rfl (by simp)

theorem lock_steps (ok : Accounts d) (absent : ∀ c, (t.connectionId, c) ∉ d.active) :
    Steps t d (t.lock n created false ⟨.free, d⟩) := by
  obtain ⟨accounts, maxSize, active⟩ : Accounts (d.take t.connectionId created).2 ∧ _ :=
    take_accounts ok absent
  simp only [Task.lock, Guarded.withLock?_free]
  generalize d.take t.connectionId created = taken at accounts maxSize active ⊢
  obtain ⟨⟨connection, out⟩, d'⟩ := taken
  simp only at accounts maxSize active ⊢
  cases connection with
  | some connection =>
    refine ⟨rfl, rfl, rfl, accounts, maxSize, fun j c => ?_⟩
    rw [show (_ : State).data.active = _ from active]
    split
    · rename_i same
      simp [same, absent, eq_comm]
    · rename_i other
      simp [other]
  | none =>
    have same : d'.active = d.active := by simpa using active
    have failed : Steps t d' (t.failed n out ⟨.free, d'⟩) :=
      failed_steps accounts fun c => same ▸ absent c
    exact { failed with maxSize := failed.maxSize.trans maxSize, active := same ▸ failed.active }

theorem attempt_steps (ok : Accounts d) (absent : ∀ c, (t.connectionId, c) ∉ d.active) :
    Steps t d (t.attempt n now created ⟨.free, d⟩) := by
  simp only [Task.attempt]
  split
  · exact failed_steps ok absent
  · exact lock_steps ok absent

theorem final_steps (ok : Accounts d) (held : (t.connectionId, c) ∈ d.active) :
    Steps t d (t.final c out false ⟨.free, d⟩) := by
  obtain ⟨accounts, maxSize, active⟩ := giveBack_accounts ok held
  simp only [Task.final, Guarded.withLock?_free]
  refine ⟨rfl, rfl, rfl, accounts, maxSize, fun j c => ?_⟩
  rw [show (_ : State).data.active = _ from active]
  split
  · rename_i same
    simp [same]
  · rename_i other
    simp [other]

theorem resume_steps (ok : Accounts d) (calm : t.pc.atLock = false)
    (holds : ∀ c, (t.connectionId, c) ∈ d.active ↔ t.pc = .body (some c))
    (ran : t.resume ⟨.free, d⟩ ch = some r) : Steps t d r := by
  cases pc : t.pc with
  | ready =>
    have absent : ∀ c, (t.connectionId, c) ∉ d.active := by simp [holds, pc]
    cases ch with
    | go now created =>
      simp only [Task.resume, pc] at ran
      split at ran
      · cases ran
        exact stay_steps ok absent rfl (by simp)
      · cases ran
        exact attempt_steps ok absent
    | cancel =>
      simp only [Task.resume, pc] at ran
      cases ran
      exact stay_steps ok absent rfl (by simp)
    | _ => simp [Task.resume, pc] at ran
  | backoff attempt =>
    have absent : ∀ c, (t.connectionId, c) ∉ d.active := by simp [holds, pc]
    cases ch with
    | go now created =>
      simp only [Task.resume, pc] at ran
      cases ran
      exact attempt_steps ok absent
    | cancel =>
      simp only [Task.resume, pc] at ran
      cases ran
      exact stay_steps ok absent rfl (by simp)
    | _ => simp [Task.resume, pc] at ran
  | body connection =>
    cases ch with
    | finish out =>
      cases connection with
      | some c =>
        simp only [Task.resume, pc] at ran
        cases ran
        exact final_steps ok ((holds c).mpr pc)
      | none =>
        simp only [Task.resume, pc] at ran
        cases ran
        exact stay_steps ok (by simp [holds, pc]) rfl (by simp)
    | _ => simp [Task.resume, pc] at ran
  | left out => cases ch <;> simp [Task.resume, pc] at ran
  | _ => simp [pc, Pc.atLock] at calm

end Steps

/-- `_lock` is free, no task waits for it, and the active map is what the bodies hold. -/
structure Sound (maxSize : Nat) (s : PoolSystem) : Prop where
  free : s.shared.lock = .free
  id : ∀ i (t : Task), s.tasks[i]? = some t → t.connectionId = i
  calm : ∀ t ∈ s.tasks, t.pc.atLock = false
  accounts : Accounts s.shared.data
  maxSize : s.shared.data.maxSize = maxSize
  active : ∀ i c, (i, c) ∈ s.shared.data.active ↔
    ∃ t : Task, s.tasks[i]? = some t ∧ t.pc = .body (some c)

theorem accounted {maxSize : Nat} {timeout : ℚ} {s : PoolSystem}
    (reach : machine.Reach (· = State.initial maxSize timeout) Machine.Free s) :
    Sound maxSize s := by
  refine reach.invariant ?_ ?_ ?_
  · rintro sh rfl
    have none : Accounts (State.initial maxSize timeout).data :=
      ⟨Nat.zero_le _, List.nodup_nil, by simp [State.initial, Data.all]⟩
    exact ⟨rfl, by simp, by simp, none, rfl, by simp [State.initial]⟩
  · intro s args sound _
    refine ⟨sound.free, ?_, ?_, sound.accounts, sound.maxSize, fun i c => ?_⟩
    · intro i t task
      rcases System.getElem?_add task with ⟨rfl, rfl⟩ | task
      · rfl
      · exact sound.id i t task
    · intro t mem
      rcases List.mem_append.mp mem with mem | mem
      · exact sound.calm t mem
      · rw [List.mem_singleton.mp mem]
        rfl
    · refine (sound.active i c).trans ⟨?_, ?_⟩
      · rintro ⟨t, task, pc⟩
        exact ⟨t, System.getElem?_add_of_some task, pc⟩
      · rintro ⟨t, task, pc⟩
        rcases System.getElem?_add task with ⟨rfl, rfl⟩ | task
        · cases pc
        · exact ⟨t, task, pc⟩
  · rintro ⟨⟨lock, d⟩, tasks⟩ i ch t t' sh sound _ task ran
    obtain rfl : lock = .free := sound.free
    have id := sound.id i t task
    have holds (c : Nat) : (t.connectionId, c) ∈ d.active ↔ t.pc = .body (some c) := by
      rw [id]
      refine (sound.active i c).trans ⟨?_, fun pc => ⟨t, task, pc⟩⟩
      rintro ⟨u, there, pc⟩
      cases task.symm.trans there
      exact pc
    have steps := resume_steps sound.accounts (sound.calm t (List.mem_of_getElem? task)) holds ran
    refine ⟨steps.free, ?_, ?_, steps.accounts, steps.maxSize.trans sound.maxSize, fun j c => ?_⟩
    · intro j u there
      rw [System.getElem?_put task] at there
      split at there
      · cases there
        rw [steps.id, id, ‹i = j›]
      · exact sound.id j u there
    · intro u mem
      obtain ⟨j, there⟩ := List.mem_iff_getElem?.mp mem
      rw [System.getElem?_put task] at there
      split at there
      · cases there
        exact steps.calm
      · exact sound.calm u (List.mem_of_getElem? there)
    · rw [System.shared_put, steps.active, id, System.getElem?_put task]
      by_cases same : j = i
      · simp [same]
      · rw [if_neg same, if_neg (Ne.symm same)]
        exact sound.active j c

/-- What a pool promises of its connections. -/
structure Safe (maxSize : Nat) (s : PoolSystem) : Prop where
  bounded : s.shared.data.connections.length + s.shared.data.active.length ≤ maxSize
  heldOnce : ∀ (i j c : Nat) (t u : Task), s.tasks[i]? = some t → s.tasks[j]? = some u →
    t.pc = .body (some c) → u.pc = .body (some c) → i = j
  apart : ∀ c ∈ s.shared.data.connections, c ∉ s.shared.data.active.map (·.2)
  held : ∀ t ∈ s.tasks, ∀ c, t.pc = .body (some c) → c ∉ s.shared.data.connections
  empty : (∀ t ∈ s.tasks, ∀ c, t.pc ≠ .body (some c)) → s.shared.data.active = []

theorem connections_safe {maxSize : Nat} {timeout : ℚ} {s : PoolSystem}
    (reach : machine.Reach (· = State.initial maxSize timeout) Machine.Free s) :
    Safe maxSize s := by
  have sound := accounted reach
  have distinct := List.nodup_append.mp sound.accounts.distinct
  have apart : ∀ c ∈ s.shared.data.connections, c ∉ s.shared.data.active.map (·.2) :=
    fun c idle active => distinct.2.2 c idle c active rfl
  refine ⟨?_, ?_, apart, ?_, ?_⟩
  · have size := sound.accounts.size
    rwa [Data.all, List.length_append, List.length_map, sound.maxSize] at size
  · intro i j c t u ti uj holds holds'
    have mi := (sound.active i c).mpr ⟨t, ti, holds⟩
    have mj := (sound.active j c).mpr ⟨u, uj, holds'⟩
    exact congrArg Prod.fst (List.inj_on_of_nodup_map distinct.2.1 mi mj rfl)
  · intro t mem c holds idle
    obtain ⟨i, task⟩ := List.mem_iff_getElem?.mp mem
    exact apart c idle (List.mem_map.mpr ⟨(i, c), (sound.active i c).mpr ⟨t, task, holds⟩, rfl⟩)
  · intro none
    refine List.eq_nil_iff_forall_not_mem.mpr fun e mem => ?_
    obtain ⟨t, task, pc⟩ := (sound.active e.1 e.2).mp mem
    exact none t (List.mem_of_getElem? task) e.2 pc

/-- One connection, created after a first failure: a context holds it, another finds the pool
exhausted and gives up, and a third is given it after the first has been left. -/
theorem connections_safe_reused : ∃ s : PoolSystem, Safe 1 s ∧
    s.tasks.map (·.pc) = [.left .raised, .left .timeoutError, .body (some 1)] := by
  obtain ⟨s, reach, pcs⟩ : ∃ s, machine.Reach (· = State.initial 1 30) Machine.Free s ∧
      decide (s.tasks.map (·.pc) =
        [.left .raised, .left .timeoutError, .body (some 1)]) = true :=
    Machine.Reach.of_run (fun _ _ => true) _
      [.start ⟨none, 3, 0⟩, .resume 0 (.go 1 .osError), .resume 0 (.go 2 .returned),
        .start ⟨some 10, 2, 2⟩, .resume 1 (.go 3 .returned), .resume 1 (.go 13 .returned),
        .resume 0 (.finish .raised), .start ⟨none, 3, 14⟩, .resume 2 (.go 14 .returned)]
      (fun _ _ _ => trivial) (by decide +kernel)
  exact ⟨s, connections_safe reach, of_decide_eq_true pcs⟩

end SimplePool

end OmniMemory
