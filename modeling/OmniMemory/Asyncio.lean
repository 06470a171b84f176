import Mathlib.Data.List.Basic

/-! `asyncio` locks, semaphores and events, for tasks that are told apart by a number. A task that
cannot go on is parked among the waiters and goes on when it is woken, first come first served; a
task that is cancelled while it waits leaves the waiters. -/

namespace OmniMemory.Asyncio

/-- `asyncio.Lock`. -/
structure Lock where
  locked : Bool
  waiters : List Nat

namespace Lock

def free : Lock := ⟨false, []⟩

/-- `acquire`, when it does not have to wait. -/
def tryAcquire (l : Lock) : Option Lock :=
  if l.locked = false ∧ l.waiters = [] then some ⟨true, []⟩ else none

/-- `acquire`, when it has to wait. -/
def park (l : Lock) (i : Nat) : Lock := { l with waiters := l.waiters ++ [i] }

def wake (l : Lock) (i : Nat) : Option Lock :=
  if l.locked = false ∧ l.waiters.head? = some i then some ⟨true, l.waiters.tail⟩ else none

def abandon (l : Lock) (i : Nat) : Lock := { l with waiters := l.waiters.filter (· != i) }

def release (l : Lock) : Lock := { l with locked := false }

theorem tryAcquire_eq_some {l l' : Lock} :
    l.tryAcquire = some l' ↔ l.locked = false ∧ l.waiters = [] ∧ l' = ⟨true, []⟩ := by
  rw [tryAcquire, Option.ite_none_right_eq_some, and_assoc, Option.some_inj, eq_comm (a := l')]

theorem wake_eq_some {l l' : Lock} {i : Nat} : l.wake i = some l' ↔
    l.locked = false ∧ l.waiters.head? = some i ∧ l' = ⟨true, l.waiters.tail⟩ := by
  rw [wake, Option.ite_none_right_eq_some, and_assoc, Option.some_inj, eq_comm (a := l')]

end Lock

/-- What a lock guards. -/
structure Guarded (α : Type) where
  lock : Lock
  data : α

namespace Guarded

variable {α β : Type}

/-- The lock for a task that comes to it, or that has waited for it. -/
def grant (g : Guarded α) (i : Nat) (waited : Bool) : Option Lock :=
  if waited then g.lock.wake i else g.lock.tryAcquire

/-- `async with lock: body`, for a body that does not suspend: the lock is taken, and free again
before another task runs. It gives `none` when the task has to wait. -/
def withLock? (g : Guarded α) (i : Nat) (waited : Bool) (body : α → β × α) :
    Option (β × Guarded α) :=
  (g.grant i waited).map fun lock => ((body g.data).1, ⟨lock.release, (body g.data).2⟩)

def park (g : Guarded α) (i : Nat) (waited : Bool) : Guarded α :=
  if waited then g else { g with lock := g.lock.park i }

def abandon (g : Guarded α) (i : Nat) : Guarded α := { g with lock := g.lock.abandon i }

/-- A section whose lock nobody holds does not wait, and leaves the lock free. -/
theorem withLock?_free {data : α} {i : Nat} {body : α → β × α} :
    (Guarded.mk .free data).withLock? i false body =
      some ((body data).1, ⟨.free, (body data).2⟩) := rfl

/-- Nobody has waited for a lock that is free. -/
theorem withLock?_waited {data : α} {i : Nat} {body : α → β × α} :
    (Guarded.mk .free data).withLock? i true body = none := by
  simp [withLock?, grant, Lock.wake, Lock.free]

end Guarded

/-- `asyncio.Semaphore`. Of each waiter it is kept whether a permit has been given to it. -/
structure Semaphore where
  value : Nat
  waiters : List (Nat × Bool)
deriving DecidableEq

namespace Semaphore

/-- `acquire`, when it does not have to wait. -/
def tryAcquire (s : Semaphore) : Option Semaphore :=
  if s.value ≠ 0 ∧ s.waiters = [] then some ⟨s.value - 1, []⟩ else none

/-- `acquire`, when it has to wait. -/
def park (s : Semaphore) (i : Nat) : Semaphore := { s with waiters := s.waiters ++ [(i, false)] }

/-- The permit goes to the first waiter that has none. -/
def giveNext : List (Nat × Bool) → Option (List (Nat × Bool))
  | [] => none
  | (i, true) :: rest => (giveNext rest).map fun rest => (i, true) :: rest
  | (i, false) :: rest => some ((i, true) :: rest)

/-- `_wake_up_next`, when there is a permit. -/
def wakeUpNext (s : Semaphore) : Option Semaphore :=
  if s.value = 0 then none else (giveNext s.waiters).map fun waiters => ⟨s.value - 1, waiters⟩

/-- `_wake_up_next`, as long as there are permits and waiters for them. -/
def wakeAll : Nat → Semaphore → Semaphore
  | 0, s => s
  | n + 1, s =>
    match s.wakeUpNext with
    | none => s
    | some s => wakeAll n s

def release (s : Semaphore) : Semaphore :=
  let s : Semaphore := { s with value := s.value + 1 }
  s.wakeUpNext.getD s

/-- The semaphore without the waiter `i`, and with `value` permits to give. -/
def leave (s : Semaphore) (i : Nat) (value : Nat) : Semaphore :=
  wakeAll value ⟨value, s.waiters.filter (·.1 != i)⟩

/-- A waiter that has been given a permit goes on. -/
def wake (s : Semaphore) (i : Nat) : Option Semaphore :=
  if (i, true) ∈ s.waiters then some (s.leave i s.value) else none

def abandon (s : Semaphore) (i : Nat) : Semaphore :=
  s.leave i (if (i, true) ∈ s.waiters then s.value + 1 else s.value)

/-- The tasks that wait. -/
def ids (s : Semaphore) : List Nat := s.waiters.map (·.1)

/-- The permits that nobody holds: those to be given, and those given to tasks that still wait. -/
def permits (s : Semaphore) : Nat := s.value + s.waiters.countP (·.2)

section Permits

variable {s s' : Semaphore} {i n v : Nat} {ws ws' : List (Nat × Bool)}

theorem giveNext_some (given : giveNext ws = some ws') :
    ws'.countP (·.2) = ws.countP (·.2) + 1 ∧ ws'.map (·.1) = ws.map (·.1) := by
  induction ws generalizing ws' with
  | nil => cases given
  | cons w ws ih =>
    obtain ⟨i, has⟩ := w
    cases has with
    | true =>
      obtain ⟨rest, found, rfl⟩ := Option.map_eq_some_iff.mp given
      obtain ⟨count, same⟩ := ih found
      simp [count, same]
    | false =>
      cases given
      simp

theorem wakeUpNext_some (woken : s.wakeUpNext = some s') :
    s'.permits = s.permits ∧ s'.ids = s.ids := by
  simp only [wakeUpNext] at woken
  split at woken
  · cases woken
  · obtain ⟨waiters, given, rfl⟩ := Option.map_eq_some_iff.mp woken
    obtain ⟨count, same⟩ := giveNext_some given
    refine ⟨?_, same⟩
    simp only [permits, count]
    omega

theorem wakeAll_permits : (wakeAll n s).permits = s.permits ∧ (wakeAll n s).ids = s.ids := by
  induction n generalizing s with
  | zero => exact ⟨rfl, rfl⟩
  | succ n ih =>
    simp only [wakeAll]
    split
    · exact ⟨rfl, rfl⟩
    · rename_i woken
      have same := wakeUpNext_some woken
      exact ⟨ih.1.trans same.1, ih.2.trans same.2⟩

theorem release_permits : s.release.permits = s.permits + 1 ∧ s.release.ids = s.ids := by
  have more : ({ s with value := s.value + 1 } : Semaphore).permits = s.permits + 1 := by
    simp only [permits]
    omega
  simp only [release]
  cases woken : ({ s with value := s.value + 1 } : Semaphore).wakeUpNext with
  | none => exact ⟨more, rfl⟩
  | some s' =>
    have same := wakeUpNext_some woken
    exact ⟨same.1.trans more, same.2⟩

theorem park_permits : (s.park i).permits = s.permits ∧ (s.park i).ids = s.ids ++ [i] := by
  simp [park, permits, ids, List.countP_append]

theorem tryAcquire_permits (taken : s.tryAcquire = some s') :
    s'.permits + 1 = s.permits ∧ s'.ids = [] := by
  obtain ⟨⟨there, none⟩, eq⟩ := Option.ite_none_right_eq_some.mp taken
  cases eq
  refine ⟨?_, rfl⟩
  simp only [permits, none, List.countP_nil]
  omega

theorem leave_ids : (s.leave i v).ids = s.ids.filter (· != i) := by
  rw [leave, wakeAll_permits.2]
  simp [ids, List.filter_map, Function.comp_def]

/-- A waiter without a permit takes none with it. -/
theorem countP_filter_of_not_mem (without : (i, true) ∉ ws) :
    (ws.filter (·.1 != i)).countP (·.2) = ws.countP (·.2) := by
  rw [List.countP_filter]
  refine List.countP_congr fun w mem => ?_
  obtain ⟨j, has⟩ := w
  have : has = true → j ≠ i := by
    rintro rfl rfl
    exact without mem
  simpa using this

/-- A waiter with a permit takes that one with it. -/
theorem countP_filter_of_mem (unique : (ws.map (·.1)).Nodup) (given : (i, true) ∈ ws) :
    (ws.filter (·.1 != i)).countP (·.2) + 1 = ws.countP (·.2) := by
  induction ws with
  | nil => cases given
  | cons w ws ih =>
    rw [List.map_cons, List.nodup_cons] at unique
    rcases List.mem_cons.mp given with rfl | given
    · have without : (i, true) ∉ ws := fun mem => unique.1 (List.mem_map_of_mem mem)
      simp [countP_filter_of_not_mem without]
    · have apart : w.1 ≠ i := by
        rintro rfl
        exact unique.1 (List.mem_map.mpr ⟨_, given, rfl⟩)
      have := ih unique.2 given
      simp only [List.filter_cons, bne_iff_ne, ne_eq, apart, not_false_eq_true, if_true,
        List.countP_cons]
      omega

theorem wake_permits (unique : s.ids.Nodup) (woken : s.wake i = some s') :
    s'.permits + 1 = s.permits ∧ s'.ids = s.ids.filter (· != i) := by
  obtain ⟨given, eq⟩ := Option.ite_none_right_eq_some.mp woken
  cases eq
  refine ⟨?_, leave_ids⟩
  have := countP_filter_of_mem unique given
  rw [leave, wakeAll_permits.1]
  simp only [permits]
  omega

end Permits

end Semaphore

/-- `asyncio.Event`, with the tasks that wait for it. -/
structure Event where
  flag : Bool
  waiters : List Nat

namespace Event

/-- `set`; it wakes the tasks that wait. -/
def set (_ : Event) : Event := ⟨true, []⟩

/-- `clear`; tasks that were woken go on all the same. -/
def clear (e : Event) : Event := { e with flag := false }

def park (e : Event) (i : Nat) : Event := { e with waiters := e.waiters ++ [i] }

def abandon (e : Event) (i : Nat) : Event := { e with waiters := e.waiters.filter (· != i) }

end Event

end OmniMemory.Asyncio
