import OmniMemory.Asyncio
import OmniMemory.Lib.Machine
import Mathlib.Data.List.Nodup

/-! `ResourcePool` and `_check_resource_expiration`. A task is one call; every call has one section
under `_lock`, which does not suspend. Resources are objects and are named by their `id`. A release
that drops a resource does not give its place back, so the pool runs out of places. -/

namespace OmniMemory

open Interleave Asyncio

namespace ResourcePool

abbrev Resource := Nat

/-- `ResourceStatus`, as far as a pool sets it. -/
inductive ResourceStatus where
  | active
  | released
deriving DecidableEq

structure ResourceHandle where
  resource : Resource
  status : ResourceStatus
  createdAt : Int
  ttl : Option Int

/-- What `is_healthy` of a resource does; a resource without it is healthy. -/
inductive Health where
  | healthy
  | unhealthy
  | raises

namespace ResourceHandle

/-- `is_healthy`; `none` when it raises. -/
def isHealthy (handle : ResourceHandle) (health : Health) : Option Bool :=
  if handle.status ≠ .active then some false
  else
    match health with
    | .healthy => some true
    | .unhealthy => some false
    | .raises => none

def isExpired (handle : ResourceHandle) (now : Int) : Bool :=
  match handle.ttl with
  | none => false
  | some ttl => decide (ttl ≤ now - handle.createdAt)

end ResourceHandle

/-- The attributes of a `ResourcePool` besides `_lock`. `active` maps the id of a resource to its
handle. `handles` is not an attribute: it is every handle that was made. -/
structure Data where
  minSize : Nat
  maxSize : Nat
  ttl : Option Int
  available : List (Resource × Int)
  active : List (Resource × Nat)
  currentSize : Int
  initialized : Bool
  event : Event
  handles : List ResourceHandle

abbrev State := Guarded Data

def State.initial (minSize maxSize : Nat) (ttl : Option Int) : State :=
  ⟨.free, ⟨minSize, maxSize, ttl, [], [], 0, false, ⟨false, []⟩, []⟩⟩

/-- A call on the pool. `acquire` has the time at which it gives up. -/
inductive Call where
  | initializePool
  | acquire (deadline : Int)
  | release (handle : Nat)
  | checkResourceExpiration
deriving DecidableEq

/-- How a call ends. -/
inductive Outcome where
  | done
  | handle (h : Nat)
  | allocationError
  | timeoutError
  | raised
  | cancelled

/-- What the surroundings answer in a section: the clock, what the calls of the factory give, and
the health of the resource. A call that raises or gives a false value is `none`. -/
structure Answers where
  now : Int
  made : List (Option Resource)
  health : Health

/-- What the next calls of `_create_resource` give, at most `n` of them. -/
def Answers.created (answers : Answers) (n : Nat) : List Resource :=
  (answers.made.take n).reduceOption

/-- The handle of a resource that is handed out, in `active_resources`. -/
def Data.handOut (resource : Resource) (now : Int) (d : Data) : Outcome × Data :=
  (.handle d.handles.length,
    { d with
      active := d.active.filter (·.1 != resource) ++ [(resource, d.handles.length)]
      handles := d.handles ++ [⟨resource, .active, now, d.ttl⟩] })

/-- Under `_lock` in `initialize`. -/
def Data.initializePool (answers : Answers) (d : Data) : Data :=
  if d.initialized then d
  else
    let created := answers.created d.minSize
    let available := d.available ++ created.map fun resource => (resource, answers.now)
    { d with
      available
      currentSize := d.currentSize + created.length
      initialized := true
      event := if available = [] then d.event else d.event.set }

/-- Under `_lock` in `acquire`; `none` when it has to wait. -/
def Data.acquire (answers : Answers) (d : Data) : Option Outcome × Data :=
  match d.available.getLast? with
  | some (resource, _) =>
    let (out, d) := { d with available := d.available.dropLast }.handOut resource answers.now
    (some out, d)
  | none =>
    if d.currentSize < d.maxSize then
      match answers.created 1 with
      | resource :: _ =>
        let (out, d) := { d with currentSize := d.currentSize + 1 }.handOut resource answers.now
        (some out, d)
      | [] => (some .allocationError, d)
    else (none, { d with event := d.event.clear })

/-- Under `_lock` in `release`. -/
def Data.release (h : Nat) (handle : ResourceHandle) (answers : Answers) (d : Data) :
    Outcome × Data :=
  let d := { d with active := d.active.filter (·.1 != handle.resource) }
  match handle.isHealthy answers.health with
  | none => (.raised, d)
  | some healthy =>
    let d := { d with handles := d.handles.set h { handle with status := .released } }
    if healthy && !handle.isExpired answers.now then
      (.done, { d with
        available := d.available ++ [(handle.resource, answers.now)]
        event := d.event.set })
    else (.done, d)

/-- Under `_lock` in `_check_resource_expiration`. The resources that it drops are closed after
it. -/
def Data.checkResourceExpiration (answers : Answers) (d : Data) : Data :=
  match d.ttl with
  | none => d
  | some ttl =>
    let valid := d.available.filter fun entry => answers.now - entry.2 < ttl
    { d with
      available := valid
      currentSize := d.currentSize - (d.available.length - valid.length : Nat) }

/-- The section of a call; `none` when the call has to wait for `_available_event`. -/
def Data.run (call : Call) (answers : Answers) (d : Data) : Option Outcome × Data :=
  match call with
  | .initializePool => (some .done, d.initializePool answers)
  | .acquire _ => d.acquire answers
  | .release h =>
    match d.handles[h]? with
    | none => (some .raised, d)
    | some handle =>
      let (out, d) := d.release h handle answers
      (some out, d)
  | .checkResourceExpiration => (some .done, d.checkResourceExpiration answers)

/-- Where a task is suspended. -/
inductive Pc where
  | ready
  | lock
  /-- in `_available_event.wait` -/
  | event
  | left (out : Outcome)

structure Task where
  id : Nat
  call : Call
  pc : Pc

/-- What the surroundings choose: that the task goes on, that it is cancelled, or that its wait
times out. -/
inductive Choice where
  | go (answers : Answers)
  | cancel
  | timeout

/-- The section of a call, and what follows it. -/
def enter (t : Task) (answers : Answers) (waited : Bool) (s : State) : Pc × State :=
  match s.withLock? t.id waited fun d => d.run t.call answers with
  | none => (.lock, s.park t.id waited)
  | some (some out, s) => (.left out, s)
  | some (none, s) =>
    match t.call with
    | .acquire deadline =>
      if deadline ≤ answers.now then (.left .timeoutError, s)
      else (.event, ⟨s.lock, { s.data with event := s.data.event.park t.id }⟩)
    | _ => (.left .raised, s)

def resume (t : Task) : Choice → State → Option (Pc × State)
  | .go answers, s =>
    match t.pc with
    | .ready =>
      if t.call = .initializePool ∧ s.data.initialized then some (.left .done, s)
      else some (enter t answers false s)
    | .lock => if (s.lock.wake t.id).isSome then some (enter t answers true s) else none
    | .event => if t.id ∈ s.data.event.waiters then none else some (enter t answers false s)
    | .left _ => none
  | .cancel, s =>
    match t.pc with
    | .ready => some (.left .cancelled, s)
    | .lock => some (.left .cancelled, s.abandon t.id)
    | .event =>
      some (.left .cancelled, ⟨s.lock, { s.data with event := s.data.event.abandon t.id }⟩)
    | .left _ => none
  | .timeout, s =>
    match t.pc with
    | .event =>
      some (.left .timeoutError, ⟨s.lock, { s.data with event := s.data.event.abandon t.id }⟩)
    | _ => none

def machine : Machine State Task Call Choice where
  enter i call := ⟨i, call, .ready⟩
  resume _ ch t s := (resume t ch s).map fun (pc, s) => ({ t with pc }, s)

abbrev ResourceSystem := System State Task

/-! The sections, and what they keep. -/

/-- Under `active_resources` or `available_resources`. -/
def Data.resources (d : Data) : List Resource :=
  d.available.map Prod.fst ++ d.active.map Prod.fst

/-- The size counts the resources, which are distinct and within the bound, and a resource that is
in use has a handle that was not released. -/
structure Accounts (d : Data) : Prop where
  size : d.currentSize = (d.available.length : Int) + d.active.length
  bound : d.currentSize ≤ d.maxSize
  once : d.resources.Nodup
  handles : ∀ r h, (r, h) ∈ d.active →
    ∃ handle, d.handles[h]? = some handle ∧ handle.resource = r ∧ handle.status = .active

/-- The release of a handle puts its resource back. -/
def ResourceHandle.Returns (handle : ResourceHandle) (answers : Answers) : Prop :=
  handle.isHealthy answers.health = some true ∧ handle.isExpired answers.now = false

/-- What a section must not do: `initialize` does not go beyond the bound, the factory does not give
a resource that is in the pool, and a release does not drop a resource that is in use. -/
def Data.Orderly (call : Call) (answers : Answers) (d : Data) : Prop :=
  match call with
  | .initializePool => d.initialized = false →
      d.currentSize + (answers.created d.minSize).length ≤ d.maxSize ∧
        (answers.created d.minSize ++ d.resources).Nodup
  | .acquire _ => d.available = [] → d.currentSize < d.maxSize →
      ∀ r ∈ answers.created 1, r ∉ d.active.map Prod.fst
  | .release h => ∀ handle ∈ d.handles[h]?,
      (handle.resource ∈ d.active.map Prod.fst ↔ handle.Returns answers)
  | .checkResourceExpiration => True

section Sections

variable {d : Data} {answers : Answers} {r : Resource} {h : Nat} {handle : ResourceHandle}

theorem map_filter_key {entries : List (Resource × Nat)} (once : (entries.map Prod.fst).Nodup) :
    (entries.filter (·.1 != r)).map Prod.fst = (entries.map Prod.fst).erase r := by
  rw [once.erase_eq_filter, List.filter_map]
  rfl

theorem filter_key_of_notMem {entries : List (Resource × Nat)}
    (out : r ∉ entries.map Prod.fst) : entries.filter (·.1 != r) = entries := by
  refine List.filter_eq_self.mpr fun entry mem => ?_
  rw [bne_iff_ne]
  rintro rfl
  exact out (List.mem_map_of_mem mem)

theorem Accounts.handOut {d' : Data} (acc : Accounts d) (now : Int)
    (size : d'.currentSize = (d'.available.length : Int) + d.active.length + 1)
    (bound : d'.currentSize ≤ d'.maxSize) (once : (d'.available.map Prod.fst ++
      (d.active.map Prod.fst ++ [r])).Nodup) (active : d'.active = d.active)
    (handles : d'.handles = d.handles) : Accounts (d'.handOut r now).2 := by
  have new : r ∉ d.active.map Prod.fst := fun mem => by
    have twice := (List.nodup_append.mp (List.nodup_append.mp once).2.1).2.2
    exact twice r mem r (List.mem_singleton_self r) rfl
  have kept : d'.active.filter (·.1 != r) = d.active := by
    rw [active, filter_key_of_notMem new]
  refine ⟨?_, bound, ?_, ?_⟩
  · simp only [Data.handOut, kept, List.length_append, List.length_singleton, size]
    omega
  · simpa [Data.handOut, Data.resources, kept] using once
  · intro r' h' mem
    simp only [Data.handOut, kept, handles, List.mem_append, List.mem_singleton,
      Prod.mk.injEq] at mem ⊢
    rcases mem with mem | ⟨rfl, rfl⟩
    · obtain ⟨handle, there, facts⟩ := acc.handles r' h' mem
      have inside := (List.getElem?_eq_some_iff.mp there).1
      exact ⟨handle, by rw [List.getElem?_append_left inside, there], facts⟩
    · exact ⟨_, List.getElem?_concat_length, rfl, rfl⟩

theorem Accounts.initializePool (acc : Accounts d)
    (orderly : d.Orderly .initializePool answers) : Accounts (d.initializePool answers) := by
  unfold Data.initializePool
  split
  · exact acc
  · rename_i fresh
    obtain ⟨bound, once⟩ := orderly (by simpa using fresh)
    refine ⟨?_, bound, ?_, acc.handles⟩
    · have size := acc.size
      simp only [List.length_append, List.length_map]
      omega
    · have same : ((answers.created d.minSize).map fun resource => (resource, answers.now)).map
          Prod.fst = answers.created d.minSize := by
        rw [List.map_map]
        exact List.map_id _
      simp only [Data.resources, List.map_append, same, List.append_assoc]
      refine (List.Perm.nodup_iff ?_).mp once
      rw [Data.resources, ← List.append_assoc, ← List.append_assoc]
      exact List.perm_append_comm.append_right _

theorem Accounts.acquire {deadline : Int} (acc : Accounts d)
    (orderly : d.Orderly (.acquire deadline) answers) : Accounts (d.acquire answers).2 := by
  have size := acc.size
  have once := acc.once
  unfold Data.acquire
  split
  · rename_i resource added last
    obtain ⟨rest, queue⟩ := List.getLast?_eq_some_iff.mp last
    simp only [queue, List.length_append, List.length_singleton] at size
    refine acc.handOut answers.now ?_ acc.bound ?_ rfl rfl
    · simp only [queue, List.dropLast_concat]
      omega
    · refine (List.Perm.nodup_iff ?_).mp once
      simp only [Data.resources, queue, List.dropLast_concat, List.map_append, List.map_cons,
        List.map_nil, List.append_assoc]
      exact List.perm_append_comm.append_left _
  · rename_i empty
    have none : d.available = [] := List.getLast?_eq_none_iff.mp empty
    split
    · rename_i room
      split
      · rename_i resource rest made
        have new := orderly none room resource (by rw [made]; exact List.mem_cons_self)
        refine acc.handOut answers.now ?_ ?_ ?_ rfl rfl
        · simp only [none, List.length_nil] at size ⊢
          omega
        · exact Int.add_one_le_iff.mpr room
        · simp only [Data.resources, none, List.map_nil, List.nil_append] at once ⊢
          exact List.nodup_append.mpr ⟨once, List.nodup_singleton _, fun a mem b last => by
            rw [List.mem_singleton.mp last]
            rintro rfl
            exact new mem⟩
      · exact acc
    · exact ⟨size, acc.bound, once, acc.handles⟩

theorem Accounts.release (acc : Accounts d) (orderly : d.Orderly (.release h) answers)
    (there : d.handles[h]? = some handle) : Accounts (d.release h handle answers).2 := by
  have used : handle.resource ∈ d.active.map Prod.fst ↔ handle.Returns answers :=
    orderly handle there
  have keys := (List.nodup_append.mp acc.once).2.1
  -- the handles of the resources that stay in use are as they were
  have handles (status : ResourceHandle) : ∀ r' h',
      (r', h') ∈ d.active.filter (·.1 != handle.resource) →
      ∃ handle', (d.handles.set h status)[h']? = some handle' ∧ handle'.resource = r' ∧
        handle'.status = .active := by
    intro r' h' mem
    obtain ⟨mem, other⟩ := List.mem_filter.mp mem
    obtain ⟨handle', there', resource, active⟩ := acc.handles r' h' mem
    refine ⟨handle', ?_, resource, active⟩
    rw [List.getElem?_set_ne, there']
    rintro rfl
    rw [there] at there'
    cases there'
    simp [resource] at other
  by_cases mine : handle.resource ∈ d.active.map Prod.fst
  · obtain ⟨healthy, fresh⟩ := used.mp mine
    have fewer : (d.active.filter (·.1 != handle.resource)).length + 1 = d.active.length := by
      have erased := List.length_erase_of_mem mine
      rw [← map_filter_key keys, List.length_map, List.length_map] at erased
      have := List.length_pos_of_mem mine
      rw [List.length_map] at this
      omega
    simp only [Data.release, healthy, fresh, Bool.not_false, Bool.and_true, if_true]
    refine ⟨?_, acc.bound, ?_, handles _⟩
    · have size := acc.size
      simp only [List.length_append, List.length_singleton]
      omega
    · refine (List.Perm.nodup_iff ?_).mp acc.once
      simp only [Data.resources, List.map_append, List.map_cons, List.map_nil, List.append_assoc,
        map_filter_key keys]
      exact (List.perm_cons_erase mine).append_left _
  · have kept := filter_key_of_notMem mine
    have stays : ¬ handle.Returns answers := fun returns => mine (used.mpr returns)
    rw [kept] at handles
    unfold Data.release
    rw [kept]
    dsimp only
    split
    · exact acc
    · rename_i healthy health
      split
      · rename_i returned
        refine absurd ⟨?_, ?_⟩ stays
        · simp_all
        · simp_all
      · exact ⟨acc.size, acc.bound, acc.once, handles _⟩

theorem Accounts.checkResourceExpiration (acc : Accounts d) :
    Accounts (d.checkResourceExpiration answers) := by
  unfold Data.checkResourceExpiration
  split
  · exact acc
  · rename_i ttl _
    have fewer := List.length_filter_le (fun entry => decide (answers.now - entry.2 < ttl)) d.available
    have size := acc.size
    have bound := acc.bound
    refine ⟨?_, ?_, ?_, acc.handles⟩
    · dsimp only
      omega
    · dsimp only
      omega
    · exact acc.once.sublist ((List.filter_sublist.map _).append_right _)

theorem Accounts.run {call : Call} (acc : Accounts d) (orderly : d.Orderly call answers) :
    Accounts (d.run call answers).2 := by
  cases call with
  | initializePool => exact acc.initializePool orderly
  | acquire deadline => exact acc.acquire orderly
  | release h =>
    simp only [Data.run]
    split
    · exact acc
    · exact acc.release orderly ‹_›
  | checkResourceExpiration => exact acc.checkResourceExpiration

end Sections

/-- The pool is at rest between steps: `_lock` is free, no task waits for it, and the accounts are
right. -/
structure Balanced (s : ResourceSystem) : Prop where
  free : s.shared.lock = .free
  calm : ∀ t ∈ s.tasks, t.pc ≠ .lock
  accounts : Accounts s.shared.data

theorem enter_free {t : Task} {answers : Answers} {d : Data} (acc : Accounts d)
    (orderly : d.Orderly t.call answers) :
    (enter t answers false ⟨.free, d⟩).2.lock = .free ∧
      (enter t answers false ⟨.free, d⟩).1 ≠ .lock ∧
      Accounts (enter t answers false ⟨.free, d⟩).2.data := by
  have kept := acc.run orderly
  simp only [enter, Guarded.withLock?_free]
  cases ran : d.run t.call answers with
  | mk out d' =>
    rw [ran] at kept
    cases out with
    | some out => exact ⟨rfl, nofun, kept⟩
    | none =>
      dsimp only
      split
      · split
        · exact ⟨rfl, nofun, kept⟩
        · exact ⟨rfl, nofun, kept.size, kept.bound, kept.once, kept.handles⟩
      · exact ⟨rfl, nofun, kept⟩

/-- Every step from a free `_lock` leaves it free, and keeps the accounts. -/
theorem resume_free {t : Task} {ch : Choice} {d : Data} {r : Pc × State} (acc : Accounts d)
    (calm : t.pc ≠ .lock) (orderly : ∀ answers, ch = .go answers → d.Orderly t.call answers)
    (ran : resume t ch ⟨.free, d⟩ = some r) :
    r.2.lock = .free ∧ r.1 ≠ .lock ∧ Accounts r.2.data := by
  have left (out : Outcome) : (Guarded.mk Lock.free d).lock = .free ∧ Pc.left out ≠ .lock ∧
      Accounts d := ⟨rfl, nofun, acc⟩
  have unparked (e : Event) : Accounts { d with event := e } :=
    ⟨acc.size, acc.bound, acc.once, acc.handles⟩
  cases ch with
  | go answers =>
    have entered := enter_free acc (orderly answers rfl)
    simp only [resume] at ran
    split at ran
    · split at ran <;> cases ran
      · exact left _
      · exact entered
    · exact absurd ‹_› calm
    · split at ran <;> cases ran
      exact entered
    · cases ran
  | cancel =>
    simp only [resume] at ran
    split at ran <;> cases ran
    · exact left _
    · exact absurd ‹_› calm
    · exact ⟨rfl, nofun, unparked _⟩
  | timeout =>
    simp only [resume] at ran
    split at ran <;> cases ran
    exact ⟨rfl, nofun, unparked _⟩

def OrderlyStep (s : ResourceSystem) : Machine.Act Call Choice → Prop
  | .resume i (.go answers) => s.At i fun t => s.shared.data.Orderly t.call answers
  | _ => True

/-- The systems that any interleaving of calls reaches, when every step meets `ok`. -/
abbrev Reachable (minSize maxSize : Nat) (ttl : Option Int)
    (ok : ResourceSystem → Machine.Act Call Choice → Prop) (s : ResourceSystem) : Prop :=
  machine.Reach (· = State.initial minSize maxSize ttl) ok s

theorem balanced_of_reach {minSize maxSize : Nat} {ttl : Option Int} {s : ResourceSystem}
    (reach : Reachable minSize maxSize ttl OrderlyStep s) : Balanced s := by
  refine reach.invariant ?_ ?_ ?_
  · rintro sh rfl
    refine ⟨rfl, by simp, rfl, Int.natCast_nonneg _, List.nodup_nil, ?_⟩
    intro r h mem
    cases mem
  · intro s call bal _
    refine ⟨bal.free, fun t mem => ?_, bal.accounts⟩
    rcases List.mem_append.mp mem with mem | mem
    · exact bal.calm t mem
    · rw [List.mem_singleton.mp mem]
      nofun
  · rintro ⟨⟨lock, data⟩, tasks⟩ i ch t t' sh bal orderly task ran
    obtain rfl : lock = .free := bal.free
    obtain ⟨r, resumed, same⟩ := Option.map_eq_some_iff.mp ran
    cases same
    obtain ⟨free, calm, accounts⟩ := resume_free bal.accounts
      (bal.calm t (List.mem_of_getElem? task))
      (fun answers go => by subst go; exact orderly t task) resumed
    refine ⟨free, fun u mem => ?_, accounts⟩
    rcases List.mem_or_eq_of_mem_set mem with mem | rfl
    · exact bal.calm u mem
    · exact calm

/-- The size counts the resources in the queue and in use, and is within the bound. When every
handle has been released, an `acquire` whose factory works gets a handle. -/
structure Accounted (s : ResourceSystem) : Prop where
  size : s.shared.data.currentSize =
    (s.shared.data.available.length : Int) + s.shared.data.active.length
  bound : s.shared.data.currentSize ≤ s.shared.data.maxSize
  served : (∀ handle ∈ s.shared.data.handles, handle.status = .released) →
    0 < s.shared.data.maxSize → ∀ deadline answers, answers.created 1 ≠ [] →
    ∃ s' h, machine.next (s.add (machine.enter s.tasks.length (.acquire deadline)))
        (.resume s.tasks.length (.go answers)) = some s' ∧
      s'.tasks[s.tasks.length]? = some ⟨s.tasks.length, .acquire deadline, .left (.handle h)⟩

theorem acquire_served {d : Data} {answers : Answers} (acc : Accounts d) (unused : d.active = [])
    (room : 0 < d.maxSize) (works : answers.created 1 ≠ []) :
    ∃ h d', d.acquire answers = (some (.handle h), d') := by
  unfold Data.acquire
  split
  · exact ⟨_, _, rfl⟩
  · rename_i empty
    have none : d.available = [] := List.getLast?_eq_none_iff.mp empty
    have size := acc.size
    rw [none, unused] at size
    simp only [List.length_nil] at size
    rw [if_pos (by omega)]
    split
    · exact ⟨_, _, rfl⟩
    · exact absurd ‹_› works

/-- When no `initialize` goes beyond the bound, the factory gives fresh resources, and no release
drops a resource that is in use, the accounts are right in every reachable state. -/
theorem accounted_of_reach {minSize maxSize : Nat} {ttl : Option Int} {s : ResourceSystem}
    (reach : Reachable minSize maxSize ttl OrderlyStep s) : Accounted s := by
  have bal := balanced_of_reach reach
  refine ⟨bal.accounts.size, bal.accounts.bound, ?_⟩
  intro released room deadline answers works
  have unused : s.shared.data.active = [] := by
    refine List.eq_nil_iff_forall_not_mem.mpr fun entry mem => ?_
    obtain ⟨handle, there, -, active⟩ := bal.accounts.handles entry.1 entry.2 mem
    rw [released handle (List.mem_of_getElem? there)] at active
    cases active
  obtain ⟨h, d', served⟩ := acquire_served bal.accounts unused room works
  have task : (s.add (machine.enter s.tasks.length (.acquire deadline))).tasks[s.tasks.length]? =
      some ⟨s.tasks.length, .acquire deadline, .ready⟩ := List.getElem?_concat_length
  have entered : resume ⟨s.tasks.length, .acquire deadline, .ready⟩ (.go answers) s.shared =
      some (.left (.handle h), ⟨.free, d'⟩) := by
    have shared : s.shared = ⟨.free, s.shared.data⟩ := by rw [← bal.free]
    rw [shared]
    simp [resume, enter, Guarded.withLock?_free, Data.run, served]
  have ran : machine.resume s.tasks.length (.go answers)
      ⟨s.tasks.length, .acquire deadline, .ready⟩ s.shared =
      some (⟨s.tasks.length, .acquire deadline, .left (.handle h)⟩, ⟨.free, d'⟩) := by
    simp [machine, entered]
  refine ⟨_, h, Machine.next_resume.mpr ⟨_, _, _, task, ran, rfl⟩, ?_⟩
  rw [System.getElem?_put task, if_pos rfl]

def plainAnswers (now : Int) (made : List (Option Resource)) : Answers := ⟨now, made, .healthy⟩

instance (handle : ResourceHandle) (answers : Answers) : Decidable (handle.Returns answers) :=
  inferInstanceAs (Decidable (_ ∧ _))

instance (call : Call) (answers : Answers) (d : Data) : Decidable (d.Orderly call answers) :=
  match call with
  | .initializePool => inferInstanceAs (Decidable (_ → _))
  | .acquire _ => inferInstanceAs (Decidable (_ → _ → ∀ r ∈ answers.created 1, _))
  | .release h => inferInstanceAs (Decidable (∀ handle ∈ d.handles[h]?, _))
  | .checkResourceExpiration => inferInstanceAs (Decidable True)

instance (s : ResourceSystem) : (a : Machine.Act Call Choice) → Decidable (OrderlyStep s a)
  | .start _ => inferInstanceAs (Decidable True)
  | .resume i (.go _) => inferInstanceAs (Decidable (s.At i _))
  | .resume _ .cancel => inferInstanceAs (Decidable True)
  | .resume _ .timeout => inferInstanceAs (Decidable True)

/-- A pool of one resource that has been released, and has expired. -/
theorem accounted_expired : ∃ s : ResourceSystem, s.shared.data.currentSize = 0 ∧
    s.shared.data.handles.map (·.status) = [.released] ∧ Accounted s := by
  obtain ⟨s, reach, facts⟩ : ∃ s, Reachable 1 1 (some 10) OrderlyStep s ∧
      decide (s.shared.data.currentSize = 0 ∧
        s.shared.data.handles.map (·.status) = [.released]) = true :=
    Machine.Reach.of_run (fun s a => decide (OrderlyStep s a)) _
      [.start .initializePool, .resume 0 (.go (plainAnswers 0 [some 7])), .start (.acquire 30),
        .resume 1 (.go (plainAnswers 1 [])), .start (.release 0),
        .resume 2 (.go (plainAnswers 2 [])), .start .checkResourceExpiration,
        .resume 3 (.go (plainAnswers 20 []))]
      (fun _ _ => of_decide_eq_true) (by decide +kernel)
  obtain ⟨size, released⟩ := of_decide_eq_true facts
  exact ⟨s, size, released, accounted_of_reach reach⟩

/-- An unhealthy resource that is released is dropped, and the pool counts it for ever. -/
theorem not_accounted_unhealthy : ¬ ∀ (minSize maxSize : Nat) (ttl : Option Int)
    (s : ResourceSystem), Reachable minSize maxSize ttl Machine.Free s → Accounted s := by
  intro accounted
  obtain ⟨s, reach, facts⟩ : ∃ s, Reachable 0 1 none Machine.Free s ∧
      decide (s.shared.data.currentSize = 1 ∧ s.shared.data.available = [] ∧
        s.shared.data.active = []) = true :=
    Machine.Reach.of_run (fun _ _ => true) _
      [.start (.acquire 30), .resume 0 (.go (plainAnswers 1 [some 7])), .start (.release 0),
        .resume 1 (.go ⟨2, [], .unhealthy⟩)]
      (fun _ _ _ => trivial) (by decide +kernel)
  obtain ⟨size, available, active⟩ := of_decide_eq_true facts
  have counted := (accounted 0 1 none s reach).size
  rw [size, available, active] at counted
  cases counted

end ResourcePool

end OmniMemory
