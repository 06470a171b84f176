import OmniMemory.Concurrency.ConnectionPool

/-! The deadlock of `AsyncConnectionPool` on itself. A task that waits in `acquire` for a connection
holds the lock that a task needs to give one back, so nobody can give one back until the wait ends.
A run whose capacity checks never find the pool full has no such wait. -/

namespace OmniMemory

open Interleave Asyncio

namespace ConnectionPool

/-- The body of the task has ended, and its connection is not back in the queue. -/
def Pc.returns : Pc → Bool
  | returning | returnLock => true
  | _ => false

/-- Task `i` waits for a connection. Task `j` has a connection to give back, and has not given it
back whatever others do as long as `i` waits. -/
structure Deadlocked (s : PoolSystem) (i j : Nat) : Prop where
  waits : ∃ t, s.tasks[i]? = some t ∧ t.pc = .waiting
  returns : ∃ u, s.tasks[j]? = some u ∧ u.connection ≠ none ∧ u.pc.returns = true
  blocked : ∀ s', machine.Others i s s' → ∃ u, s'.tasks[j]? = some u ∧ u.pc.returns = true

section Blocked

variable {maxConnections : Nat} {s : PoolSystem} {i j : Nat} {t u : Task}

/-- While a task waits for a connection it has the lock. -/
theorem locked_of_waiting (reach : Reachable maxConnections Machine.Free s)
    (task : s.tasks[i]? = some t) (waits : t.pc = .waiting) : s.shared.lock.locked = true := by
  have kept := locked_of_reach reach
  have held := System.count_pos_of_task (p := fun t => t.pc.locks) task (by rw [waits]; rfl)
  cases locked : s.shared.lock.locked with
  | true => rfl
  | false =>
    rw [locked] at kept
    simp only [Bool.toNat_false] at kept
    omega

theorem returns_of_locked {ch : Choice} {r : Task × State} {s : State} (locked : s.lock.locked = true)
    (returns : u.pc.returns = true) (ran : resume j ch u s = some r) : r.1.pc.returns = true := by
  cases runs_of_resume ran with
  | park _ _ => rfl
  | giveBack at_ _ =>
    obtain ⟨free, -⟩ := granted_lock (at_.imp And.right And.right)
    rw [locked] at free
    cases free
  | quit at_ | attempt at_ | retry at_ | checkCapacity at_ | create at_ | get at_ | fail at_
  | stop at_ | abandon at_ | final at_ | track at_ | close at_ | drain at_ =>
    grind [Pc.returns]

/-- A task that waits for a connection blocks every task that is to give one back. -/
theorem deadlocked_of_waiting (reach : Reachable maxConnections Machine.Free s)
    (ti : s.tasks[i]? = some t) (waits : t.pc = .waiting) (uj : s.tasks[j]? = some u)
    (some_connection : u.connection ≠ none) (returns : u.pc.returns = true) :
    Deadlocked s i j := by
  refine ⟨⟨t, ti, waits⟩, ⟨u, uj, some_connection, returns⟩, fun s' others => ?_⟩
  induction others with
  | refl => exact ⟨u, uj, returns⟩
  | @step s1 s2 a others other next ih =>
    obtain ⟨u1, uj1, returns1⟩ := ih
    have locked := locked_of_waiting (others.reach reach) (others.task ti) waits
    cases a with
    | start a =>
      cases next
      exact ⟨u1, System.getElem?_add_of_some uj1, returns1⟩
    | resume k ch =>
      obtain ⟨v, v', sh, at_, ran, rfl⟩ := Machine.next_resume.mp next
      rw [System.getElem?_put at_]
      split
      · rename_i same
        subst same
        rw [uj1] at at_
        cases at_
        exact ⟨v', rfl, returns_of_locked locked returns1 ran⟩
      · exact ⟨u1, uj1, returns1⟩

end Blocked

/-- A capacity check with an empty queue finds fewer connections in use than the pool may have. -/
def Roomy (s : PoolSystem) : Machine.Act Arg Choice → Prop
  | .start _ => True
  | .resume i ch => s.At i fun t => Checks i ch t s.shared → s.shared.available = [] →
      s.shared.active.length < s.shared.maxConnections

instance (s : PoolSystem) : (a : Machine.Act Arg Choice) → Decidable (Roomy s a)
  | .start _ => inferInstanceAs (Decidable True)
  | .resume i _ => inferInstanceAs (Decidable (s.At i _))

/-- In a run whose capacity checks do not find the pool full, nobody waits for a connection. -/
theorem not_waiting_of_roomy {maxConnections : Nat} {s : PoolSystem}
    (reach : Reachable maxConnections Roomy s) : ∀ t ∈ s.tasks, t.pc ≠ .waiting := by
  refine reach.invariant (P := fun s => ∀ t ∈ s.tasks, t.pc ≠ .waiting) ?_ ?_ ?_
  · rintro sh rfl t mem
    cases mem
  · intro s a out _ t mem
    rcases List.mem_append.mp mem with mem | mem
    · exact out t mem
    · rw [List.mem_singleton.mp mem]
      cases a <;> nofun
  · intro s i ch t t' sh out roomy task ran u mem waits
    rcases List.mem_or_eq_of_mem_set mem with mem | rfl
    · exact out u mem waits
    · obtain ⟨checks, found⟩ := resume_found ran (by rw [waits]; rfl)
      obtain ⟨empty, full⟩ := found.full waits
      exact absurd (roomy t task checks empty) (Nat.not_lt.mpr full)

/-- A pool whose capacity checks do not find it full does not deadlock on itself. -/
theorem no_deadlock_of_roomy {maxConnections : Nat} {s : PoolSystem}
    (reach : Reachable maxConnections Roomy s) (i j : Nat) : ¬ Deadlocked s i j := by
  rintro ⟨⟨t, task, waits⟩, -, -⟩
  exact not_waiting_of_roomy reach t (List.mem_of_getElem? task) waits

/-- Two connections, of which one is being given back. -/
theorem no_deadlock_two : ∃ s : PoolSystem,
    s.tasks.map (·.pc) = [.returning, .body] ∧ ¬ Deadlocked s 1 0 := by
  obtain ⟨s, reach, pcs⟩ : ∃ s, Reachable 2 Roomy s ∧
      decide (s.tasks.map (·.pc) = [.returning, .body]) = true :=
    Machine.Reach.of_run (fun s a => decide (Roomy s a)) _
      [.start .acquire, .resume 0 (.go true .valid), .resume 0 (.go true .valid), .start .acquire,
        .resume 1 (.go true .valid), .resume 1 (.go true .valid), .resume 0 .finish]
      (fun _ _ => of_decide_eq_true) (by decide +kernel)
  exact ⟨s, of_decide_eq_true pcs, no_deadlock_of_roomy reach 1 0⟩

/-- Acquire contexts whose bodies end with healthy connections. -/
def Healthy (_ : PoolSystem) : Machine.Act Arg Choice → Prop
  | .start .acquire => True
  | .resume _ (.go _ v) => v = .valid
  | .resume _ .timeout => True
  | .resume _ .finish => True
  | _ => False

instance (s : PoolSystem) : (a : Machine.Act Arg Choice) → Decidable (Healthy s a)
  | .start .acquire => inferInstanceAs (Decidable True)
  | .start .close => inferInstanceAs (Decidable False)
  | .resume _ (.go _ v) => inferInstanceAs (Decidable (v = .valid))
  | .resume _ .timeout => inferInstanceAs (Decidable True)
  | .resume _ .finish => inferInstanceAs (Decidable True)
  | .resume _ .cancel => inferInstanceAs (Decidable False)

/-- With one connection: its holder has finished while another task waits for it. -/
theorem not_no_deadlock_one : ¬ ∀ (maxConnections : Nat) (s : PoolSystem), 1 ≤ maxConnections →
    Reachable maxConnections Healthy s → ∀ i j, ¬ Deadlocked s i j := by
  intro free
  obtain ⟨s, reach, at_⟩ : ∃ s, Reachable 1 Healthy s ∧ decide (s.tasks =
      [⟨some 0, 0, .returnLock⟩, ⟨none, 0, .waiting⟩]) = true :=
    Machine.Reach.of_run (fun s a => decide (Healthy s a)) _
      [.start .acquire, .resume 0 (.go true .valid), .resume 0 (.go true .valid), .start .acquire,
        .resume 1 (.go true .valid), .resume 0 .finish, .resume 0 (.go true .valid)]
      (fun _ _ => of_decide_eq_true) (by decide +kernel)
  have tasks := of_decide_eq_true at_
  refine free 1 s (Nat.le_refl 1) reach 1 0 ?_
  exact deadlocked_of_waiting (reach.mono (fun _ => id) fun _ _ _ => trivial)
    (by rw [tasks]; rfl) rfl (by rw [tasks]; rfl) (by simp) rfl

end ConnectionPool

end OmniMemory
