import OmniMemory.Concurrency.ConnectionPool
import Mathlib.Data.List.Nodup
import Mathlib.Data.List.Perm.Subperm

/-! How many connections an `AsyncConnectionPool` has. The capacity check counts the connections in
use and in the queue, but one that was just created, or is being given back, is in neither. When
every check that finds room counts all of them the pool keeps its bound. -/

namespace OmniMemory

open Interleave Asyncio

namespace ConnectionPool

/-- The number of connections that were created and not yet destroyed. -/
def State.live (s : State) : Nat := (List.range s.created).countP fun c => !s.destroyed.contains c

/-- The capacity check counts every live connection. -/
def State.Counted (s : State) : Prop :=
  ∀ c < s.created, c ∉ s.destroyed → c ∈ s.available ++ s.active.map Prod.snd

instance (s : State) : Decidable s.Counted := by
  unfold State.Counted
  infer_instance

theorem live_le_of_counted {s : State} (counted : s.Counted) :
    s.live ≤ s.active.length + s.available.length := by
  have once := (List.nodup_range (n := s.created)).filter fun c => !s.destroyed.contains c
  have inside : (List.range s.created).filter (fun c => !s.destroyed.contains c) ⊆
      s.available ++ s.active.map Prod.snd := by
    intro c mem
    simp only [List.mem_filter, List.mem_range, Bool.not_eq_true', List.contains_eq_mem,
      decide_eq_false_iff_not] at mem
    exact counted c mem.1 mem.2
  have fewer := (once.subperm inside).length_le
  rw [← List.countP_eq_length_filter, List.length_append, List.length_map] at fewer
  unfold State.live
  omega

/-- The code that leads to `r` creates nothing, and what was destroyed stays so. -/
structure Keeps (s : State) (r : Task × State) : Prop where
  created : r.2.created = s.created
  destroyed : s.destroyed ⊆ r.2.destroyed
  bound : r.2.maxConnections = s.maxConnections

namespace Keeps

variable {i : Nat} {ch : Choice} {t : Task} {s : State} {v : Validation} {c : Connection}
  {r : Task × State}

theorem live_le (h : Keeps s r) : r.2.live ≤ s.live := by
  unfold State.live
  rw [h.created]
  refine List.countP_mono_left fun c _ alive => ?_
  simp only [Bool.not_eq_true', List.contains_eq_mem, decide_eq_false_iff_not] at alive ⊢
  exact fun gone => alive (h.destroyed gone)

theorem after {s' : State} (h : Keeps s' r) (created : s'.created = s.created)
    (destroyed : s'.destroyed = s.destroyed) (bound : s'.maxConnections = s.maxConnections) :
    Keeps s r :=
  ⟨h.created.trans created, destroyed ▸ h.destroyed, h.bound.trans bound⟩

theorem destroy {pc : Pc} : Keeps s (destroy c t pc s) := ⟨rfl, List.subset_append_left _ _, rfl⟩

theorem final : Keeps s (final t s) := by
  unfold ConnectionPool.final
  split <;> exact ⟨rfl, fun _ => id, rfl⟩

theorem failed : Keeps s (failed t s) := by
  unfold ConnectionPool.failed
  split
  · exact .destroy
  · exact .final

theorem got : Keeps s (got i c v t s) := by
  unfold ConnectionPool.got
  cases v with
  | valid =>
    dsimp only
    split <;> exact ⟨rfl, fun _ => id, rfl⟩
  | invalid => exact .destroy
  | raises => exact .failed

theorem checkCapacity : Keeps s (checkCapacity i v t s) := by
  unfold ConnectionPool.checkCapacity
  split
  · exact ⟨rfl, fun _ => id, rfl⟩
  · split
    · exact got.after rfl rfl rfl
    · exact ⟨rfl, fun _ => id, rfl⟩

theorem attempt : Keeps s (attempt i v t s) := by
  unfold ConnectionPool.attempt
  split
  · exact got.after rfl rfl rfl
  · split
    · exact checkCapacity.after rfl rfl rfl
    · exact ⟨rfl, fun _ => id, rfl⟩

theorem giveBack : Keeps s (giveBack i c v t s) := by
  unfold ConnectionPool.giveBack
  cases v with
  | valid =>
    dsimp only
    split
    · exact ⟨rfl, fun _ => id, rfl⟩
    · exact destroy.after rfl rfl rfl
  | invalid => exact destroy.after rfl rfl rfl
  | raises => exact destroy.after rfl rfl rfl

theorem drain : Keeps s (drain t s) := by
  unfold ConnectionPool.drain
  split
  · exact destroy.after rfl rfl rfl
  · exact ⟨rfl, fun _ => id, rfl⟩

theorem closeNext {size : Nat} {visited : List Nat} : Keeps s (closeNext size visited t s) := by
  unfold ConnectionPool.closeNext
  split
  · exact ⟨rfl, fun _ => id, rfl⟩
  · split
    · exact .destroy
    · exact .drain

theorem of_resume (ran : resume i ch t s = some r) :
    Keeps s r ∨ t.pc = .creating ∧ Keeps { s with created := s.created + 1 } r := by
  cases runs_of_resume ran with
  | create at_ => exact .inr ⟨at_, got.after rfl rfl rfl⟩
  | quit _ => exact .inl ⟨rfl, fun _ => id, rfl⟩
  | attempt _ => exact .inl attempt
  | retry _ =>
    unfold retry
    split
    · exact .inl failed
    · exact .inl attempt
  | checkCapacity _ _ => exact .inl (checkCapacity.after rfl rfl rfl)
  | get _ _ => exact .inl (got.after rfl rfl rfl)
  | fail _ => exact .inl (failed.after rfl rfl rfl)
  | stop _ => exact .inl (final.after rfl rfl rfl)
  | abandon _ => exact .inl (final.after rfl rfl rfl)
  | final _ => exact .inl final
  | track _ _ _ => exact .inl ⟨rfl, fun _ => id, rfl⟩
  | park _ _ => exact .inl ⟨rfl, fun _ => id, rfl⟩
  | giveBack _ _ => exact .inl (giveBack.after rfl rfl rfl)
  | close _ => exact .inl closeNext
  | drain _ => exact .inl drain

end Keeps

/-- A step adds at most the connection that its task has created. -/
theorem live_of_resume {i : Nat} {ch : Choice} {t : Task} {s : State} {r : Task × State}
    (ran : resume i ch t s = some r) :
    r.2.live ≤ s.live + (if t.pc = .creating then 1 else 0) ∧
      r.2.maxConnections = s.maxConnections := by
  rcases Keeps.of_resume ran with kept | ⟨creating, kept⟩
  · exact ⟨Nat.le_add_right_of_le kept.live_le, kept.bound⟩
  · refine ⟨Nat.le_trans kept.live_le ?_, kept.bound⟩
    simp only [State.live, List.range_succ, List.countP_append, creating, if_true]
    exact Nat.add_le_add_left (List.countP_le_length) _

def creating (s : PoolSystem) : Nat := s.count fun t => t.pc == .creating

/-- A capacity check that finds room counts every live connection. -/
def CountsAll (s : PoolSystem) : Machine.Act Arg Choice → Prop
  | .start _ => True
  | .resume i ch => s.At i fun t => Checks i ch t s.shared →
      s.shared.active.length + s.shared.available.length < s.shared.maxConnections →
      s.shared.Counted

instance (s : PoolSystem) : (a : Machine.Act Arg Choice) → Decidable (CountsAll s a)
  | .start _ => inferInstanceAs (Decidable True)
  | .resume i _ => inferInstanceAs (Decidable (s.At i _))

theorem creating_eq_zero {maxConnections : Nat} {s : PoolSystem}
    {ok : PoolSystem → Machine.Act Arg Choice → Prop} (reach : Reachable maxConnections ok s)
    (free : s.shared.lock.locked = false) : creating s = 0 := by
  have kept := locked_of_reach reach
  rw [free] at kept
  refine List.countP_eq_zero.mpr fun t mem pc => ?_
  have locks : 0 < s.count fun t => t.pc.locks :=
    System.count_pos.mpr ⟨t, mem, by rw [eq_of_beq pc]; rfl⟩
  simp only [Bool.toNat_false] at kept
  omega

/-- The live connections and the one that is being created are within the bound. -/
structure Bounded (maxConnections : Nat) (s : PoolSystem) : Prop where
  bound : s.shared.maxConnections = maxConnections
  live : s.shared.live + creating s ≤ maxConnections

theorem bounded_of_reach {maxConnections : Nat} {s : PoolSystem}
    (reach : Reachable maxConnections CountsAll s) : Bounded maxConnections s := by
  induction reach with
  | init start =>
    cases start
    exact ⟨rfl, Nat.zero_le _⟩
  | @step s s' a reach met next ih =>
    cases a with
    | start a =>
      cases next
      refine ⟨ih.bound, ?_⟩
      have same : creating (s.add (machine.enter s.tasks.length a)) = creating s := by
        cases a <;> simp [creating, machine]
      rw [same]
      exact ih.live
    | resume i ch =>
      obtain ⟨t, t', sh, task, ran, rfl⟩ := Machine.next_resume.mp next
      have kept := live_of_resume ran
      have counted : creating (s.put i t' sh) + (if t.pc == .creating then 1 else 0) =
          creating s + (if t'.pc == .creating then 1 else 0) := System.count_put task
      refine ⟨kept.2.trans ih.bound, ?_⟩
      have bound := ih.live
      by_cases starts : t'.pc = .creating
      · -- the check that led here counted every live connection, and nobody else creates one
        obtain ⟨checks, found⟩ := resume_found ran (by rw [starts]; rfl)
        have room := found.room starts
        have all := live_le_of_counted (met t task checks room)
        have free : s.shared.lock.locked = false := by
          rcases checks.2 with ⟨-, woken⟩ | ⟨-, taken, -⟩
          · obtain ⟨lock, given⟩ := Option.ne_none_iff_exists'.mp woken
            exact (granted_lock (.inr given)).1
          · obtain ⟨lock, given⟩ := Option.ne_none_iff_exists'.mp taken
            exact (granted_lock (i := i) (.inl given)).1
        have none := creating_eq_zero reach free
        have before : t.pc ≠ .creating := by
          rcases checks.2 with ⟨h, -⟩ | ⟨-, -, h | ⟨h, -⟩⟩ <;> rw [h] <;> nofun
        have size := ih.bound
        simp only [starts, before, if_false, beq_self_eq_true, if_true, beq_eq_false_iff_ne.mpr,
          ne_eq, not_false_eq_true, Bool.false_eq_true, Nat.add_zero, System.shared_put] at *
        omega
      · simp only [System.shared_put, beq_iff_eq, starts, if_false] at *
        omega

/-- When every capacity check that finds room counts all live connections, there are never more of
them than `max_connections`. -/
theorem live_le_of_reach {maxConnections : Nat} {s : PoolSystem}
    (reach : Reachable maxConnections CountsAll s) : s.shared.live ≤ maxConnections :=
  Nat.le_trans (Nat.le_add_right _ _) (bounded_of_reach reach).live

/-- Two connections, as many as the pool may have: one in use, one back in the queue. -/
theorem live_le_two : ∃ s : PoolSystem, s.tasks.map (·.pc) = [.left, .body] ∧
    s.shared.available = [0] ∧ s.shared.live ≤ 2 := by
  obtain ⟨s, reach, facts⟩ : ∃ s, Reachable 2 CountsAll s ∧
      decide (s.tasks.map (·.pc) = [.left, .body] ∧ s.shared.available = [0]) = true :=
    Machine.Reach.of_run (fun s a => decide (CountsAll s a)) _
      [.start .acquire, .resume 0 (.go true .valid), .resume 0 (.go true .valid), .start .acquire,
        .resume 1 (.go true .valid), .resume 1 (.go true .valid), .resume 0 .finish,
        .resume 0 (.go true .valid)]
      (fun _ _ => of_decide_eq_true) (by decide +kernel)
  obtain ⟨pcs, queue⟩ := of_decide_eq_true facts
  exact ⟨s, pcs, queue, live_le_of_reach reach⟩

/-- With one connection: a task that waits for the lock while another creates a connection comes to
the capacity check before the other has recorded it. -/
theorem not_live_le_one : ¬ ∀ (maxConnections : Nat) (s : PoolSystem), 1 ≤ maxConnections →
    Reachable maxConnections Machine.Free s → s.shared.live ≤ maxConnections := by
  intro bound
  obtain ⟨s, reach, two⟩ : ∃ s, Reachable 1 Machine.Free s ∧ decide (s.shared.live = 2) = true :=
    Machine.Reach.of_run (fun _ _ => true) _
      [.start .acquire, .resume 0 (.go true .valid), .start .acquire, .resume 1 (.go true .valid),
        .resume 0 (.go true .valid), .resume 1 (.go true .valid), .resume 1 (.go true .valid)]
      (fun _ _ _ => trivial) (by decide +kernel)
  have most := bound 1 s (Nat.le_refl 1) reach
  rw [of_decide_eq_true two] at most
  omega

end ConnectionPool

end OmniMemory
