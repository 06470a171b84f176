import OmniMemory.Lib.Discipline
import OmniMemory.Lifecycle.World
import Mathlib.Algebra.Ring.Nat

/-! The connections of `HandlerMemoryExpire.handle`. A command whose UPDATE matched no row reads
the memory's state through a second connection while it holds the first, so commands that miss
together can take every connection of the pool and then wait for one another. -/

namespace OmniMemory

open Interleave

namespace ExpirePool

open Lifecycle (Op Res Choice)

/-- The number of connections in use after a call. An exception of the release gives the
connection back all the same. -/
def inUse (n : Nat) : (op : Op) → Res op → Nat
  | .acquire, .ok () => n + 1
  | .release, _ => n - 1
  | _, _ => n

/-- What the commands share: the table, and the number of connections in use. -/
structure State where
  shared : Lifecycle.State
  held : Nat

/-- The effect of a call on a pool of `size` connections. A call that would take one more is not
answered. -/
def exec (X : External) (size : Nat) (op : Op) (ch : Choice) (s : State) :
    Option (Res op × State) :=
  (Lifecycle.exec X op ch s.shared).bind fun (answer, after) =>
    if inUse s.held op answer ≤ size then some (answer, ⟨after, inUse s.held op answer⟩) else none

structure Command where
  self : HandlerMemoryExpire
  now : DateTime
  command : ModelExpireMemoryCommand

/-- Expire commands of any handlers over one pool of `size` connections. -/
def world (X : External) (size : Nat) :
    World Op Res (Except PyError ModelMemoryExpireResult) Command Choice Empty State where
  code c := c.self.handle c.now c.command
  exec := exec X size
  move := fun m => nomatch m

abbrev ExpireTask := Task Op Res (Except PyError ModelMemoryExpireResult) Command State

abbrev Commands := Pool Op Res (Except PyError ModelMemoryExpireResult) Command State

/-- Where a command is: the number of connections that it holds, whether it is between an UPDATE
that matched no row and the connection of its state read, and whether the breaker has let it on. -/
structure Place where
  connections : Nat
  missed : Bool
  reading : Bool

def misses : (op : Op) → Res op → Bool
  | .updateExpired .., .ok none => true
  | _, _ => false

def allows : (op : Op) → Res op → Bool
  | .shouldAllowRequest, allowed => allowed
  | _, _ => false

/-- A command acquires a connection for the UPDATE and, when that misses, for the state read. -/
def discipline : Discipline Op Res Place where
  first := ⟨0, false, false⟩
  next s op answer :=
    { connections := inUse s.connections op answer
      missed := misses op answer || allows op answer && s.missed
      reading := allows op answer && s.missed }
  may s op := match op with
    | .acquire => s.connections = 0 ∨ s.connections = 1 ∧ s.reading = true
    | .release => 0 < s.connections
    | _ => True

def connections (t : ExpireTask) : Nat := (discipline.place t.calls).connections

/-- The task is between an UPDATE that matched no row and the connection of its state read. -/
def missed (t : ExpireTask) : Bool := (discipline.place t.calls).missed

def reading (t : ExpireTask) : Bool := (discipline.place t.calls).reading

def waits (t : ExpireTask) : Bool :=
  match t.rest with
  | .call .acquire _ => true
  | _ => false

/-- All connections are in use, and every task that holds one waits for another. -/
def Deadlocked (size : Nat) (p : Commands) : Prop :=
  p.shared.held = size ∧ ∀ t ∈ p.tasks, 0 < connections t → waits t = true

/-- After a missed UPDATE the breaker lets a command on only while fewer than `size` commands, this
one included, are between such an UPDATE and the connection of their state read. -/
def Spared (size : Nat) (p : Commands) : Label Op Res Command Empty State → Prop
  | .call i _ e => (p.tasks[i]?.any missed && allows e.op e.answer) = true →
      p.tasks.countP missed < size
  | _ => True

instance (size : Nat) (p : Commands) : (l : Label Op Res Command Empty State) →
    Decidable (Spared size p l)
  | .call .. => inferInstanceAs (Decidable (_ → _))
  | .start _ => inferInstanceAs (Decidable True)
  | .move _ => inferInstanceAs (Decidable True)

/-! ### The program follows the discipline -/

section Follows

variable {self : HandlerMemoryExpire} {s : Place} {n : Nat} {α : Type}

def Ends (n : Nat) (_ : α) (s : Place) : Prop := s.connections = n

theorem follows_withConnection {body : LifecycleProg (Except PyError α)}
    (may : discipline.may s .acquire)
    (follows : discipline.Follows (Ends (s.connections + 1)) body
      ⟨s.connections + 1, false, false⟩) :
    discipline.Follows (Ends s.connections) (withConnection body) s := by
  refine ⟨may, fun answer => ?_⟩
  cases answer with
  | error e => exact rfl
  | ok _ =>
    refine follows.seq fun outcome s' ends => ?_
    have held : s'.connections = s.connections + 1 := ends
    refine ⟨by rw [discipline]; omega, fun answer => ?_⟩
    have left : (discipline.next s' .release answer).connections = s.connections := by
      simp [discipline, inUse, held]
    cases answer <;> exact left

theorem follows_readCurrentState {id : UUID} :
    discipline.Follows (Ends 1) (self.readCurrentState id) ⟨1, true, false⟩ := by
  unfold HandlerMemoryExpire.readCurrentState
  split
  · exact rfl
  split
  · exact rfl
  split
  · exact rfl
  refine ⟨trivial, fun allowed => ?_⟩
  cases allowed with
  | false => exact rfl
  | true =>
    refine (follows_withConnection (.inr ⟨rfl, rfl⟩) ?_).seq ?_
    · refine ⟨trivial, fun answer => ?_⟩
      rcases answer with e | _ | ⟨state, revision⟩
      · exact rfl
      · exact ⟨trivial, fun _ => rfl⟩
      · exact ⟨trivial, fun _ => rfl⟩
    · intro outcome s ends
      have held : s.connections = 1 := ends
      split
      · exact ⟨trivial, fun _ => held⟩
      · exact ⟨trivial, fun _ => held⟩
      · exact ⟨trivial, fun _ => held⟩
      · exact held

theorem follows_explainMiss {command : ModelExpireMemoryCommand} :
    discipline.Follows (Ends 1) (self.explainMiss command) ⟨1, true, false⟩ := by
  refine follows_readCurrentState.seq fun outcome s ends => ?_
  have held : s.connections = 1 := ends
  split
  · exact held
  · exact held
  · exact held
  · exact held
  · exact held
  · exact ⟨trivial, fun _ => held⟩
  · refine ⟨trivial, fun _ => ?_⟩
    split
    · exact held
    · exact held

theorem follows_expireBlock {now : DateTime} {command : ModelExpireMemoryCommand} :
    discipline.Follows (Ends 1) (self.expireBlock now command) ⟨1, false, false⟩ := by
  refine ⟨trivial, fun answer => ?_⟩
  rcases answer with e | _ | revision
  · exact rfl
  · exact follows_explainMiss
  · exact ⟨trivial, fun _ => rfl⟩

theorem follows_handle (c : Command) :
    discipline.Follows (fun _ _ => True) (c.self.handle c.now c.command) discipline.first := by
  unfold HandlerMemoryExpire.handle
  split
  · trivial
  split
  · trivial
  split
  · trivial
  refine ⟨trivial, fun allowed => ?_⟩
  cases allowed with
  | false => trivial
  | true =>
    refine (follows_withConnection (.inl rfl) follows_expireBlock).seq fun outcome s ends => ?_
    split
    · exact ⟨trivial, fun _ => trivial⟩
    · exact ⟨trivial, fun _ => trivial⟩
    · exact ⟨trivial, fun _ => trivial⟩
    · trivial

end Follows

/-! ### The connections in use -/

section Pool

variable {X : External} {size : Nat} {p : Commands}
  {ok : Commands → Label Op Res Command Empty State → Prop}

theorem follows_of_reach (reach : (world X size).Reach (·.held = 0) ok p) :
    ∀ t ∈ p.tasks, discipline.Follows (fun _ _ => True) t.rest (discipline.place t.calls) :=
  Discipline.follows_of_reach follows_handle reach

theorem held_after {op : Op} {before after : State} {answer : Res op}
    (call : (world X size).Calls ⟨op, before, answer, after⟩) :
    after.held = inUse before.held op answer := by
  obtain ⟨ch, call⟩ := call
  obtain ⟨⟨answer', shared⟩, -, bounded⟩ := Option.bind_eq_some_iff.mp call
  dsimp only at bounded
  split at bounded
  · cases bounded
    rfl
  · contradiction

theorem inUse_add {op : Op} {answer : Res op} {m n : Nat} (may : op = .release → 0 < m) :
    inUse (m + n) op answer = inUse m op answer + n := by
  cases op <;> try rfl
  case acquire =>
    cases answer
    · rfl
    · simp only [inUse]
      omega
  case release =>
    have := may rfl
    simp only [inUse]
    omega

/-- The connections in use are those that the tasks hold. -/
theorem held_of_reach (reach : (world X size).Reach (·.held = 0) ok p) :
    p.shared.held = (p.tasks.map connections).sum := by
  refine reach.invariant (P := fun p => p.shared.held = (p.tasks.map connections).sum)
    (fun s none => none) ?_
  intro p l p' reach ih _ step
  cases step with
  | start c => simpa [connections, discipline] using ih
  | @call i t op rest answer after task here call =>
    obtain ⟨pre, post, old, new⟩ := World.split_of_task task
    have follows := follows_of_reach reach t (List.mem_of_getElem? task)
    rw [here] at follows
    have may : op = .release → 0 < connections t := by
      rintro rfl
      exact follows.1
    have now : connections (t.advance ⟨op, p.shared, answer, after⟩ (rest answer)) =
        inUse (connections t) op answer := by
      simp only [connections, Task.advance, Discipline.place_snoc]
      rfl
    simp only [old, List.map_append, List.map_cons, List.sum_append, List.sum_cons] at ih
    simp only [new, List.map_append, List.map_cons, List.sum_append, List.sum_cons, now,
      held_after call]
    rw [ih, Nat.add_left_comm, inUse_add may]
    omega
  | @move m _ _ => exact m.elim

theorem missed_of_reading {t : ExpireTask} (now : reading t = true) : missed t = true := by
  rcases List.eq_nil_or_concat t.calls with none | ⟨calls, e, some⟩
  · simp [reading, none, discipline] at now
  · rw [List.concat_eq_append] at some
    simp only [reading, some, Discipline.place_snoc] at now
    simp only [missed, some, Discipline.place_snoc]
    exact Bool.or_eq_true_iff.mpr (.inr now)

/-- In a run whose commands are spared, fewer than `size` wait for the connection of their read. -/
theorem reading_of_spared (roomy : 1 ≤ size)
    (reach : (world X size).Reach (·.held = 0) (Spared size) p) :
    p.tasks.countP reading < size := by
  refine reach.invariant (P := fun p => p.tasks.countP reading < size) (fun _ _ => roomy) ?_
  intro p l p' _ ih spared step
  cases step with
  | start c => simpa [reading, discipline, List.countP_append] using ih
  | @call i t op rest answer after task here call =>
    obtain ⟨pre, post, old, new⟩ := World.split_of_task task
    simp only [Spared, task, Option.any_some, Bool.and_eq_true] at spared
    rw [old] at ih spared
    rw [new, List.countP_append, List.countP_cons]
    rw [List.countP_append, List.countP_cons] at ih
    split
    · rename_i now
      have on : allows op answer = true ∧ missed t = true := by
        simpa [reading, Task.advance, discipline, missed] using now
      have few := spared ⟨on.2, on.1⟩
      have before : pre.countP reading ≤ pre.countP missed :=
        List.countP_mono_left fun _ _ => missed_of_reading
      have after : post.countP reading ≤ post.countP missed :=
        List.countP_mono_left fun _ _ => missed_of_reading
      rw [List.countP_append, List.countP_cons, if_pos on.2] at few
      omega
    · omega
  | @move m _ _ => exact m.elim

/-- A task that waits for a connection holds none, or it waits for the one of its state read. -/
theorem connections_le_of_waits {t : ExpireTask}
    (follows : discipline.Follows (fun _ _ => True) t.rest (discipline.place t.calls))
    (waiting : waits t = true) : connections t ≤ (reading t).toNat := by
  unfold waits at waiting
  split at waiting
  · rename_i rest here
    rw [here] at follows
    rcases follows.1 with none | ⟨one, reading⟩
    · simp [connections, none]
    · simp [connections, ExpirePool.reading, one, reading]
  · contradiction

theorem sum_le_countP {α : Type} {f : α → Nat} {q : α → Bool} {l : List α}
    (bound : ∀ a ∈ l, f a ≤ (q a).toNat) : (l.map f).sum ≤ l.countP q := by
  induction l with
  | nil => simp
  | cons a l ih =>
    have first := bound a List.mem_cons_self
    have others := ih fun b mem => bound b (List.mem_cons_of_mem a mem)
    rw [List.map_cons, List.sum_cons, List.countP_cons]
    cases here : q a with
    | true =>
      simp only [here, Bool.toNat_true, if_true] at first ⊢
      omega
    | false =>
      simp only [here, Bool.toNat_false, if_false, Bool.false_eq_true] at first ⊢
      omega

/-- A pool whose commands are spared is in no state in which every holder of a connection waits
for another one. -/
theorem no_deadlock_of_spared (roomy : 1 ≤ size)
    (reach : (world X size).Reach (·.held = 0) (Spared size) p) : ¬ Deadlocked size p := by
  rintro ⟨full, waiting⟩
  have few := reading_of_spared roomy reach
  have held := held_of_reach reach
  have sum : (p.tasks.map connections).sum ≤ p.tasks.countP reading := by
    refine sum_le_countP fun t mem => ?_
    rcases Nat.eq_zero_or_pos (connections t) with none | some
    · exact none ▸ Nat.zero_le _
    · exact connections_le_of_waits (follows_of_reach reach t mem) (waiting t mem some)
  omega

end Pool

/-! ### Runs -/

instance (size : Nat) (p : Commands) : Decidable (Deadlocked size p) :=
  inferInstanceAs (Decidable (_ ∧ ∀ t ∈ p.tasks, _ → _))

/-- An expire command at a revision that the memory does not have. -/
def stale : Command := ⟨Lifecycle.plainExpire, ⟨2025, 1, 2, 0⟩, ⟨1, 5, none⟩⟩

/-- One command waits for a second connection, while the other is about to make its UPDATE. -/
theorem no_deadlock_oneMisses : ∃ p : Commands,
    p.tasks.map waits = [true, false] ∧ p.tasks.map connections = [1, 1] ∧ ¬ Deadlocked 2 p := by
  obtain ⟨p, reach, at_⟩ : ∃ p : Commands,
      (world (.plain []) 2).Reach (· = ⟨Lifecycle.plainState [1] .active, 0⟩) (Spared 2) p ∧
        decide (p.tasks.map waits = [true, false] ∧ p.tasks.map connections = [1, 1]) = true :=
    World.Reach.of_run (fun p l => decide (Spared 2 p l)) _
      [.start stale, .start stale, .call 0 (.answer true), .call 1 (.answer true), .call 0 .run,
        .call 0 .run, .call 0 (.answer true), .call 1 .run]
      (fun _ _ _ => of_decide_eq_true) (by decide +kernel)
  have reach : (world (.plain []) 2).Reach (·.held = 0) (Spared 2) p :=
    reach.mono (by rintro s rfl; rfl) fun _ _ met => met
  obtain ⟨waiting, held⟩ := of_decide_eq_true at_
  exact ⟨p, waiting, held, no_deadlock_of_spared (Nat.le_succ 1) reach⟩

/-- With one connection, a command that misses waits for itself. -/
theorem not_no_deadlock_misses : ¬ ∀ (X : External) (size : Nat) (p : Commands), 1 ≤ size →
    (world X size).Reach (·.held = 0) World.Free p → ¬ Deadlocked size p := by
  intro free
  obtain ⟨p, reach, deadlocked⟩ : ∃ p : Commands,
      (world (.plain []) 1).Reach (· = ⟨Lifecycle.plainState [1] .active, 0⟩) World.Free p ∧
        decide (Deadlocked 1 p) = true :=
    World.Reach.of_run (fun _ _ => true) _
      [.start stale, .call 0 (.answer true), .call 0 .run, .call 0 .run, .call 0 (.answer true)]
      (fun _ _ _ _ => trivial) (by decide +kernel)
  have reach : (world (.plain []) 1).Reach (·.held = 0) World.Free p :=
    reach.mono (by rintro s rfl; rfl) fun _ _ met => met
  exact free (.plain []) 1 p (Nat.le_refl 1) reach (of_decide_eq_true deadlocked)

end ExpirePool

end OmniMemory
