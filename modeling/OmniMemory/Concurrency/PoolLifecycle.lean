import OmniMemory.Concurrency.ConnectionPool
import Mathlib.Data.List.Nodup

/-! The life of a connection in `AsyncConnectionPool`. Every connection is in one place: in the
queue, with one task, or destroyed. A task that has destroyed a connection still names it, so an
exception that comes up before it has another one destroys the connection again, and puts it back;
so does `close` with the connections in use. -/

namespace OmniMemory

open Interleave Asyncio

namespace ConnectionPool

def Pc.owns : Pc → Bool
  | trackLock | body | returning | returnLock => true
  | _ => false

def Pc.acquires : Pc → Bool
  | ready | checkLock | creating | waiting | destroying _ => true
  | _ => false

/-- Not where a connection of another place is being destroyed. -/
def Pc.tame : Pc → Bool
  | destroying .error | closingActive _ _ => false
  | _ => true

/-- How often the task has the connection `c`. -/
def Task.weight (t : Task) (c : Connection) : Nat :=
  if t.pc.owns && t.connection == some c then 1 else 0

/-- How often `c` is in the queue or destroyed. -/
def State.weight (s : State) (c : Connection) : Nat := s.available.count c + s.destroyed.count c

theorem Task.weight_at {t : Task} {pc : Pc} {c : Connection} (same : pc.owns = t.pc.owns) :
    (t.at pc).weight c = t.weight c := by
  simp [Task.weight, Task.at, same]

theorem Task.weight_of_not_owns {t : Task} {c : Connection} (none : t.pc.owns = false) :
    t.weight c = 0 := by
  simp [Task.weight, none]

/-- The code that leads to `r` moves connections from place to place; it brings `extra`. -/
structure Conserves (s : State) (extra : Connection → Nat) (r : Task × State) : Prop where
  weight : ∀ c, r.2.weight c + r.1.weight c = s.weight c + extra c
  tame : r.1.pc.tame = true
  created : r.2.created = s.created

def single (c : Nat) : Nat → Nat := fun c' => if c = c' then 1 else 0

namespace Conserves

variable {i : Nat} {ch : Choice} {t : Task} {s : State} {v : Validation} {c : Connection}
  {r : Task × State}

theorem destroy {pc : Pc} (out : pc.owns = false) (tame : pc.tame = true) :
    Conserves s (single c) (destroy c t pc s) where
  weight c' := by
    have own : (t.at pc).weight c' = 0 := Task.weight_of_not_owns out
    simp only [ConnectionPool.destroy, State.weight, List.count_append, own, single,
      List.count_singleton, beq_iff_eq]
    omega
  tame := tame
  created := rfl

theorem final (has : t.pc.owns = true ∨ t.connection = none) :
    Conserves s t.weight (final t s) := by
  unfold ConnectionPool.final
  split
  · rename_i c here
    have owns : t.pc.owns = true := has.resolve_right (by rw [here]; nofun)
    exact ⟨fun c' => by rw [Task.weight_at (show Pc.returning.owns = _ from owns.symm)], rfl, rfl⟩
  · rename_i here
    refine ⟨fun c' => ?_, rfl, rfl⟩
    simp [Task.weight, Task.at, here]

theorem failed (here : t.connection = none) : Conserves s t.weight (failed t s) := by
  unfold ConnectionPool.failed
  rw [here]
  exact final (.inr here)

theorem got (quiet : v ≠ .raises) : Conserves s (single c) (got i c v t s) := by
  unfold ConnectionPool.got
  cases v with
  | valid =>
    dsimp only
    split
    · refine ⟨fun c' => ?_, rfl, rfl⟩
      simp [track, State.weight, Task.weight, Task.at, Pc.owns, single]
    · refine ⟨fun c' => ?_, rfl, rfl⟩
      simp [State.weight, Task.weight, Task.at, Pc.owns, single]
  | invalid => exact destroy rfl rfl
  | raises => exact absurd rfl quiet

theorem of_queue {rest : List Connection} {s' : State} (queue : s.available = c :: rest)
    (h : Conserves s' (single c) r) (left : s'.available = rest)
    (destroyed : s'.destroyed = s.destroyed) (created : s'.created = s.created) :
    Conserves s (fun _ => 0) r where
  weight c' := by
    rw [h.weight]
    simp only [State.weight, left, destroyed, queue, List.count_cons, single, beq_iff_eq]
    omega
  tame := h.tame
  created := h.created.trans created

theorem after {s' : State} {extra : Connection → Nat} (h : Conserves s' extra r)
    (available : s'.available = s.available) (destroyed : s'.destroyed = s.destroyed)
    (created : s'.created = s.created) : Conserves s extra r where
  weight c' := by
    rw [h.weight]
    simp only [State.weight, available, destroyed]
  tame := h.tame
  created := h.created.trans created

theorem suspend {pc : Pc} {lock : Lock} (out : pc.owns = false) (tame : pc.tame = true) :
    Conserves s (fun _ => 0) (t.at pc, { s with lock }) :=
  ⟨fun c' => by rw [Task.weight_of_not_owns out]; rfl, tame, rfl⟩

theorem checkCapacity (quiet : v ≠ .raises) :
    Conserves s (fun _ => 0) (checkCapacity i v t s) := by
  unfold ConnectionPool.checkCapacity
  split
  · exact suspend rfl rfl
  · split
    · exact of_queue ‹_› (got quiet) rfl rfl rfl
    · exact suspend rfl rfl

theorem attempt (quiet : v ≠ .raises) : Conserves s (fun _ => 0) (attempt i v t s) := by
  unfold ConnectionPool.attempt
  split
  · exact of_queue ‹_› (got quiet) rfl rfl rfl
  · split
    · exact (checkCapacity quiet).after rfl rfl rfl
    · exact suspend rfl rfl

theorem giveBack : Conserves s (single c) (giveBack i c v t s) := by
  unfold ConnectionPool.giveBack
  cases v with
  | valid =>
    dsimp only
    split
    · refine ⟨fun c' => ?_, rfl, rfl⟩
      have own : (t.at .left).weight c' = 0 := Task.weight_of_not_owns rfl
      simp only [State.weight, own, List.count_append, List.count_singleton, single, beq_iff_eq]
      omega
    · exact (destroy rfl rfl).after rfl rfl rfl
  | invalid => exact (destroy rfl rfl).after rfl rfl rfl
  | raises => exact (destroy rfl rfl).after rfl rfl rfl

theorem drain : Conserves s (fun _ => 0) (drain t s) := by
  unfold ConnectionPool.drain
  split
  · exact of_queue ‹_› (destroy rfl rfl) rfl rfl rfl
  · exact ⟨fun c' => by rw [Task.weight_of_not_owns rfl]; rfl, rfl, rfl⟩

end Conserves

def Choice.raises : Choice → Bool
  | go _ .raises => true
  | _ => false

/-- The choice ends the loop of `acquire` by an exception: the task is cancelled or times out, the
creation of a connection fails, or too many connections have failed their validation. -/
def Task.fails (t : Task) : Choice → Bool
  | .cancel | .timeout => true
  | .go done _ => t.pc == .creating && !done ||
      t.pc == .destroying .invalid && decide (maxRetries ≤ t.currentRetry)
  | .finish => false

/-- What a step of a task must not do: `validate_connection` does not raise in the loop of
`acquire`; a loop that has destroyed a connection is not ended by an exception; `close` does not
begin while connections are in use. -/
def Careful (t : Task) (ch : Choice) (s : State) : Prop :=
  (t.pc.acquires = true → ch.raises = false ∧ (t.connection ≠ none → t.fails ch = false)) ∧
    (t.pc = .closeReady → ch.isGo = true → s.active = [])

instance (t : Task) (ch : Choice) (s : State) : Decidable (Careful t ch s) :=
  inferInstanceAs (Decidable (_ ∧ _))

/-- What a step does to connections: they move, and `create_connection` makes one. -/
theorem conserves_of_resume {i : Nat} {ch : Choice} {t : Task} {s : State} {r : Task × State}
    (tame : t.pc.tame = true) (careful : Careful t ch s) (ran : resume i ch t s = some r) :
    Conserves s t.weight r ∨
      Conserves { s with created := s.created + 1 } (single s.created) r ∧ t.pc = .creating := by
  -- a task that comes from where it has no connection of its own
  have out {r' : Task × State} (h : Conserves s (fun _ => 0) r') (none : t.pc.owns = false) :
      Conserves s t.weight r' :=
    ⟨fun c => by rw [h.weight, Task.weight_of_not_owns none], h.tame, h.created⟩
  have quiet_of {done : Bool} {v : Validation} (same : ch = .go done v)
      (acquires : t.pc.acquires = true) : v ≠ .raises := by
    rintro rfl
    have := (careful.1 acquires).1
    rw [same] at this
    cases this
  have none_of (acquires : t.pc.acquires = true) (fails : t.fails ch = true) :
      t.connection = none := by
    by_contra stale
    rw [(careful.1 acquires).2 stale] at fails
    cases fails
  cases runs_of_resume ran with
  | quit at_ =>
    refine .inl (out ⟨fun c => by rw [Task.weight_of_not_owns rfl], rfl, rfl⟩ ?_)
    rcases at_ with ⟨h, -⟩ | h | h | h | ⟨_, _, h⟩ <;> rw [h] <;> rfl
  | attempt at_ =>
    exact .inl (out (.attempt (quiet_of rfl (by rw [at_]; rfl))) (by rw [at_]; rfl))
  | retry at_ =>
    have acquires : t.pc.acquires = true := by rw [at_]; rfl
    unfold retry
    split
    · rename_i more
      exact .inl (.failed (none_of acquires (by simp [Task.fails, at_, more])))
    · exact .inl (out (.attempt (quiet_of rfl acquires)) (by rw [at_]; rfl))
  | checkCapacity at_ _ =>
    have quiet := quiet_of rfl (by rw [at_]; rfl)
    exact .inl (out ((Conserves.checkCapacity quiet).after rfl rfl rfl) (by rw [at_]; rfl))
  | create at_ =>
    have quiet := quiet_of rfl (by rw [at_]; rfl)
    exact .inr ⟨(Conserves.got quiet).after rfl rfl rfl, at_⟩
  | get at_ queue =>
    have quiet := quiet_of rfl (by rw [at_]; rfl)
    exact .inl (out (.of_queue queue (.got quiet) rfl rfl rfl) (by rw [at_]; rfl))
  | fail at_ =>
    have here : t.connection = none := by
      rcases at_ with ⟨at_, v, rfl⟩ | ⟨at_, rfl⟩
      · exact none_of (by rw [at_]; rfl) (by simp [Task.fails, at_])
      · exact none_of (by rw [at_]; rfl) rfl
    exact .inl ((Conserves.failed here).after rfl rfl rfl)
  | stop at_ =>
    have here : t.connection = none := by
      rcases at_ with at_ | at_ <;> exact none_of (by rw [at_]; rfl) rfl
    exact .inl ((Conserves.final (.inr here)).after rfl rfl rfl)
  | abandon at_ =>
    have has : t.pc.owns = true ∨ t.connection = none := by
      rcases at_ with at_ | at_
      · exact .inr (none_of (by rw [at_]; rfl) rfl)
      · exact .inl (by rw [at_]; rfl)
    exact .inl ((Conserves.final has).after rfl rfl rfl)
  | final at_ =>
    have has : t.pc.owns = true ∨ t.connection = none := by
      rcases at_ with at_ | at_ | ⟨at_, rfl⟩
      · exact .inl (by rw [at_]; rfl)
      · rw [at_] at tame
        cases tame
      · exact .inr (none_of (by rw [at_]; rfl) rfl)
    exact .inl (.final has)
  | track at_ _ here =>
    refine .inl ⟨fun c' => ?_, rfl, rfl⟩
    rw [track, Task.weight_at (show Pc.body.owns = t.pc.owns by rw [at_]; rfl)]
    rfl
  | park at_ _ =>
    refine .inl ⟨fun c' => ?_, rfl, rfl⟩
    rw [Task.weight_at (show Pc.returnLock.owns = t.pc.owns by rw [at_]; rfl)]
    rfl
  | @giveBack done v c lock at_ here =>
    have own : t.weight = single c := by
      funext c'
      rcases at_ with ⟨h, -⟩ | ⟨h, -⟩ <;>
        simp [Task.weight, single, h, here, Pc.owns]
    rw [own]
    exact .inl (Conserves.giveBack.after rfl rfl rfl)
  | close at_ =>
    rcases at_ with ⟨at_, rfl, rfl⟩ | at_
    · have unused := careful.2 at_ rfl
      refine .inl (out ?_ (by rw [at_]; rfl))
      simp only [closeNext, unused, ne_eq, not_true_eq_false, if_false, List.find?_nil]
      exact .drain
    · rw [at_] at tame
      cases tame
  | drain at_ => exact .inl (out .drain (by rw [at_]; rfl))

/-- Every step of the run is careful. -/
def CarefulStep (s : PoolSystem) : Machine.Act Arg Choice → Prop
  | .start _ => True
  | .resume i ch => s.At i fun t => Careful t ch s.shared

instance (s : PoolSystem) : (a : Machine.Act Arg Choice) → Decidable (CarefulStep s a)
  | .start _ => inferInstanceAs (Decidable True)
  | .resume i _ => inferInstanceAs (Decidable (s.At i _))

def holders (s : PoolSystem) (c : Connection) : Nat :=
  s.count fun t => t.pc.owns && t.connection == some c

/-- Every connection that was created is in one place, and no other is anywhere. -/
structure Placed (s : PoolSystem) : Prop where
  once : ∀ c : Nat, s.shared.weight c + holders s c = if c < s.shared.created then 1 else 0
  tame : ∀ t ∈ s.tasks, t.pc.tame = true

theorem Placed.step {s : PoolSystem} {i : Nat} {ch : Choice} {t : Task} {r : Task × State}
    (placed : Placed s) (task : s.tasks[i]? = some t) (careful : Careful t ch s.shared)
    (ran : resume i ch t s.shared = some r) : Placed (s.put i r.1 r.2) := by
  have moved (c : Nat) :
      holders (s.put i r.1 r.2) c + t.weight c = holders s c + r.1.weight c := System.count_put task
  have conserves := conserves_of_resume (placed.tame t (List.mem_of_getElem? task)) careful ran
  have tame : r.1.pc.tame = true := by
    rcases conserves with h | ⟨h, -⟩ <;> exact h.tame
  refine ⟨fun c => ?_, fun u mem => ?_⟩
  · have before := placed.once c
    have held := moved c
    rcases conserves with h | ⟨h, creating⟩
    · have weight := h.weight c
      rw [System.shared_put, h.created]
      omega
    · have weight : r.2.weight c + r.1.weight c = s.shared.weight c + single s.shared.created c :=
        h.weight c
      have created : r.2.created = s.shared.created + 1 := h.created
      have own : t.weight c = 0 := Task.weight_of_not_owns (by rw [creating]; rfl)
      rw [System.shared_put, created]
      simp only [single] at weight
      split at weight <;> split at before <;> split <;> omega
  · rcases List.mem_or_eq_of_mem_set mem with mem | rfl
    · exact placed.tame u mem
    · exact tame

theorem placed_of_reach {maxConnections : Nat} {s : PoolSystem}
    (reach : Reachable maxConnections CarefulStep s) : Placed s := by
  refine reach.invariant ?_ ?_ ?_
  · rintro sh rfl
    exact ⟨fun c => by simp [State.initial, State.weight, holders], by simp⟩
  · intro s a placed _
    refine ⟨fun c => ?_, fun t mem => ?_⟩
    · have same : holders (s.add (machine.enter s.tasks.length a)) c = holders s c := by
        cases a <;> simp [holders, machine, Pc.owns]
      rw [same]
      exact placed.once c
    · rcases List.mem_append.mp mem with mem | mem
      · exact placed.tame t mem
      · rw [List.mem_singleton.mp mem]
        cases a <;> rfl
  · intro s i ch t t' sh placed careful task ran
    exact placed.step task (careful t task) ran

/-- Each connection is with one body at most and is destroyed once at most, and a connection that
was destroyed is neither in the queue nor with a body. -/
structure Sound (s : PoolSystem) : Prop where
  exclusive : ∀ (i j : Nat) (t u : Task) (c : Connection), s.tasks[i]? = some t →
    s.tasks[j]? = some u → t.pc = .body → u.pc = .body → t.connection = some c →
    u.connection = some c → i = j
  once : s.shared.destroyed.Nodup
  gone : ∀ c ∈ s.shared.destroyed, c ∉ s.shared.available ∧
    ∀ t ∈ s.tasks, t.pc = .body → t.connection ≠ some c

theorem Placed.sound {s : PoolSystem} (placed : Placed s) : Sound s := by
  have most (c : Connection) : s.shared.available.count c + s.shared.destroyed.count c +
      holders s c ≤ 1 := by
    have once := placed.once c
    simp only [State.weight] at once
    split at once <;> omega
  have holds {t : Task} {c : Connection} (pc : t.pc = .body) (has : t.connection = some c) :
      (t.pc.owns && t.connection == some c) = true := by
    simp [pc, has, Pc.owns]
  refine ⟨?_, ?_, ?_⟩
  · intro i j t u c ti uj ht hu hc hc'
    by_contra apart
    have two : 2 ≤ holders s c := System.two_le_count ti uj apart (holds ht hc) (holds hu hc')
    have := most c
    omega
  · exact List.nodup_iff_count_le_one.mpr fun c => by have := most c; omega
  · intro c mem
    have there := List.count_pos_iff.mpr mem
    have all := most c
    constructor
    · intro back
      have := List.count_pos_iff.mpr back
      omega
    · intro t task pc has
      have : 0 < holders s c := System.count_pos.mpr ⟨t, task, holds pc has⟩
      omega

/-- When every step is careful, every connection is handed out to one body at a time and destroyed
at most once and for good. -/
theorem sound_of_reach {maxConnections : Nat} {s : PoolSystem}
    (reach : Reachable maxConnections CarefulStep s) : Sound s :=
  (placed_of_reach reach).sound

/-- A connection that failed its validation has been replaced, and a pool that was closed has handed
out another. -/
theorem sound_replaced : ∃ s : PoolSystem, s.tasks.map (·.pc) = [.left, .left, .body] ∧
    s.shared.destroyed = [0, 1] ∧ Sound s := by
  obtain ⟨s, reach, facts⟩ : ∃ s, Reachable 1 CarefulStep s ∧
      decide (s.tasks.map (·.pc) = [.left, .left, .body] ∧ s.shared.destroyed = [0, 1]) = true :=
    Machine.Reach.of_run (fun s a => decide (CarefulStep s a)) _
      [.start .acquire, .resume 0 (.go true .valid), .resume 0 (.go true .invalid),
        .resume 0 (.go true .valid), .resume 0 (.go true .valid), .resume 0 .finish,
        .resume 0 (.go true .valid), .start .close, .resume 1 (.go true .valid),
        .resume 1 (.go true .valid), .start .acquire, .resume 2 (.go true .valid),
        .resume 2 (.go true .valid)]
      (fun _ _ => of_decide_eq_true) (by decide +kernel)
  obtain ⟨pcs, destroyed⟩ := of_decide_eq_true facts
  exact ⟨s, pcs, destroyed, sound_of_reach reach⟩

/-- A connection fails its validation, and the creation of another one fails: the first is destroyed
again, and put back into the queue. -/
theorem not_sound_failed : ¬ ∀ (maxConnections : Nat) (s : PoolSystem), 1 ≤ maxConnections →
    Reachable maxConnections Machine.Free s → Sound s := by
  intro sound
  obtain ⟨s, reach, facts⟩ : ∃ s, Reachable 1 Machine.Free s ∧
      decide (s.shared.destroyed = [0, 0] ∧ s.shared.available = [0]) = true :=
    Machine.Reach.of_run (fun _ _ => true) _
      [.start .acquire, .resume 0 (.go true .valid), .resume 0 (.go true .invalid),
        .resume 0 (.go true .valid), .resume 0 (.go false .valid), .resume 0 (.go true .valid),
        .resume 0 (.go true .valid)]
      (fun _ _ _ => trivial) (by decide +kernel)
  obtain ⟨twice, back⟩ := of_decide_eq_true facts
  have once := (sound 1 s (Nat.le_refl 1) reach).once
  rw [twice] at once
  exact absurd once (by decide)

end ConnectionPool

end OmniMemory
