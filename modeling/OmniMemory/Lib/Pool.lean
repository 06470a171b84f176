import OmniMemory.Lib.Program

/-! Pools of programs that share a state. A `World` gives the program of every command, the
effects that each call may have on the shared state, and the moves that the surroundings make on
their own. A `Pool` is a shared state with the tasks started so far; every task keeps the calls
that it has made. `World.Step` is one step of a pool and `World.Reach` the pools that any
interleaving reaches when every step meets a condition. `World.next` computes steps, so that a
schedule can be run. -/

namespace Interleave

/-- A call that was made: its operation, the shared state before it, its answer, and the shared
state after it. -/
structure Event (Op : Type) (Res : Op → Type) (State : Type) where
  op : Op
  before : State
  answer : Res op
  after : State

/-- A command that runs, what is left of its program, and the calls it has made. -/
structure Task (Op : Type) (Res : Op → Type) (Out Cmd State : Type) where
  cmd : Cmd
  rest : Prog Op Res Out
  calls : List (Event Op Res State)

/-- A shared state and the tasks started so far, in the order of their starts. -/
structure Pool (Op : Type) (Res : Op → Type) (Out Cmd State : Type) where
  shared : State
  tasks : List (Task Op Res Out Cmd State)

/-- The programs of the commands, and what calls and surroundings do to the shared state. `exec`
and `move` take a choice of the surroundings; a choice that does not apply gives `none`. -/
structure World (Op : Type) (Res : Op → Type) (Out Cmd Choice Move State : Type) where
  code : Cmd → Prog Op Res Out
  exec : (op : Op) → Choice → State → Option (Res op × State)
  move : Move → State → Option State

/-- What a step of a pool did: a command started, the task at a position made a call, or the
surroundings moved. -/
inductive Label (Op : Type) (Res : Op → Type) (Cmd Move State : Type) where
  | start (c : Cmd)
  | call (i : Nat) (c : Cmd) (e : Event Op Res State)
  | move (m : Move)

def Label.isMove {Op : Type} {Res : Op → Type} {Cmd Move State : Type} :
    Label Op Res Cmd Move State → Bool
  | .move _ => true
  | _ => false

inductive Act (Cmd Choice Move : Type) where
  | start (c : Cmd)
  | call (i : Nat) (ch : Choice)
  | move (m : Move)

variable {Op : Type} {Res : Op → Type} {Out Cmd Choice Move State : Type}

/-- The result of a task that has returned. -/
def Task.result? (t : Task Op Res Out Cmd State) : Option Out :=
  match t.rest with
  | .ret a => some a
  | .call _ _ => none

theorem Task.result?_eq_some {t : Task Op Res Out Cmd State} {a : Out} :
    t.result? = some a ↔ t.rest = .ret a := by
  cases h : t.rest <;> simp [Task.result?, h]

/-- Every task of the pool has returned. -/
def Pool.Idle (p : Pool Op Res Out Cmd State) : Prop := ∀ t ∈ p.tasks, t.result? ≠ none

/-- The task after the call `e`, with `rest` to go on. -/
def Task.advance (t : Task Op Res Out Cmd State) (e : Event Op Res State)
    (rest : Prog Op Res Out) : Task Op Res Out Cmd State :=
  ⟨t.cmd, rest, t.calls ++ [e]⟩

namespace World

variable (W : World Op Res Out Cmd Choice Move State)

/-- The call `e` is one that the world allows. -/
def Calls (e : Event Op Res State) : Prop :=
  ∃ ch, W.exec e.op ch e.before = some (e.answer, e.after)

inductive Step : Pool Op Res Out Cmd State → Label Op Res Cmd Move State →
    Pool Op Res Out Cmd State → Prop where
  | start {p} (c : Cmd) : Step p (.start c) ⟨p.shared, p.tasks ++ [⟨c, W.code c, []⟩]⟩
  | call {p} {i : Nat} {t : Task Op Res Out Cmd State} {op : Op}
      {rest : Res op → Prog Op Res Out} {answer : Res op} {after : State}
      (task : p.tasks[i]? = some t) (here : t.rest = .call op rest)
      (call : W.Calls ⟨op, p.shared, answer, after⟩) :
      Step p (.call i t.cmd ⟨op, p.shared, answer, after⟩)
        ⟨after, p.tasks.set i (t.advance ⟨op, p.shared, answer, after⟩ (rest answer))⟩
  | move {p} {m : Move} {after : State} (moved : W.move m p.shared = some after) :
      Step p (.move m) ⟨after, p.tasks⟩

/-- The pools reached from an initial shared state when every step meets `ok`. -/
inductive Reach (init : State → Prop)
    (ok : Pool Op Res Out Cmd State → Label Op Res Cmd Move State → Prop) :
    Pool Op Res Out Cmd State → Prop where
  | init {s : State} (start : init s) : Reach init ok ⟨s, []⟩
  | step {p p' : Pool Op Res Out Cmd State} {l : Label Op Res Cmd Move State}
      (reach : Reach init ok p) (met : ok p l) (step : W.Step p l p') : Reach init ok p'

def Free : Pool Op Res Out Cmd State → Label Op Res Cmd Move State → Prop := fun _ _ => True

def next (p : Pool Op Res Out Cmd State) : Act Cmd Choice Move →
    Option (Label Op Res Cmd Move State × Pool Op Res Out Cmd State)
  | .start c => some (.start c, ⟨p.shared, p.tasks ++ [⟨c, W.code c, []⟩]⟩)
  | .call i ch =>
    match p.tasks[i]? with
    | none => none
    | some t =>
      match t.rest with
      | .ret _ => none
      | .call op rest =>
        match W.exec op ch p.shared with
        | none => none
        | some (answer, after) =>
          some (.call i t.cmd ⟨op, p.shared, answer, after⟩,
            ⟨after, p.tasks.set i (t.advance ⟨op, p.shared, answer, after⟩ (rest answer))⟩)
  | .move m => (W.move m p.shared).map fun after => (.move m, ⟨after, p.tasks⟩)

/-- The pool after a schedule of choices whose steps all pass the check. -/
def schedule (check : Pool Op Res Out Cmd State → Label Op Res Cmd Move State → Bool) :
    Pool Op Res Out Cmd State → List (Act Cmd Choice Move) → Option (Pool Op Res Out Cmd State)
  | p, [] => some p
  | p, a :: rest => (W.next p a).bind fun (l, p') =>
      if check p l then schedule check p' rest else none

variable {W}

theorem Step.of_next {p p' : Pool Op Res Out Cmd State} {a : Act Cmd Choice Move}
    {l : Label Op Res Cmd Move State} (h : W.next p a = some (l, p')) : W.Step p l p' := by
  cases a with
  | start c =>
    cases h
    exact .start c
  | call i ch =>
    simp only [next] at h
    split at h
    · contradiction
    · rename_i t task
      split at h
      · contradiction
      · rename_i op rest here
        split at h
        · contradiction
        · rename_i answer after effect
          cases h
          exact .call task here ⟨ch, effect⟩
  | move m =>
    simp only [next, Option.map_eq_some_iff] at h
    obtain ⟨after, moved, same⟩ := h
    cases same
    exact .move moved

namespace Reach

variable {init init' : State → Prop}
  {ok ok' : Pool Op Res Out Cmd State → Label Op Res Cmd Move State → Prop}
  {p p' : Pool Op Res Out Cmd State}

/-- A pool reached under conditions is reached under weaker ones. -/
theorem mono (h : W.Reach init ok p) (start : ∀ s, init s → init' s)
    (weaker : ∀ p l, ok p l → ok' p l) : W.Reach init' ok' p := by
  induction h with
  | init first => exact .init (start _ first)
  | step _ met step ih => exact .step ih (weaker _ _ met) step

theorem of_schedule {check : Pool Op Res Out Cmd State → Label Op Res Cmd Move State → Bool}
    {acts : List (Act Cmd Choice Move)}
    (sound : ∀ p l, W.Reach init ok p → check p l = true → ok p l) (h : W.Reach init ok p)
    (run : W.schedule check p acts = some p') : W.Reach init ok p' := by
  induction acts generalizing p with
  | nil => cases run; exact h
  | cons a rest ih =>
    obtain ⟨⟨l, q⟩, hq, run⟩ := Option.bind_eq_some_iff.mp run
    dsimp only at run
    split at run
    · exact ih (.step h (sound p l h ‹_›) (Step.of_next hq)) run
    · contradiction

/-- A schedule from `s` whose last pool is as `goal` says shows that such a pool is reached. -/
theorem of_run (check : Pool Op Res Out Cmd State → Label Op Res Cmd Move State → Bool)
    {goal : Pool Op Res Out Cmd State → Bool} (s : State) (acts : List (Act Cmd Choice Move))
    (sound : ∀ p l, W.Reach (· = s) ok p → check p l = true → ok p l)
    (run : (W.schedule check ⟨s, []⟩ acts).any goal = true) :
    ∃ p, W.Reach (· = s) ok p ∧ goal p = true := by
  obtain ⟨p, last, goal⟩ := (Option.any_eq_true _ _).mp run
  exact ⟨p, of_schedule sound (.init rfl) last, goal⟩

/-- A property of pools that holds at the start and that every step keeps holds of every pool
reached. -/
theorem invariant {P : Pool Op Res Out Cmd State → Prop} (h : W.Reach init ok p)
    (base : ∀ s, init s → P ⟨s, []⟩)
    (keep : ∀ p l p', W.Reach init ok p → P p → ok p l → W.Step p l p' → P p') : P p := by
  induction h with
  | init start => exact base _ start
  | step reach met step ih => exact keep _ _ _ reach ih met step

end Reach

theorem mem_tasks_set {tasks : List (Task Op Res Out Cmd State)} {i : Nat}
    {t u : Task Op Res Out Cmd State} (h : u ∈ tasks.set i t) : u = t ∨ u ∈ tasks :=
  (List.mem_or_eq_of_mem_set h).symm

/-- After a call, a task is the caller or a task at another position. -/
theorem other_of_mem_set {tasks : List (Task Op Res Out Cmd State)} {i : Nat}
    {t u : Task Op Res Out Cmd State} (h : u ∈ tasks.set i t) :
    u = t ∨ ∃ j, j ≠ i ∧ tasks[j]? = some u := by
  obtain ⟨j, hj, rfl⟩ := List.mem_iff_getElem.mp h
  by_cases same : i = j
  · subst same
    exact .inl (List.getElem_set_self _)
  · refine .inr ⟨j, Ne.symm same, ?_⟩
    rw [List.length_set] at hj
    rw [List.getElem_set_ne same, List.getElem?_eq_getElem hj]

theorem self_mem_set {tasks : List (Task Op Res Out Cmd State)} {i : Nat}
    {t t' : Task Op Res Out Cmd State} (task : tasks[i]? = some t) : t' ∈ tasks.set i t' :=
  List.mem_set (List.getElem?_eq_some_iff.mp task).1 t'

/-- The tasks before and after one of them stay when it is replaced. -/
theorem split_of_task {tasks : List (Task Op Res Out Cmd State)} {i : Nat}
    {t : Task Op Res Out Cmd State} (task : tasks[i]? = some t) :
    ∃ before after, tasks = before ++ t :: after ∧
      ∀ t', tasks.set i t' = before ++ t' :: after := by
  obtain ⟨bound, rfl⟩ := List.getElem?_eq_some_iff.mp task
  refine ⟨tasks.take i, tasks.drop (i + 1), ?_, fun t' => List.set_eq_take_append_cons_drop ▸ ?_⟩
  · rw [List.getElem_cons_drop, List.take_append_drop]
  · rw [if_pos bound]

/-- After a call, every task is there with the calls that it had made. -/
theorem grown_of_mem {tasks : List (Task Op Res Out Cmd State)} {i : Nat}
    {t u : Task Op Res Out Cmd State} {e : Event Op Res State} {rest : Prog Op Res Out}
    (task : tasks[i]? = some t) (mem : u ∈ tasks) :
    ∃ u' ∈ tasks.set i (t.advance e rest), u.calls <+: u'.calls := by
  obtain ⟨j, hj, rfl⟩ := List.mem_iff_getElem.mp mem
  by_cases same : i = j
  · subst same
    rw [List.getElem?_eq_getElem hj] at task
    cases task
    exact ⟨_, List.mem_set hj _, List.prefix_append _ _⟩
  · refine ⟨tasks[j], List.mem_iff_getElem.mpr ⟨j, by rwa [List.length_set], ?_⟩, List.prefix_rfl⟩
    rw [List.getElem_set_ne same]

end World

end Interleave
