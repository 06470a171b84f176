import Mathlib.Data.List.Basic

/-! Tasks that share a state and loop. A `Machine` gives what a task does from one suspension point
to the next; between two such points no other task runs. A `System` is a shared state with the
tasks started so far, `Machine.Reach` the systems that any interleaving reaches when every step
meets a condition, and `Reach.invariant` the rule for what holds of all of them. `Machine.next`
computes steps, so that a schedule can be run. -/

namespace Interleave

variable {Shared Local Arg Choice : Type}

/-- The code of tasks. `enter` is a task that starts, `resume` runs the task at a position from
where it is suspended to its next suspension point, by a choice of the surroundings; a choice that
does not apply gives `none`. -/
structure Machine (Shared Local Arg Choice : Type) where
  enter : Nat → Arg → Local
  resume : Nat → Choice → Local → Shared → Option (Local × Shared)

/-- A shared state and the tasks started so far, in the order of their starts. -/
structure System (Shared Local : Type) where
  shared : Shared
  tasks : List Local

namespace System

/-- How many tasks are as `p` says. -/
def count (s : System Shared Local) (p : Local → Bool) : Nat := s.tasks.countP p

def add (s : System Shared Local) (t : Local) : System Shared Local := ⟨s.shared, s.tasks ++ [t]⟩

def put (s : System Shared Local) (i : Nat) (t : Local) (shared : Shared) : System Shared Local :=
  ⟨shared, s.tasks.set i t⟩

/-- The task at position `i`, if there is one, is as `P` says. -/
def At (s : System Shared Local) (i : Nat) (P : Local → Prop) : Prop :=
  ∀ t, s.tasks[i]? = some t → P t

instance (s : System Shared Local) (i : Nat) (P : Local → Prop) [DecidablePred P] :
    Decidable (s.At i P) :=
  decidable_of_iff (∀ t ∈ s.tasks[i]?, P t) Iff.rfl

variable {s : System Shared Local} {i j : Nat} {t t' u : Local} {shared : Shared}
  {p : Local → Bool}

@[simp] theorem shared_add : (s.add t).shared = s.shared := rfl

@[simp] theorem shared_put : (s.put i t shared).shared = shared := rfl

@[simp] theorem count_nil : (System.mk shared [] : System Shared Local).count p = 0 := rfl

@[simp] theorem count_add : (s.add t).count p = s.count p + (if p t then 1 else 0) := by
  simp [count, add, List.countP_append, List.countP_cons]

theorem count_put (task : s.tasks[i]? = some t) :
    (s.put i t' shared).count p + (if p t then 1 else 0) = s.count p + (if p t' then 1 else 0) := by
  obtain ⟨bound, here⟩ := List.getElem?_eq_some_iff.mp task
  have set := List.countP_set (p := p) (a := t') bound
  rw [here] at set
  have pos : p t = true → 0 < s.tasks.countP p := fun holds =>
    List.countP_pos_iff.mpr ⟨t, List.mem_of_getElem? task, holds⟩
  simp only [count, put, set]
  by_cases holds : p t = true
  · have := pos holds
    simp only [holds, if_true]
    omega
  · simp [holds]

theorem count_pos : 0 < s.count p ↔ ∃ t ∈ s.tasks, p t = true := List.countP_pos_iff

theorem count_pos_of_task (task : s.tasks[i]? = some t) (holds : p t = true) : 0 < s.count p :=
  count_pos.mpr ⟨t, List.mem_of_getElem? task, holds⟩

theorem two_le_count (ti : s.tasks[i]? = some t) (uj : s.tasks[j]? = some u) (apart : i ≠ j)
    (pt : p t = true) (pu : p u = true) : 2 ≤ s.count p := by
  wlog order : i < j generalizing i j t u
  · exact this uj ti apart.symm pu pt (by omega)
  obtain ⟨hi, rfl⟩ := List.getElem?_eq_some_iff.mp ti
  obtain ⟨hj, rfl⟩ := List.getElem?_eq_some_iff.mp uj
  have split := List.take_append_drop j s.tasks
  have before : 0 < (s.tasks.take j).countP p :=
    List.countP_pos_iff.mpr ⟨s.tasks[i], List.mem_take_iff_getElem.mpr ⟨i, by omega, rfl⟩, pt⟩
  have after : 0 < (s.tasks.drop j).countP p :=
    List.countP_pos_iff.mpr ⟨s.tasks[j], List.mem_drop_iff_getElem.mpr ⟨0, by omega, by simp⟩, pu⟩
  have total := congrArg (List.countP p) split
  rw [List.countP_append] at total
  simp only [count]
  omega

theorem getElem?_put (task : s.tasks[i]? = some t) :
    (s.put i t' shared).tasks[j]? = if i = j then some t' else s.tasks[j]? := by
  obtain ⟨bound, -⟩ := List.getElem?_eq_some_iff.mp task
  simp only [put, List.getElem?_set, bound, if_true]

/-- A task of a system after a start: the new one, or one that was there. -/
theorem getElem?_add (task : (s.add t).tasks[j]? = some u) :
    (j = s.tasks.length ∧ u = t) ∨ s.tasks[j]? = some u := by
  simp only [add, List.getElem?_append] at task
  split at task
  · exact .inr task
  · rw [List.getElem?_singleton] at task
    split at task
    · exact .inl ⟨by omega, (Option.some.inj task).symm⟩
    · contradiction

theorem getElem?_add_of_some (task : s.tasks[j]? = some u) : (s.add t).tasks[j]? = some u := by
  obtain ⟨bound, -⟩ := List.getElem?_eq_some_iff.mp task
  rw [add, List.getElem?_append_left bound, task]

end System

namespace Machine

/-- A choice of the next step. -/
inductive Act (Arg Choice : Type) where
  | start (a : Arg)
  | resume (i : Nat) (ch : Choice)

variable (M : Machine Shared Local Arg Choice)

def next (s : System Shared Local) : Act Arg Choice → Option (System Shared Local)
  | .start a => some (s.add (M.enter s.tasks.length a))
  | .resume i ch =>
    match s.tasks[i]? with
    | none => none
    | some t => (M.resume i ch t s.shared).map fun (t', shared) => s.put i t' shared

/-- The systems reached from an initial shared state when every step meets `ok`. -/
inductive Reach (init : Shared → Prop) (ok : System Shared Local → Act Arg Choice → Prop) :
    System Shared Local → Prop where
  | init {shared : Shared} (start : init shared) : Reach init ok ⟨shared, []⟩
  | step {s s' : System Shared Local} {a : Act Arg Choice} (reach : Reach init ok s) (met : ok s a)
      (next : M.next s a = some s') : Reach init ok s'

/-- The systems that steps of other tasks than `i` lead to. -/
inductive Others (i : Nat) (s : System Shared Local) : System Shared Local → Prop where
  | refl : Others i s s
  | step {s' s'' : System Shared Local} {a : Act Arg Choice} (others : Others i s s')
      (other : ∀ ch, a ≠ .resume i ch) (next : M.next s' a = some s'') : Others i s s''

def Free : System Shared Local → Act Arg Choice → Prop := fun _ _ => True

/-- The system after a schedule of choices whose steps all pass the check. -/
def schedule (check : System Shared Local → Act Arg Choice → Bool) :
    System Shared Local → List (Act Arg Choice) → Option (System Shared Local)
  | s, [] => some s
  | s, a :: rest =>
    if check s a then (M.next s a).bind fun s' => schedule check s' rest else none

variable {M}

theorem next_resume {s s' : System Shared Local} {i : Nat} {ch : Choice} :
    M.next s (.resume i ch) = some s' ↔ ∃ t t' shared, s.tasks[i]? = some t ∧
      M.resume i ch t s.shared = some (t', shared) ∧ s' = s.put i t' shared := by
  simp only [next]
  constructor
  · intro h
    split at h
    · contradiction
    · rename_i t task
      obtain ⟨⟨t', shared⟩, ran, rfl⟩ := Option.map_eq_some_iff.mp h
      exact ⟨t, t', shared, task, ran, rfl⟩
  · rintro ⟨t, t', shared, task, ran, rfl⟩
    simp [task, ran]

theorem Others.reach {init : Shared → Prop} {s s' : System Shared Local} {i : Nat}
    (others : M.Others i s s') (h : M.Reach init Free s) : M.Reach init Free s' := by
  induction others with
  | refl => exact h
  | step _ _ next ih => exact .step ih trivial next

theorem Others.task {s s' : System Shared Local} {i : Nat} {t : Local} (others : M.Others i s s')
    (task : s.tasks[i]? = some t) : s'.tasks[i]? = some t := by
  induction others with
  | refl => exact task
  | @step s1 s2 a _ other next ih =>
    cases a with
    | start a =>
      cases next
      exact System.getElem?_add_of_some ih
    | resume k ch =>
      obtain ⟨u, u', sh, at_, -, rfl⟩ := next_resume.mp next
      have apart : k ≠ i := by
        rintro rfl
        exact other ch rfl
      rw [System.getElem?_put at_, if_neg apart, ih]

namespace Reach

variable {init init' : Shared → Prop} {ok ok' : System Shared Local → Act Arg Choice → Prop}
  {s s' : System Shared Local}

/-- A system reached under conditions is reached under weaker ones. -/
theorem mono (h : M.Reach init ok s) (start : ∀ sh, init sh → init' sh)
    (weaker : ∀ s a, ok s a → ok' s a) : M.Reach init' ok' s := by
  induction h with
  | init first => exact .init (start _ first)
  | step _ met next ih => exact .step ih (weaker _ _ met) next

/-- A property that holds at the start, and that starts and steps of tasks keep, holds of every
system reached. -/
theorem invariant {P : System Shared Local → Prop} (h : M.Reach init ok s)
    (base : ∀ sh, init sh → P ⟨sh, []⟩)
    (start : ∀ s a, P s → ok s (.start a) → P (s.add (M.enter s.tasks.length a)))
    (resume : ∀ s i ch t t' sh, P s → ok s (.resume i ch) → s.tasks[i]? = some t →
      M.resume i ch t s.shared = some (t', sh) → P (s.put i t' sh)) : P s := by
  induction h with
  | init first => exact base _ first
  | @step s s' a reach met next ih =>
    cases a with
    | start a =>
      cases next
      exact start s a ih met
    | resume i ch =>
      obtain ⟨t, t', sh, task, ran, rfl⟩ := next_resume.mp next
      exact resume s i ch t t' sh ih met task ran

theorem of_schedule {check : System Shared Local → Act Arg Choice → Bool}
    {acts : List (Act Arg Choice)} (sound : ∀ s a, check s a = true → ok s a)
    (h : M.Reach init ok s) (run : M.schedule check s acts = some s') : M.Reach init ok s' := by
  induction acts generalizing s with
  | nil => cases run; exact h
  | cons a rest ih =>
    simp only [schedule] at run
    split at run
    · obtain ⟨q, hq, run⟩ := Option.bind_eq_some_iff.mp run
      exact ih (.step h (sound _ _ ‹_›) hq) run
    · contradiction

/-- A schedule from `shared` whose last system is as `goal` says shows that such a system is
reached. -/
theorem of_run (check : System Shared Local → Act Arg Choice → Bool)
    {goal : System Shared Local → Bool} (shared : Shared) (acts : List (Act Arg Choice))
    (sound : ∀ s a, check s a = true → ok s a)
    (run : (M.schedule check ⟨shared, []⟩ acts).any goal = true) :
    ∃ s, M.Reach (· = shared) ok s ∧ goal s = true := by
  obtain ⟨s, last, goal⟩ := (Option.any_eq_true _ _).mp run
  exact ⟨s, of_schedule sound (.init rfl) last, goal⟩

end Reach

end Machine

end Interleave
