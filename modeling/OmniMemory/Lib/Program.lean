import Mathlib.Logic.Basic
import Mathlib.Tactic.TypeStar

/-! Programs that make calls to their surroundings. A program is a result, or a call and the
program that goes on with its answer. Between two calls a program does not let others run, so the
calls are the points at which programs interleave. `Prog.run` interprets a program by a function
that answers every call, and `Prog.Ensures` has the rules for what such a run leads to; `Prog.Runs`
interprets it by a relation, `Prog.Always` has the rules for what every such run leads to, and
`Prog.Possibly` those for what some run does. -/

namespace Interleave

/-- A program: a result, or a call and what to do with each answer. -/
inductive Prog (Op : Type) (Res : Op → Type) (α : Type) : Type where
  | ret (a : α)
  | call (op : Op) (rest : Res op → Prog Op Res α)

namespace Prog

variable {Op : Type} {Res : Op → Type} {α β γ σ : Type}

/-- `p`, then the program that `next` gives for its result. -/
def bind : Prog Op Res α → (α → Prog Op Res β) → Prog Op Res β
  | .ret a, next => next a
  | .call op rest, next => .call op fun answer => (rest answer).bind next

instance : Monad (Prog Op Res) where
  pure := .ret
  bind := bind

/-- One call, which returns its answer. -/
def perform (op : Op) : Prog Op Res (Res op) := .call op .ret

@[simp] theorem pure_eq (a : α) : (pure a : Prog Op Res α) = .ret a := rfl

@[simp] theorem ret_bind (a : α) (next : α → Prog Op Res β) :
    ((.ret a : Prog Op Res α) >>= next) = next a := rfl

@[simp] theorem call_bind (op : Op) (rest : Res op → Prog Op Res α) (next : α → Prog Op Res β) :
    (Prog.call op rest >>= next) = .call op fun answer => rest answer >>= next := rfl

@[simp] theorem perform_bind (op : Op) (next : Res op → Prog Op Res β) :
    (perform op >>= next) = .call op next := rfl

theorem bind_assoc (p : Prog Op Res α) (f : α → Prog Op Res β) (g : β → Prog Op Res γ) :
    (p >>= f) >>= g = p >>= fun a => f a >>= g := by
  induction p with
  | ret a => rfl
  | call op rest ih => exact congrArg (Prog.call op) (funext ih)

theorem bind_ret (p : Prog Op Res α) : p >>= .ret = p := by
  induction p with
  | ret a => rfl
  | call op rest ih => exact congrArg (Prog.call op) (funext ih)

/-- Every call that the program may make is of an operation in `P`. -/
def Uses (P : Op → Prop) : Prog Op Res α → Prop
  | .ret _ => True
  | .call op rest => P op ∧ ∀ answer, (rest answer).Uses P

section Uses

variable {P P' : Op → Prop}

@[simp] theorem uses_ret (a : α) : (Prog.ret a : Prog Op Res α).Uses P := trivial

@[simp] theorem uses_call {op : Op} {rest : Res op → Prog Op Res α} :
    (Prog.call op rest).Uses P ↔ P op ∧ ∀ answer, (rest answer).Uses P := Iff.rfl

@[simp] theorem uses_perform {op : Op} : (perform op : Prog Op Res (Res op)).Uses P ↔ P op := by
  simp [perform]

theorem uses_op {op : Op} {next : Res op → Prog Op Res α} :
    (perform op >>= next).Uses P ↔ P op ∧ ∀ answer, (next answer).Uses P := Iff.rfl

theorem Uses.bind {p : Prog Op Res α} {next : α → Prog Op Res β} (first : p.Uses P)
    (rest : ∀ a, (next a).Uses P) : (p >>= next).Uses P := by
  induction p with
  | ret a => exact rest a
  | call op k ih => exact ⟨first.1, fun answer => ih answer (first.2 answer)⟩

theorem Uses.mono {p : Prog Op Res α} (uses : p.Uses P) (weaker : ∀ op, P op → P' op) :
    p.Uses P' := by
  induction p with
  | ret a => trivial
  | call op k ih => exact ⟨weaker _ uses.1, fun answer => ih answer (uses.2 answer)⟩

end Uses

/-- The result and the last state when `answer` answers every call. -/
def run (answer : (op : Op) → σ → Res op × σ) : Prog Op Res α → σ → α × σ
  | .ret a, s => (a, s)
  | .call op rest, s => (rest (answer op s).1).run answer (answer op s).2

section run

variable (answer : (op : Op) → σ → Res op × σ)

@[simp] theorem run_ret (a : α) (s : σ) : (Prog.ret a : Prog Op Res α).run answer s = (a, s) := rfl

@[simp] theorem run_call (op : Op) (rest : Res op → Prog Op Res α) (s : σ) :
    (Prog.call op rest).run answer s = (rest (answer op s).1).run answer (answer op s).2 := rfl

theorem run_bind (p : Prog Op Res α) (next : α → Prog Op Res β) (s : σ) :
    (p >>= next).run answer s = (next (p.run answer s).1).run answer (p.run answer s).2 := by
  induction p generalizing s with
  | ret a => rfl
  | call op rest ih => exact ih _ _

/-- When `answer` answers every call, the result and the last state are as `Q` says. -/
def Ensures (p : Prog Op Res α) (s : σ) (Q : α → σ → Prop) : Prop :=
  Q (p.run answer s).1 (p.run answer s).2

variable {answer}

@[simp] theorem ensures_ret {a : α} {s : σ} {Q : α → σ → Prop} :
    Ensures answer (.ret a : Prog Op Res α) s Q ↔ Q a s := Iff.rfl

theorem ensures_op {op : Op} {next : Res op → Prog Op Res α} {s : σ} {Q : α → σ → Prop} :
    Ensures answer (perform op >>= next) s Q ↔
      Ensures answer (next (answer op s).1) (answer op s).2 Q := Iff.rfl

theorem Ensures.imp {p : Prog Op Res α} {s : σ} {Q Q' : α → σ → Prop} (h : Ensures answer p s Q)
    (weaker : ∀ a s, Q a s → Q' a s) : Ensures answer p s Q' := weaker _ _ h

theorem Ensures.seq {p : Prog Op Res α} {next : α → Prog Op Res β} {s : σ} {Q : α → σ → Prop}
    {R : β → σ → Prop} (first : Ensures answer p s Q)
    (rest : ∀ a s', Q a s' → Ensures answer (next a) s' R) : Ensures answer (p >>= next) s R := by
  unfold Ensures
  rw [run_bind]
  exact rest _ _ first

end run

/-- The program may return `a` in state `s'`, when a call in a state is answered, and leads to a
state, as `serves` says. -/
inductive Runs (serves : (op : Op) → σ → Res op → σ → Prop) : Prog Op Res α → σ → α → σ → Prop where
  | ret (a : α) (s : σ) : Runs serves (.ret a) s a s
  | call {op : Op} {rest : Res op → Prog Op Res α} {s s' s'' : σ} {answer : Res op} {a : α}
      (served : serves op s answer s') (runs : Runs serves (rest answer) s' a s'') :
      Runs serves (.call op rest) s a s''

section Runs

variable {serves : (op : Op) → σ → Res op → σ → Prop}

@[simp] theorem runs_ret {a b : α} {s s' : σ} :
    Runs serves (.ret a : Prog Op Res α) s b s' ↔ b = a ∧ s' = s := by
  constructor
  · rintro ⟨⟩
    exact ⟨rfl, rfl⟩
  · rintro ⟨rfl, rfl⟩
    exact .ret _ _

theorem runs_op {op : Op} {next : Res op → Prog Op Res α} {a : α} {s s' : σ} :
    Runs serves (perform op >>= next) s a s' ↔
      ∃ answer s₁, serves op s answer s₁ ∧ Runs serves (next answer) s₁ a s' := by
  constructor
  · intro runs
    cases runs with
    | call served runs => exact ⟨_, _, served, runs⟩
  · rintro ⟨answer, s₁, served, runs⟩
    exact .call served runs

theorem runs_bind {p : Prog Op Res α} {next : α → Prog Op Res β} {b : β} {s s' : σ} :
    Runs serves (p >>= next) s b s' ↔
      ∃ a s₁, Runs serves p s a s₁ ∧ Runs serves (next a) s₁ b s' := by
  induction p generalizing s with
  | ret a =>
    constructor
    · exact fun runs => ⟨a, s, .ret a s, runs⟩
    · rintro ⟨_, _, ⟨⟩, runs⟩
      exact runs
  | call op rest ih =>
    constructor
    · rintro ⟨⟩
      rename_i served runs
      obtain ⟨a, s₁, first, second⟩ := (ih _).mp runs
      exact ⟨a, s₁, .call served first, second⟩
    · rintro ⟨a, s₁, first, second⟩
      cases first with
      | call served runs => exact .call served ((ih _).mpr ⟨a, s₁, runs, second⟩)

/-- A preorder that every call goes up in, a run goes up in. -/
theorem Runs.rel {R : σ → σ → Prop} (refl : ∀ s, R s s)
    (trans : ∀ {s s' s''}, R s s' → R s' s'' → R s s'')
    (step : ∀ op s answer s', serves op s answer s' → R s s') {p : Prog Op Res α} {a : α} {s s' : σ}
    (runs : Runs serves p s a s') : R s s' := by
  induction runs with
  | ret a s => exact refl s
  | call served _ ih => exact trans (step _ _ _ _ served) ih

/-- Whatever the answers are, the result and the last state are as `Q` says. -/
def Always (serves : (op : Op) → σ → Res op → σ → Prop) (p : Prog Op Res α) (s : σ)
    (Q : α → σ → Prop) : Prop := ∀ a s', Runs serves p s a s' → Q a s'

variable {Q Q' : α → σ → Prop} {R : β → σ → Prop} {s : σ}

@[simp] theorem always_ret {a : α} :
    Always serves (.ret a : Prog Op Res α) s Q ↔ Q a s := by
  constructor
  · exact fun always => always a s (.ret a s)
  · rintro here _ _ ⟨⟩
    exact here

theorem always_op {op : Op} {next : Res op → Prog Op Res α} :
    Always serves (perform op >>= next) s Q ↔
      ∀ answer s₁, serves op s answer s₁ → Always serves (next answer) s₁ Q := by
  constructor
  · exact fun always answer s₁ served a s' runs => always a s' (.call served runs)
  · intro always a s' runs
    obtain ⟨answer, s₁, served, runs⟩ := runs_op.mp runs
    exact always answer s₁ served a s' runs

theorem Always.imp {p : Prog Op Res α} (always : Always serves p s Q)
    (weaker : ∀ a s', Q a s' → Q' a s') : Always serves p s Q' :=
  fun a s' runs => weaker a s' (always a s' runs)

theorem Always.seq {p : Prog Op Res α} {next : α → Prog Op Res β} (first : Always serves p s Q)
    (rest : ∀ a s', Q a s' → Always serves (next a) s' R) : Always serves (p >>= next) s R := by
  intro b s'' runs
  obtain ⟨a, s', runs, runs'⟩ := runs_bind.mp runs
  exact rest a s' (first a s' runs) b s'' runs'

/-- Some answers lead to a result and a last state as `Q` says. -/
def Possibly (serves : (op : Op) → σ → Res op → σ → Prop) (p : Prog Op Res α) (s : σ)
    (Q : α → σ → Prop) : Prop := ∃ a s', Runs serves p s a s' ∧ Q a s'

@[simp] theorem possibly_ret {a : α} :
    Possibly serves (.ret a : Prog Op Res α) s Q ↔ Q a s := by
  constructor
  · rintro ⟨_, _, ⟨⟩, here⟩
    exact here
  · exact fun here => ⟨a, s, .ret a s, here⟩

theorem possibly_op {op : Op} {next : Res op → Prog Op Res α} :
    Possibly serves (perform op >>= next) s Q ↔
      ∃ answer s₁, serves op s answer s₁ ∧ Possibly serves (next answer) s₁ Q := by
  constructor
  · rintro ⟨a, s', runs, here⟩
    obtain ⟨answer, s₁, served, runs⟩ := runs_op.mp runs
    exact ⟨answer, s₁, served, a, s', runs, here⟩
  · rintro ⟨answer, s₁, served, a, s', runs, here⟩
    exact ⟨a, s', .call served runs, here⟩

theorem Possibly.imp {p : Prog Op Res α} (possibly : Possibly serves p s Q)
    (weaker : ∀ a s', Q a s' → Q' a s') : Possibly serves p s Q' := by
  obtain ⟨a, s', runs, here⟩ := possibly
  exact ⟨a, s', runs, weaker a s' here⟩

theorem Possibly.seq {p : Prog Op Res α} {next : α → Prog Op Res β} (first : Possibly serves p s Q)
    (rest : ∀ a s', Q a s' → Possibly serves (next a) s' R) : Possibly serves (p >>= next) s R := by
  obtain ⟨a, s', runs, here⟩ := first
  obtain ⟨b, s'', runs', there⟩ := rest a s' here
  exact ⟨b, s'', runs_bind.mpr ⟨a, s', runs, runs'⟩, there⟩

/-- When every call can be answered, every program has a run. -/
theorem possibly_true (total : ∀ op s, ∃ answer s', serves op s answer s') (p : Prog Op Res α)
    (s : σ) : Possibly serves p s fun _ _ => True := by
  induction p generalizing s with
  | ret a => exact possibly_ret.mpr trivial
  | call op rest ih =>
    obtain ⟨answer, s₁, served⟩ := total op s
    exact possibly_op.mpr ⟨answer, s₁, served, ih answer s₁⟩

/-- A preorder that the calls of a program go up in, its runs go up in. -/
theorem Uses.always_rel {P : Op → Prop} {R : σ → σ → Prop} {p : Prog Op Res α} (uses : p.Uses P)
    (refl : ∀ s, R s s) (trans : ∀ {s s' s''}, R s s' → R s' s'' → R s s'')
    (step : ∀ op s answer s', P op → serves op s answer s' → R s s') (s : σ) :
    Always serves p s fun _ s' => R s s' := by
  intro a s' runs
  induction runs with
  | ret a s => exact refl s
  | call served _ ih => exact trans (step _ _ _ _ uses.1 served) (ih (uses.2 _))

/-- Calls that leave the state leave it over a run. -/
theorem Uses.always_same {P : Op → Prop} {p : Prog Op Res α} (uses : p.Uses P)
    (same : ∀ op s answer s', P op → serves op s answer s' → s' = s) (s : σ) :
    Always serves p s fun _ s' => s' = s :=
  uses.always_rel (R := fun s s' => s' = s) (fun _ => rfl) (fun first second => second.trans first)
    same s

end Runs

end Prog

end Interleave
