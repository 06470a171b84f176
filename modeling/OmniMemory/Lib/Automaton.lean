import Mathlib.Data.List.Induction

/-! Automata that answer events, one after the other. `run` gives the state after a sequence of
events and `answers` what was answered to them; `Meets` says that every event of a sequence comes
in a state in which it is as a condition says. An invariant is kept by each step, a simulation is
kept by each pair of steps, and a stretch is the events since the automaton last changed its
phase. -/

namespace Sequential

variable {Event Answer State State' Phase Mark : Type}

structure Automaton (Event Answer State : Type) where
  step : State → Event → Answer × State

namespace Automaton

variable (A : Automaton Event Answer State)

def run (s : State) (es : List Event) : State := es.foldl (fun s e => (A.step s e).2) s

def answers (s : State) : List Event → List Answer
  | [] => []
  | e :: es => (A.step s e).1 :: answers (A.step s e).2 es

def Meets (ok : State → Event → Prop) (s : State) : List Event → Prop
  | [] => True
  | e :: es => ok s e ∧ Meets ok (A.step s e).2 es

instance decidableMeets (ok : State → Event → Prop) [∀ s e, Decidable (ok s e)] :
    ∀ s es, Decidable (A.Meets ok s es)
  | _, [] => .isTrue trivial
  | s, e :: es =>
    have := decidableMeets ok (A.step s e).2 es
    inferInstanceAs (Decidable (ok s e ∧ A.Meets ok (A.step s e).2 es))

/-- The marks that the events leave, with their answers. -/
def marks (mark : Event → Answer → Option Mark) (s : State) : List Event → List Mark
  | [] => []
  | e :: es => (mark e (A.step s e).1).toList ++ marks mark (A.step s e).2 es

variable {A} {s : State} {e : Event} {es rest : List Event} {ok : State → Event → Prop}

@[simp] theorem run_nil : A.run s [] = s := rfl

@[simp] theorem run_cons : A.run s (e :: es) = A.run (A.step s e).2 es := rfl

@[simp] theorem answers_nil : A.answers s [] = [] := rfl

@[simp] theorem answers_cons :
    A.answers s (e :: es) = (A.step s e).1 :: A.answers (A.step s e).2 es := rfl

theorem run_append : A.run s (es ++ rest) = A.run (A.run s es) rest := List.foldl_append

theorem run_concat : A.run s (es ++ [e]) = (A.step (A.run s es) e).2 := run_append

theorem marks_concat {mark : Event → Answer → Option Mark} : A.marks mark s (es ++ [e]) =
    A.marks mark s es ++ (mark e (A.step (A.run s es) e).1).toList := by
  induction es generalizing s with
  | nil => simp [marks]
  | cons e es ih => simp [marks, ih]

theorem meets_append :
    A.Meets ok s (es ++ rest) ↔ A.Meets ok s es ∧ A.Meets ok (A.run s es) rest := by
  induction es generalizing s with
  | nil => simp [Meets]
  | cons e es ih => simp [Meets, ih, and_assoc]

theorem meets_concat : A.Meets ok s (es ++ [e]) ↔ A.Meets ok s es ∧ ok (A.run s es) e := by
  simp [meets_append, Meets]

/-- A condition that depends on the events only. -/
theorem meets_iff {P : Event → Prop} (same : ∀ s e, ok s e ↔ P e) :
    A.Meets ok s es ↔ ∀ e ∈ es, P e := by
  induction es generalizing s with
  | nil => simp [Meets]
  | cons e es ih => simp [Meets, ih, same]

/-- A condition is met along a sequence when every event meets it in the state before it. -/
theorem meets_iff_forall_prefix : A.Meets ok s es ↔
    ∀ before e, before ++ [e] <+: es → ok (A.run s before) e := by
  induction es using List.reverseRecOn with
  | nil =>
    refine iff_of_true trivial fun before e initial => ?_
    exact absurd (List.prefix_nil.mp initial) (by simp)
  | append_singleton es last ih =>
    rw [meets_concat, ih]
    constructor
    · rintro ⟨earlier, here⟩ before e initial
      rcases List.prefix_concat_iff.mp initial with same | initial
      · obtain ⟨rfl, one⟩ := List.append_inj' same rfl
        obtain rfl := List.singleton_inj.mp one
        exact here
      · exact earlier before e initial
    · intro all
      exact ⟨fun before e initial => all before e (initial.trans (List.prefix_append _ _)),
        all es last (List.prefix_refl _)⟩

/-- A property that holds at first, and that steps keep whose events are as `ok` says. -/
theorem invariant {P : State → Prop} (first : P s)
    (step : ∀ s e, P s → ok s e → P (A.step s e).2) (meets : A.Meets ok s es) :
    P (A.run s es) := by
  induction es generalizing s with
  | nil => exact first
  | cons e es ih => exact ih (step s e first meets.1) meets.2

/-- When all states reached have a property: `I` is what is kept of the state while every event is as
`ok` says, and an event that is not so leaves a state without the property. -/
theorem all_states_iff {P I : State → Prop} (first : I s) (keeps : ∀ s, I s → P s)
    (step : ∀ s e, I s → ok s e → I (A.step s e).2)
    (breaks : ∀ s e, I s → P (A.step s e).2 → ok s e) :
    (∀ before, before <+: es → P (A.run s before)) ↔ A.Meets ok s es := by
  constructor
  · intro holds
    induction es generalizing s with
    | nil => trivial
    | cons e es ih =>
      have fine : ok s e := breaks s e first (holds [e] (by simp))
      refine ⟨fine, ih (step s e first fine) fun before initial => ?_⟩
      exact holds (e :: before) ((List.prefix_cons_inj e).mpr initial)
  · rintro meets before ⟨rest, rfl⟩
    exact keeps _ (invariant first step (meets_append.mp meets).1)

section Simulation

variable {B : Automaton Event Answer State'} {t : State'} {R : State → State' → Prop}

/-- Two automata answer alike when their steps keep a relation and give equal answers, at the events
that are as `ok` says. -/
theorem simulates_under (first : R s t)
    (step : ∀ s t e, R s t → ok s e →
      (A.step s e).1 = (B.step t e).1 ∧ R (A.step s e).2 (B.step t e).2)
    (meets : A.Meets ok s es) : A.answers s es = B.answers t es ∧ R (A.run s es) (B.run t es) := by
  induction es generalizing s t with
  | nil => exact ⟨rfl, first⟩
  | cons e es ih =>
    obtain ⟨answer, next⟩ := step s t e first meets.1
    obtain ⟨answers, last⟩ := ih next meets.2
    exact ⟨by rw [answers_cons, answers_cons, answer, answers], last⟩

theorem meets_true (s : State) (es : List Event) : A.Meets (fun _ _ => True) s es := by
  induction es generalizing s with
  | nil => trivial
  | cons e es ih => exact ⟨trivial, ih _⟩

/-- Two automata whose steps keep a relation and give equal answers answer alike. -/
theorem simulates (first : R s t)
    (step : ∀ s t e, R s t → (A.step s e).1 = (B.step t e).1 ∧ R (A.step s e).2 (B.step t e).2)
    (es : List Event) : A.answers s es = B.answers t es ∧ R (A.run s es) (B.run t es) :=
  simulates_under first (fun s t e related _ => step s t e related) (meets_true s es)

end Simulation

section Stretch

variable [DecidableEq Phase] (phase : State → Phase)

variable (A) in
/-- The events since the phase was last entered. -/
def stretch (s : State) (es : List Event) : List Event :=
  (es.foldl (fun (r : State × List Event) e =>
    ((A.step r.1 e).2, if phase (A.step r.1 e).2 = phase r.1 then r.2 ++ [e] else [])) (s, [])).2

theorem stretch_fst (l : List Event) :
    (es.foldl (fun (r : State × List Event) e =>
      ((A.step r.1 e).2, if phase (A.step r.1 e).2 = phase r.1 then r.2 ++ [e] else []))
      (s, l)).1 = A.run s es := by
  induction es generalizing s l with
  | nil => rfl
  | cons e es ih => exact ih _

@[simp] theorem stretch_nil : A.stretch phase s [] = [] := rfl

theorem stretch_concat : A.stretch phase s (es ++ [e]) =
    if phase (A.run s (es ++ [e])) = phase (A.run s es) then A.stretch phase s es ++ [e]
    else [] := by
  rw [run_concat]
  simp only [stretch, List.foldl_append, List.foldl_cons, List.foldl_nil, stretch_fst]

/-- What a state has to do with its stretch, when every event is as `ok` says: it holds of a phase
just entered, and an event that does not change the phase keeps it. -/
theorem stretch_invariant {P : State → List Event → Prop} (first : P s [])
    (stay : ∀ s l e, P s l → ok s e → phase (A.step s e).2 = phase s → P (A.step s e).2 (l ++ [e]))
    (change : ∀ s l e, P s l → ok s e → phase (A.step s e).2 ≠ phase s → P (A.step s e).2 [])
    (meets : A.Meets ok s es) : P (A.run s es) (A.stretch phase s es) := by
  induction es using List.reverseRecOn with
  | nil => exact first
  | append_singleton es e ih =>
    obtain ⟨before, met⟩ := meets_concat.mp meets
    rw [stretch_concat, run_concat]
    split
    · exact stay _ _ _ (ih before) met ‹_›
    · exact change _ _ _ (ih before) met ‹_›

end Stretch

end Automaton

end Sequential
