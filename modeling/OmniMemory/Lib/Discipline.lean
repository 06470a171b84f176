import OmniMemory.Lib.Pool

/-! Disciplines for the calls of a program. A `Discipline` says from the answers which place a
program is at and which calls it may make there. A program that follows it does so whatever the
answers are, so in every pool the next call of a task is one that its place allows. -/

namespace Interleave

/-- The places of a program: where it starts, where an answer takes it, and the calls it may
make. -/
structure Discipline (Op : Type) (Res : Op → Type) (Place : Type) where
  first : Place
  next : Place → (op : Op) → Res op → Place
  may : Place → Op → Prop

namespace Discipline

variable {Op : Type} {Res : Op → Type} {Out Cmd Choice Move State Place α β : Type}
  {D : Discipline Op Res Place} {Q : α → Place → Prop} {R : β → Place → Prop} {s : Place}

/-- From the place `s` the program makes only calls that it may make, and it returns with `Q` for
its result and its last place. -/
def Follows (D : Discipline Op Res Place) (Q : α → Place → Prop) : Prog Op Res α → Place → Prop
  | .ret a, s => Q a s
  | .call op rest, s => D.may s op ∧ ∀ answer, D.Follows Q (rest answer) (D.next s op answer)

/-- A program in sequence, from what was shown of the first. -/
theorem Follows.seq {p : Prog Op Res α} {next : α → Prog Op Res β} (first : D.Follows Q p s)
    (rest : ∀ a s, Q a s → D.Follows R (next a) s) : D.Follows R (p >>= next) s := by
  induction p generalizing s with
  | ret a => exact rest a s first
  | call op k ih => exact ⟨first.1, fun answer => ih answer (first.2 answer)⟩

def place (D : Discipline Op Res Place) (calls : List (Event Op Res State)) : Place :=
  calls.foldl (fun s e => D.next s e.op e.answer) D.first

@[simp] theorem place_nil : D.place ([] : List (Event Op Res State)) = D.first := rfl

@[simp] theorem place_snoc {calls : List (Event Op Res State)} {e : Event Op Res State} :
    D.place (calls ++ [e]) = D.next (D.place calls) e.op e.answer := by
  simp [place]

variable {W : World Op Res Out Cmd Choice Move State} {init : State → Prop}
  {ok : Pool Op Res Out Cmd State → Label Op Res Cmd Move State → Prop}
  {p : Pool Op Res Out Cmd State} {Q : Out → Place → Prop}

/-- When all commands follow a discipline, so does the rest of every task. -/
theorem follows_of_reach (code : ∀ c, D.Follows Q (W.code c) D.first) (reach : W.Reach init ok p) :
    ∀ t ∈ p.tasks, D.Follows Q t.rest (D.place t.calls) := by
  refine reach.invariant (P := fun p => ∀ t ∈ p.tasks, D.Follows Q t.rest (D.place t.calls))
    (by simp) ?_
  intro p l p' _ ih _ step t mem
  cases step with
  | start c =>
    rcases List.mem_append.mp mem with mem | mem
    · exact ih t mem
    · obtain rfl := List.mem_singleton.mp mem
      exact code c
  | @call i u op rest answer after task here call =>
    rcases World.mem_tasks_set mem with rfl | mem
    · have follows := ih u (List.mem_of_getElem? task)
      rw [here] at follows
      simpa only [Task.advance, place_snoc] using follows.2 answer
    · exact ih t mem
  | move moved => exact ih t mem

end Discipline

end Interleave
