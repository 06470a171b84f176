import Mathlib.Logic.Basic

/-! A call that is made again at most `n` times, as long as it is answered by what calls for another
attempt. `run` is such a loop on the answers one after the other, and `Ends` says that it ends with the
last of them. -/

namespace Attempts

variable {Reply Value Error : Type}

/-- What an answer comes to: the end, or another attempt, and the error if none is left. -/
inductive Verdict (Value Error : Type) where
  | done (out : Except Error Value)
  | again (e : Error)

def Verdict.isAgain : Verdict Value Error → Bool
  | again _ => true
  | done _ => false

/-- The end that a verdict is, if it is one when there are `more` attempts or none. -/
def Verdict.out? (more : Bool) : Verdict Value Error → Option (Except Error Value)
  | done out => some out
  | again e => if more then none else some (.error e)

variable (judge : Reply → Verdict Value Error)

/-- The loop with `n` attempts after the first; it is `none` while an answer is awaited. -/
def run : Nat → List Reply → Option (Except Error Value)
  | _, [] => none
  | 0, r :: _ =>
    match judge r with
    | .done out => some out
    | .again e => some (.error e)
  | n + 1, r :: rest =>
    match judge r with
    | .done out => some out
    | .again _ => run n rest

/-- The loop ends with the last of the answers. -/
def Ends (n : Nat) (replies : List Reply) (out : Except Error Value) : Prop :=
  ∃ before last, replies = before ++ [last] ∧ run judge n before = none ∧
    run judge n replies = some out

variable {judge} {n : Nat} {replies : List Reply} {r : Reply} {out : Except Error Value}

theorem run_eq_none :
    run judge n replies = none ↔ replies.length ≤ n ∧ ∀ r ∈ replies, (judge r).isAgain = true := by
  induction replies generalizing n with
  | nil => simp [run]
  | cons r rest ih =>
    cases n with
    | zero => cases verdict : judge r <;> simp [run, verdict]
    | succ n =>
      cases verdict : judge r with
      | done out => simp [run, verdict, Verdict.isAgain]
      | again e =>
        rw [run, verdict]
        simp [ih, verdict, Verdict.isAgain]

/-- An answer more. -/
theorem run_concat (awaits : run judge n replies = none) :
    run judge n (replies ++ [r]) = (judge r).out? (replies.length < n) := by
  induction replies generalizing n with
  | nil =>
    cases n with
    | zero => cases verdict : judge r <;> simp [run, verdict, Verdict.out?]
    | succ n => cases verdict : judge r <;> simp [run, verdict, Verdict.out?]
  | cons r' rest ih =>
    cases n with
    | zero => cases verdict : judge r' <;> simp [run, verdict] at awaits
    | succ n =>
      cases verdict : judge r' with
      | done out => simp [run, verdict] at awaits
      | again e =>
        rw [run, verdict] at awaits
        rw [List.cons_append, run, verdict, ih awaits]
        simp

theorem Ends.length_le (ends : Ends judge n replies out) : replies.length ≤ n + 1 := by
  obtain ⟨before, last, rfl, awaits, -⟩ := ends
  have := (run_eq_none.mp awaits).1
  simpa using this

/-- A value is that of the last answer, after answers that called for another attempt. -/
theorem Ends.ok {v : Value} (ends : Ends judge n replies (.ok v)) :
    ∃ before last, replies = before ++ [last] ∧ before.length ≤ n ∧
      (∀ r ∈ before, (judge r).isAgain = true) ∧ judge last = .done (.ok v) := by
  obtain ⟨before, last, rfl, awaits, ran⟩ := ends
  obtain ⟨few, again⟩ := run_eq_none.mp awaits
  refine ⟨before, last, rfl, few, again, ?_⟩
  rw [run_concat awaits] at ran
  cases verdict : judge last with
  | done out =>
    rw [verdict] at ran
    rw [Option.some.inj ran]
  | again e =>
    rw [verdict, Verdict.out?] at ran
    split at ran <;> cases ran

end Attempts
