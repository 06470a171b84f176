import Mathlib.Data.Fintype.Card
import Mathlib.Logic.Relation

/-! Graphs whose links change one at a time. A link that is added to a node, or that its links are
exchanged for, closes a cycle exactly when its target led to the node before. Along links without a
cycle, of finitely many nodes, every way ends. -/

namespace Links

open Relation

variable {α : Type*} {r r' : α → α → Prop} {a b x y : α}

def Acyclic (r : α → α → Prop) : Prop := ∀ x, ¬ TransGen r x x

/-- The links after a link from `a` to `b` is set: every other one is old, and the links of other
nodes are kept. -/
structure Redirected (r r' : α → α → Prop) (a b : α) : Prop where
  new : r' a b
  old : ∀ x y, r' x y → r x y ∨ (x = a ∧ y = b)
  kept : ∀ x y, x ≠ a → r x y → r' x y

/-- A way to the node, up to its first visit, is kept. -/
theorem Redirected.reflTransGen_source (redirected : Redirected r r' a b)
    (way : ReflTransGen r x a) : ReflTransGen r' x a := by
  induction way using ReflTransGen.head_induction_on with
  | refl => exact .refl
  | @head x y first _ ih =>
    by_cases here : x = a
    · rw [here]
    · exact .head (redirected.kept x y here first) ih

/-- A way after the change is an old one, or there are old ways to the new link and from it on. -/
theorem Redirected.transGen_cases (redirected : Redirected r r' a b) (apart : ¬ ReflTransGen r b a)
    (way : TransGen r' x y) : TransGen r x y ∨ (ReflTransGen r x a ∧ ReflTransGen r b y) := by
  induction way with
  | single link =>
    rcases redirected.old _ _ link with link | ⟨rfl, rfl⟩
    · exact .inl (.single link)
    · exact .inr ⟨.refl, .refl⟩
  | tail _ link ih =>
    rcases redirected.old _ _ link with link | ⟨rfl, rfl⟩
    · exact ih.imp (·.tail link) fun ⟨before, after⟩ => ⟨before, after.tail link⟩
    · rcases ih with before | ⟨-, after⟩
      · exact .inr ⟨before.to_reflTransGen, .refl⟩
      · exact absurd after apart

/-- The new link closes a cycle exactly when its target leads to its source. -/
theorem Redirected.acyclic_iff (redirected : Redirected r r' a b) (acyclic : Acyclic r) :
    Acyclic r' ↔ ¬ ReflTransGen r b a := by
  constructor
  · intro open_ way
    exact open_ a (.head' redirected.new (redirected.reflTransGen_source way))
  · intro apart x cycle
    rcases redirected.transGen_cases apart cycle with old | ⟨before, after⟩
    · exact acyclic x old
    · exact apart (after.trans before)

/-- What does not lead to the node leads where it did. -/
theorem Redirected.reflTransGen_iff (redirected : Redirected r r' a b)
    (apart : ¬ ReflTransGen r x a) : ReflTransGen r' x y ↔ ReflTransGen r x y := by
  constructor
  · intro way
    induction way with
    | refl => exact .refl
    | tail _ link ih =>
      rcases redirected.old _ _ link with link | ⟨rfl, rfl⟩
      · exact ih.tail link
      · exact absurd ih apart
  · intro way
    induction way with
    | refl => exact .refl
    | tail before link ih =>
      refine ih.tail (redirected.kept _ _ ?_ link)
      rintro rfl
      exact apart before

/-- The last node on the way along a partial function, when it is reached in so many steps. -/
def lastOf (next : α → Option α) : ℕ → α → Option α
  | 0, _ => none
  | steps + 1, x =>
    match next x with
    | none => some x
    | some y => lastOf next steps y

section Last

variable {next : α → Option α} {steps steps' : ℕ}

theorem lastOf_spec (ends : lastOf next steps x = some y) :
    next y = none ∧ ReflTransGen (fun a b => next a = some b) x y := by
  induction steps generalizing x with
  | zero => cases ends
  | succ steps ih =>
    rw [lastOf] at ends
    split at ends
    · rename_i stop
      obtain rfl := Option.some.inj ends
      exact ⟨stop, .refl⟩
    · rename_i z link
      obtain ⟨stop, rest⟩ := ih ends
      exact ⟨stop, .head link rest⟩

/-- The last node does not depend on the number of steps. -/
theorem lastOf_unique {z : α} (ends : lastOf next steps x = some y)
    (ends' : lastOf next steps' x = some z) : y = z := by
  induction steps generalizing x steps' with
  | zero => cases ends
  | succ steps ih =>
    cases steps' with
    | zero => cases ends'
    | succ steps' =>
      rw [lastOf] at ends ends'
      split at ends
      · rename_i stop
        rw [stop] at ends'
        exact (Option.some.inj ends).symm.trans (Option.some.inj ends')
      · rename_i w link
        rw [link] at ends'
        exact ih ends ends'

variable (next) in
/-- Without a cycle the last node is reached. -/
theorem exists_lastOf [Finite α] (acyclic : Acyclic r) (link : ∀ x y, next x = some y → r x y)
    (x : α) : ∃ steps y, lastOf next steps x = some y := by
  have irrefl : Std.Irrefl (TransGen (Function.swap r)) :=
    ⟨fun x cycle => acyclic x (transGen_swap.mp cycle)⟩
  have wf : WellFounded (TransGen (Function.swap r)) := Finite.wellFounded_of_trans_of_irrefl _
  induction x using wf.induction with
  | _ x ih =>
    cases goes : next x with
    | none => exact ⟨1, x, by rw [lastOf, goes]⟩
    | some y =>
      obtain ⟨steps, z, ends⟩ := ih y (.single (link x y goes))
      exact ⟨steps + 1, z, by rw [lastOf, goes]; exact ends⟩

end Last

end Links
