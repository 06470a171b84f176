import OmniMemory.Lib.Automaton
import Mathlib.Algebra.Order.Group.Abs
import Mathlib.Data.List.Zip
import Mathlib.Order.Monotone.Basic

/-! One value that is computed for a point in time and answered until it expires, where its age is a
difference of times that may be negative. What an automaton that keeps such a value answers is what
is computed for the source of the answer, the time of the last query that was not answered from the
value kept. -/

namespace Expiring

open Sequential

variable {Time α β : Type} [AddCommGroup Time] [LinearOrder Time]

/-- A query for a time, that may ask for the value to be computed. -/
structure Query (Time : Type) where
  asOf : Time
  force : Bool

/-- The value kept, with the time that it was computed for. -/
abbrev Entry (α Time : Type) := Option (α × Time)

def serves (ttl : Time) (query : Query Time) (stamp : Time) : Bool :=
  !query.force && decide (query.asOf - stamp < ttl)

/-- The answers of an entry that expires. -/
def keeper (ttl : Time) (compute : Time → α) : Automaton (Query Time) α (Entry α Time) where
  step kept query :=
    match kept with
    | some (value, stamp) =>
      if serves ttl query stamp then (value, kept)
      else (compute query.asOf, some (compute query.asOf, query.asOf))
    | none => (compute query.asOf, some (compute query.asOf, query.asOf))

/-- The time that each answer was computed for, when there is one. -/
def sources (ttl : Time) (stamp : Option Time) (queries : List (Query Time)) :
    List (Option Time) :=
  (keeper ttl some).answers (stamp.map (none, ·)) queries

variable {ttl : Time} {compute : Time → α}

/-- Computing something of the value later is computing it at once. -/
theorem keeper_map (f : α → β) (kept : Entry α Time) (queries : List (Query Time)) :
    (keeper ttl (f ∘ compute)).answers (kept.map (Prod.map f id)) queries =
      ((keeper ttl compute).answers kept queries).map f := by
  induction queries generalizing kept with
  | nil => rfl
  | cons query queries ih =>
    rw [Automaton.answers_cons, Automaton.answers_cons, List.map_cons, ← ih]
    cases kept with
    | none => rfl
    | some entry =>
      rcases serve : serves ttl query entry.2 with _ | _ <;> simp [keeper, serve]

/-- What is answered is the first value kept, or computed for the source. -/
theorem answers_eq (kept : Entry α Time) (queries : List (Query Time)) :
    (keeper ttl compute).answers kept queries =
      (sources ttl (kept.map Prod.snd) queries).map fun source =>
        source.elim ((kept.map Prod.fst).getD (compute 0)) compute := by
  rw [sources, ← keeper_map]
  congr 1
  cases kept <;> rfl

section Near

variable [IsOrderedAddMonoid Time] {f : Time → α} [PartialOrder α]

/-- A value that only falls, or only rises, is found near a time when it was computed for a time near
it, or stays the same from there to the nearest such time. -/
theorem exists_near_iff (mono : Antitone f ∨ Monotone f) {now source : Time} (nonneg : 0 ≤ ttl) :
    (∃ t, |t - now| ≤ ttl ∧ f t = f source) ↔
      (source ≤ now + ttl ∨ f (now + ttl) = f source) ∧
        (now - ttl ≤ source ∨ f source = f (now - ttl)) := by
  have between {a b c : Time} (left : a ≤ b) (right : b ≤ c) (same : f a = f c) : f b = f c := by
    rcases mono with anti | mono
    · exact le_antisymm ((anti left).trans_eq same) (anti right)
    · exact le_antisymm (mono right) (same.symm.trans_le (mono left))
  constructor
  · rintro ⟨t, near, same⟩
    obtain ⟨high, low⟩ := abs_sub_le_iff.mp near
    refine ⟨or_iff_not_imp_left.mpr fun after => ?_, or_iff_not_imp_left.mpr fun before => ?_⟩
    · exact between (sub_le_iff_le_add'.mp high) (not_le.mp after).le same
    · exact same.symm.trans (between (not_le.mp before).le (sub_le_comm.mp low) same.symm).symm
  · rintro ⟨high | same, low⟩
    · rcases low with low | same
      · refine ⟨source, abs_sub_le_iff.mpr ⟨sub_le_iff_le_add'.mpr high, sub_le_comm.mpr low⟩, rfl⟩
      · exact ⟨now - ttl, by rw [sub_sub_cancel_left, abs_neg, abs_of_nonneg nonneg], same.symm⟩
    · exact ⟨now + ttl, by rw [add_sub_cancel_left, abs_of_nonneg nonneg], same⟩

end Near

end Expiring
