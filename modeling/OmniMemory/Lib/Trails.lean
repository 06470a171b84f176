import OmniMemory.Lib.Bfs

/-! Ways along the edges of a graph that may have several edges between two nodes. A trail is a way
without a repeated edge. A shortest way is one, so trails reach every node at its distance. -/

namespace Trails

open Bfs

variable {α κ : Type*}

/-- The edges lead from one node to the other. -/
inductive Way (edge : α → κ → α → Prop) : α → List κ → α → Prop where
  | nil (a : α) : Way edge a [] a
  | snoc {a b c : α} {e : κ} {es : List κ} (way : Way edge a es b) (last : edge b e c) :
      Way edge a (es ++ [e]) c

structure Trail (edge : α → κ → α → Prop) (a : α) (es : List κ) (b : α) : Prop where
  way : Way edge a es b
  nodup : es.Nodup

/-- Some edge leads from one node to the other. -/
def Adjacent (edge : α → κ → α → Prop) (a b : α) : Prop := ∃ e, edge a e b

variable {edge : α → κ → α → Prop} {a b : α} {es : List κ} {n : Nat}

theorem Way.steps (way : Way edge a es b) : Steps (Adjacent edge) es.length a b := by
  induction way with
  | nil => exact .nil a
  | snoc _ last ih =>
    rw [List.length_append]
    exact ih.snoc ⟨_, last⟩

/-- A trail as long as the distance. Its edges join nodes that are no farther. -/
theorem exists_trail (ends : ∀ a e b c d, edge a e b → edge c e d → b = c ∨ b = d)
    (distance : Distance (Adjacent edge) n a b) :
    ∃ es, Trail edge a es b ∧ es.length = n ∧ ∀ e ∈ es, ∃ c d, edge c e d ∧
      (∃ m, m ≤ n ∧ Steps (Adjacent edge) m a c) ∧ ∃ m, m ≤ n ∧ Steps (Adjacent edge) m a d := by
  induction n generalizing b with
  | zero =>
    cases distance.1
    exact ⟨[], ⟨.nil a, List.nodup_nil⟩, rfl, nofun⟩
  | succ n ih =>
    obtain ⟨b', nearer, e, last⟩ := distance.exists_pred
    obtain ⟨es, trail, length, near⟩ := ih nearer
    have fresh : e ∉ es := by
      intro mem
      obtain ⟨c, d, joins, ⟨m, le, first⟩, m', le', second⟩ := near e mem
      rcases ends b' e b c d last joins with rfl | rfl
      · have := distance.2 m first
        omega
      · have := distance.2 m' second
        omega
    refine ⟨es ++ [e], ⟨.snoc trail.way last, ?_⟩, by rw [List.length_append, length]; rfl, ?_⟩
    · refine List.nodup_append.mpr ⟨trail.nodup, List.nodup_singleton e, ?_⟩
      rintro e' mem _ single rfl
      exact fresh (List.mem_singleton.mp single ▸ mem)
    · refine List.forall_mem_append.mpr ⟨fun e' mem => ?_, List.forall_mem_singleton.mpr ?_⟩
      · obtain ⟨c, d, joins, ⟨m, le, first⟩, m', le', second⟩ := near e' mem
        exact ⟨c, d, joins, ⟨m, by omega, first⟩, m', by omega, second⟩
      · exact ⟨b', b, last, ⟨n, by omega, nearer.1⟩, n + 1, le_rfl, distance.1⟩

end Trails
