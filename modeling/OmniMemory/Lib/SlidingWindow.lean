import Mathlib.Algebra.Order.BigOperators.Group.List
import Mathlib.Algebra.Order.Group.Defs
import Mathlib.Algebra.Order.Sub.Defs

/-! Entries of a log that have times and weights, and their load in a window of time. A bound on the
load of the windows that end at an entry, when it is entered, is a bound on the load of every window
of that span. -/

namespace SlidingWindow

variable {α T M : Type} [LinearOrder T] (time : α → T)

/-- The entries from `start` to `stop`. -/
def within (start stop : T) (log : List α) : List α :=
  log.filter fun x => start ≤ time x ∧ time x ≤ stop

def since (start : T) (log : List α) : List α := log.filter fun x => start ≤ time x

/-- What is left when the entries in front are dropped as long as they are from before `start`. -/
def expire (start : T) (log : List α) : List α := log.dropWhile fun x => time x < start

variable {time} {start start' : T} {log : List α}

theorem expire_eq_since (sorted : log.Pairwise fun x y => time x ≤ time y) :
    expire time start log = since time start log := by
  induction log with
  | nil => rfl
  | cons x log ih =>
    obtain ⟨first, rest⟩ := List.pairwise_cons.mp sorted
    by_cases old : time x < start
    · have dropped : expire time start (x :: log) = expire time start log := by
        simp [expire, old]
      have skipped : since time start (x :: log) = since time start log := by
        simp [since, not_le.mpr old]
      rw [dropped, skipped, ih rest]
    · have kept : expire time start (x :: log) = x :: log := by simp [expire, old]
      rw [kept, since, List.filter_eq_self.mpr]
      intro y there
      rcases List.mem_cons.mp there with rfl | there
      · simpa using old
      · simpa using (not_lt.mp old).trans (first y there)

theorem since_since (later : start ≤ start') :
    since time start' (since time start log) = since time start' log := by
  rw [since, since, since, List.filter_filter]
  refine List.filter_congr fun x _ => ?_
  by_cases recent : start' ≤ time x
  · simp [recent, later.trans recent]
  · simp [recent]

/-- A window that ends after the last entry. -/
theorem within_eq_since {stop : T} (past : ∀ x ∈ log, time x ≤ stop) :
    within time start stop log = since time start log := by
  refine List.filter_congr fun x there => ?_
  simp [past x there]

section Load

variable [AddCommMonoid M] {weight : α → M}

def load (weight : α → M) (log : List α) : M := (log.map weight).sum

@[simp] theorem load_append {rest : List α} :
    load weight (log ++ rest) = load weight log + load weight rest := by
  simp [load]

@[simp] theorem load_singleton {x : α} : load weight [x] = weight x := by simp [load]

variable [PartialOrder M] [IsOrderedAddMonoid M]

theorem load_sublist {part : List α} (sub : part.Sublist log) (nonneg : ∀ x ∈ log, 0 ≤ weight x) :
    load weight part ≤ load weight log := by
  refine (sub.map weight).sum_le_sum fun w there => ?_
  obtain ⟨x, here, rfl⟩ := List.mem_map.mp there
  exact nonneg x here

/-- With one more entry, when the window that ends at it is within the bound. -/
theorem load_within_concat [AddCommGroup T] [IsOrderedAddMonoid T] {span : T} {bound : M} {x : α}
    (nonneg : ∀ y ∈ log, 0 ≤ weight y)
    (before : load weight (within time start (start + span) log) ≤ bound)
    (fits : load weight (since time (time x - span) log) + weight x ≤ bound) :
    load weight (within time start (start + span) (log ++ [x])) ≤ bound := by
  have split : within time start (start + span) (log ++ [x]) =
      within time start (start + span) log ++ within time start (start + span) [x] :=
    List.filter_append _ _
  rw [split, load_append]
  by_cases inside : start ≤ time x ∧ time x ≤ start + span
  · have single : within time start (start + span) [x] = [x] := by simp [within, inside]
    have recent : (within time start (start + span) log).Sublist
        (since time (time x - span) log) := by
      refine List.monotone_filter_right log fun y there => ?_
      have there := (of_decide_eq_true there).1
      exact decide_eq_true ((sub_le_iff_le_add.mpr inside.2).trans there)
    rw [single, load_singleton]
    refine le_trans (add_le_add_left (load_sublist recent fun y there => ?_) _) fits
    exact nonneg y (List.mem_of_mem_filter there)
  · have outside : within time start (start + span) [x] = [] := by simp [within, inside]
    rw [outside]
    simpa [load] using before

end Load

end SlidingWindow
