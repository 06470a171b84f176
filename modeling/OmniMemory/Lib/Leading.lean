import Mathlib.Data.Set.Card

/-! The first `n` of a list are all kept exactly if at least `n` that are kept come before every one that
is not, and they are then the first `n` of those that are kept. -/

namespace Leading

variable {α : Type*} {keep : α → Bool} {l : List α} {a : α} {n : Nat}

/-- At least `n` that are kept come before every one that is not. -/
def Precedes (keep : α → Bool) (n : Nat) (l : List α) : Prop :=
  ∀ before a after, l = before ++ a :: after → keep a = false → n ≤ before.countP keep

theorem precedes_nil : Precedes keep n [] := by
  intro before a after same
  simp at same

theorem precedes_cons_of_kept (kept : keep a = true) :
    Precedes keep (n + 1) (a :: l) ↔ Precedes keep n l := by
  constructor
  · rintro precedes before b after rfl dropped
    have enough := precedes (a :: before) b after rfl dropped
    rw [List.countP_cons_of_pos kept] at enough
    omega
  · rintro precedes before b after same dropped
    cases before with
    | nil =>
      obtain ⟨rfl, -⟩ := List.cons.inj same
      rw [kept] at dropped
      contradiction
    | cons c before =>
      obtain ⟨rfl, rfl⟩ := List.cons.inj same
      have enough := precedes before b after rfl dropped
      rw [List.countP_cons_of_pos kept]
      omega

theorem not_precedes_cons (dropped : keep a = false) : ¬ Precedes keep (n + 1) (a :: l) := by
  intro precedes
  have enough := precedes [] a l rfl dropped
  simp at enough

/-- The first `n` are all kept exactly if none that is not comes too early. -/
theorem forall_mem_take_iff : (∀ a ∈ l.take n, keep a = true) ↔ Precedes keep n l := by
  induction l generalizing n with
  | nil => exact iff_of_true (by simp) precedes_nil
  | cons a l ih =>
    cases n with
    | zero => exact iff_of_true (by simp) fun _ _ _ _ _ => Nat.zero_le _
    | succ n =>
      rw [List.take_succ_cons, List.forall_mem_cons]
      cases kept : keep a with
      | true => rw [precedes_cons_of_kept kept, ← ih, and_iff_right rfl]
      | false => exact iff_of_false (fun all => Bool.false_ne_true all.1) (not_precedes_cons kept)

theorem take_filter_of_precedes (precedes : Precedes keep n l) :
    (l.filter keep).take n = l.take n := by
  induction l generalizing n with
  | nil => rfl
  | cons a l ih =>
    cases n with
    | zero => simp
    | succ n =>
      cases kept : keep a with
      | true =>
        rw [List.filter_cons_of_pos kept, List.take_succ_cons, List.take_succ_cons,
          ih ((precedes_cons_of_kept kept).mp precedes)]
      | false => exact absurd precedes (not_precedes_cons kept)

/-- In a list sorted by `r`, those that come before one are those that `r` relates to it. -/
theorem precedes_iff_of_sorted {r : α → α → Prop} [DecidableRel r] (asymm : ∀ a b, r a b → ¬ r b a)
    (sorted : l.Pairwise r) :
    Precedes keep n l ↔ ∀ a ∈ l, keep a = false → n ≤ l.countP fun b => keep b && decide (r b a) := by
  have count : ∀ before a after, l = before ++ a :: after → keep a = false →
      l.countP (fun b => keep b && decide (r b a)) = before.countP keep := by
    rintro before a after rfl dropped
    obtain ⟨-, later, earlier⟩ := List.pairwise_append.mp sorted
    have first : ∀ b ∈ before, (keep b && decide (r b a)) = keep b := fun b mem => by
      simp [earlier b mem a List.mem_cons_self]
    have second : after.countP (fun b => keep b && decide (r b a)) = 0 :=
      List.countP_eq_zero.mpr fun b mem => by
        simp [asymm a b ((List.pairwise_cons.mp later).1 b mem)]
    rw [List.countP_append, List.countP_cons_of_neg (by simp [dropped]), second, Nat.add_zero]
    exact List.countP_congr fun b mem => by rw [first b mem]
  constructor
  · intro precedes a mem dropped
    obtain ⟨before, after, same⟩ := List.append_of_mem mem
    rw [count before a after same dropped]
    exact precedes before a after same dropped
  · intro enough before a after same dropped
    rw [← count before a after same dropped]
    exact enough a (by simp [same]) dropped

theorem countP_eq_encard {p : α → Bool} (nodup : l.Nodup) :
    (l.countP p : ℕ∞) = {a | a ∈ l ∧ p a = true}.encard := by
  classical
  have same : {a | a ∈ l ∧ p a = true} = ((l.filter p).toFinset : Set α) := by
    ext a
    simp
  rw [same, Set.encard_coe_eq_coe_finsetCard, List.toFinset_card_of_nodup (nodup.filter p),
    List.countP_eq_length_filter]

end Leading
