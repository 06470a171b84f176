import OmniMemory.Lib.Greedy
import Mathlib.Data.List.Sort
import Mathlib.Algebra.Order.Ring.Rat

/-! The matches of a PII scan, and what is left of them when those are dropped that overlap one kept
before. They are gone through by where they start, so that an earlier one is kept although a later
one that overlaps it has more confidence. -/

namespace OmniMemory

namespace Pii

inductive PIIType where
  | email
  | phone
  | ssn
  | creditCard
  | ipAddress
  | url
  | apiKey
  | passwordHash
  | personName
  | address
deriving DecidableEq

/-- A `str`, as its characters. -/
abbrev Text := List Char

structure ModelPIIMatch where
  piiType : PIIType
  value : Text
  startIndex : Int
  endIndex : Int
  confidence : ℚ
  maskedValue : Text
deriving DecidableEq

/-- The order of the keys `(start_index, -confidence)`. -/
def Before (a b : ModelPIIMatch) : Prop :=
  a.startIndex < b.startIndex ∨ a.startIndex = b.startIndex ∧ b.confidence ≤ a.confidence

instance : DecidableRel Before := fun _ _ => inferInstanceAs (Decidable (_ ∨ _))

instance : Std.Total Before := ⟨fun a b => by
  rcases lt_trichotomy a.startIndex b.startIndex with less | same | more
  · exact .inl (.inl less)
  · exact (le_total a.confidence b.confidence).symm.imp (fun le => .inr ⟨same, le⟩)
      fun le => .inr ⟨same.symm, le⟩
  · exact .inr (.inl more)⟩

instance : IsTrans ModelPIIMatch Before := ⟨fun a b c left right => by
  rcases left with less | ⟨same, more⟩
  · exact .inl (less.trans_le (right.elim le_of_lt fun tie => tie.1.le))
  · rcases right with less | ⟨tie, fewer⟩
    · exact .inl (same.trans_lt less)
    · exact .inr ⟨same.trans tie, fewer.trans more⟩⟩

theorem Before.le {a b : ModelPIIMatch} (before : Before a b) : a.startIndex ≤ b.startIndex :=
  before.elim le_of_lt fun tie => tie.1.le

/-- The test of a match against one that is kept. -/
def overlaps (candidate existing : ModelPIIMatch) : Bool :=
  decide (candidate.startIndex < existing.endIndex ∧ candidate.endIndex > existing.startIndex)

/-- `_deduplicate_matches`. -/
def deduplicateMatches (found : List ModelPIIMatch) : List ModelPIIMatch :=
  Greedy.keep overlaps [] (found.insertionSort Before)

/-- At least as much confidence. -/
def Trusted (a b : ModelPIIMatch) : Prop := b.confidence ≤ a.confidence

instance : DecidableRel Trusted := fun _ _ => inferInstanceAs (Decidable (_ ≤ _))

theorem overlaps_comm (a b : ModelPIIMatch) : overlaps a b = overlaps b a := by
  simp only [overlaps, gt_iff_lt, and_comm]

/-- The matches by where they start, each put with the first one kept that it overlaps. -/
def rounds (found : List ModelPIIMatch) : List (ModelPIIMatch × List ModelPIIMatch) :=
  Greedy.rounds overlaps (found.insertionSort Before)

/-- Of overlapping matches the ones with the most confidence are kept. -/
structure KeepsBest (found kept : List ModelPIIMatch) : Prop where
  mem : ∀ a ∈ kept, a ∈ found
  apart : kept.Pairwise fun a b => overlaps a b = false
  dropped : ∀ a ∈ found, a ∈ kept ∨ ∃ k ∈ kept, overlaps a k = true ∧ a.confidence ≤ k.confidence

theorem deduplicateMatches_mem {found : List ModelPIIMatch} :
    ∀ a ∈ deduplicateMatches found, a ∈ found := fun _ mem =>
  (List.mem_insertionSort Before).mp (Greedy.mem_of_keep mem)

theorem deduplicateMatches_apart (found : List ModelPIIMatch) :
    (deduplicateMatches found).Pairwise fun a b => overlaps a b = false :=
  (Greedy.keep_pairwise _).imp fun apart => by rw [overlaps_comm, apart]

/-- Two matches that overlap, the second with more confidence. -/
def phoneThenCard : List ModelPIIMatch :=
  [⟨.phone, [], 0, 10, 3 / 4, []⟩, ⟨.creditCard, [], 5, 20, 9 / 10, []⟩]

end Pii

end OmniMemory
