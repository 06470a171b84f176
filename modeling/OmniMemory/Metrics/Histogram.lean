import Mathlib.Algebra.BigOperators.Group.List.Basic
import Mathlib.Algebra.Field.Rat
import Mathlib.Algebra.Order.Monoid.Unbundled.WithTop
import Mathlib.Algebra.Order.Ring.Rat
import OmniMemory.Lib.Automaton
import OmniMemory.Metrics.Store

/-! Histograms. An observation adds one to the count of every bucket that the value fits in and to
the count past the buckets, so each count is the number of the values seen that fit in its bucket,
for as long as the entry of the labels is stored. -/

namespace OmniMemory

open Interleave Sequential

namespace Metrics

/-- The upper bound of a bucket: a number, or infinity. -/
abbrev Bound := WithTop ℚ

def defaultLatencyBuckets : List Bound := [1, 5, 10, 25, 50, 100, 250, 500, 1000, 2500, 5000, 10000]

/-- `HistogramValue`: a count for each bucket, and one more. -/
structure HistogramValue (buckets : List Bound) where
  bucketCounts : List ℕ
  sized : bucketCounts.length = buckets.length + 1
  sumValue : ℚ
  count : ℕ

/-- The turns of the loop over the buckets from the `i`-th on. -/
def countBuckets (value : ℚ) : ℕ → List Bound → List ℕ → List ℕ
  | _, [], counts => counts
  | i, bucket :: rest, counts =>
    countBuckets value (i + 1) rest (if value ≤ bucket then counts.modify i (· + 1) else counts)

theorem length_countBuckets (value : ℚ) (i : ℕ) (buckets : List Bound) (counts : List ℕ) :
    (countBuckets value i buckets counts).length = counts.length := by
  induction buckets generalizing i counts with
  | nil => rfl
  | cons bucket rest ih =>
    rw [countBuckets, ih]
    split
    · exact List.length_modify _ _ _
    · rfl

/-- The snapshot of a value; infinity is put after the bounds. -/
structure Snapshot where
  sum : ℚ
  count : ℕ
  buckets : List ℕ
  bucketBounds : List Bound

namespace HistogramValue

variable {buckets : List Bound}

/-- A new value. -/
def fresh : HistogramValue buckets where
  bucketCounts := List.replicate (buckets.length + 1) 0
  sized := List.length_replicate
  sumValue := 0
  count := 0

def observe (value : ℚ) (self : HistogramValue buckets) : HistogramValue buckets where
  bucketCounts :=
    (countBuckets value 0 buckets self.bucketCounts).modify (self.bucketCounts.length - 1) (· + 1)
  sized := by rw [List.length_modify, length_countBuckets, self.sized]
  sumValue := self.sumValue + value
  count := self.count + 1

def getSnapshot (self : HistogramValue buckets) : Snapshot where
  sum := self.sumValue
  count := self.count
  buckets := self.bucketCounts
  bucketBounds := buckets ++ [⊤]

end HistogramValue

/-- `Histogram`, with what its constructor checks of the buckets. -/
structure Histogram extends Metric where
  buckets : List Bound
  nonempty : buckets ≠ []
  positive : ∀ bucket ∈ buckets, 0 < bucket
  ascending : buckets.Pairwise (· < ·)

/-- What a call of a histogram does: it observes a value for labels, or reads what is stored. -/
inductive HistogramCall where
  | observe (value : ℚ) (labels : Labels)
  | get (labels : Labels)

namespace Histogram

/-- What the constructor finds wrong with buckets; `str` is the text of a bound. -/
def bucketsError (str : Bound → String) (buckets : List Bound) : String :=
  if buckets = [] then "Histogram buckets tuple must not be empty"
  else match buckets.zipIdx.find? fun (bucket, _) => bucket ≤ 0 with
    | some (bucket, i) =>
      s!"Histogram bucket values must be positive (> 0), got {str bucket} at index {i}"
    | none =>
      match (buckets.zip buckets.tail).zipIdx.find? fun ((before, bucket), _) => bucket ≤ before with
      | some ((before, bucket), i) =>
        "Histogram buckets must be in strictly ascending order, " ++
          s!"but bucket[{i + 1}]={str bucket} <= bucket[{i}]={str before}"
      | none => ""

/-- The constructor finds nothing wrong just with buckets as they should be. -/
theorem bucketsError_eq_empty {str : Bound → String} {buckets : List Bound} :
    bucketsError str buckets = "" ↔
      buckets ≠ [] ∧ (∀ bucket ∈ buckets, 0 < bucket) ∧ buckets.Pairwise (· < ·) := by
  unfold bucketsError
  split
  · rename_i none
    exact iff_of_false (by decide) fun good => good.1 none
  rename_i some
  rw [and_iff_right some]
  split
  · rename_i bucket i found
    have mem : bucket ∈ buckets := List.fst_mem_of_mem_zipIdx (List.mem_of_find?_eq_some found)
    have least : bucket ≤ 0 := by simpa using List.find?_some found
    exact iff_of_false (by simp) fun good => absurd least (not_le.mpr (good.1 bucket mem))
  rename_i all
  have positive : ∀ bucket ∈ buckets, 0 < bucket := by
    intro bucket mem
    obtain ⟨i, bound, rfl⟩ := List.getElem_of_mem mem
    have here : (buckets[i], i) ∈ buckets.zipIdx := List.mk_mem_zipIdx_iff_getElem?.mpr (by simp)
    simpa using List.find?_eq_none.mp all _ here
  rw [and_iff_right positive, ← List.isChain_iff_pairwise, List.isChain_iff_getElem]
  split
  · rename_i before bucket i found
    have place := List.mk_mem_zipIdx_iff_getElem?.mp (List.mem_of_find?_eq_some found)
    obtain ⟨bound, same⟩ := List.getElem?_eq_some_iff.mp place
    have most : bucket ≤ before := by simpa using List.find?_some found
    rw [List.getElem_zip, List.getElem_tail] at same
    obtain ⟨rfl, rfl⟩ := Prod.mk.inj same
    exact iff_of_false (by simp) fun good => absurd most (not_le.mpr (good i _))
  · rename_i none
    refine iff_of_true rfl fun i bound => not_le.mp fun most => ?_
    have here : ((buckets[i], buckets[i + 1]), i) ∈ (buckets.zip buckets.tail).zipIdx := by
      rw [List.mk_mem_zipIdx_iff_getElem?, List.getElem?_zip_eq_some]
      simp
    exact absurd (decide_eq_true most) (List.find?_eq_none.mp none _ here)

/-- `__init__`. -/
def init (str : Bound → String) (metric : Metric) (buckets : List Bound) :
    Except PyError Histogram :=
  if checked : buckets ≠ [] ∧ (∀ bucket ∈ buckets, 0 < bucket) ∧ buckets.Pairwise (· < ·) then
    .ok { metric with
      buckets, nonempty := checked.1, positive := checked.2.1, ascending := checked.2.2 }
  else .error (.valueError (bucketsError str buckets))

variable (self : Histogram)

abbrev Stored := Values (HistogramValue self.buckets)

def observe (values : self.Stored) (value : ℚ) (labels : Labels) : Except PyError Unit × self.Stored :=
  self.record .fresh (HistogramValue.observe value) values labels

def get (values : self.Stored) (labels : Labels) : Snapshot × self.Stored :=
  let (held, values) := self.read values labels
  (held.elim ⟨0, 0, [], []⟩ HistogramValue.getSnapshot, values)

def getAll (values : self.Stored) : List (Key × Snapshot) :=
  values.rows.map fun (key, held) => (key, held.getSnapshot)

/-- A histogram as its calls come in; a call answers with a snapshot, or with nothing. -/
def automaton : Automaton HistogramCall (Except PyError (Option Snapshot)) self.Stored where
  step values
    | .observe value labels =>
      let (answer, values) := self.observe values value labels
      (answer.map fun _ => none, values)
    | .get labels =>
      let (snapshot, values) := self.get values labels
      (.ok (some snapshot), values)

end Histogram

section Loop

variable {value : ℚ} {buckets : List Bound} {values : List ℚ}

theorem modify_length (before after : List ℕ) (n : ℕ) (f : ℕ → ℕ) :
    (before ++ n :: after).modify before.length f = before ++ f n :: after := by
  induction before with
  | nil => rfl
  | cons m before ih => rw [List.cons_append, List.length_cons, List.modify_succ_cons, ih]; rfl

/-- How many of the values fit in a bucket. -/
def fitting (values : List ℚ) (bucket : Bound) : ℕ := values.countP fun value : ℚ => (value : Bound) ≤ bucket

theorem fitting_concat (bucket : Bound) : fitting (values ++ [value]) bucket =
    if value ≤ bucket then fitting values bucket + 1 else fitting values bucket := by
  rw [fitting, List.countP_append, List.countP_singleton]
  by_cases fits : (value : Bound) ≤ bucket
  · rw [if_pos (decide_eq_true fits), if_pos fits, fitting]
  · rw [if_neg (by simpa using fits), if_neg fits, fitting, Nat.add_zero]

theorem fitting_mono {bucket bucket' : Bound} (le : bucket ≤ bucket') :
    fitting values bucket ≤ fitting values bucket' :=
  List.countP_mono_left fun _ _ fits => decide_eq_true ((of_decide_eq_true fits).trans le)

variable (value buckets values) in
/-- The loop over the buckets that are left, when those before have been counted. -/
theorem countBuckets_fitting (before after : List ℕ) :
    countBuckets value before.length buckets (before ++ buckets.map (fitting values) ++ after) =
      before ++ buckets.map (fitting (values ++ [value])) ++ after := by
  induction buckets generalizing before with
  | nil => rfl
  | cons bucket rest ih =>
    have counted : (if value ≤ bucket then
        (before ++ (bucket :: rest).map (fitting values) ++ after).modify before.length (· + 1)
        else before ++ (bucket :: rest).map (fitting values) ++ after) =
          before ++ [fitting (values ++ [value]) bucket] ++ rest.map (fitting values) ++ after := by
      rw [fitting_concat, List.map_cons, List.append_assoc, List.cons_append, modify_length]
      split <;> simp
    have next := ih (before ++ [fitting (values ++ [value]) bucket])
    rw [List.length_append, List.length_singleton] at next
    rw [countBuckets, counted, next, List.map_cons]
    simp

namespace HistogramValue

/-- The value when these have been observed. -/
structure Summarises (h : HistogramValue buckets) (values : List ℚ) : Prop where
  counts_eq : h.bucketCounts = buckets.map (fitting values) ++ [values.length]
  sum_eq : h.sumValue = values.sum
  count_eq : h.count = values.length

theorem summarises_fresh : (fresh : HistogramValue buckets).Summarises [] where
  counts_eq := by
    show List.replicate (buckets.length + 1) 0 = _
    rw [List.replicate_succ', ← List.map_const']
    rfl
  sum_eq := rfl
  count_eq := rfl

variable {h : HistogramValue buckets}

theorem Summarises.observe (same : h.Summarises values) :
    (h.observe value).Summarises (values ++ [value]) where
  counts_eq := by
    have counted := countBuckets_fitting value buckets values [] [values.length]
    have last : h.bucketCounts.length - 1 =
        (buckets.map (fitting (values ++ [value]))).length := by
      rw [h.sized, List.length_map, Nat.add_sub_cancel]
    show (countBuckets value 0 buckets h.bucketCounts).modify (h.bucketCounts.length - 1)
      (· + 1) = _
    rw [last, same.counts_eq]
    rw [List.nil_append, List.nil_append, List.length_nil] at counted
    rw [counted, modify_length, List.length_append, List.length_singleton]
  sum_eq := by
    show h.sumValue + value = _
    rw [same.sum_eq, List.sum_append, List.sum_singleton]
  count_eq := by
    show h.count + 1 = _
    rw [same.count_eq, List.length_append, List.length_singleton]

theorem Summarises.getElem? (same : h.Summarises values) {i : ℕ} (bound : i < buckets.length) :
    h.bucketCounts[i]? = some (fitting values buckets[i]) := by
  rw [same.counts_eq, List.getElem?_append_left (by simpa using bound), List.getElem?_map,
    List.getElem?_eq_getElem bound, Option.map_some]

/-- The counts of ascending buckets do not fall, and none is more than the last one. -/
theorem Summarises.pairwise (same : h.Summarises values) (ascending : buckets.Pairwise (· < ·)) :
    h.bucketCounts.Pairwise (· ≤ ·) := by
  rw [same.counts_eq, List.pairwise_append, List.pairwise_map]
  refine ⟨ascending.imp fun less => fitting_mono less.le, List.pairwise_singleton _ _, ?_⟩
  rintro n mem last here
  obtain ⟨bucket, -, rfl⟩ := List.mem_map.mp mem
  obtain rfl := List.mem_singleton.mp here
  exact List.countP_le_length

theorem Summarises.getLast? (same : h.Summarises values) :
    h.bucketCounts.getLast? = some h.count := by
  rw [same.counts_eq, same.count_eq, List.getLast?_concat]

end HistogramValue

end Loop

namespace Histogram

variable (self : Histogram)

/-- The values observed for a key since its entry was last created, when a call comes to a store:
an observation that goes through is added to them, and is the first of them when there is no
entry. -/
def noted (key : Key) (values : self.Stored) (seen : List ℚ) : HistogramCall → List ℚ
  | .observe value labels =>
    if self.labelsToKey labels = key ∧ (self.observe values value labels).1 = .ok () then
      if (values.find? key).isSome then seen ++ [value] else [value]
    else seen
  | .get _ => seen

/-- The values observed for a key, over calls, since its entry was last created. -/
def seen (key : Key) (calls : List HistogramCall) : List ℚ :=
  (calls.foldl (fun (r : self.Stored × List ℚ) call =>
    ((self.automaton.step r.1 call).2, self.noted key r.1 r.2 call)) (Table.empty, [])).2

def after (calls : List HistogramCall) : self.Stored := self.automaton.run Table.empty calls

variable {self} {key : Key} {calls : List HistogramCall} {call : HistogramCall}
  {values : self.Stored} {labels : Labels} {value : ℚ} {held : HistogramValue self.buckets}
  {earlier : List ℚ}

theorem after_concat : self.after (calls ++ [call]) = (self.automaton.step (self.after calls) call).2 :=
  Automaton.run_concat

theorem seen_concat :
    self.seen key (calls ++ [call]) = self.noted key (self.after calls) (self.seen key calls) call := by
  have state (r : self.Stored × List ℚ) : (calls.foldl (fun r call =>
      ((self.automaton.step r.1 call).2, self.noted key r.1 r.2 call)) r).1 =
        self.automaton.run r.1 calls := by
    induction calls generalizing r with
    | nil => rfl
    | cons call calls ih => exact ih _
  rw [seen, List.foldl_append, List.foldl_cons, List.foldl_nil, state]
  rfl

theorem noted_observe : self.noted key values earlier (.observe value labels) =
    if self.labelsToKey labels = key ∧ (self.observe values value labels).1 = .ok () then
      if (values.find? key).isSome then earlier ++ [value] else [value]
    else earlier := rfl

/-- An observation for a key: its value summarises what was observed before, and this. -/
theorem observe_summarises (here : self.labelsToKey labels = key)
    (before : ∀ held, values.find? key = some (key, held) → held.Summarises earlier)
    (found : (self.observe values value labels).2.find? key = some (key, held)) :
    held.Summarises (self.noted key values earlier (.observe value labels)) := by
  subst here
  rw [noted_observe]
  unfold observe at found ⊢
  rcases self.record_cases .fresh (HistogramValue.observe value) values labels with
    ⟨e, same⟩ | ⟨old, stored, same⟩ | ⟨absent, -, same⟩ | ⟨absent, -, same⟩ <;>
    rw [same] at found ⊢
  · rw [if_neg (by simp)]
    exact before held found
  · rw [if_pos ⟨rfl, rfl⟩, stored, Option.isSome_some, if_pos rfl]
    rw [Table.find?_put, if_pos rfl] at found
    cases found
    exact (before old stored).observe
  · have stored := Values.mem_of_mem_evict (Table.find?_eq_some.mp found).1
    exact absurd rfl (Table.find?_eq_none.mp absent _ stored)
  · rw [if_pos ⟨rfl, rfl⟩, absent, Option.isSome_none, if_neg (by simp)]
    rw [Table.find?_put, if_pos rfl] at found
    cases found
    exact HistogramValue.summarises_fresh.observe

theorem noted_of_ne (other : key ≠ self.labelsToKey labels) :
    self.noted key values earlier (.observe value labels) = earlier :=
  if_neg fun both => other both.1.symm

/-- What is stored for a key summarises the values observed for it since the entry was created. -/
theorem after_summarises (found : (self.after calls).find? key = some (key, held)) :
    held.Summarises (self.seen key calls) := by
  induction calls using List.reverseRecOn generalizing held with
  | nil => exact absurd (Table.find?_eq_some.mp found).1 (Table.not_mem_empty _)
  | append_singleton calls call ih =>
    rw [after_concat] at found
    rw [seen_concat]
    cases call with
    | observe value labels =>
      by_cases here : self.labelsToKey labels = key
      · exact observe_summarises here (fun _ stored => ih stored) found
      · rw [noted_of_ne (Ne.symm here)]
        exact ih (Metric.find?_record_of_ne (Ne.symm here) found)
    | get labels => exact ih ((Metric.find?_read key).symm.trans found)

theorem length_after : (self.after calls).rows.length ≤ self.maxEntries.toNat := by
  induction calls using List.reverseRecOn with
  | nil => exact Nat.zero_le _
  | append_singleton calls call ih =>
    rw [after_concat]
    cases call with
    | observe value labels => exact Metric.length_record ih
    | get labels => exact Metric.length_read.trans_le ih

end Histogram

/-- What holds of the snapshots after calls: every count is the number of the values seen that fit
in its bucket, the counts do not fall, the last one counts all values, and the sum is theirs. -/
structure Histogram.Sound (self : Histogram) (calls : List HistogramCall) : Prop where
  sized : ∀ entry ∈ self.getAll (self.after calls),
    entry.2.buckets.length = self.buckets.length + 1
  counts : ∀ entry ∈ self.getAll (self.after calls), ∀ i (bound : i < self.buckets.length),
    entry.2.buckets[i]? =
      some ((self.seen entry.1 calls).countP fun value : ℚ => (value : Bound) ≤ self.buckets[i])
  ascending : ∀ entry ∈ self.getAll (self.after calls), entry.2.buckets.Pairwise (· ≤ ·)
  last : ∀ entry ∈ self.getAll (self.after calls),
    entry.2.buckets.getLast? = some entry.2.count
  count : ∀ entry ∈ self.getAll (self.after calls),
    entry.2.count = (self.seen entry.1 calls).length
  sum : ∀ entry ∈ self.getAll (self.after calls), entry.2.sum = (self.seen entry.1 calls).sum
  bounded : (self.getAll (self.after calls)).length ≤ self.maxEntries.toNat

end Metrics

end OmniMemory
