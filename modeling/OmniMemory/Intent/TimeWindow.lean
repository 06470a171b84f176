import OmniMemory.Intent.SessionIntents

/-! The windows of `get_recent_intents` and `get_intent_distribution`, which compare texts of times:
they select the intents that were created at most so many hours before now, and at least one hour is
looked back. -/

namespace OmniMemory.IntentGraph

open Interleave Pages

variable {κ : Type} [DecidableEq κ] {lib : Library κ} {history : List (StoreCall κ)}
  {now since : DateTime} {timeRangeHours : Int} {record : IntentRecord κ}

section Selections

variable (lib history now timeRangeHours)

/-- The intent was created at most the range before now, where the range is at least one hour. -/
def Within (record : IntentRecord κ) : Prop :=
  Recorded lib history record ∧
    now.microseconds ≤ record.createdAt.microseconds + (max 1 timeRangeHours).toNat * hourMicroseconds

/-- The result has the intents in the window, with enough confidence if the caller asks for some, that
were created last. -/
def Selects (minConfidence : Option ℚ) (limit : Nat) (result : ModelIntentQueryResult) : Prop :=
  ∃ intents, result =
      { status := if intents.isEmpty then .noResults else .success
        intents := intents.map (named lib)
        totalCount := intents.length } ∧
    Largest (fun record => record.createdAt.microseconds)
      (fun record => Within lib history now timeRangeHours record ∧
        ∀ c, minConfidence = some c → max 0 (min c 1) ≤ (record.confidence : ℚ))
      limit intents

/-- The result has the categories of the intents in the window, with their numbers. -/
structure Counts (result : ModelIntentDistributionResult) : Prop where
  count : ∀ category n, (category, n) ∈ result.distribution ↔
    0 < n ∧ (n : ℕ∞) = {record | Within lib history now timeRangeHours record ∧
      lib.value record.intentCategory = category}.encard
  total : (result.totalIntents : ℕ∞) = {record | Within lib history now timeRangeHours record}.encard

end Selections

/-- An intent is in the window exactly if the text of its creation is not before that of the window's
beginning. -/
theorem within_iff (inRange : now.InRange) (begins : windowStart now timeRangeHours = some since) :
    Within lib history now timeRangeHours record ↔
      Recorded lib history record ∧ since.isoformat ≤ record.createdAt.isoformat := by
  obtain ⟨sinceInRange, time⟩ := DateTime.minusHours_spec inRange begins
  refine and_congr_right fun recorded => ?_
  rw [DateTime.isoformat_le_iff sinceInRange recorded.inRange]
  omega

/-! ### Recent intents -/

theorem getRecentIntents_encode {intents : List (IntentRecord κ)}
    (recorded : ∀ record ∈ intents, Recorded lib history record) :
    getRecentIntents lib (intents.map (encode lib)) =
      { status := if intents.isEmpty then .noResults else .success
        intents := intents.map (named lib)
        totalCount := intents.length } := by
  have each : ∀ record ∈ intents, readRecord lib (encode lib record) = some (named lib record) :=
    fun record mem => readRecord_encode (recorded record mem)
  have read : (intents.map (encode lib)).filterMap (readRecord lib) = intents.map (named lib) := by
    rw [List.filterMap_map, ← List.filterMap_eq_map]
    exact List.filterMap_congr each
  cases intents with
  | nil => rfl
  | cons first rest =>
    rw [getRecentIntents, if_neg (by simp), read]
    simp

theorem all_clampMinConfidence {minConfidence : Option ℚ} {confidence : ℚ} :
    (clampMinConfidence minConfidence).all (decide <| · ≤ confidence) = true ↔
      ∀ c, minConfidence = some c → max 0 (min c 1) ≤ confidence := by
  cases minConfidence with
  | none => simp [clampMinConfidence]
  | some c => simp [clampMinConfidence]

theorem getRecentIntents_selects (inRange : now.InRange)
    (begins : windowStart now timeRangeHours = some since) {minConfidence : Option ℚ} {limit : Nat}
    {answer : List IntentNode}
    (answers : Answers
      (recentNodes (stored lib history) since.isoformat (clampMinConfidence minConfidence)) limit answer) :
    Selects lib history now timeRangeHours minConfidence limit (getRecentIntents lib answer) := by
  obtain ⟨intents, rfl, largest⟩ := exists_largest (fun record =>
    decide (since.isoformat ≤ record.createdAt.isoformat) &&
      (clampMinConfidence minConfidence).all (decide <| · ≤ (record.confidence : ℚ)))
    (by intro record _; rfl) answers
  simp only [Bool.and_eq_true, decide_eq_true_eq, all_clampMinConfidence, ← and_assoc,
    ← within_iff inRange begins] at largest
  exact ⟨intents, getRecentIntents_encode fun record mem => (largest.among record mem).1.1, largest⟩

/-! ### Distribution -/

variable (lib history since) in
/-- The categories of the intents that were not created before a time. -/
def categoriesSince : List String :=
  ((records lib history).filter fun record => decide (since.isoformat ≤ record.createdAt.isoformat)).map
    (lib.value ·.intentCategory)

theorem categoryCounts_stored : categoryCounts (stored lib history) since.isoformat =
    Tally.tally (categoriesSince lib history since) := by
  have rows : (stored lib history).rows.filter (fun i => decide (since.isoformat ≤ i.createdAtUtc)) =
      ((records lib history).filter fun record =>
        decide (since.isoformat ≤ record.createdAt.isoformat)).map (encode lib) :=
    filter_rows fun record _ => rfl
  rw [categoryCounts, rows, List.map_map]
  rfl

theorem count_categoriesSince (inRange : now.InRange)
    (begins : windowStart now timeRangeHours = some since) (category : String) :
    ((categoriesSince lib history since).count category : ℕ∞) =
      {record | Within lib history now timeRangeHours record ∧
        lib.value record.intentCategory = category}.encard := by
  rw [categoriesSince, List.count_eq_countP, List.countP_map, List.countP_filter,
    Leading.countP_eq_encard nodup_records]
  congr 1
  ext record
  simp only [Set.mem_ofPred_eq, mem_records, within_iff inRange begins, Function.comp_apply,
    Bool.and_eq_true, beq_iff_eq, decide_eq_true_eq]
  tauto

theorem length_categoriesSince (inRange : now.InRange)
    (begins : windowStart now timeRangeHours = some since) :
    ((categoriesSince lib history since).length : ℕ∞) =
      {record | Within lib history now timeRangeHours record}.encard := by
  rw [categoriesSince, List.length_map, ← List.countP_eq_length_filter,
    Leading.countP_eq_encard nodup_records]
  congr 1
  ext record
  simp only [Set.mem_ofPred_eq, mem_records, within_iff inRange begins, decide_eq_true_eq]

theorem getIntentDistribution_counts (inRange : now.InRange)
    (begins : windowStart now timeRangeHours = some since) {answer : List (String × Nat)}
    (orders : Orders Prod.snd (categoryCounts (stored lib history) since.isoformat) answer) :
    Counts lib history now timeRangeHours (getIntentDistribution timeRangeHours answer) := by
  have perm := orders.perm
  rw [categoryCounts_stored] at perm
  have distinct : (answer.map Prod.fst).Nodup := by
    rw [(perm.map Prod.fst).nodup_iff, Tally.keys_tally]
    exact Tally.nodup_firsts
  have rows := Table.rows_foldl_put distinct
  constructor
  · intro category n
    show (category, n) ∈ (answer.foldl Table.put Table.empty).rows ↔ _
    rw [rows, perm.mem_iff, Tally.mem_tally, ← count_categoriesSince inRange begins, Nat.cast_inj]
  · show (((answer.foldl Table.put Table.empty).rows.map Prod.snd).sum : ℕ∞) = _
    rw [rows, (perm.map Prod.snd).sum_eq, Tally.sum_tally, length_categoriesSince inRange begins]

/-! ### The windows -/

/-- The texts of times are ordered as the times, so that both queries select the intents in the
window. -/
theorem timeWindow_selects :
    (∀ t t' : DateTime, t.InRange → t'.InRange →
      (t.isoformat < t'.isoformat ↔ t.microseconds < t'.microseconds)) ∧
    ∀ (κ : Type) [DecidableEq κ] (lib : Library κ) (config : ModelAdapterIntentGraphConfig)
      (history : List (StoreCall κ)) (now since : DateTime) (timeRangeHours : Int), now.InRange →
      windowStart now timeRangeHours = some since →
        (∀ minConfidence limit answer,
          Answers (recentNodes (stored lib history) since.isoformat (clampMinConfidence minConfidence))
            (effectiveLimit config limit) answer →
          Selects lib history now timeRangeHours minConfidence (effectiveLimit config limit)
            (getRecentIntents lib answer)) ∧
        ∀ answer, Orders Prod.snd (categoryCounts (stored lib history) since.isoformat) answer →
          Counts lib history now timeRangeHours (getIntentDistribution timeRangeHours answer) := by
  refine ⟨fun t t' inRange inRange' => DateTime.isoformat_lt_iff inRange inRange', ?_⟩
  intro κ _ lib config history now since timeRangeHours inRange begins
  constructor
  · intro minConfidence limit answer answers
    exact getRecentIntents_selects inRange begins answers
  · intro answer orders
    exact getIntentDistribution_counts inRange begins orders

theorem recentNodes_fourth (inRange : since.InRange)
    (le : since.microseconds ≤ fourth.createdAt.microseconds) :
    recentNodes (stored oneCategory [storeFourth]) since.isoformat (clampMinConfidence none) =
      [encode oneCategory fourth] := by
  have rows : (stored oneCategory [storeFourth]).rows = [encode oneCategory fourth] := rfl
  have text : since.isoformat ≤ (encode oneCategory fourth).createdAtUtc :=
    (DateTime.isoformat_le_iff inRange recorded_fourth.inRange).mpr le
  rw [recentNodes, rows]
  simp [text, clampMinConfidence]

/-- Times with a fraction of a second and without, and a window that begins with an intent. -/
theorem timeWindow_selects_hour :
    ((⟨2024, 1, 1, 999999⟩ : DateTime).isoformat < (⟨2024, 1, 1, 1000000⟩ : DateTime).isoformat ↔
      (⟨2024, 1, 1, 999999⟩ : DateTime).microseconds < (⟨2024, 1, 1, 1000000⟩ : DateTime).microseconds) ∧
    Selects oneCategory [storeFourth] ⟨2024, 1, 1, 3600000000⟩ 1 none 100
      (getRecentIntents oneCategory [encode oneCategory fourth]) ∧
    Counts oneCategory [storeFourth] ⟨2024, 1, 1, 3600000000⟩ 1
      (getIntentDistribution 1 [("unknown", 1)]) := by
  have nodes := recentNodes_fourth recorded_fourth.inRange (Nat.le_refl _)
  have counts : categoryCounts (stored oneCategory [storeFourth]) fourth.createdAt.isoformat =
      [("unknown", 1)] := by decide +kernel
  have orders : Orders Prod.snd
      (categoryCounts (stored oneCategory [storeFourth]) fourth.createdAt.isoformat) [("unknown", 1)] := by
    rw [counts]
    exact ⟨.rfl, List.pairwise_singleton _ _⟩
  have windows := timeWindow_selects.2 Unit oneCategory {} [storeFourth] ⟨2024, 1, 1, 3600000000⟩
    fourth.createdAt 1 (by decide) (by decide +kernel)
  exact ⟨timeWindow_selects.1 _ _ (by decide) (by decide), windows.1 none none _ (answers_one nodes 99),
    windows.2 _ orders⟩

/-- A range of no hours stands for one hour: an intent that was created half an hour before is
selected. -/
theorem not_timeRangeHours :
    ¬ ∀ (κ : Type) [DecidableEq κ] (lib : Library κ) (config : ModelAdapterIntentGraphConfig)
      (history : List (StoreCall κ)) (now since : DateTime) (timeRangeHours : Int), now.InRange →
      windowStart now timeRangeHours = some since → ∀ limit answer,
        Answers (recentNodes (stored lib history) since.isoformat (clampMinConfidence none))
          (effectiveLimit config limit) answer →
        ∃ intents, (getRecentIntents lib answer).intents = intents.map (named lib) ∧
          Largest (fun record => record.createdAt.microseconds)
            (fun record => Recorded lib history record ∧
              (now.microseconds : ℤ) ≤ record.createdAt.microseconds + timeRangeHours * hourMicroseconds)
            (effectiveLimit config limit) intents := by
  intro holds
  let since : DateTime := ⟨2023, 12, 31, 84600000000⟩
  have nodes := recentNodes_fourth (show since.InRange by decide) (by decide +kernel)
  obtain ⟨intents, same, largest⟩ := holds Unit oneCategory {} [storeFourth] ⟨2024, 1, 1, 1800000000⟩
    since 0 (by decide) (by decide +kernel) none _ (answers_one nodes 99)
  have selected : (getRecentIntents oneCategory [encode oneCategory fourth]).intents =
      [named oneCategory fourth] := by decide +kernel
  obtain ⟨record, rfl, created⟩ := List.map_eq_singleton_iff.mp (same.symm.trans selected)
  have recent := (largest.among record (List.mem_singleton_self _)).2
  have time : record.createdAt = fourth.createdAt := by
    show (named oneCategory record).createdAt = (named oneCategory fourth).createdAt
    rw [created]
  rw [time] at recent
  revert recent
  decide +kernel

end OmniMemory.IntentGraph
