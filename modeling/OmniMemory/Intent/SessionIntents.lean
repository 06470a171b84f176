import OmniMemory.Intent.Recorded

/-! `get_session_intents` returns the intents of a session that were created last, up to the limit, with
the threshold of the caller, or with that of the configuration if the caller's is zero. -/

namespace OmniMemory.IntentGraph

open Pages

variable {config : ModelAdapterIntentGraphConfig}

theorem effectiveLimit_of_mem {limit : Nat}
    (bounds : 1 ≤ limit ∧ limit ≤ config.maxIntentsPerSession) :
    effectiveLimit config (some limit) = limit := by
  simp only [effectiveLimit, Option.getD_some]
  omega

/-- A threshold of zero stands for that of the configuration. -/
theorem effectiveMinConfidence_of_mem {minConfidence : ℚ}
    (bounds : 0 ≤ minConfidence ∧ minConfidence ≤ 1) :
    effectiveMinConfidence config minConfidence =
      if minConfidence = 0 then (config.defaultConfidenceThreshold : ℚ) else minConfidence := by
  obtain ⟨nonneg, le⟩ := config.defaultConfidenceThreshold.2
  unfold effectiveMinConfidence
  by_cases zero : minConfidence = 0
  · rw [if_pos zero, if_neg zero.le.not_gt, min_eq_left le, max_eq_right nonneg]
  · rw [if_neg zero, if_pos (lt_of_le_of_ne bounds.1 (Ne.symm zero)), min_eq_left bounds.2,
      max_eq_right bounds.1]

theorem getSessionIntents_encode {κ : Type} [DecidableEq κ] {lib : Library κ}
    {history : List (StoreCall κ)} {sessionId : String} {intents : List (IntentRecord κ)}
    (belong : ∀ record ∈ intents, Recorded lib history record ∧ record.sessionId = sessionId) :
    getSessionIntents lib sessionId (intents.map (encode lib)) =
      { success := true, intents, totalCount := intents.length } := by
  have each : ∀ record ∈ intents,
      readSessionRecord lib sessionId (encode lib record) = some record := by
    intro record mem
    obtain ⟨recorded, rfl⟩ := belong record mem
    exact readSessionRecord_encode recorded
  have read : (intents.map (encode lib)).filterMap (readSessionRecord lib sessionId) = intents := by
    rw [List.filterMap_map]
    exact (List.filterMap_congr each).trans List.filterMap_some
  rw [getSessionIntents, read]

/-- For every history, the session's intents with enough confidence that were created last. -/
theorem getSessionIntents_largest {κ : Type} [DecidableEq κ] (lib : Library κ)
    (config : ModelAdapterIntentGraphConfig) (history : List (StoreCall κ)) (sessionId : String)
    (minConfidence : ℚ) (limit : Nat) (answer : List IntentNode)
    (confidence : 0 ≤ minConfidence ∧ minConfidence ≤ 1)
    (bounds : 1 ≤ limit ∧ limit ≤ config.maxIntentsPerSession)
    (answers : Answers
      (sessionNodes (stored lib history) sessionId (effectiveMinConfidence config minConfidence))
      (effectiveLimit config (some limit)) answer) :
    let result := getSessionIntents lib sessionId answer
    result.success = true ∧ result.totalCount = result.intents.length ∧
      Largest (fun record => record.createdAt.microseconds)
        (fun record => Recorded lib history record ∧ record.sessionId = sessionId ∧
          (if minConfidence = 0 then (config.defaultConfidenceThreshold : ℚ) else minConfidence) ≤
            record.confidence)
        limit result.intents := by
  rw [effectiveMinConfidence_of_mem confidence, effectiveLimit_of_mem bounds] at answers
  generalize (if minConfidence = 0 then (config.defaultConfidenceThreshold : ℚ) else minConfidence) =
    threshold at answers ⊢
  obtain ⟨intents, rfl, largest⟩ := exists_largest (fun record =>
    decide (record.sessionId = sessionId) && decide (threshold ≤ (record.confidence : ℚ)))
    (fun record _ => rfl) answers
  simp only [Bool.and_eq_true, decide_eq_true_eq] at largest
  have read := getSessionIntents_encode fun record mem =>
    (largest.among record mem).imp_right And.left
  rw [read]
  exact ⟨rfl, rfl, largest⟩

/-! ### A history of one store -/

/-- A library with one category. -/
def oneCategory : Library Unit where
  value _ := "unknown"
  ofValue text := if text = "unknown" then some () else none
  unknown := ()
  uuid := UUID.ofStr
  ofValue_value _ := rfl
  uuid_str := UUID.ofStr_str

/-- A store of an intent with a confidence of a fourth. -/
def storeFourth : StoreCall Unit where
  sessionId := "session"
  intentData := ⟨(), ⟨1 / 4, by decide +kernel⟩, []⟩
  correlationId := ""
  intentId := 7
  now := ⟨2024, 1, 1, 0⟩
  now_inRange := by decide

def fourth : IntentRecord Unit := created oneCategory storeFourth

theorem answers_one {nodes : List IntentNode} {node : IntentNode} (one : nodes = [node]) (n : Nat) :
    Answers nodes (n + 1) [node] := by
  refine ⟨[node], ?_, by rw [List.take_succ_cons, List.take_nil]⟩
  rw [one]
  exact ⟨.rfl, List.pairwise_singleton _ _⟩

theorem recorded_fourth : Recorded oneCategory [storeFourth] fourth := by decide +kernel

theorem getSessionIntents_largest_fourth :
    let config : ModelAdapterIntentGraphConfig :=
      { defaultConfidenceThreshold := ⟨1 / 8, by decide +kernel⟩ }
    let result := getSessionIntents oneCategory "session" [encode oneCategory fourth]
    result.success = true ∧ result.totalCount = result.intents.length ∧
      Largest (fun record => record.createdAt.microseconds)
        (fun record => Recorded oneCategory [storeFourth] record ∧ record.sessionId = "session" ∧
          (if (0 : ℚ) = 0 then (config.defaultConfidenceThreshold : ℚ) else 0) ≤ record.confidence)
        1 result.intents := by
  intro config
  have nodes : sessionNodes (stored oneCategory [storeFourth]) "session" (effectiveMinConfidence config 0) =
      [encode oneCategory fourth] := by decide +kernel
  exact getSessionIntents_largest oneCategory config [storeFourth] "session" 0 1 _ (by decide +kernel)
    (by decide) (answers_one nodes 0)

/-- A threshold of zero is not that of the caller: the configuration's may be larger. -/
theorem not_minConfidence :
    ¬ ∀ (κ : Type) [DecidableEq κ] (lib : Library κ) (config : ModelAdapterIntentGraphConfig)
      (history : List (StoreCall κ)) (sessionId : String) (minConfidence : ℚ) (limit : Nat)
      (answer : List IntentNode), 0 ≤ minConfidence ∧ minConfidence ≤ 1 →
        1 ≤ limit ∧ limit ≤ config.maxIntentsPerSession →
        Answers
          (sessionNodes (stored lib history) sessionId (effectiveMinConfidence config minConfidence))
          (effectiveLimit config (some limit)) answer →
        Largest (fun record => record.createdAt.microseconds)
          (fun record => Recorded lib history record ∧ record.sessionId = sessionId ∧
            minConfidence ≤ record.confidence)
          limit (getSessionIntents lib sessionId answer).intents := by
  intro holds
  let config : ModelAdapterIntentGraphConfig :=
    { defaultConfidenceThreshold := ⟨1 / 2, by decide +kernel⟩ }
  have nodes : sessionNodes (stored oneCategory [storeFourth]) "session" (effectiveMinConfidence config 0) =
      [] := by decide +kernel
  have answers : Answers (sessionNodes (stored oneCategory [storeFourth]) "session"
      (effectiveMinConfidence config 0)) 1 [] := by
    rw [nodes]
    exact ⟨[], ⟨.rfl, .nil⟩, rfl⟩
  have largest := holds Unit oneCategory config [storeFourth] "session" 0 1 [] (by decide +kernel)
    (by decide) answers
  have chosen : Recorded oneCategory [storeFourth] fourth ∧ fourth.sessionId = "session" ∧
      0 ≤ (fourth.confidence : ℚ) := ⟨recorded_fourth, rfl, fourth.confidence.2.1⟩
  have full := (largest.most fourth chosen List.not_mem_nil).1
  contradiction

end OmniMemory.IntentGraph
