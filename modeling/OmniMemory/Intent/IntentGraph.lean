import OmniMemory.Calendar
import OmniMemory.Lib.Pages
import OmniMemory.Lib.Table
import OmniMemory.Lib.Tally
import OmniMemory.Subscription.Encoding
import Mathlib.Algebra.Order.Ring.Rat

/-! `AdapterIntentGraph`: the graph of sessions and their intents, what `store_intent` makes of it, and
the queries. The database lists what it orders by a property in any order of equal values. What the
graph holds is one intent for each session and category of the history, created by the first store
and updated by the last. -/

namespace OmniMemory

open Interleave Pages

namespace IntentGraph

/-- What is used of the enum of the categories, `EnumIntentCategory`, and of `UUID(text)`: nothing
where they raise `ValueError`. -/
structure Library (κ : Type) where
  value : κ → String
  ofValue : String → Option κ
  unknown : κ
  uuid : String → Option UUID
  ofValue_value : ∀ c, ofValue (value c) = some c
  uuid_str : ∀ u, uuid (UUID.str u) = some u

/-- A number between zero and one. -/
abbrev Confidence := {q : ℚ // 0 ≤ q ∧ q ≤ 1}

/-- The settings of the adapter that its queries read. -/
structure ModelAdapterIntentGraphConfig where
  maxIntentsPerSession : Nat := 100
  defaultConfidenceThreshold : Confidence := ⟨0, by decide⟩
  maxIntentsPerSession_bounds : 1 ≤ maxIntentsPerSession ∧ maxIntentsPerSession ≤ 1000 := by decide

/-- An intent node, with the session that its relationship comes from, and the relationship's
correlation id. -/
structure IntentNode where
  sessionId : String
  intentCategory : String
  intentId : String
  createdAtUtc : String
  confidence : Confidence
  keywords : List String
  correlationId : Option String
deriving DecidableEq

/-- The graph, which has one intent node for each session and category. -/
abbrev Graph := Table fun i : IntentNode => (i.sessionId, i.intentCategory)

/-- `ModelIntentClassificationOutput`. -/
structure IntentData (κ : Type) where
  intentCategory : κ
  confidence : Confidence
  keywords : List String

/-- A call of `store_intent`, with what `uuid4` and the clock return. -/
structure StoreCall (κ : Type) where
  sessionId : String
  intentData : IntentData κ
  correlationId : String
  intentId : UUID
  now : DateTime
  now_inRange : now.InRange

structure ModelIntentStorageResult where
  success : Bool
  intentId : Option UUID := none
  created : Bool := false
  errorMessage : Option String := none

/-- `ModelIntentRecord`, with a category that is a member of the enum or a string. -/
structure IntentRecord (γ : Type) where
  intentId : UUID
  sessionId : String
  intentCategory : γ
  confidence : Confidence
  keywords : List String
  createdAt : DateTime
  correlationId : Option UUID
deriving DecidableEq

section Adapter

variable {κ : Type} (lib : Library κ)

/-! ### Storing -/

/-- The node after a `MERGE` with the parameters of a query. -/
def merge (graph : Graph) (parameters : IntentNode) : IntentNode :=
  match graph.find? (parameters.sessionId, parameters.intentCategory) with
  | none => parameters
  | some i =>
    { i with
      confidence := parameters.confidence
      keywords := parameters.keywords
      correlationId := parameters.correlationId }

/-- `store_intent_query`: what it returns, and the graph after it. -/
def storeIntentQuery (graph : Graph) (parameters : IntentNode) : (String × Bool) × Graph :=
  let merged := merge graph parameters
  ((merged.intentId, decide (merged.createdAtUtc = parameters.createdAtUtc)), graph.put merged)

def parseCorrelationId (correlationId : String) : Option UUID :=
  if correlationId = "" then none else lib.uuid correlationId

/-- The parameters of `store_intent_query`. -/
def storeParameters (call : StoreCall κ) : IntentNode where
  sessionId := call.sessionId
  intentCategory := lib.value call.intentData.intentCategory
  intentId := UUID.str call.intentId
  createdAtUtc := call.now.isoformat
  confidence := call.intentData.confidence
  keywords := call.intentData.keywords
  correlationId := (parseCorrelationId lib call.correlationId).map UUID.str

/-- `store_intent`, when the database answers. -/
def storeIntent (graph : Graph) (call : StoreCall κ) : ModelIntentStorageResult × Graph :=
  if isBlank call.sessionId then
    ({ success := false, errorMessage := some "session_id cannot be empty" }, graph)
  else
    let ((dbIntentId, wasCreated), graph) := storeIntentQuery graph (storeParameters lib call)
    ({ success := true
       intentId := some ((lib.uuid dbIntentId).getD call.intentId)
       created := wasCreated }, graph)

/-- The graph after a history of stores. -/
def stored (history : List (StoreCall κ)) : Graph :=
  history.foldl (fun graph call => (storeIntent lib graph call).2) .empty

/-! ### Reading -/

/-- A record of an answer, as `get_recent_intents` reads it. -/
def readRecord (node : IntentNode) : Option (IntentRecord String) := do
  let intentId ← lib.uuid node.intentId
  let createdAt ← DateTime.fromIsoFormat node.createdAtUtc
  return {
    intentId, createdAt
    sessionId := node.sessionId
    intentCategory := node.intentCategory
    confidence := node.confidence
    keywords := node.keywords
    correlationId := node.correlationId.bind lib.uuid }

/-- A record of an answer, as `get_session_intents` reads it. -/
def readSessionRecord (sessionId : String) (node : IntentNode) : Option (IntentRecord κ) :=
  (readRecord lib node).map fun record =>
    { record with
      sessionId
      intentCategory := (lib.ofValue record.intentCategory).getD lib.unknown }

variable (config : ModelAdapterIntentGraphConfig)

/-- The limit of a query: the caller's or the maximum, between one and the maximum. -/
def effectiveLimit (limit : Option Int) : Nat :=
  (max 1 (min (limit.getD config.maxIntentsPerSession) config.maxIntentsPerSession)).toNat

/-- The threshold of `get_session_intents`. -/
def effectiveMinConfidence (minConfidence : ℚ) : ℚ :=
  max 0 (min (if 0 < minConfidence then minConfidence else config.defaultConfidenceThreshold) 1)

/-- One of the answers to a query that orders nodes by their creation and has a limit. -/
def Answers (nodes : List IntentNode) (limit : Nat) (answer : List IntentNode) : Prop :=
  ∃ listed, Orders IntentNode.createdAtUtc nodes listed ∧ answer = listed.take limit

/-- The nodes that `get_session_intents_query` matches. -/
def sessionNodes (graph : Graph) (sessionId : String) (minConfidence : ℚ) : List IntentNode :=
  graph.rows.filter fun i =>
    decide (i.sessionId = sessionId) && decide (minConfidence ≤ (i.confidence : ℚ))

structure CoreModelIntentQueryResult (κ : Type) where
  success : Bool
  intents : List (IntentRecord κ)
  totalCount : Nat

/-- `get_session_intents`, with the answer of the database. -/
def getSessionIntents (sessionId : String) (answer : List IntentNode) : CoreModelIntentQueryResult κ :=
  let intents := answer.filterMap (readSessionRecord lib sessionId)
  { success := true, intents, totalCount := intents.length }

/-! ### Time windows -/

/-- The beginning of a time window; there is none where the subtraction raises `OverflowError`. -/
def windowStart (now : DateTime) (timeRangeHours : Int) : Option DateTime :=
  now.minusHours (max 1 timeRangeHours).toNat

/-- The nodes that `get_recent_intents_query` matches. -/
def recentNodes (graph : Graph) (cutoffTime : String) (minConfidence : Option ℚ) : List IntentNode :=
  graph.rows.filter fun i =>
    decide (cutoffTime ≤ i.createdAtUtc) && minConfidence.all (decide <| · ≤ (i.confidence : ℚ))

/-- The confidence filter of `get_recent_intents`. -/
def clampMinConfidence (minConfidence : Option ℚ) : Option ℚ := minConfidence.map (max 0 <| min · 1)

inductive Status where
  | success
  | noResults

structure ModelIntentQueryResult where
  status : Status
  intents : List (IntentRecord String)
  totalCount : Nat

/-- `get_recent_intents`, with the answer of the database. -/
def getRecentIntents (answer : List IntentNode) : ModelIntentQueryResult :=
  if answer = [] then { status := .noResults, intents := [], totalCount := 0 }
  else
    let intents := answer.filterMap (readRecord lib)
    { status := .success, intents, totalCount := intents.length }

/-- The categories of the nodes that `get_intent_distribution_query` matches, with their counts. -/
def categoryCounts (graph : Graph) (sinceUtc : String) : List (String × Nat) :=
  Tally.tally ((graph.rows.filter fun i => decide (sinceUtc ≤ i.createdAtUtc)).map (·.intentCategory))

structure ModelIntentDistributionResult where
  distribution : Table (Prod.fst : String × Nat → String)
  totalIntents : Nat
  timeRangeHours : Int

/-- `get_intent_distribution`, with the answer of the database. -/
def getIntentDistribution (timeRangeHours : Int) (answer : List (String × Nat)) :
    ModelIntentDistributionResult :=
  let distribution : Table (Prod.fst : String × Nat → String) :=
    answer.foldl (fun distribution record => distribution.put record) .empty
  { distribution
    totalIntents := (distribution.rows.map Prod.snd).sum
    timeRangeHours := max 1 timeRangeHours }

end Adapter

/-! ### The history -/

section History

variable {κ : Type} (lib : Library κ) {record : IntentRecord κ} {call : StoreCall κ}
  {history : List (StoreCall κ)} {graph : Graph} {parameters : IntentNode}

/-- The intent that a call creates. -/
def created (call : StoreCall κ) : IntentRecord κ where
  intentId := call.intentId
  sessionId := call.sessionId
  intentCategory := call.intentData.intentCategory
  confidence := call.intentData.confidence
  keywords := call.intentData.keywords
  createdAt := call.now
  correlationId := parseCorrelationId lib call.correlationId

/-- An intent as a later call updates it. -/
def updated (record : IntentRecord κ) (call : StoreCall κ) : IntentRecord κ :=
  { record with
    confidence := call.intentData.confidence
    keywords := call.intentData.keywords
    correlationId := parseCorrelationId lib call.correlationId }

/-- The node of an intent. -/
def encode (record : IntentRecord κ) : IntentNode where
  sessionId := record.sessionId
  intentCategory := lib.value record.intentCategory
  intentId := UUID.str record.intentId
  createdAtUtc := record.createdAt.isoformat
  confidence := record.confidence
  keywords := record.keywords
  correlationId := record.correlationId.map UUID.str

/-- An intent with the name of its category. -/
def named (record : IntentRecord κ) : IntentRecord String :=
  { record with intentCategory := lib.value record.intentCategory }

variable {lib}

theorem Library.value_inj {c c' : κ} (same : lib.value c = lib.value c') : c = c' := by
  have read := lib.ofValue_value c
  rw [same, lib.ofValue_value] at read
  exact (Option.some.inj read).symm

theorem merge_key : ((merge graph parameters).sessionId, (merge graph parameters).intentCategory) =
    (parameters.sessionId, parameters.intentCategory) := by
  unfold merge
  split
  · rfl
  · rename_i i found
    exact (Table.find?_eq_some.mp found).2

theorem find?_storeIntent (some : isBlank call.sessionId = false) (key : String × String) :
    (storeIntent lib graph call).2.find? key =
      if key = (call.sessionId, lib.value call.intentData.intentCategory) then
        .some (merge graph (storeParameters lib call))
      else graph.find? key := by
  have blank : ¬ isBlank call.sessionId = true := by simp [some]
  rw [storeIntent, if_neg blank]
  show (graph.put (merge graph (storeParameters lib call))).find? key = _
  rw [Table.find?_put, merge_key]
  rfl

theorem stored_concat :
    stored lib (history ++ [call]) = (storeIntent lib (stored lib history) call).2 := by
  rw [stored, List.foldl_append]
  rfl

variable [DecidableEq κ] {sessionId : String} {category : κ} {node : IntentNode}

/-- The call stores an intent of the session and the category. -/
def Stores (sessionId : String) (category : κ) (call : StoreCall κ) : Prop :=
  isBlank call.sessionId = false ∧ call.sessionId = sessionId ∧ call.intentData.intentCategory = category

instance : DecidablePred (Stores sessionId category) :=
  fun _ => inferInstanceAs (Decidable (_ ∧ _ ∧ _))

variable (lib history sessionId category) in
/-- The intent of a session and a category: the first call creates it, and the last one updates it. -/
def intentOf : Option (IntentRecord κ) :=
  match history.filter (Stores sessionId category ·) with
  | [] => none
  | first :: rest => some (updated lib (created lib first) ((first :: rest).getLast (by simp)))

variable (lib history) in
/-- The intent is that of its session and its category. -/
def Recorded (record : IntentRecord κ) : Prop :=
  intentOf lib history record.sessionId record.intentCategory = some record

instance : DecidablePred (Recorded lib history) :=
  fun _ => inferInstanceAs (Decidable (_ = _))

theorem intentOf_concat : intentOf lib (history ++ [call]) sessionId category =
    if Stores sessionId category call then
      some (((intentOf lib history sessionId category).map (updated lib · call)).getD (created lib call))
    else intentOf lib history sessionId category := by
  unfold intentOf
  rw [List.filter_append]
  by_cases stores : Stores sessionId category call
  · rw [if_pos stores, List.filter_cons_of_pos (p := (Stores sessionId category ·)) (decide_eq_true stores)]
    cases history.filter (Stores sessionId category ·) with
    | nil => rfl
    | cons first rest => simp [updated]
  · rw [if_neg stores, List.filter_cons_of_neg (p := (Stores sessionId category ·)) (by simpa using stores),
      List.filter_nil, List.append_nil]

/-- The graph has the intents of the history. -/
theorem find?_stored (lib : Library κ) (history : List (StoreCall κ)) (sessionId : String)
    (category : κ) : (stored lib history).find? (sessionId, lib.value category) =
      (intentOf lib history sessionId category).map (encode lib) := by
  induction history using List.reverseRecOn with
  | nil => rfl
  | append_singleton history call ih =>
    rw [stored_concat, intentOf_concat]
    cases blank : isBlank call.sessionId with
    | true =>
      have other : ¬ Stores sessionId category call := fun stores => by
        rw [stores.1] at blank
        contradiction
      rw [if_neg other, storeIntent, if_pos blank]
      exact ih
    | false =>
      rw [find?_storeIntent blank]
      by_cases stores : Stores sessionId category call
      · obtain ⟨-, rfl, rfl⟩ := id stores
        rw [if_pos rfl, if_pos stores, merge, storeParameters, ih]
        cases intentOf lib history call.sessionId call.intentData.intentCategory with
        | none => rfl
        | some record => rfl
      · have key : (sessionId, lib.value category) ≠
            (call.sessionId, lib.value call.intentData.intentCategory) := fun same => by
          obtain ⟨session, value⟩ := Prod.mk.inj same
          exact stores ⟨blank, session.symm, (lib.value_inj value).symm⟩
        rw [if_neg key, if_neg stores, ih]

end History

end IntentGraph

end OmniMemory
