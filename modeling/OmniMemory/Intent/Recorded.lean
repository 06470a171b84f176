import OmniMemory.Intent.IntentGraph

/-! What queries of the intent graph answer: the nodes are those of the intents of the history, and the
first ones by the texts of their creation are those that were created last. -/

namespace OmniMemory.IntentGraph

open Interleave Pages

variable {κ : Type} [DecidableEq κ] {lib : Library κ} {history : List (StoreCall κ)}
  {record : IntentRecord κ} {node : IntentNode} {answer : List IntentNode} {limit : Nat}

theorem Recorded.inRange (recorded : Recorded lib history record) : record.createdAt.InRange := by
  unfold Recorded intentOf at recorded
  split at recorded
  · contradiction
  · rename_i first rest calls
    rw [← Option.some.inj recorded]
    exact first.now_inRange

/-! ### The nodes -/

omit [DecidableEq κ] in
theorem exists_category (mem : node ∈ stored lib history) : ∃ c, node.intentCategory = lib.value c := by
  induction history using List.reverseRecOn with
  | nil => exact absurd mem (Table.not_mem_empty node)
  | append_singleton history call ih =>
    rw [stored_concat, storeIntent] at mem
    split at mem
    · exact ih mem
    · have mem : node ∈ (stored lib history).put (merge (stored lib history) (storeParameters lib call)) := mem
      rcases Table.mem_put.mp mem with rfl | ⟨former, -⟩
      · exact ⟨_, (Prod.mk.inj merge_key).2⟩
      · exact ih former

/-- The nodes of the graph are those of the intents. -/
theorem mem_stored : node ∈ stored lib history ↔
    ∃ record, Recorded lib history record ∧ encode lib record = node := by
  constructor
  · intro mem
    obtain ⟨category, name⟩ := exists_category mem
    have found : (stored lib history).find? (node.sessionId, lib.value category) = some node :=
      Table.find?_eq_some.mpr ⟨mem, by rw [name]⟩
    rw [find?_stored, Option.map_eq_some_iff] at found
    obtain ⟨record, recorded, rfl⟩ := found
    obtain rfl := lib.value_inj name
    exact ⟨record, recorded, rfl⟩
  · intro ⟨record, recorded, same⟩
    have found := find?_stored lib history record.sessionId record.intentCategory
    rw [recorded, Option.map_some, same] at found
    exact (Table.find?_eq_some.mp found).1

theorem readRecord_encode (recorded : Recorded lib history record) :
    readRecord lib (encode lib record) = some (named lib record) := by
  have read := (DateTime.isoText_isoformat record.createdAt).fromIsoFormat recorded.inRange
  have correlation : (record.correlationId.map UUID.str).bind lib.uuid = record.correlationId := by
    cases record.correlationId with
    | none => rfl
    | some u => exact lib.uuid_str u
  simp only [readRecord, encode, lib.uuid_str, read, correlation]
  rfl

theorem readSessionRecord_encode (recorded : Recorded lib history record) :
    readSessionRecord lib record.sessionId (encode lib record) = some record := by
  rw [readSessionRecord, readRecord_encode recorded, Option.map_some]
  simp only [named, lib.ofValue_value, Option.getD_some]

/-! ### The intents -/

variable (lib history) in
/-- The intents of the history, in the order of their nodes. -/
def records : List (IntentRecord κ) :=
  (stored lib history).rows.filterMap fun node => readSessionRecord lib node.sessionId node

theorem rows_stored : (stored lib history).rows = (records lib history).map (encode lib) := by
  have read : ∀ node ∈ (stored lib history).rows,
      (readSessionRecord lib node.sessionId node).map (encode lib) = some node := by
    intro node mem
    obtain ⟨record, recorded, rfl⟩ := mem_stored.mp mem
    have same := readSessionRecord_encode recorded
    rw [show (encode lib record).sessionId = record.sessionId from rfl, same]
    rfl
  rw [records, List.map_filterMap, List.filterMap_congr read, List.filterMap_some]

theorem mem_records : record ∈ records lib history ↔ Recorded lib history record := by
  rw [records, List.mem_filterMap]
  constructor
  · intro ⟨node, mem, read⟩
    obtain ⟨record', recorded, rfl⟩ := mem_stored.mp mem
    have same := (readSessionRecord_encode recorded).symm.trans read
    rwa [← Option.some.inj same]
  · intro recorded
    exact ⟨_, mem_stored.mpr ⟨record, recorded, rfl⟩, readSessionRecord_encode recorded⟩

theorem nodup_records : (records lib history).Nodup := by
  have rows := (stored lib history).distinct.of_map
  rw [rows_stored] at rows
  exact rows.of_map

/-! ### The answers -/

/-- The nodes that a query matches are those of the intents that it should. -/
theorem filter_rows {matched : IntentNode → Bool} {chosen : IntentRecord κ → Bool}
    (same : ∀ record, Recorded lib history record → matched (encode lib record) = chosen record) :
    (stored lib history).rows.filter matched =
      ((records lib history).filter chosen).map (encode lib) := by
  rw [rows_stored, List.filter_map]
  exact congrArg _ (List.filter_congr fun record mem => same record (mem_records.mp mem))

/-- The first nodes by the texts of their creation are those of the intents that were created last. -/
theorem exists_largest {matched : IntentNode → Bool} (chosen : IntentRecord κ → Bool)
    (same : ∀ record, Recorded lib history record → matched (encode lib record) = chosen record)
    (answers : Answers ((stored lib history).rows.filter matched) limit answer) :
    ∃ intents, answer = intents.map (encode lib) ∧
      Largest (fun record => record.createdAt.microseconds)
        (fun record => Recorded lib history record ∧ chosen record = true) limit intents := by
  obtain ⟨listing, orders, rfl⟩ := answers
  rw [filter_rows same] at orders
  have inverse : ∀ record ∈ (records lib history).filter chosen,
      readSessionRecord lib (encode lib record).sessionId (encode lib record) = some record :=
    fun record mem => readSessionRecord_encode (mem_records.mp (List.mem_filter.mp mem).1)
  obtain ⟨listed, rfl, texts⟩ := Orders.decode
    (g := fun node => readSessionRecord lib node.sessionId node) inverse orders
  have times : Orders (fun record => record.createdAt.microseconds)
      ((records lib history).filter chosen) listed := by
    refine texts.of_key fun a memA b memB le => ?_
    have first := (mem_records.mp (List.mem_filter.mp memA).1).inRange
    have second := (mem_records.mp (List.mem_filter.mp memB).1).inRange
    exact (DateTime.isoformat_le_iff first second).mp le
  have largest := times.largest (nodup_records.filter chosen) limit
  have chosen_eq : (· ∈ (records lib history).filter chosen) =
      fun record => Recorded lib history record ∧ chosen record = true := by
    funext record
    rw [List.mem_filter, mem_records]
  rw [chosen_eq] at largest
  exact ⟨listed.take limit, (List.map_take).symm, largest⟩

end OmniMemory.IntentGraph
