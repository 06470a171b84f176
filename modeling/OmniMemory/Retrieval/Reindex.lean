import OmniMemory.Lib.Separated
import OmniMemory.Retrieval.Qdrant

/-! Documents that are indexed again. A point's id is made of its document and the number of its
chunk, so a new version overwrites the chunks that it has itself, and any further chunks of older
versions stay. -/

namespace OmniMemory

open Interleave Sequential

namespace Retrieval

open HandlerQdrant

variable {self : HandlerQdrant} {X : External} {server : Server} {s : Collection}
  {documentId documentId' content : String} {i j : Nat}

theorem toList_pointName : (pointName documentId i).toList =
    documentId.toList ++ ':' :: Nat.toDigits 10 i := by
  simp [pointName, toString, Nat.toList_repr]

/-- The number of a chunk has no colon, so the last colon of a name ends the document. -/
theorem pointName_inj (same : pointName documentId i = pointName documentId' j) :
    documentId = documentId' ∧ i = j := by
  have reversed := congrArg (fun name => name.toList.reverse) same
  simp only [toList_pointName, List.reverse_append, List.reverse_cons, List.append_assoc,
    List.singleton_append] at reversed
  have digits : ∀ n, ':' ∉ (Nat.toDigits 10 n).reverse := by
    intro n mem
    have := Nat.isDigit_of_mem_toDigits (by omega) (by omega) (List.mem_reverse.mp mem)
    contradiction
  obtain ⟨number, document⟩ := Separated.append_sep_inj (digits i) (digits j) reversed
  refine ⟨String.toList_inj.mp (List.reverse_inj.mp document), ?_⟩
  rw [← Nat.ofDigitChars_ten_toDigits (n := i), List.reverse_inj.mp number,
    Nat.ofDigitChars_ten_toDigits]

theorem payloadOf_inj {t u : String} (same : payloadOf documentId i t = payloadOf documentId' j u) :
    documentId = documentId' ∧ i = j ∧ t = u := by
  simpa [payloadOf, Int.ofNat_inj] using same

/-- The document that a payload names. -/
def documentOf (payload : Payload) : Option PayloadValue :=
  (payload.find? (·.1 == "document_id")).map (·.2)

@[simp] theorem documentOf_payloadOf {t : String} :
    documentOf (payloadOf documentId i t) = some (.str documentId) := by
  simp [payloadOf, documentOf]

/-- Every point is a chunk of a document, under the id of its document and number. -/
def Chunked (X : External) (s : Collection) : Prop :=
  ∀ point ∈ s, ∃ documentId i t, point.payload = payloadOf documentId i t ∧
    point.id = X.uuid5 (pointName documentId i)

/-- The payload under the id of a chunk of a document. -/
def chunkAt (X : External) (s : Collection) (documentId : String) (i : Nat) : Option Payload :=
  (s.find? (X.uuid5 (pointName documentId i))).map (·.payload)

theorem Chunked.put {point : PointStruct} {t : String} (chunked : Chunked X s)
    (id : point.id = X.uuid5 (pointName documentId i))
    (payload : point.payload = payloadOf documentId i t) : Chunked X (s.put point) := by
  intro other mem
  rcases Table.mem_put.mp mem with rfl | ⟨mem, -⟩
  · exact ⟨documentId, i, t, payload, id⟩
  · exact chunked other mem

/-- Every point that an index operation leaves is a chunk, however it ends. -/
theorem Chunked.indexChunks {chunks : List String} (chunked : Chunked X s) :
    Chunked X (indexChunks X server documentId i chunks s).2 := by
  induction chunks generalizing i s with
  | nil => exact chunked
  | cons chunk rest ih =>
    rw [HandlerQdrant.indexChunks]
    cases getEmbedding server chunk with
    | error e => exact chunked
    | ok embedding =>
      dsimp only
      cases server.upsert ⟨X.uuid5 (pointName documentId i), embedding,
        payloadOf documentId i chunk⟩ with
      | refused e => exact chunked
      | lost e => exact chunked.put rfl rfl
      | done => exact ih (chunked.put rfl rfl)

theorem chunkAt_put (inj : Function.Injective X.uuid5) {point : PointStruct}
    (id : point.id = X.uuid5 (pointName documentId i)) :
    chunkAt X (s.put point) documentId' j =
      if documentId' = documentId ∧ j = i then some point.payload
      else chunkAt X s documentId' j := by
  rw [chunkAt, Table.find?_put, id]
  by_cases same : documentId' = documentId ∧ j = i
  · obtain ⟨rfl, rfl⟩ := same
    simp
  · have other : X.uuid5 (pointName documentId' j) ≠ X.uuid5 (pointName documentId i) :=
      fun equal => same (pointName_inj (inj equal))
    rw [if_neg other, if_neg same]
    rfl

/-- A loop that ends without an exception has written its chunks, and nothing else. -/
theorem chunkAt_indexChunks (inj : Function.Injective X.uuid5) {chunks : List String}
    {s' : Collection} (done : indexChunks X server documentId i chunks s = (.ok (), s')) :
    chunkAt X s' documentId' j =
      if documentId' = documentId ∧ i ≤ j ∧ j < i + chunks.length then
        (chunks[j - i]?).map (payloadOf documentId j)
      else chunkAt X s documentId' j := by
  induction chunks generalizing i s with
  | nil =>
    obtain rfl : s = s' := by simpa [indexChunks] using done
    rw [if_neg (by rw [List.length_nil]; omega)]
  | cons chunk rest ih =>
    rw [indexChunks] at done
    cases embedded : getEmbedding server chunk with
    | error e => simp [embedded] at done
    | ok embedding =>
      simp only [embedded] at done
      cases upserted : server.upsert ⟨X.uuid5 (pointName documentId i), embedding,
          payloadOf documentId i chunk⟩ with
      | refused e => simp [upserted] at done
      | lost e => simp [upserted] at done
      | done =>
        simp only [upserted] at done
        rw [ih done, chunkAt_put inj rfl, List.length_cons]
        by_cases own : documentId' = documentId
        · rcases Nat.lt_trichotomy j i with less | rfl | more
          · rw [if_neg (by omega), if_neg (by omega), if_neg (by omega)]
          · rw [if_neg (by omega), if_pos ⟨own, rfl⟩, if_pos ⟨own, by omega, by omega⟩]
            simp
          · obtain ⟨k, rfl⟩ := Nat.exists_eq_add_of_lt more
            have shift : i + k + 1 - i = k + 1 := by omega
            have shift' : i + k + 1 - (i + 1) = k := by omega
            rw [shift, shift', List.getElem?_cons_succ]
            by_cases bound : k < rest.length
            · rw [if_pos ⟨own, by omega, by omega⟩, if_pos ⟨own, by omega, by omega⟩]
            · rw [if_neg (by omega), if_neg (by omega), if_neg (by omega)]
        · simp [own]

/-! ### Sequences of index operations -/

/-- An index operation, with what the servers answer to it. -/
structure IndexCall where
  documentId : String
  content : String
  server : Server

def IndexCall.event (call : IndexCall) : Request × Server :=
  (.index call.documentId call.content, call.server)

/-- The operation reports success. -/
def Succeeds (self : HandlerQdrant) (X : External) (s : Collection) (e : Request × Server) : Prop :=
  ∃ response, ((handled self X).step s e).1 = .ok response ∧ response.status = .success

/-- The collection after operations on an empty one. -/
def indexed (self : HandlerQdrant) (X : External) (calls : List IndexCall) : Collection :=
  (handled self X).run .empty (calls.map IndexCall.event)

/-- The text that operations leave at a number of a document: that of the last one for the document
whose content has such a chunk. -/
def textAt (self : HandlerQdrant) (documentId : String) (i : Nat) (calls : List IndexCall) :
    Option String :=
  calls.foldl (fun text call =>
    if call.documentId = documentId then ((self.chunkText call.content)[i]?).or text else text) none

theorem snd_index : (self.index X server documentId content s).2 =
    if documentId = "" ∨ content = "" then s
    else (indexChunks X server documentId 0 (self.chunkText content) s).2 := by
  unfold index
  split
  · rfl
  · dsimp only
    split <;> simp [*]

theorem indexChunks_of_success {response : ModelMemoryRetrievalResponse X}
    (answer : (self.index X server documentId content s).1 = .ok response)
    (success : response.status = .success) :
    indexChunks X server documentId 0 (self.chunkText content) s =
      (.ok (), (self.index X server documentId content s).2) := by
  unfold index at answer ⊢
  split at answer
  · cases answer
    contradiction
  · rename_i nonempty
    rw [if_neg nonempty]
    dsimp only at answer ⊢
    split at answer
    · contradiction
    · rename_i done
      rw [done]

theorem step_of_succeeds {call : IndexCall} (succeeds : Succeeds self X s call.event) :
    indexChunks X call.server call.documentId 0 (self.chunkText call.content) s =
      (.ok (), ((handled self X).step s call.event).2) := by
  obtain ⟨response, answer, success⟩ := succeeds
  simp only [handled, IndexCall.event, execute] at answer ⊢
  split at answer
  · rename_i ready
    rw [if_pos ready]
    exact indexChunks_of_success answer success
  · contradiction

/-- Index operations leave chunks only, however they end. -/
theorem chunked_indexed (calls : List IndexCall) : Chunked X (indexed self X calls) := by
  induction calls using List.reverseRecOn with
  | nil => exact fun point mem => absurd mem (Table.not_mem_empty point)
  | append_singleton calls call chunked =>
    rw [indexed, List.map_append, List.map_singleton, Automaton.run_concat, ← indexed]
    simp only [handled, IndexCall.event, execute]
    split
    · rw [snd_index]
      split
      · exact chunked
      · exact chunked.indexChunks
    · exact chunked

theorem textAt_concat {calls : List IndexCall} {call : IndexCall} :
    textAt self documentId i (calls ++ [call]) = if call.documentId = documentId then
      ((self.chunkText call.content)[i]?).or (textAt self documentId i calls)
      else textAt self documentId i calls := by
  simp [textAt]

theorem textAt_eq_none {calls : List IndexCall} : textAt self documentId i calls = none ↔
    ∀ call ∈ calls, call.documentId = documentId → (self.chunkText call.content).length ≤ i := by
  induction calls using List.reverseRecOn with
  | nil => simp [textAt]
  | append_singleton calls call ih =>
    rw [textAt_concat, List.forall_mem_append, List.forall_mem_singleton, ← ih]
    split
    · rename_i own
      rw [Option.or_eq_none_iff, List.getElem?_eq_none_iff, and_comm]
      simp [own]
    · rename_i other
      simp [other]

/-- Operations for other documents leave the texts of this one. -/
theorem textAt_settled {earlier later : List IndexCall} {call : IndexCall}
    (last : ∀ other ∈ later, other.documentId ≠ call.documentId) :
    textAt self call.documentId i (earlier ++ call :: later) =
      ((self.chunkText call.content)[i]?).or (textAt self call.documentId i earlier) := by
  induction later using List.reverseRecOn with
  | nil => rw [textAt_concat, if_pos rfl]
  | append_singleton later other ih =>
    rw [List.forall_mem_append, List.forall_mem_singleton] at last
    rw [← List.cons_append, ← List.append_assoc, textAt_concat, if_neg last.2, ih last.1]

/-- Operations that succeed leave under every id the text written there last. -/
theorem chunkAt_indexed (inj : Function.Injective X.uuid5) {calls : List IndexCall}
    (succeed : (handled self X).Meets (Succeeds self X) .empty (calls.map IndexCall.event)) :
    chunkAt X (indexed self X calls) documentId i =
      (textAt self documentId i calls).map (payloadOf documentId i) := by
  induction calls using List.reverseRecOn with
  | nil => rfl
  | append_singleton calls call ih =>
    rw [List.map_append, List.map_singleton, Automaton.meets_concat] at succeed
    have done := step_of_succeeds succeed.2
    have old := ih succeed.1
    rw [indexed, List.map_append, List.map_singleton, Automaton.run_concat,
      chunkAt_indexChunks inj done, ← indexed, old, textAt_concat, Nat.sub_zero]
    by_cases own : call.documentId = documentId
    · by_cases bound : i < (self.chunkText call.content).length
      · rw [if_pos ⟨own.symm, by omega, by omega⟩, if_pos own, List.getElem?_eq_getElem bound, own]
        rfl
      · rw [if_neg (by omega), if_pos own, List.getElem?_eq_none (Nat.not_lt.mp bound),
          Option.none_or]
    · rw [if_neg fun h => own h.1.symm, if_neg own]

/-- The points of the document are exactly one for each chunk. -/
structure HoldsExactly (X : External) (s : Collection) (documentId : String)
    (chunks : List String) : Prop where
  only : ∀ point ∈ s, documentOf point.payload = some (.str documentId) →
    ∃ i t, chunks[i]? = some t ∧ point.payload = payloadOf documentId i t
  each : ∀ i t, chunks[i]? = some t →
    ∃ point, ∀ q, q ∈ s ∧ q.payload = payloadOf documentId i t ↔ q = point

theorem Chunked.chunkAt_eq_some {t : String} (chunked : Chunked X s) :
    chunkAt X s documentId i = some (payloadOf documentId i t) ↔
      ∃ point ∈ s, point.payload = payloadOf documentId i t := by
  constructor
  · intro here
    obtain ⟨point, found, payload⟩ := Option.map_eq_some_iff.mp here
    exact ⟨point, (Table.find?_eq_some.mp found).1, payload⟩
  · rintro ⟨point, mem, payload⟩
    obtain ⟨documentId', j, u, payload', id⟩ := chunked point mem
    obtain ⟨rfl, rfl, rfl⟩ := payloadOf_inj (payload.symm.trans payload')
    rw [chunkAt, Table.find?_eq_some.mpr ⟨mem, id⟩, Option.map_some, payload]

/-- What is stored of a document is what its last operations wrote at each number. -/
theorem holdsExactly_iff (inj : Function.Injective X.uuid5) {calls : List IndexCall}
    (succeed : (handled self X).Meets (Succeeds self X) .empty (calls.map IndexCall.event))
    {chunks : List String} : HoldsExactly X (indexed self X calls) documentId chunks ↔
      ∀ i, textAt self documentId i calls = chunks[i]? := by
  have chunked : Chunked X (indexed self X calls) := chunked_indexed calls
  have stored : ∀ i t, textAt self documentId i calls = some t ↔
      ∃ point ∈ indexed self X calls, point.payload = payloadOf documentId i t := by
    intro i t
    rw [← chunked.chunkAt_eq_some, chunkAt_indexed inj succeed, Option.map_eq_some_iff]
    constructor
    · exact fun text => ⟨t, text, rfl⟩
    · rintro ⟨u, text, same⟩
      rw [text, (payloadOf_inj same).2.2]
  constructor
  · intro holds i
    ext t
    rw [stored]
    constructor
    · rintro ⟨point, mem, payload⟩
      obtain ⟨j, u, there, payload'⟩ := holds.only point mem (by rw [payload, documentOf_payloadOf])
      obtain ⟨-, rfl, rfl⟩ := payloadOf_inj (payload.symm.trans payload')
      exact there
    · intro there
      obtain ⟨point, unique⟩ := holds.each i t there
      exact ⟨point, (unique point).mpr rfl⟩
  · intro texts
    refine ⟨fun point mem document => ?_, fun i t there => ?_⟩
    · obtain ⟨documentId', i, t, payload, -⟩ := chunked point mem
      rw [payload, documentOf_payloadOf] at document
      cases document
      exact ⟨i, t, (texts i).symm.trans ((stored i t).mpr ⟨point, mem, payload⟩), payload⟩
    · obtain ⟨point, mem, payload⟩ := (stored i t).mp ((texts i).trans there)
      refine ⟨point, fun q => ⟨fun ⟨memq, payloadq⟩ => ?_, fun same => same ▸ ⟨mem, payload⟩⟩⟩
      obtain ⟨_, _, _, p1, id1⟩ := chunked point mem
      obtain ⟨_, _, _, p2, id2⟩ := chunked q memq
      obtain ⟨rfl, rfl, -⟩ := payloadOf_inj (payload.symm.trans p1)
      obtain ⟨rfl, rfl, -⟩ := payloadOf_inj (payloadq.symm.trans p2)
      exact Table.eq_of_key memq mem (id2.trans id1.symm)

/-- After operations that all succeed, the points of a document are those of its last content
exactly if no earlier content of the document had more chunks. -/
theorem reindexed_iff (inj : Function.Injective X.uuid5) {earlier later : List IndexCall}
    {call : IndexCall}
    (succeed : (handled self X).Meets (Succeeds self X) .empty
      ((earlier ++ call :: later).map IndexCall.event))
    (last : ∀ other ∈ later, other.documentId ≠ call.documentId) :
    HoldsExactly X (indexed self X (earlier ++ call :: later)) call.documentId
        (self.chunkText call.content) ↔
      ∀ other ∈ earlier, other.documentId = call.documentId →
        (self.chunkText other.content).length ≤ (self.chunkText call.content).length := by
  rw [holdsExactly_iff inj succeed]
  simp only [textAt_settled last]
  constructor
  · intro same
    have beyond := same (self.chunkText call.content).length
    rw [List.getElem?_eq_none (Nat.le_refl _), Option.none_or] at beyond
    exact textAt_eq_none.mp beyond
  · intro shorter i
    by_cases bound : i < (self.chunkText call.content).length
    · rw [List.getElem?_eq_getElem bound, Option.some_or]
    · have none : textAt self call.documentId i earlier = none := textAt_eq_none.mpr
        fun other mem own => Nat.le_trans (shorter other mem own) (Nat.not_lt.mp bound)
      rw [none, Option.or_none]

/-! ### Runs -/

/-- Surroundings for runs: the first two chunks of `doc` have their real ids, and any other name a
text that is no UUID. -/
def plainExternal : External where
  uuid5 name :=
    if name = "doc:0" then "24fdf8f4-6edd-5f2f-adc1-75086b38d9c7"
    else if name = "doc:1" then "e05ea84a-3ba0-5c61-95bb-6d04c4eee194"
    else "name " ++ name
  Snapshot := Payload
  validate payload :=
    if payload.has "snapshot_id" && payload.has "subject" then .ok payload
    else .error (.valueError "validation errors for ModelMemorySnapshot")
  required payload missing := ⟨_, by rw [missing]; rfl⟩

theorem uuid5_plain : Function.Injective plainExternal.uuid5 := by
  have other : ∀ a : String, "name " ++ a ≠ "24fdf8f4-6edd-5f2f-adc1-75086b38d9c7" ∧
      "name " ++ a ≠ "e05ea84a-3ba0-5c61-95bb-6d04c4eee194" := by
    refine fun a => ⟨fun same => ?_, fun same => ?_⟩ <;>
      simpa using congrArg String.toList same
  intro a b same
  simp only [plainExternal] at same
  split at same <;> split at same <;> try split at same <;> try split at same
  all_goals first
    | exact absurd same (by decide)
    | exact absurd same (other _).1
    | exact absurd same (other _).2
    | exact absurd same.symm (other _).1
    | exact absurd same.symm (other _).2
    | simp_all

/-- A server that embeds and stores everything and finds nothing. -/
def plainServer : Server where
  embed _ := .ok []
  upsert _ := .done
  search _ _ _ _ := .ok []
  found := by simp

instance (self : HandlerQdrant) (X : External) (s : Collection) (e : Request × Server) :
    Decidable (Succeeds self X s e) :=
  match answer : ((handled self X).step s e).1 with
  | .ok response => decidable_of_iff (response.status = .success) (by simp [Succeeds, answer])
  | .error _ => .isFalse (by simp [Succeeds, answer])

def plainHandler : HandlerQdrant := ⟨true, 2000, by decide⟩

def indexDoc (content : String) : IndexCall := ⟨"doc", content, plainServer⟩

theorem reindexed_two : HoldsExactly plainExternal
    (indexed plainHandler plainExternal [indexDoc "a", indexDoc "b\n\nc"]) "doc"
    (plainHandler.chunkText "b\n\nc") :=
  (@reindexed_iff plainHandler plainExternal uuid5_plain [indexDoc "a"] [] (indexDoc "b\n\nc")
    (by decide +kernel) (by simp)).mpr (by decide +kernel)

/-- A shorter version leaves the further chunk of the longer one. -/
theorem not_reindexed_shorter : ¬ ∀ (self : HandlerQdrant) (X : External)
    (earlier later : List IndexCall) (call : IndexCall), Function.Injective X.uuid5 →
    (handled self X).Meets (Succeeds self X) .empty
      ((earlier ++ call :: later).map IndexCall.event) →
    (∀ other ∈ later, other.documentId ≠ call.documentId) →
    HoldsExactly X (indexed self X (earlier ++ call :: later)) call.documentId
      (self.chunkText call.content) := by
  intro all
  have holds := all plainHandler plainExternal [indexDoc "a\n\nb"] [] (indexDoc "c") uuid5_plain
    (by decide +kernel) (by simp)
  have stale : ((indexed plainHandler plainExternal [indexDoc "a\n\nb", indexDoc "c"]).rows.any
      fun point => point.payload == payloadOf "doc" 1 "b") = true := by decide +kernel
  obtain ⟨point, mem, payload⟩ := List.any_eq_true.mp stale
  have payload := eq_of_beq payload
  obtain ⟨i, t, there, payload'⟩ := holds.only point mem (by rw [payload]; rfl)
  obtain ⟨-, rfl, rfl⟩ := payloadOf_inj (payload.symm.trans payload')
  revert there
  decide +kernel

end Retrieval

end OmniMemory
