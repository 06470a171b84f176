import OmniMemory.Retrieval.Reindex

/-! Searches of a collection of indexed documents. The payload of a chunk has none of the fields
that a snapshot requires, so a search that finds one raises. -/

namespace OmniMemory

open Interleave

namespace Retrieval

open HandlerQdrant

variable {X : External} {server : Server} {s : Collection} {request : ModelMemoryRetrievalRequest}

/-- The collections that index operations leave, by any handlers and with any ends. -/
inductive WrittenByIndex (X : External) : Collection → Prop where
  | empty : WrittenByIndex X .empty
  | index {s : Collection} (self : HandlerQdrant) (server : Server) (documentId content : String)
      (written : WrittenByIndex X s) :
      WrittenByIndex X (self.index X server documentId content s).2

theorem WrittenByIndex.chunked (written : WrittenByIndex X s) : Chunked X s := by
  induction written with
  | empty => exact fun point mem => absurd mem (Table.not_mem_empty point)
  | index self server documentId content _ chunked =>
    rw [snd_index]
    split
    · exact chunked
    · exact chunked.indexChunks

/-- What Qdrant finds for a request. -/
def hitsOf (server : Server) (request : ModelMemoryRetrievalRequest) (s : Collection) :
    Except PyError (List ScoredPoint) := do
  let vector ← (queryVector server request).getD (.error (.other "no query"))
  server.search vector request.limit request.similarityThreshold s

/-- The search returns a response: no results, or a success with a result for each hit. -/
def Responds (X : External) (server : Server) (request : ModelMemoryRetrievalRequest)
    (s : Collection) : Prop :=
  ∃ response hits, search X server request s = .ok response ∧ hitsOf server request s = .ok hits ∧
    (hits = [] ∧ response.status = .noResults ∧ response.results = [] ∨
      hits ≠ [] ∧ response.status = .success ∧ response.results.length = hits.length)

/-- No snapshot is made of the payload of a chunk. -/
theorem decodeHit_of_chunked {hit : ScoredPoint} (chunked : Chunked X s)
    (found : ∃ point ∈ s, point.payload = hit.payload) : ∃ e, decodeHit X hit = .error e := by
  obtain ⟨point, mem, same⟩ := found
  obtain ⟨documentId, i, t, payload, -⟩ := chunked point mem
  have missing : (hit.payload.has "snapshot_id" && hit.payload.has "subject") = false := by
    rw [← same, payload]
    rfl
  obtain ⟨e, rejected⟩ := X.required hit.payload missing
  exact ⟨e, by rw [decodeHit, rejected]; rfl⟩

theorem queryVector_isSome (server : Server) (request : ModelMemoryRetrievalRequest) :
    ∃ vector, queryVector server request = some vector := by
  rcases request.query with text | embedding
  · obtain ⟨text, some⟩ := Option.isSome_iff_exists.mp text
    cases given : request.queryEmbedding with
    | none => exact ⟨_, by rw [queryVector, given, some]⟩
    | some vector => exact ⟨_, by rw [queryVector, given]⟩
  · obtain ⟨vector, given⟩ := Option.isSome_iff_exists.mp embedding
    exact ⟨_, by rw [queryVector, given]⟩

/-- What is found are points of the collection. -/
theorem stored_of_hitsOf {hits : List ScoredPoint} (found : hitsOf server request s = .ok hits) :
    ∀ hit ∈ hits, ∃ point ∈ s, point.payload = hit.payload := by
  unfold hitsOf at found
  cases query : (queryVector server request).getD (.error (.other "no query")) with
  | error e => simp [query, bind, Except.bind] at found
  | ok vector => exact server.found _ _ _ _ _ (by simpa [query, bind, Except.bind] using found)

/-- The search, by what is found. -/
theorem search_eq (X : External) (server : Server) (request : ModelMemoryRetrievalRequest)
    (s : Collection) : ∃ vector, search X server request s = do
      let hits ← hitsOf server request s
      if hits = [] then return { status := .noResults, queryEmbeddingUsed := some vector }
      let results ← hits.mapM (decodeHit X)
      return {
        status := .success
        results := results
        totalCount := results.length
        queryEmbeddingUsed := some vector } := by
  obtain ⟨vector, query⟩ := queryVector_isSome server request
  rw [search, hitsOf, query]
  cases vector with
  | error e => exact ⟨[], rfl⟩
  | ok vector => exact ⟨vector, rfl⟩

/-- A search of indexed documents returns a response exactly if neither its embedding nor Qdrant
raises and nothing is found. -/
theorem responds_iff (written : WrittenByIndex X s) :
    Responds X server request s ↔ hitsOf server request s = .ok [] := by
  obtain ⟨vector, search⟩ := search_eq X server request s
  constructor
  · rintro ⟨response, hits, answer, found, shape⟩
    cases hits with
    | nil => exact found
    | cons hit hits =>
      rw [search, found] at answer
      obtain ⟨e, raised⟩ := decodeHit_of_chunked written.chunked
        (stored_of_hitsOf found hit (by simp))
      simp [List.mapM_cons, raised, bind, Except.bind] at answer
  · intro none
    refine ⟨_, [], by rw [search, none]; rfl, none, .inl ⟨rfl, rfl, rfl⟩⟩

/-! ### Runs -/

theorem ten_results : 1 ≤ 10 ∧ 10 ≤ 1000 := by decide

def plainRequest : ModelMemoryRetrievalRequest where
  queryText := some "question"
  queryEmbedding := none
  query := .inl rfl
  limit_bounds := ten_results

/-- A collection with one document. -/
def oneDocument : Collection := (plainHandler.index plainExternal plainServer "doc" "text" .empty).2

theorem written_oneDocument : WrittenByIndex plainExternal oneDocument :=
  .index _ _ _ _ .empty

theorem responds_nothing : Responds plainExternal plainServer plainRequest oneDocument :=
  (responds_iff written_oneDocument).mpr rfl

/-- A server that finds every point. -/
def findingServer : Server where
  embed _ := .ok []
  upsert _ := .done
  search _ _ _ s := .ok (s.rows.map fun point => ⟨0.9, point.payload⟩)
  found := by
    rintro _ _ _ s hits same hit mem
    cases same
    obtain ⟨point, stored, rfl⟩ := List.mem_map.mp mem
    exact ⟨point, stored, rfl⟩

/-- A search that finds the indexed document raises. -/
theorem not_responds_found : ¬ ∀ (X : External) (server : Server)
    (request : ModelMemoryRetrievalRequest) (s : Collection), WrittenByIndex X s →
    Responds X server request s := by
  intro all
  obtain ⟨response, hits, answer, -⟩ :=
    all plainExternal findingServer plainRequest oneDocument written_oneDocument
  have raised : (search plainExternal findingServer plainRequest oneDocument).toBool = false := by
    decide +kernel
  rw [answer] at raised
  contradiction

end Retrieval

end OmniMemory
