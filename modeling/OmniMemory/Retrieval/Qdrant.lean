import OmniMemory.Lib.Automaton
import OmniMemory.Lib.Table
import OmniMemory.Python

/-! `HandlerQdrant`: documents are cut into chunks that become points of a Qdrant collection, and
searches read the points of the same collection as memory snapshots. -/

namespace OmniMemory

open Interleave

namespace Retrieval

inductive PayloadValue where
  | str (text : String)
  | int (value : Int)
deriving DecidableEq

/-- The payload of a point, as the entries of a dict. -/
abbrev Payload := List (String × PayloadValue)

def Payload.has (payload : Payload) (key : String) : Bool := payload.any (·.1 == key)

structure PointStruct where
  id : String
  vector : List Float
  payload : Payload

/-- A collection: `upsert` replaces the point with the same id. -/
abbrev Collection := Table PointStruct.id

structure ScoredPoint where
  score : Float
  payload : Payload

/-- What is not in the repository: `uuid.uuid5` for the DNS namespace, as a string, and
`ModelMemorySnapshot` with what pydantic makes of a payload. The fields `snapshot_id` and `subject`
are required. -/
structure External where
  uuid5 : String → String
  Snapshot : Type
  validate : Payload → Except PyError Snapshot
  required : ∀ payload, (payload.has "snapshot_id" && payload.has "subject") = false →
    ∃ e, validate payload = .error e

/-- How an upsert ends: it is done, or it raises without or with its effect. -/
inductive Upserted where
  | done
  | refused (e : PyError)
  | lost (e : PyError)

/-- What the embedding server and Qdrant answer during an operation. A search finds points of the
collection. -/
structure Server where
  embed : String → Except PyError (List Float)
  upsert : PointStruct → Upserted
  search : List Float → (limit : Nat) → (scoreThreshold : Float) → Collection →
    Except PyError (List ScoredPoint)
  found : ∀ vector limit threshold collection hits,
    search vector limit threshold collection = .ok hits →
      ∀ hit ∈ hits, ∃ point ∈ collection, point.payload = hit.payload

structure ModelMemoryRetrievalRequest where
  queryText : Option String
  queryEmbedding : Option (List Float)
  limit : Nat := 10
  similarityThreshold : Float := 0.7
  /-- What the model validator asks of the operation `search`. -/
  query : queryText.isSome ∨ queryEmbedding.isSome
  limit_bounds : 1 ≤ limit ∧ limit ≤ 1000

inductive RetrievalStatus where
  | success
  | error
  | noResults
deriving DecidableEq

structure ModelSearchResult (X : External) where
  snapshot : X.Snapshot
  score : Float
  distance : Float

structure ModelMemoryRetrievalResponse (X : External) where
  status : RetrievalStatus
  results : List (ModelSearchResult X) := []
  totalCount : Nat := 0
  queryEmbeddingUsed : Option (List Float) := none
  errorMessage : Option String := none

/-- The request of `execute`: by its operation, with the attributes that are read for it. -/
inductive Request where
  | search (request : ModelMemoryRetrievalRequest)
  | index (documentId content : String)
  | unsupported (repr : String)

structure HandlerQdrant where
  initialized : Bool
  maxChunkChars : Nat
  maxChunkChars_pos : 0 < maxChunkChars

namespace HandlerQdrant

variable (self : HandlerQdrant)

/-- The sentences of a paragraph, by the first separator that occurs in it. -/
def sentences (paragraph : String) : List String :=
  match [". ", "? ", "! "].find? fun separator => 1 < (split paragraph separator).length with
  | some separator =>
    let parts := split paragraph separator
    parts.dropLast.map (· ++ separator) ++ [parts.getLast?.getD ""]
  | none => [paragraph]

/-- One turn of the loop that joins sentences, with the chunks and `current`. -/
def addSentence (r : List String × String) (sentence : String) : List String × String :=
  let (chunks, current) := r
  if current ≠ "" ∧ self.maxChunkChars < current.length + sentence.length then
    (if strip current ≠ "" then chunks ++ [strip current] else chunks, sentence)
  else (chunks, current ++ sentence)

def chunkParagraph (paragraph : String) : List String :=
  if paragraph.length ≤ self.maxChunkChars then [paragraph]
  else
    let (chunks, current) := (sentences paragraph).foldl self.addSentence ([], "")
    if strip current ≠ "" then chunks ++ [strip current] else chunks

/-- `_chunk_text`. -/
def chunkText (text : String) : List String :=
  let paragraphs := ((split text "\n\n").map strip).filter (· ≠ "")
  let chunks := paragraphs.flatMap self.chunkParagraph
  if chunks = [] then [text] else chunks

variable (X : External) (server : Server)

/-- The name that a point's id is the `uuid5` of. -/
def pointName (documentId : String) (chunkIndex : Nat) : String :=
  s!"{documentId}:{chunkIndex}"

def payloadOf (documentId : String) (chunkIndex : Nat) (chunk : String) : Payload :=
  [("document_id", .str documentId), ("chunk_index", .int chunkIndex), ("text", .str chunk)]

/-- `EmbeddingClient.get_embedding`, whose retries are part of what the server answers. -/
def getEmbedding (text : String) : Except PyError (List Float) :=
  if isBlank text then .error (.other "Text cannot be empty") else server.embed text

/-- The loop of `_index` over the chunks from `chunkIndex` on. -/
def indexChunks (documentId : String) : (chunkIndex : Nat) → List String → Collection →
    Except PyError Unit × Collection
  | _, [], s => (.ok (), s)
  | chunkIndex, chunk :: rest, s =>
    match getEmbedding server chunk with
    | .error e => (.error e, s)
    | .ok embedding =>
      let point : PointStruct := {
        id := X.uuid5 (pointName documentId chunkIndex)
        vector := embedding
        payload := payloadOf documentId chunkIndex chunk }
      match server.upsert point with
      | .refused e => (.error e, s)
      | .lost e => (.error e, s.put point)
      | .done => indexChunks documentId (chunkIndex + 1) rest (s.put point)

/-- `_index`. -/
def index (documentId content : String) (s : Collection) :
    Except PyError (ModelMemoryRetrievalResponse X) × Collection :=
  if documentId = "" ∨ content = "" then
    (.ok { status := .error
           errorMessage := some "index requires non-empty document_id and content" }, s)
  else
    let chunks := self.chunkText content
    match indexChunks X server documentId 0 chunks s with
    | (.error e, s) => (.error e, s)
    | (.ok (), s) => (.ok { status := .success, totalCount := chunks.length }, s)

/-- The checks of `ModelSearchResult`. -/
def searchResult (snapshot : X.Snapshot) (score : Float) : Except PyError (ModelSearchResult X) :=
  if 0.0 ≤ score ∧ score ≤ 1.0 then .ok ⟨snapshot, score, 1.0 - score⟩
  else .error (.valueError "score must be between 0 and 1")

def decodeHit (hit : ScoredPoint) : Except PyError (ModelSearchResult X) := do
  let snapshot ← X.validate hit.payload
  searchResult X snapshot hit.score

/-- The vector that `_search` looks for. -/
def queryVector (request : ModelMemoryRetrievalRequest) : Option (Except PyError (List Float)) :=
  match request.queryEmbedding, request.queryText with
  | some vector, _ => some (.ok vector)
  | none, some text => some (getEmbedding server text)
  | none, none => none

/-- `_search`. -/
def search (request : ModelMemoryRetrievalRequest) (s : Collection) :
    Except PyError (ModelMemoryRetrievalResponse X) :=
  match queryVector server request with
  | none => .ok {
      status := .error
      errorMessage := some "search requires query_text or query_embedding" }
  | some vector => do
    let vector ← vector
    let hits ← server.search vector request.limit request.similarityThreshold s
    if hits = [] then
      return { status := .noResults, queryEmbeddingUsed := some vector }
    let results ← hits.mapM (decodeHit X)
    return {
      status := .success
      results := results
      totalCount := results.length
      queryEmbeddingUsed := some vector }

/-- `execute`. -/
def execute (request : Request) (s : Collection) :
    Except PyError (ModelMemoryRetrievalResponse X) × Collection :=
  if self.initialized then
    match request with
    | .search request => (search X server request s, s)
    | .index documentId content => self.index X server documentId content s
    | .unsupported repr => (.ok {
        status := .error
        errorMessage := some (s!"HandlerQdrant: unsupported operation {repr}. " ++
          "Supported: 'search', 'index'.") }, s)
  else (.error (.runtimeError ("HandlerQdrant must be initialized before use. " ++
    "Call await handler.initialize() first.")), s)

end HandlerQdrant

/-- Requests to a handler, each with what the servers answer to it. -/
def handled (self : HandlerQdrant) (X : External) :
    Sequential.Automaton (Request × Server) (Except PyError (ModelMemoryRetrievalResponse X))
      Collection where
  step s e := self.execute X e.2 e.1 s

end Retrieval

end OmniMemory
