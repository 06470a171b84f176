import OmniMemory.Lib.FloatSum
import OmniMemory.Retrieval.TextSearch
import OmniMemory.Sha256

/-! `HandlerQdrantMock`: the snapshots that are seeded, each with its embedding, and the search for the
embeddings that are most similar to that of a query. The latency that the configuration simulates is left
out. -/

namespace OmniMemory.Retrieval.Vectors

open Binary64 Binary64.Value Highest
open OmniMemory.Retrieval.Graph (Operation Status)
open Text (ModelMemorySnapshot)

abbrev Embedding := List Value

structure ModelHandlerQdrantMockConfig where
  embeddingDimension : Nat := 1024
  useRealEmbeddings : Bool := false

theorem threshold_default : (0 : ℚ) ≤ 7 / 10 ∧ (7 / 10 : ℚ) ≤ 1 := by norm_num

/-- The fields of a request that `execute` reads. -/
structure ModelMemoryRetrievalRequest where
  operation : Operation
  queryText : Option String
  queryEmbedding : Option Embedding := none
  limit : Nat := 10
  similarityThreshold : ℚ
  limit_bounds : 1 ≤ limit ∧ limit ≤ 1000
  similarityThreshold_bounds : 0 ≤ similarityThreshold ∧ similarityThreshold ≤ 1
  /-- What the model validator asks of the operation `search`. -/
  query : operation = .search → queryText.isSome = true ∨ queryEmbedding.isSome = true

/-- A search result; its score has passed the checks of the model. -/
structure ModelSearchResult (β : Type) where
  snapshot : ModelMemorySnapshot β
  score : ℚ
  distance : Value
  score_bounds : 0 ≤ score ∧ score ≤ 1

structure ModelMemoryRetrievalResponse (β : Type) where
  status : Status
  results : List (ModelSearchResult β) := []
  totalCount : Nat := 0
  queryEmbeddingUsed : Option Embedding := none
  errorMessage : Option String := none

/-! ### Similarity -/

def squares (vector : Embedding) : List Value := vector.map fun x => x * x

theorem nonnegative_squares (vector : Embedding) : Nonnegative (pySum (squares vector)) := by
  refine nonnegative_pySum fun x mem => ?_
  obtain ⟨y, -, rfl⟩ := List.mem_map.mp mem
  exact nonnegative_square y

theorem isSome_magnitude (vector : Embedding) : (pySqrt (pySum (squares vector))).isSome = true := by
  obtain ⟨y, root, -⟩ := isRoot_pySqrt (nonnegative_squares vector)
  rw [root]
  rfl

/-- `math.sqrt(sum(x * x for x in vector))`, which does not raise. -/
def magnitude (vector : Embedding) : Value :=
  (pySqrt (pySum (squares vector))).get (isSome_magnitude vector)

theorem exists_clamp (similarity : Value) :
    ∃ q, pyMax (finite 0) (pyMin (finite 1) similarity) = finite q ∧ 0 ≤ q ∧ q ≤ 1 := by
  have below : ∃ q, pyMin (finite 1) similarity = finite q ∧ q ≤ 1 ∨
      pyMin (finite 1) similarity = infinite true := by
    cases similarity with
    | nan => exact ⟨1, .inl ⟨rfl, le_refl 1⟩⟩
    | infinite s =>
      cases s with
      | false => exact ⟨1, .inl ⟨rfl, le_refl 1⟩⟩
      | true => exact ⟨0, .inr rfl⟩
    | finite q =>
      by_cases less : q < 1
      · have here : finite q < finite 1 := decide_eq_true less
        exact ⟨q, .inl ⟨by rw [pyMin, if_pos here], less.le⟩⟩
      · have here : ¬ finite q < finite 1 := fun lt => less (of_decide_eq_true lt)
        exact ⟨1, .inl ⟨by rw [pyMin, if_neg here], le_refl 1⟩⟩
  obtain ⟨q, ⟨eq, le⟩ | low⟩ := below
  · rw [eq]
    by_cases pos : 0 < q
    · have here : finite 0 < finite q := decide_eq_true pos
      exact ⟨q, by rw [pyMax, if_pos here], pos.le, le⟩
    · have here : ¬ finite 0 < finite q := fun lt => pos (of_decide_eq_true lt)
      exact ⟨0, by rw [pyMax, if_neg here], le_refl 0, by norm_num⟩
  · rw [low]
    exact ⟨0, rfl, le_refl 0, by norm_num⟩

/-- `max(0.0, min(1.0, similarity))`, which is a number. -/
def clamp (similarity : Value) : ℚ :=
  match pyMax (finite 0) (pyMin (finite 1) similarity) with
  | finite q => q
  | _ => 0

theorem clamp_bounds (similarity : Value) : 0 ≤ clamp similarity ∧ clamp similarity ≤ 1 := by
  obtain ⟨q, eq, bounds⟩ := exists_clamp similarity
  rw [clamp, eq]
  exact bounds

/-- `_cosine_similarity`. -/
def cosineSimilarity (a b : Embedding) : Except PyError ℚ :=
  let minLen := min a.length b.length
  let (a, b) := if a.length ≠ b.length then (a.take minLen, b.take minLen) else (a, b)
  let dotProduct := pySum (List.zipWith (· * ·) a b)
  let magnitudeA := magnitude a
  let magnitudeB := magnitude b
  if magnitudeA = finite 0 ∨ magnitudeB = finite 0 then .ok 0
  else
    let product := magnitudeA * magnitudeB
    if product = finite 0 then .error (.other "float division by zero")
    else .ok (clamp (dotProduct / product))

/-- What `_cosine_similarity` comes to. -/
def similarity (a b : Embedding) : ℚ := (cosineSimilarity a b).toOption.getD 0

theorem isRoot_magnitude (vector : Embedding) : IsRoot (magnitude vector) := by
  obtain ⟨y, root, isRoot⟩ := isRoot_pySqrt (nonnegative_squares vector)
  have same : magnitude vector = y := Option.some.inj ((Option.some_get _).trans root)
  rwa [same]

/-- The similarity of any two vectors is a number from 0 to 1: the product of the magnitudes by which it
divides does not vanish. -/
theorem cosineSimilarity_eq (a b : Embedding) :
    cosineSimilarity a b = .ok (similarity a b) ∧ 0 ≤ similarity a b ∧ similarity a b ≤ 1 := by
  have returns : ∃ q, cosineSimilarity a b = .ok q ∧ 0 ≤ q ∧ q ≤ 1 := by
    simp only [cosineSimilarity]
    generalize (if a.length ≠ b.length then _ else _ : Embedding × Embedding) = vectors
    obtain ⟨a, b⟩ := vectors
    dsimp only
    split_ifs with zero vanishes
    · exact ⟨0, rfl, le_refl 0, by norm_num⟩
    · rw [not_or] at zero
      exact absurd vanishes ((isRoot_magnitude a).mul_ne_zero (isRoot_magnitude b) zero.1 zero.2)
    · exact ⟨_, rfl, clamp_bounds _⟩
  obtain ⟨q, eq, bounds⟩ := returns
  have same : similarity a b = q := by
    rw [similarity, eq]
    rfl
  rw [same]
  exact ⟨eq, bounds⟩

/-- What is not a number is as similar as can be. -/
example : cosineSimilarity [nan] [finite 1] = .ok 1 := by decide +kernel

/-! ### Mock embeddings -/

/-- `digest()`. -/
def digestBytes (digest : Digest) : List Nat :=
  (List.range 32).map fun i => (digest.toNat >>> (8 * (31 - i))) % 256

/-- `_text_to_mock_embedding`. -/
def textToMockEmbedding (dimension : Nat) (text : String) : Embedding :=
  let textHash := digestBytes (sha256 (encodeUtf8 text))
  let embedding := (List.range dimension).map fun i =>
    ofRat ((textHash.getD (i % textHash.length) 0 % 100 : ℕ) / 100)
  let norm := magnitude embedding
  embedding.map fun x => if finite 0 < norm then x / norm else finite 0

/-! ### The handler -/

/-- The handler, with its dicts in the order in which their keys were put in. -/
structure HandlerQdrantMock (β : Type) where
  config : ModelHandlerQdrantMockConfig
  snapshots : List (ModelMemorySnapshot β)
  embeddings : List (String × Embedding)
  keys : embeddings.map Prod.fst = snapshots.map ModelMemorySnapshot.snapshotId
  distinct : (snapshots.map ModelMemorySnapshot.snapshotId).Nodup

namespace HandlerQdrantMock

variable {β : Type}

/-- `__init__`. -/
def new (config : ModelHandlerQdrantMockConfig) : HandlerQdrantMock β := ⟨config, [], [], rfl, List.nodup_nil⟩

variable (lower : String → String) (real : String → Except PyError Embedding) (self : HandlerQdrantMock β)

/-- `_generate_mock_embedding`. -/
def generateMockEmbedding (snapshot : ModelMemorySnapshot β) : Embedding :=
  let textParts :=
    (match snapshot.subject with
      | none => []
      | some subject => (subject.subjectKey.filter (· ≠ "")).toList) ++ snapshot.tags
  textToMockEmbedding self.config.embeddingDimension (lower (" ".intercalate textParts))

theorem keys_put {snapshots : List (ModelMemorySnapshot β)} {embeddings : List (String × Embedding)}
    (keys : embeddings.map Prod.fst = snapshots.map ModelMemorySnapshot.snapshotId)
    (s : ModelMemorySnapshot β) (embedding : Embedding) :
    (Keyed.put Prod.fst embeddings (s.snapshotId, embedding)).map Prod.fst =
      (Keyed.put ModelMemorySnapshot.snapshotId snapshots s).map ModelMemorySnapshot.snapshotId := by
  rw [Keyed.map_put, Keyed.map_put, keys]

/-- One turn of the loop of `seed_snapshots`, with the embeddings that are given. -/
def seedSnapshot (given : Option (List (String × Embedding))) (s : ModelMemorySnapshot β) :
    HandlerQdrantMock β :=
  if isBlank s.snapshotId then self
  else
    let embedding := ((given.getD []).lookup s.snapshotId).getD (self.generateMockEmbedding lower s)
    { self with
      snapshots := Keyed.put ModelMemorySnapshot.snapshotId self.snapshots s
      embeddings := Keyed.put Prod.fst self.embeddings (s.snapshotId, embedding)
      keys := keys_put self.keys s embedding
      distinct := Keyed.nodup_put self.distinct }

def seedSnapshots (snapshots : List (ModelMemorySnapshot β))
    (given : Option (List (String × Embedding))) : HandlerQdrantMock β :=
  snapshots.foldl (fun self s => self.seedSnapshot lower given s) self

def clear : HandlerQdrantMock β :=
  { self with snapshots := [], embeddings := [], keys := rfl, distinct := List.nodup_nil }

/-- `_get_embedding`. -/
def getEmbedding (text : String) : Except PyError Embedding :=
  if self.config.useRealEmbeddings then real text
  else .ok (textToMockEmbedding self.config.embeddingDimension text)

/-- The embedding of the query; `none` when the request has no query. -/
def queryEmbedding (request : ModelMemoryRetrievalRequest) : Except PyError (Option Embedding) :=
  match request.queryEmbedding with
  | some embedding => .ok (some embedding)
  | none =>
    match request.queryText with
    | some text => (self.getEmbedding real text).map some
    | none => .ok none

/-- `ModelSearchResult(...)`, which raises for a score that is not from 0 to 1. -/
def searchResult (snapshot : ModelMemorySnapshot β) (score : ℚ) : Except PyError (ModelSearchResult β) :=
  if bounds : 0 ≤ score ∧ score ≤ 1 then .ok ⟨snapshot, score, finite 1 - finite score, bounds⟩
  else .error (.valueError "score must be between 0 and 1")

/-- A result for the id of a snapshot. -/
def resultOf (scored : String × ℚ) : Except PyError (ModelSearchResult β) :=
  match Keyed.find? ModelMemorySnapshot.snapshotId self.snapshots scored.1 with
  | none => .error (.other scored.1)
  | some snapshot => searchResult snapshot scored.2

/-- The score of an embedding. -/
def scoreOf (query : Embedding) (row : String × Embedding) : Except PyError (String × ℚ) :=
  (cosineSimilarity query row.2).map fun score => (row.1, score)

/-- The ids of the embeddings that are as similar as asked for, with their scores. -/
def scoredResults (request : ModelMemoryRetrievalRequest) (query : Embedding) :
    Except PyError (List (String × ℚ)) :=
  (self.embeddings.mapM (scoreOf query)).map fun scored =>
    scored.filter fun row => decide (request.similarityThreshold ≤ row.2)

/-- The response to a search for an embedding. -/
def search (request : ModelMemoryRetrievalRequest) (query : Embedding) :
    Except PyError (ModelMemoryRetrievalResponse β) :=
  match self.scoredResults request query with
  | .error e => .error e
  | .ok scored =>
    let scored := highest Prod.snd request.limit scored
    if scored = [] then .ok { status := .noResults, queryEmbeddingUsed := some query }
    else
      (scored.mapM self.resultOf).map fun results =>
        { status := .success, results, totalCount := results.length, queryEmbeddingUsed := some query }

/-- `execute`. -/
def execute (request : ModelMemoryRetrievalRequest) : Except PyError (ModelMemoryRetrievalResponse β) :=
  if request.operation ≠ .search then
    .ok
      { status := .error
        errorMessage := some (s!"HandlerQdrantMock: Only supports 'search', " ++
          s!"got '{request.operation.value}'") }
  else
    match self.queryEmbedding real request with
    | .error e => .error e
    | .ok none =>
      .ok
        { status := .error
          errorMessage := some ("HandlerQdrantMock: Either query_text or query_embedding " ++
            s!"required for operation '{request.operation.value}'") }
    | .ok (some query) => self.search request query

/-! ### What is found -/

/-- How similar the embedding of a snapshot is to that of the query. -/
def rank (query : Embedding) (s : ModelMemorySnapshot β) : ℚ :=
  (self.embeddings.lookup s.snapshotId).elim 0 (similarity query)

/-- A response gives the snapshots listed, with their similarities as scores. -/
structure Lists (handler : HandlerQdrantMock β) (query : Embedding) (listed : List (ModelMemorySnapshot β))
    (response : ModelMemoryRetrievalResponse β) : Prop where
  snapshots : response.results.map ModelSearchResult.snapshot = listed
  status : response.status = if listed = [] then .noResults else .success
  totalCount : response.totalCount = listed.length
  scores : ∀ r ∈ response.results, r.score = handler.rank query r.snapshot ∧
    r.distance = finite 1 - finite r.score
  queryEmbeddingUsed : response.queryEmbeddingUsed = some query

section Search

variable {self : HandlerQdrantMock β} {query : Embedding} {request : ModelMemoryRetrievalRequest}
  {s : ModelMemorySnapshot β}

theorem rank_bounds (query : Embedding) (s : ModelMemorySnapshot β) :
    0 ≤ self.rank query s ∧ self.rank query s ≤ 1 := by
  rw [rank]
  cases self.embeddings.lookup s.snapshotId with
  | none => exact ⟨le_refl 0, by norm_num⟩
  | some embedding => exact (cosineSimilarity_eq query embedding).2

theorem mapM_ok {α γ : Type} (f : α → γ) (l : List α) :
    l.mapM (fun a => Except.ok (ε := PyError) (f a)) = .ok (l.map f) := by
  induction l with
  | nil => rfl
  | cons a l ih =>
    rw [List.mapM_cons, ih]
    rfl

/-- Each key stands for a snapshot, and its embedding is the one that is looked up. -/
theorem embeddings_eq : self.embeddings.map (fun row => (row.1, similarity query row.2)) =
    self.snapshots.map fun s => (s.snapshotId, self.rank query s) := by
  have lookup : ∀ row ∈ self.embeddings, self.embeddings.lookup row.1 = some row.2 := by
    have distinct : (self.embeddings.map Prod.fst).Nodup := self.keys ▸ self.distinct
    generalize self.embeddings = rows at distinct
    induction rows with
    | nil => exact nofun
    | cons row rows ih =>
      rw [List.map_cons, List.nodup_cons] at distinct
      intro row' mem
      rcases List.mem_cons.mp mem with rfl | mem
      · exact List.lookup_cons_self
      · have ne : row'.1 ≠ row.1 := fun same => distinct.1 (same ▸ List.mem_map_of_mem mem)
        rw [List.lookup_cons, beq_false_of_ne ne]
        exact ih distinct.2 row' mem
  have ranks : self.embeddings.map (fun row => (row.1, similarity query row.2)) =
      (self.embeddings.map Prod.fst).map fun id =>
        (id, (self.embeddings.lookup id).elim 0 (similarity query)) := by
    rw [List.map_map]
    refine List.map_congr_left fun row mem => ?_
    rw [Function.comp_apply, lookup row mem]
    rfl
  rw [ranks, self.keys, List.map_map]
  rfl

theorem scoredResults_eq : self.scoredResults request query =
    .ok ((self.snapshots.filter fun s => decide (request.similarityThreshold ≤ self.rank query s)).map
      fun s => (s.snapshotId, self.rank query s)) := by
  have scores : scoreOf query = fun row => .ok (row.1, similarity query row.2) := by
    funext row
    rw [scoreOf, (cosineSimilarity_eq query row.2).1]
    rfl
  rw [scoredResults, scores, mapM_ok, embeddings_eq, Except.map, List.filter_map]
  rfl

theorem mapM_resultOf {listed : List (ModelMemorySnapshot β)} (stored : ∀ s ∈ listed, s ∈ self.snapshots) :
    ∃ results, (listed.map fun s => (s.snapshotId, self.rank query s)).mapM self.resultOf = .ok results ∧
      results.map ModelSearchResult.snapshot = listed ∧
      ∀ r ∈ results, r.score = self.rank query r.snapshot ∧ r.distance = finite 1 - finite r.score := by
  induction listed with
  | nil => exact ⟨[], rfl, rfl, by simp⟩
  | cons s listed ih =>
    obtain ⟨results, ran, snapshots, scores⟩ := ih fun s mem => stored s (List.mem_cons_of_mem _ mem)
    have bounds := self.rank_bounds query s
    have result : self.resultOf (s.snapshotId, self.rank query s) =
        .ok ⟨s, self.rank query s, finite 1 - finite (self.rank query s), bounds⟩ := by
      rw [resultOf]
      simp only [Keyed.find?_of_mem self.distinct (stored s List.mem_cons_self)]
      exact dif_pos bounds
    refine ⟨⟨s, self.rank query s, finite 1 - finite (self.rank query s), bounds⟩ :: results, ?_,
      by rw [List.map_cons, snapshots], List.forall_mem_cons.mpr ⟨⟨rfl, rfl⟩, scores⟩⟩
    rw [List.map_cons, List.mapM_cons, result, ran]
    rfl

end Search

/-- The search never raises once it has the embedding of the query: it finds exactly the snapshots whose
embeddings are as similar to it as asked for, and lists the most similar ones, of equal ones those that
were put in first. -/
theorem execute_search (real : String → Except PyError Embedding) (self : HandlerQdrantMock β)
    (query : Embedding) (request : ModelMemoryRetrievalRequest) (operation : request.operation = .search)
    (embedded : self.queryEmbedding real request = .ok (some query)) :
    ∃ listed response, self.execute real request = .ok response ∧
      IsHighest (self.rank query) request.limit
        (self.snapshots.filter fun s => decide (request.similarityThreshold ≤ self.rank query s)) listed ∧
      Lists self query listed response := by
  have isHighest := isHighest_highest (self.rank query) request.limit
    (self.snapshots.filter fun s => decide (request.similarityThreshold ≤ self.rank query s))
  have scored : highest Prod.snd request.limit
      ((self.snapshots.filter fun s => decide (request.similarityThreshold ≤ self.rank query s)).map
        fun s => (s.snapshotId, self.rank query s)) =
      (highest (self.rank query) request.limit
        (self.snapshots.filter fun s => decide (request.similarityThreshold ≤ self.rank query s))).map
          fun s => (s.snapshotId, self.rank query s) := by
    rw [highest, highest, List.map_take]
    refine congrArg (List.take request.limit) (Eq.symm ?_)
    exact List.map_insertionSort _ _ _ _ fun _ _ _ _ => Iff.rfl
  generalize highest (self.rank query) request.limit
    (self.snapshots.filter fun s => decide (request.similarityThreshold ≤ self.rank query s)) = listed
    at isHighest scored
  obtain ⟨results, ran, snapshots, scores⟩ := @mapM_resultOf β self query listed fun s mem =>
    List.mem_of_mem_filter (isHighest.mem mem)
  have whole : self.execute real request = self.search request query := by
    rw [execute, if_neg (by simp [operation])]
    simp only [embedded]
  simp only [search, scoredResults_eq, scored, ran] at whole
  cases listed with
  | nil => exact ⟨[], _, whole, isHighest, rfl, rfl, rfl, by simp, rfl⟩
  | cons first rest =>
    refine ⟨first :: rest, _, whole, isHighest, snapshots, rfl, ?_, scores, rfl⟩
    rw [← snapshots, List.length_map]

/-- Three snapshots with embeddings of their own; those of the first two are the same. -/
def directions : HandlerQdrantMock Unit := (new {}).seedSnapshots id
  [⟨"1", none, [], ()⟩, ⟨"2", none, [], ()⟩, ⟨"3", none, [], ()⟩]
  (some [("1", [finite 3, finite 4]), ("2", [finite 3, finite 4]), ("3", [finite 4, finite (-3)])])

def nearby : ModelMemoryRetrievalRequest where
  operation := .search
  queryText := none
  queryEmbedding := some [finite 3, finite 4, finite 5]
  similarityThreshold := 7 / 10
  limit_bounds := Text.limit_default
  similarityThreshold_bounds := threshold_default
  query := fun _ => .inr rfl

theorem execute_search_directions : ∃ listed response,
    directions.execute (fun _ => .ok []) nearby = .ok response ∧
      IsHighest (directions.rank [finite 3, finite 4, finite 5]) 10
        (directions.snapshots.filter fun s =>
          decide (7 / 10 ≤ directions.rank [finite 3, finite 4, finite 5] s)) listed ∧
      Lists directions [finite 3, finite 4, finite 5] listed response :=
  execute_search (fun _ => .ok []) directions [finite 3, finite 4, finite 5] nearby rfl rfl

end HandlerQdrantMock

end OmniMemory.Retrieval.Vectors
