import Mathlib.Data.Finset.Card
import OmniMemory.Lib.Automaton
import OmniMemory.Retrieval.SemanticSearch

/-! `HandlerMemoryRetrieval`, with its three handlers for the three kinds of search. What is seeded goes into
the stores of all of them. A call is one step: the simulated latencies and what a search waits for before
it reads its store are left out. -/

namespace OmniMemory.Retrieval

open Binary64 (Value)
open Sequential
open Text (ModelMemorySnapshot)

/-! ### The search of the graph ends -/

namespace Graph.HandlerGraphMock

variable {β : Type} {self : HandlerGraphMock β} {startId : String} {maxDepth limit : Nat}
  {allowedTypes : Option (List String)}

/-- The nodes to which relationships lead. -/
def targets (self : HandlerGraphMock β) : Finset String :=
  (self.relationships.flatMap fun r => [r.sourceId, r.targetId]).toFinset

theorem targetId_mem {id : String} {n : Neighbor} (mem : n ∈ self.adjacency id) :
    n.targetId ∈ self.targets := by
  obtain ⟨r, there, -, -, ends⟩ := (self.lists id n).mp mem
  rw [targets, List.mem_toFinset, List.mem_flatMap]
  rcases ends with ⟨-, target⟩ | ⟨-, -, source⟩
  · exact ⟨r, there, by simp [target]⟩
  · exact ⟨r, there, by simp [source]⟩

theorem card_targets_le (self : HandlerGraphMock β) : self.targets.card ≤ 2 * self.relationships.length := by
  refine (List.toFinset_card_le _).trans ?_
  rw [List.length_flatMap]
  simp
  omega

/-- The nodes that are not visited yet. -/
def unvisited (self : HandlerGraphMock β) (visited : List String) : Finset String :=
  self.targets \ visited.toFinset

/-- What is added to the queue was not visited before. -/
theorem length_explore {e : QueueEntry} {l : List Neighbor} (mem : ∀ n ∈ l, n.targetId ∈ self.targets)
    (s : List QueueEntry × List String) :
    (l.foldl (explore allowedTypes e) s).1.length +
        (self.unvisited (l.foldl (explore allowedTypes e) s).2).card ≤
      s.1.length + (self.unvisited s.2).card := by
  induction l generalizing s with
  | nil => exact le_refl _
  | cons n l ih =>
    refine (ih (fun n mem' => mem n (List.mem_cons_of_mem _ mem')) _).trans ?_
    rw [explore]
    split
    · exact le_refl _
    · split
      · exact le_refl _
      · rename_i new _
        have there : n.targetId ∈ self.unvisited s.2 := by
          rw [unvisited, Finset.mem_sdiff, List.mem_toFinset]
          exact ⟨mem n List.mem_cons_self, new⟩
        have fewer : self.unvisited (n.targetId :: s.2) = (self.unvisited s.2).erase n.targetId := by
          rw [unvisited, unvisited, List.toFinset_cons, Finset.sdiff_insert]
        have card := Finset.card_erase_add_one there
        simp only [List.length_append, List.length_singleton, fewer]
        omega

theorem isSome_traverseLoop {fuel : Nat} {queue : List QueueEntry} {visited : List String}
    {results : List (ModelSearchResult β)} (enough : queue.length + (self.unvisited visited).card ≤ fuel) :
    (self.traverseLoop startId maxDepth allowedTypes limit fuel queue visited results).isSome = true := by
  induction fuel generalizing queue visited results with
  | zero =>
    cases queue with
    | nil => simp [traverseLoop]
    | cons e queue =>
      rw [List.length_cons] at enough
      omega
  | succ fuel ih =>
    cases queue with
    | nil => simp [traverseLoop]
    | cons e queue =>
      rw [List.length_cons] at enough
      rw [traverseLoop]
      split
      · rfl
      · split
        · rfl
        · split
          · exact ih (by omega)
          · refine ih ((length_explore (fun n mem => targetId_mem mem) (queue, visited)).trans ?_)
            show queue.length + (self.unvisited visited).card ≤ fuel
            omega

theorem isSome_execute (self : HandlerGraphMock β) (request : ModelMemoryRetrievalRequest) :
    (self.execute request).isSome = true := by
  rw [execute]
  split
  · rfl
  · split
    · rfl
    · rename_i startId _
      split
      · rfl
      · rw [Option.isSome_map, traverseBfs, Option.isSome_map]
        refine isSome_traverseLoop ?_
        have card := self.card_targets_le
        have part : (self.unvisited [startId]).card ≤ self.targets.card :=
          Finset.card_le_card Finset.sdiff_subset
        rw [List.length_singleton]
        omega

theorem visit_stored {e : QueueEntry} {r : ModelSearchResult β}
    (found : self.visit startId e = .ok (some r)) : ∃ id, self.snapshots id = some r.snapshot := by
  rw [visit] at found
  split at found
  · cases found
  · split at found
    · cases found
    · rename_i snapshot there
      refine ⟨e.currentId, there.trans (congrArg some ?_)⟩
      cases score : (scoreOf e).minOne with
      | finite q =>
        rw [score, searchResult] at found
        split at found
        · obtain rfl := Option.some.inj (Except.ok.inj found)
          rfl
        · cases found
      | _ =>
        rw [score] at found
        cases found

/-- What the search lists are snapshots of the graph. -/
theorem traverseLoop_stored {fuel : Nat} {queue : List QueueEntry} {visited : List String}
    {results found : List (ModelSearchResult β)}
    (stored : ∀ r ∈ results, ∃ id, self.snapshots id = some r.snapshot)
    (ran : self.traverseLoop startId maxDepth allowedTypes limit fuel queue visited results =
      some (.ok found)) : ∀ r ∈ found, ∃ id, self.snapshots id = some r.snapshot := by
  induction fuel generalizing queue visited results with
  | zero =>
    cases queue with
    | nil =>
      obtain rfl : results = found := by simpa [traverseLoop] using ran
      exact stored
    | cons e queue =>
      rw [traverseLoop] at ran
      split at ran
      · obtain rfl : results = found := by simpa using ran
        exact stored
      · cases ran
  | succ fuel ih =>
    cases queue with
    | nil =>
      obtain rfl : results = found := by simpa [traverseLoop] using ran
      exact stored
    | cons e queue =>
      rw [traverseLoop] at ran
      split at ran
      · obtain rfl : results = found := by simpa using ran
        exact stored
      · split at ran
        · cases ran
        · rename_i here visited_eq
          have more : ∀ r ∈ results ++ here.toList, ∃ id, self.snapshots id = some r.snapshot := by
            intro r mem
            rcases List.mem_append.mp mem with old | new
            · exact stored r old
            · obtain rfl : here = some r := by simpa using new
              exact visit_stored visited_eq
          split at ran
          · exact ih more ran
          · exact ih more ran

theorem execute_stored {request : ModelMemoryRetrievalRequest} {response : ModelMemoryRetrievalResponse β}
    (ran : self.execute request = some (.ok response)) :
    ∀ r ∈ response.results, ∃ id, self.snapshots id = some r.snapshot := by
  rw [execute] at ran
  split at ran
  · cases ran
    exact List.forall_mem_nil _
  · split at ran
    · cases ran
      exact List.forall_mem_nil _
    · split at ran
      · cases ran
        exact List.forall_mem_nil _
      · obtain ⟨outcome, traversed, ended⟩ := Option.map_eq_some_iff.mp ran
        obtain ⟨loop, looped, sorted⟩ := Option.map_eq_some_iff.mp traversed
        subst sorted
        cases loop with
        | error e => cases ended
        | ok found =>
          have none : ∀ r ∈ ([] : List (ModelSearchResult β)), ∃ id, self.snapshots id = some r.snapshot :=
            by simp
          have stored := traverseLoop_stored none looped
          obtain rfl := Except.ok.inj ended
          intro r mem
          simp only at mem
          split at mem
          · cases mem
          · exact stored r ((List.perm_insertionSort _ _).mem_iff.mp mem)

end Graph.HandlerGraphMock

namespace Graph.HandlerGraphMock

variable {β : Type}

theorem keyed_clear (id : String) (s : ModelMemorySnapshot β) (stored : none = some s) :
    s.snapshotId = id := by
  cases stored

theorem lists_clear (config : ModelHandlerGraphMockConfig) (id : String) (n : Neighbor) :
    n ∈ ([] : List Neighbor) ↔
      ∃ r ∈ ([] : List HandlerGraphRelationship), Lists config.bidirectional r id n := by
  simp

def clear (self : HandlerGraphMock β) : HandlerGraphMock β :=
  { self with
    snapshots := fun _ => none
    relationships := []
    adjacency := fun _ => []
    keyed := keyed_clear
    lists := lists_clear self.config }

end Graph.HandlerGraphMock

/-! ### What the other searches list -/

theorem of_bind_eq_ok {α γ : Type} {x : Except PyError α} {f : α → Except PyError γ} {c : γ}
    (ran : x >>= f = .ok c) : ∃ a, x = .ok a ∧ f a = .ok c := by
  cases x with
  | error e => cases ran
  | ok a => exact ⟨a, rfl, ran⟩

/-- Each result comes from an element. -/
theorem mem_of_mapM_ok {α γ : Type} {f : α → Except PyError γ} {l : List α} {results : List γ}
    (ran : l.mapM f = .ok results) : ∀ r ∈ results, ∃ a ∈ l, f a = .ok r := by
  induction l generalizing results with
  | nil =>
    cases ran
    exact List.forall_mem_nil _
  | cons a l ih =>
    rw [List.mapM_cons] at ran
    cases first : f a with
    | error e =>
      rw [first] at ran
      cases ran
    | ok r =>
      cases rest : l.mapM f with
      | error e =>
        rw [first, rest] at ran
        cases ran
      | ok rs =>
        rw [first, rest] at ran
        cases ran
        intro r' mem
        rcases List.mem_cons.mp mem with rfl | mem
        · exact ⟨a, List.mem_cons_self, first⟩
        · obtain ⟨a', mem, made⟩ := ih rest r' mem
          exact ⟨a', List.mem_cons_of_mem _ mem, made⟩

theorem Text.HandlerDbMock.execute_stored {β : Type} {u : Text.Unicode} {self : Text.HandlerDbMock β}
    {request : Text.ModelMemoryRetrievalRequest} {response : Text.ModelMemoryRetrievalResponse β}
    (ran : self.execute u request = .ok response) : ∀ r ∈ response.results, r.snapshot ∈ self.snapshots := by
  rw [execute] at ran
  split at ran
  · cases ran
    exact List.forall_mem_nil _
  · split at ran
    · cases ran
      exact List.forall_mem_nil _
    · rename_i query _
      have stored : ∀ scored ∈ normalize (Highest.highest Prod.snd request.limit
          (self.scoredResults u query request)), scored.1 ∈ self.snapshots := by
        have highest : ∀ scored ∈ Highest.highest Prod.snd request.limit (self.scoredResults u query request),
            scored.1 ∈ self.snapshots := by
          intro scored mem
          have mem := (Highest.isHighest_highest Prod.snd request.limit
            (self.scoredResults u query request)).mem mem
          obtain ⟨s, there, rfl⟩ := List.mem_map.mp (List.mem_of_mem_filter mem)
          exact there
        generalize Highest.highest Prod.snd request.limit (self.scoredResults u query request) = listed
          at highest
        cases listed with
        | nil => exact List.forall_mem_nil _
        | cons first rest =>
          intro scored mem
          rw [normalize] at mem
          split at mem
          · obtain ⟨old, there, rfl⟩ := List.mem_map.mp mem
            exact highest old there
          · exact highest scored mem
      simp only at ran
      split at ran
      · cases ran
        exact List.forall_mem_nil _
      · generalize normalize (Highest.highest Prod.snd request.limit (self.scoredResults u query request)) =
          listed at stored ran
        obtain ⟨results, made, ended⟩ := of_bind_eq_ok ran
        obtain rfl := Except.ok.inj ended
        intro r mem
        obtain ⟨⟨s, score⟩, there, result⟩ := mem_of_mapM_ok made r mem
        have here := stored _ there
        simp only [searchResult] at result
        split at result
        · obtain rfl := Except.ok.inj result
          exact here
        · cases result

theorem Vectors.HandlerQdrantMock.execute_stored {β : Type} {real : String → Except PyError Vectors.Embedding}
    {self : Vectors.HandlerQdrantMock β} {request : Vectors.ModelMemoryRetrievalRequest}
    {response : Vectors.ModelMemoryRetrievalResponse β} (ran : self.execute real request = .ok response) :
    ∀ r ∈ response.results, r.snapshot ∈ self.snapshots := by
  rw [execute] at ran
  split at ran
  · cases ran
    exact List.forall_mem_nil _
  · split at ran
    · cases ran
    · cases ran
      exact List.forall_mem_nil _
    · rw [search] at ran
      split at ran
      · cases ran
      · simp only at ran
        split at ran
        · cases ran
          exact List.forall_mem_nil _
        · rename_i scored _ _
          generalize Highest.highest Prod.snd request.limit scored = listed at ran
          cases made : listed.mapM self.resultOf with
          | error e =>
            rw [made] at ran
            cases ran
          | ok results =>
            rw [made] at ran
            cases ran
            intro r mem
            obtain ⟨row, -, result⟩ := mem_of_mapM_ok made r mem
            rw [resultOf] at result
            split at result
            · cases result
            · rename_i snapshot found
              rw [searchResult] at result
              split at result
              · obtain rfl := Except.ok.inj result
                exact List.mem_of_find?_eq_some found
              · cases result

namespace Memory

open OmniMemory.Retrieval.Graph (Operation Status)
open Vectors (Embedding)

/-! ### The handler -/

structure ModelHandlerMemoryRetrievalConfig where
  qdrantMockConfig : Vectors.ModelHandlerQdrantMockConfig
  /-- `case_sensitive` of `db_config`. -/
  caseSensitive : Bool
  graphConfig : Graph.ModelHandlerGraphMockConfig
  useStubHandlers : Bool

structure ModelMemoryRetrievalRequest where
  operation : Operation
  queryText : Option String
  queryEmbedding : Option Embedding
  snapshotId : Option String
  limit : Nat
  similarityThreshold : ℚ
  traversalDepth : Nat
  relationshipTypes : Option (List String)
  tags : Option (List String)
  limit_bounds : 1 ≤ limit ∧ limit ≤ 1000
  similarityThreshold_bounds : 0 ≤ similarityThreshold ∧ similarityThreshold ≤ 1
  traversalDepth_bounds : 1 ≤ traversalDepth ∧ traversalDepth ≤ 10
  search : operation = .search → queryText.isSome = true ∨ queryEmbedding.isSome = true
  searchText : operation = .searchText → queryText.isSome = true
  searchGraph : operation = .searchGraph → snapshotId.isSome = true

namespace ModelMemoryRetrievalRequest

variable (self : ModelMemoryRetrievalRequest)

/-- What each handler reads of a request. -/
def toVectors : Vectors.ModelMemoryRetrievalRequest where
  operation := self.operation
  queryText := self.queryText
  queryEmbedding := self.queryEmbedding
  limit := self.limit
  similarityThreshold := self.similarityThreshold
  limit_bounds := self.limit_bounds
  similarityThreshold_bounds := self.similarityThreshold_bounds
  query := self.search

def toText : Text.ModelMemoryRetrievalRequest where
  operation := self.operation
  queryText := self.queryText
  limit := self.limit
  tags := self.tags
  limit_bounds := self.limit_bounds
  queryText_isSome := self.searchText

def toGraph : Graph.ModelMemoryRetrievalRequest where
  operation := self.operation
  snapshotId := self.snapshotId
  limit := self.limit
  traversalDepth := self.traversalDepth
  relationshipTypes := self.relationshipTypes
  limit_bounds := self.limit_bounds
  traversalDepth_bounds := self.traversalDepth_bounds
  snapshotId_isSome := self.searchGraph

end ModelMemoryRetrievalRequest

/-- A search result; its score has passed the checks of the model. -/
structure ModelSearchResult (β : Type) where
  snapshot : ModelMemorySnapshot β
  score : ℚ
  distance : Option Value := none
  path : Option (List String) := none
  score_bounds : 0 ≤ score ∧ score ≤ 1

structure ModelMemoryRetrievalResponse (β : Type) where
  status : Status
  results : List (ModelSearchResult β) := []
  totalCount : Nat := 0
  queryEmbeddingUsed : Option Embedding := none
  errorMessage : Option String := none

variable {β : Type}

def ofVectors (response : Vectors.ModelMemoryRetrievalResponse β) : ModelMemoryRetrievalResponse β where
  status := response.status
  results := response.results.map fun r =>
    { snapshot := r.snapshot, score := r.score, distance := some r.distance, score_bounds := r.score_bounds }
  totalCount := response.totalCount
  queryEmbeddingUsed := response.queryEmbeddingUsed
  errorMessage := response.errorMessage

def ofText (response : Text.ModelMemoryRetrievalResponse β) : ModelMemoryRetrievalResponse β where
  status := response.status
  results := response.results.map fun r =>
    { snapshot := r.snapshot, score := r.score, score_bounds := r.score_bounds }
  totalCount := response.totalCount
  errorMessage := response.errorMessage

/-- The graph stores whole snapshots. -/
def ofGraph (response : Graph.ModelMemoryRetrievalResponse (ModelMemorySnapshot β)) :
    ModelMemoryRetrievalResponse β where
  status := response.status
  results := response.results.map fun r =>
    { snapshot := r.snapshot.content, score := r.score, distance := r.distance, path := r.path,
      score_bounds := r.score_bounds }
  totalCount := response.totalCount
  errorMessage := response.errorMessage

def toGraphSnapshot (s : ModelMemorySnapshot β) : Graph.ModelMemorySnapshot (ModelMemorySnapshot β) :=
  ⟨s.snapshotId, s⟩

/-- The three handlers. -/
structure Handlers (β : Type) where
  qdrant : Vectors.HandlerQdrantMock β
  db : Text.HandlerDbMock β
  graph : Graph.HandlerGraphMock (ModelMemorySnapshot β)

namespace Handlers

def new (config : ModelHandlerMemoryRetrievalConfig) : Handlers β :=
  ⟨.new config.qdrantMockConfig, .new config.caseSensitive, .new config.graphConfig⟩

variable (u : Text.Unicode) (self : Handlers β)

def seedSnapshots (snapshots : List (ModelMemorySnapshot β))
    (embeddings : Option (List (String × Embedding))) : Handlers β where
  qdrant := self.qdrant.seedSnapshots u.lower snapshots embeddings
  db := self.db.seedSnapshots snapshots
  graph := self.graph.seedSnapshots (snapshots.map toGraphSnapshot)

def addGraphRelationship (r : Graph.HandlerGraphRelationship) : Handlers β :=
  { self with graph := self.graph.addRelationship r }

def clear : Handlers β := ⟨self.qdrant.clear, self.db.clear, self.graph.clear⟩

/-- `execute`, within its `try`. -/
def route (real : String → Except PyError Embedding) (request : ModelMemoryRetrievalRequest) :
    Except PyError (ModelMemoryRetrievalResponse β) :=
  match request.operation with
  | .search => (self.qdrant.execute real request.toVectors).map ofVectors
  | .searchText => (self.db.execute u request.toText).map ofText
  | .searchGraph =>
    ((self.graph.execute request.toGraph).get (self.graph.isSome_execute request.toGraph)).map ofGraph

/-- `execute`, with the response to an exception. -/
def execute (real : String → Except PyError Embedding) (request : ModelMemoryRetrievalRequest) :
    ModelMemoryRetrievalResponse β :=
  match self.route u real request with
  | .ok response => response
  | .error e =>
    { status := .error
      errorMessage := some (s!"HandlerMemoryRetrieval: Retrieval failed: {e.text} " ++
        s!"for operation '{request.operation.value}'") }

end Handlers

/-- A call. What `initialize` finds when it connects to an embedding server, and what this server makes of
a text, is not up to the handler. -/
inductive Event (β : Type) where
  | initializes (connects : Except PyError Unit)
  | seedSnapshots (snapshots : List (ModelMemorySnapshot β)) (embeddings : Option (List (String × Embedding)))
  | addGraphRelationship (r : Graph.HandlerGraphRelationship)
  | clear
  | execute (request : ModelMemoryRetrievalRequest) (connects : Except PyError Unit)
      (real : String → Except PyError Embedding)
  | shutdown

inductive Answer (β : Type) where
  | returned
  | response (response : ModelMemoryRetrievalResponse β)
  | raised (e : PyError)

structure HandlerMemoryRetrieval where
  config : ModelHandlerMemoryRetrievalConfig

namespace HandlerMemoryRetrieval

variable (u : Text.Unicode) (self : HandlerMemoryRetrieval)

/-- How `initialize` ends when there are no handlers yet. -/
def starts (connects : Except PyError Unit) : Except PyError Unit :=
  if !self.config.useStubHandlers then
    .error (.other "Production handlers not yet implemented. Set use_stub_handlers=True")
  else if self.config.qdrantMockConfig.useRealEmbeddings then connects
  else .ok ()

/-- `initialize`. -/
def started (connects : Except PyError Unit) (handlers : Option (Handlers β)) :
    Except PyError (Handlers β) :=
  match handlers with
  | some handlers => .ok handlers
  | none => (self.starts connects).map fun _ => .new self.config

def notInitialized : PyError := .runtimeError "Handler not initialized. Call initialize() first."

/-- One call; the state has the handlers when the handler is initialized. -/
def step (handlers : Option (Handlers β)) : Event β → Answer β × Option (Handlers β)
  | .initializes connects =>
    match self.started connects handlers with
    | .error e => (.raised e, none)
    | .ok handlers => (.returned, some handlers)
  | .seedSnapshots snapshots embeddings =>
    match handlers with
    | none => (.raised notInitialized, none)
    | some handlers => (.returned, some (handlers.seedSnapshots u snapshots embeddings))
  | .addGraphRelationship r =>
    match handlers with
    | none => (.raised notInitialized, none)
    | some handlers => (.returned, some (handlers.addGraphRelationship r))
  | .clear =>
    match handlers with
    | none => (.raised notInitialized, none)
    | some handlers => (.returned, some handlers.clear)
  | .execute request connects real =>
    match self.started connects handlers with
    | .error e => (.raised e, none)
    | .ok handlers => (.response (handlers.execute u real request), some handlers)
  | .shutdown => (.returned, none)

def automaton : Automaton (Event β) (Answer β) (Option (Handlers β)) where
  step := self.step u

end HandlerMemoryRetrieval

/-! ### What is stored -/

/-- For each id, the snapshot that was seeded last. -/
abbrev Catalog (β : Type) := String → Option (ModelMemorySnapshot β)

namespace Catalog

def empty : Catalog β := fun _ => none

def seed (catalog : Catalog β) (s : ModelMemorySnapshot β) : Catalog β :=
  if isBlank s.snapshotId then catalog else Function.update catalog s.snapshotId (some s)

/-- What a call leaves of a catalog; there is none while the handler is not initialized. -/
def step (self : HandlerMemoryRetrieval) (catalog : Option (Catalog β)) : Event β → Option (Catalog β)
  | .initializes connects | .execute _ connects _ =>
    catalog.or ((self.starts connects).toOption.map fun _ => empty)
  | .seedSnapshots snapshots _ => catalog.map (snapshots.foldl seed)
  | .addGraphRelationship _ => catalog
  | .clear => catalog.map fun _ => empty
  | .shutdown => none

/-- The catalog after calls. -/
def after (self : HandlerMemoryRetrieval) (events : List (Event β)) : Option (Catalog β) :=
  events.foldl (step self) none

end Catalog

/-- Each of the three stores holds what the catalog has. -/
structure Holds (handlers : Handlers β) (catalog : Catalog β) : Prop where
  qdrant : ∀ id, Keyed.find? ModelMemorySnapshot.snapshotId handlers.qdrant.snapshots id = catalog id
  db : ∀ id, Keyed.find? ModelMemorySnapshot.snapshotId handlers.db.snapshots id = catalog id
  graph : ∀ id, handlers.graph.snapshots id = (catalog id).map toGraphSnapshot

/-- The handler is initialized when there is a catalog, and holds it. -/
def Agrees (handlers : Option (Handlers β)) (catalog : Option (Catalog β)) : Prop :=
  match handlers, catalog with
  | some handlers, some catalog => Holds handlers catalog
  | none, none => True
  | _, _ => False

section Runs

variable {u : Text.Unicode} {self : HandlerMemoryRetrieval} {handlers : Handlers β} {catalog : Catalog β}
  {before : Option (Handlers β)} {there : Option (Catalog β)}

theorem holds_new (config : ModelHandlerMemoryRetrievalConfig) :
    Holds (.new config : Handlers β) Catalog.empty := ⟨fun _ => rfl, fun _ => rfl, fun _ => rfl⟩

theorem Holds.seed (holds : Holds handlers catalog) (given : Option (List (String × Embedding)))
    (s : ModelMemorySnapshot β) :
    Holds ⟨handlers.qdrant.seedSnapshot u.lower given s, handlers.db.seedSnapshot s,
      handlers.graph.seedSnapshot (toGraphSnapshot s)⟩ (catalog.seed s) := by
  by_cases blank : isBlank s.snapshotId = true
  · have blank' : isBlank (toGraphSnapshot s).snapshotId = true := blank
    rw [Vectors.HandlerQdrantMock.seedSnapshot, Text.HandlerDbMock.seedSnapshot,
      Graph.HandlerGraphMock.seedSnapshot, Catalog.seed, if_pos blank, if_pos blank, if_pos blank',
      if_pos blank]
    exact holds
  · have blank' : ¬ isBlank (toGraphSnapshot s).snapshotId = true := blank
    rw [Vectors.HandlerQdrantMock.seedSnapshot, Text.HandlerDbMock.seedSnapshot,
      Graph.HandlerGraphMock.seedSnapshot, Catalog.seed, if_neg blank, if_neg blank, if_neg blank',
      if_neg blank]
    refine ⟨fun id => ?_, fun id => ?_, fun id => ?_⟩
    · simp only [Keyed.find?_put, Function.update_apply, holds.qdrant id]
    · simp only [Keyed.find?_put, Function.update_apply, holds.db id]
    · have key : (toGraphSnapshot s).snapshotId = s.snapshotId := rfl
      simp only [Function.update_apply, key]
      split
      · rfl
      · exact holds.graph id

theorem Holds.seedSnapshots (holds : Holds handlers catalog) (given : Option (List (String × Embedding)))
    (snapshots : List (ModelMemorySnapshot β)) :
    Holds (handlers.seedSnapshots u snapshots given) (snapshots.foldl Catalog.seed catalog) := by
  induction snapshots generalizing handlers catalog with
  | nil => exact holds
  | cons s snapshots ih => exact ih (holds.seed given s)

variable (self) in
theorem agrees_started (agrees : Agrees before there) (connects : Except PyError Unit) :
    Agrees (self.started connects before).toOption
      (there.or ((self.starts connects).toOption.map fun _ => Catalog.empty)) := by
  cases before with
  | some handlers =>
    cases there with
    | some catalog => exact agrees
    | none => cases agrees
  | none =>
    cases there with
    | some catalog => cases agrees
    | none =>
      rw [HandlerMemoryRetrieval.started, Option.none_or]
      cases self.starts connects with
      | error e => trivial
      | ok _ => exact holds_new self.config

/-- Each call keeps the three stores together. -/
theorem agrees_step (agrees : Agrees before there) (e : Event β) :
    Agrees (self.step u before e).2 (Catalog.step self there e) := by
  cases e with
  | initializes connects =>
    have started := agrees_started self agrees connects
    rw [HandlerMemoryRetrieval.step, Catalog.step]
    generalize self.started connects before = after at started
    cases after <;> exact started
  | execute request connects real =>
    have started := agrees_started self agrees connects
    rw [HandlerMemoryRetrieval.step, Catalog.step]
    generalize self.started connects before = after at started
    cases after <;> exact started
  | shutdown => trivial
  | seedSnapshots snapshots embeddings =>
    cases before with
    | none =>
      cases there with
      | none => trivial
      | some catalog => cases agrees
    | some handlers =>
      cases there with
      | none => cases agrees
      | some catalog => exact Holds.seedSnapshots agrees embeddings snapshots
  | addGraphRelationship r =>
    cases before with
    | none => exact agrees
    | some handlers =>
      cases there with
      | none => cases agrees
      | some catalog => exact ⟨agrees.qdrant, agrees.db, agrees.graph⟩
  | clear =>
    cases before with
    | none =>
      cases there with
      | none => trivial
      | some catalog => cases agrees
    | some handlers =>
      cases there with
      | none => cases agrees
      | some catalog => exact ⟨fun _ => rfl, fun _ => rfl, fun _ => rfl⟩

theorem agrees_run (u : Text.Unicode) (self : HandlerMemoryRetrieval) (events : List (Event β)) :
    Agrees ((self.automaton u).run none events) (Catalog.after self events) := by
  induction events using List.reverseRecOn with
  | nil => trivial
  | append_singleton events e ih =>
    rw [Automaton.run_concat, Catalog.after, List.foldl_append]
    exact agrees_step ih e

/-- What a search lists is in the catalog. -/
theorem Holds.execute (holds : Holds handlers catalog) (real : String → Except PyError Embedding)
    (request : ModelMemoryRetrievalRequest) :
    ∀ r ∈ (handlers.execute u real request).results, catalog r.snapshot.snapshotId = some r.snapshot := by
  rw [Handlers.execute]
  split
  · rename_i response routed
    rw [Handlers.route] at routed
    split at routed
    · cases ran : handlers.qdrant.execute real request.toVectors with
      | error e =>
        rw [ran] at routed
        cases routed
      | ok found =>
        rw [ran] at routed
        obtain rfl := Except.ok.inj routed
        intro r mem
        obtain ⟨r', mem', rfl⟩ := List.mem_map.mp mem
        have stored := Vectors.HandlerQdrantMock.execute_stored ran r' mem'
        exact (holds.qdrant _).symm.trans (Keyed.find?_of_mem handlers.qdrant.distinct stored)
    · cases ran : handlers.db.execute u request.toText with
      | error e =>
        rw [ran] at routed
        cases routed
      | ok found =>
        rw [ran] at routed
        obtain rfl := Except.ok.inj routed
        intro r mem
        obtain ⟨r', mem', rfl⟩ := List.mem_map.mp mem
        have stored := Text.HandlerDbMock.execute_stored ran r' mem'
        exact (holds.db _).symm.trans (Keyed.find?_of_mem handlers.db.distinct stored)
    · cases ran : (handlers.graph.execute request.toGraph).get
          (handlers.graph.isSome_execute request.toGraph) with
      | error e =>
        rw [ran] at routed
        cases routed
      | ok found =>
        rw [ran] at routed
        obtain rfl := Except.ok.inj routed
        intro r mem
        obtain ⟨r', mem', rfl⟩ := List.mem_map.mp mem
        have ran := (Option.some_get _).symm.trans (congrArg some ran)
        obtain ⟨id, stored⟩ := Graph.HandlerGraphMock.execute_stored ran r' mem'
        have key := handlers.graph.keyed id _ stored
        rw [holds.graph] at stored
        obtain ⟨s, there, same⟩ := Option.map_eq_some_iff.mp stored
        simp only [← same, toGraphSnapshot] at key ⊢
        rw [key, there]
  · exact List.forall_mem_nil _

/-- The answer to a search draws on a catalog, and is an exception only when there is none. -/
structure Current (answer : Answer β) (catalog : Option (Catalog β)) : Prop where
  results : ∀ response, answer = .response response → ∀ r ∈ response.results,
    ∃ stored, catalog = some stored ∧ stored r.snapshot.snapshotId = some r.snapshot
  raised : ∀ e, answer = .raised e → catalog = none

theorem Agrees.current (agrees : Agrees before there) (request : ModelMemoryRetrievalRequest)
    (connects : Except PyError Unit) (real : String → Except PyError Embedding) :
    Current (self.step u before (.execute request connects real)).1 there := by
  rw [HandlerMemoryRetrieval.step]
  cases before with
  | some handlers =>
    cases there with
    | none => cases agrees
    | some catalog =>
      refine ⟨fun response answered r mem => ?_, by rintro e ⟨⟩⟩
      obtain rfl := Answer.response.inj answered
      exact ⟨catalog, rfl, Holds.execute agrees real request r mem⟩
  | none =>
    cases there with
    | some catalog => cases agrees
    | none =>
      refine ⟨fun response answered r mem => ?_, fun _ _ => rfl⟩
      rw [HandlerMemoryRetrieval.started] at answered
      cases starts : self.starts connects with
      | error e =>
        rw [starts] at answered
        cases answered
      | ok _ =>
        rw [starts] at answered
        obtain rfl := Answer.response.inj answered
        have empty : Catalog.empty r.snapshot.snapshotId = some r.snapshot :=
          (holds_new self.config).execute real request r mem
        cases empty

end Runs

end Memory

end OmniMemory.Retrieval
