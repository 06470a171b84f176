import OmniMemory.Lib.Bfs
import OmniMemory.Lib.Binary64
import OmniMemory.Python
import Mathlib.Data.Set.Card
import Mathlib.Data.List.Sort

/-! `HandlerGraphMock`: the graph that seeding snapshots and adding relationships build, and the
breadth-first search from a snapshot. The latency that the configuration simulates is left out. -/

namespace OmniMemory.Retrieval.Graph

open Binary64

/-- A snapshot, by its id and all that the search does not read. -/
structure ModelMemorySnapshot (β : Type) where
  snapshotId : String
  content : β

structure HandlerGraphRelationship where
  sourceId : String
  targetId : String
  relationshipType : String
  weight : Value := .finite 1

structure ModelHandlerGraphMockConfig where
  maxTraversalDepth : Nat := 10
  bidirectional : Bool := true
  maxTraversalDepth_pos : 1 ≤ maxTraversalDepth := by decide

inductive Operation where
  | search
  | searchText
  | searchGraph
deriving DecidableEq

def Operation.value : Operation → String
  | search => "search"
  | searchText => "search_text"
  | searchGraph => "search_graph"

/-- The fields of a request that `execute` reads. -/
structure ModelMemoryRetrievalRequest where
  operation : Operation
  snapshotId : Option String
  limit : Nat := 10
  traversalDepth : Nat := 2
  relationshipTypes : Option (List String) := none
  limit_bounds : 1 ≤ limit ∧ limit ≤ 1000 := by decide
  traversalDepth_bounds : 1 ≤ traversalDepth ∧ traversalDepth ≤ 10 := by decide
  /-- What the model validator asks of the operation `search_graph`. -/
  snapshotId_isSome : operation = .searchGraph → snapshotId.isSome = true

/-- A search result; its score has passed the checks of the model. -/
structure ModelSearchResult (β : Type) where
  snapshot : ModelMemorySnapshot β
  score : ℚ
  distance : Option Value := none
  path : Option (List String) := none
  score_bounds : 0 ≤ score ∧ score ≤ 1

inductive Status where
  | success
  | error
  | noResults

structure ModelMemoryRetrievalResponse (β : Type) where
  status : Status
  results : List (ModelSearchResult β) := []
  totalCount : Nat := 0
  errorMessage : Option String := none

/-- An entry of the adjacency list of a node. -/
structure Neighbor where
  targetId : String
  relationshipType : String
  weight : Value

/-- The relationship makes the entry in the adjacency list of the node. -/
def Lists (bidirectional : Bool) (r : HandlerGraphRelationship) (id : String) (n : Neighbor) : Prop :=
  n.relationshipType = r.relationshipType ∧ n.weight = r.weight ∧
    (r.sourceId = id ∧ n.targetId = r.targetId ∨
      bidirectional = true ∧ r.targetId = id ∧ n.targetId = r.sourceId)

/-- The handler, with its dicts as functions; `adjacency` is read by `get(id, [])`. -/
structure HandlerGraphMock (β : Type) where
  config : ModelHandlerGraphMockConfig
  snapshots : String → Option (ModelMemorySnapshot β)
  relationships : List HandlerGraphRelationship
  adjacency : String → List Neighbor
  keyed : ∀ id s, snapshots id = some s → s.snapshotId = id
  lists : ∀ id n, n ∈ adjacency id ↔ ∃ r ∈ relationships, Lists config.bidirectional r id n

namespace HandlerGraphMock

variable {β : Type}

/-- `__init__`. -/
def new (config : ModelHandlerGraphMockConfig) : HandlerGraphMock β where
  config
  snapshots _ := none
  relationships := []
  adjacency _ := []
  keyed := nofun
  lists := by simp

/-- One turn of the loop of `seed_snapshots`. The empty adjacency list that it makes for a new
snapshot is what `get` gives without one. -/
def seedSnapshot (self : HandlerGraphMock β) (s : ModelMemorySnapshot β) : HandlerGraphMock β :=
  if isBlank s.snapshotId then self
  else
    { self with
      snapshots := Function.update self.snapshots s.snapshotId (some s)
      keyed := by
        intro id s' stored
        by_cases same : id = s.snapshotId
        · subst same
          rw [Function.update_self] at stored
          exact Option.some.inj stored ▸ rfl
        · rw [Function.update_of_ne same] at stored
          exact self.keyed id s' stored }

def seedSnapshots (self : HandlerGraphMock β) (snapshots : List (ModelMemorySnapshot β)) :
    HandlerGraphMock β := snapshots.foldl seedSnapshot self

/-- The adjacency list of a node with one more entry. -/
def append (adjacency : String → List Neighbor) (id : String) (n : Neighbor) :
    String → List Neighbor := Function.update adjacency id (adjacency id ++ [n])

theorem mem_append {adjacency : String → List Neighbor} {id id' : String} {n n' : Neighbor} :
    n' ∈ append adjacency id n id' ↔ n' ∈ adjacency id' ∨ id' = id ∧ n' = n := by
  unfold append
  by_cases same : id' = id
  · subst same
    simp [Function.update_self]
  · simp [same]

/-- The adjacency lists with the entries of a relationship. -/
def addEdges (bidirectional : Bool) (adjacency : String → List Neighbor)
    (r : HandlerGraphRelationship) : String → List Neighbor :=
  let forward := append adjacency r.sourceId ⟨r.targetId, r.relationshipType, r.weight⟩
  if bidirectional then append forward r.targetId ⟨r.sourceId, r.relationshipType, r.weight⟩
  else forward

theorem mem_addEdges {bidirectional : Bool} {adjacency : String → List Neighbor}
    {r : HandlerGraphRelationship} {id : String} {n : Neighbor} :
    n ∈ addEdges bidirectional adjacency r id ↔ n ∈ adjacency id ∨ Lists bidirectional r id n := by
  have entry : ∀ target, n = ⟨target, r.relationshipType, r.weight⟩ ↔
      n.targetId = target ∧ n.relationshipType = r.relationshipType ∧ n.weight = r.weight := by
    intro target
    cases n
    simp
  unfold addEdges Lists
  split
  · rw [mem_append, mem_append, entry, entry]
    tauto
  · rw [mem_append, entry]
    tauto

/-- `add_relationship`. -/
def addRelationship (self : HandlerGraphMock β) (r : HandlerGraphRelationship) :
    HandlerGraphMock β :=
  { self with
    relationships := self.relationships ++ [r]
    adjacency := addEdges self.config.bidirectional self.adjacency r
    lists := by
      intro id n
      rw [mem_addEdges, self.lists]
      simp [or_and_right, exists_or] }

/-- An entry of the queue. -/
structure QueueEntry where
  currentId : String
  depth : Nat
  path : List String
  cumWeight : Value

/-- `ModelSearchResult(...)`, which raises for a score that is not from 0 to 1. -/
def searchResult (snapshot : ModelMemorySnapshot β) (score : Value) (path : List String) :
    Except PyError (ModelSearchResult β) :=
  match score with
  | .finite q =>
    if bounds : 0 ≤ q ∧ q ≤ 1 then
      .ok { snapshot, score := q, path := some path, score_bounds := bounds }
    else .error (.valueError "score must be between 0 and 1")
  | _ => .error (.valueError "score must be between 0 and 1")

/-- `cum_weight * (1.0 / (depth + 1))`. -/
def scoreOf (e : QueueEntry) : Value := .mul e.cumWeight (.ofRat (1 / (e.depth + 1)))

variable (self : HandlerGraphMock β)

/-- What the search adds to the results for an entry. -/
def visit (startId : String) (e : QueueEntry) : Except PyError (Option (ModelSearchResult β)) :=
  if e.currentId = startId then .ok none
  else
    match self.snapshots e.currentId with
    | none => .ok none
    | some snapshot => (searchResult snapshot (scoreOf e).minOne e.path).map some

/-- The filter by type; an empty set of types allows all. -/
def allows (allowedTypes : Option (List String)) (relationshipType : String) : Bool :=
  match allowedTypes with
  | none | some [] => true
  | some types => decide (relationshipType ∈ types)

/-- One turn of the loop over the neighbors of an entry, with the queue and the visited ids. -/
def explore (allowedTypes : Option (List String)) (e : QueueEntry)
    (s : List QueueEntry × List String) (n : Neighbor) : List QueueEntry × List String :=
  if n.targetId ∈ s.2 then s
  else if !allows allowedTypes n.relationshipType then s
  else
    (s.1 ++ [⟨n.targetId, e.depth + 1, e.path ++ [n.targetId], .mul e.cumWeight n.weight⟩],
      n.targetId :: s.2)

/-- The loop of `_traverse_bfs`; `none` when there is too little fuel for it. -/
def traverseLoop (startId : String) (maxDepth : Nat) (allowedTypes : Option (List String))
    (limit : Nat) : (fuel : Nat) → (queue : List QueueEntry) → (visited : List String) →
      (results : List (ModelSearchResult β)) → Option (Except PyError (List (ModelSearchResult β)))
  | _, [], _, results => some (.ok results)
  | fuel, e :: queue, visited, results =>
    if limit ≤ results.length then some (.ok results)
    else
      match fuel with
      | 0 => none
      | fuel + 1 =>
        match self.visit startId e with
        | .error raised => some (.error raised)
        | .ok found =>
          let results := results ++ found.toList
          if maxDepth ≤ e.depth then
            traverseLoop startId maxDepth allowedTypes limit fuel queue visited results
          else
            let next := (self.adjacency e.currentId).foldl (explore allowedTypes e) (queue, visited)
            traverseLoop startId maxDepth allowedTypes limit fuel next.1 next.2 results

/-- `_traverse_bfs`: the loop for as long as there are nodes, and the results by their scores. -/
def traverseBfs (startId : String) (maxDepth : Nat) (allowedTypes : Option (List String))
    (limit : Nat) : Option (Except PyError (List (ModelSearchResult β))) :=
  (self.traverseLoop startId maxDepth allowedTypes limit (2 * self.relationships.length + 1)
    [⟨startId, 0, [startId], .finite 1⟩] [startId] []).map
      (·.map (·.insertionSort fun a b => b.score ≤ a.score))

/-- `execute`; `none` when there is too little fuel for the search. -/
def execute (request : ModelMemoryRetrievalRequest) :
    Option (Except PyError (ModelMemoryRetrievalResponse β)) :=
  if request.operation ≠ .searchGraph then
    some (.ok
      { status := .error
        errorMessage := some (s!"HandlerGraphMock: Only supports 'search_graph', " ++
          s!"got '{request.operation.value}'") })
  else
    match request.snapshotId with
    | none =>
      some (.ok
        { status := .error
          errorMessage := some (s!"HandlerGraphMock: snapshot_id is required " ++
            s!"for operation '{request.operation.value}'") })
    | some startId =>
      if (self.snapshots startId).isNone then
        some (.ok
          { status := .noResults
            errorMessage := some (s!"HandlerGraphMock: Start snapshot '{startId}' not found " ++
              s!"for operation '{request.operation.value}'") })
      else
        let maxDepth := min request.traversalDepth self.config.maxTraversalDepth
        let allowedTypes := request.relationshipTypes.filter (· ≠ [])
        (self.traverseBfs startId maxDepth allowedTypes request.limit).map fun outcome =>
          outcome.map fun results =>
            if results = [] then { status := .noResults }
            else { status := .success, results, totalCount := results.length }

end HandlerGraphMock

end OmniMemory.Retrieval.Graph
