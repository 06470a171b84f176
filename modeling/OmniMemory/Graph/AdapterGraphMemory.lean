import OmniMemory.Lib.Binary64
import OmniMemory.Lib.Program
import OmniMemory.Lib.Ranked
import OmniMemory.Lib.Trails

/-! `AdapterGraphMemory.find_related`, over a property graph that answers its two Cypher queries. The
pattern of the traversal query matches trails of relationships, and `DISTINCT` applies to the columns
that it returns. The retries after errors of the database are left out. -/

namespace OmniMemory.GraphMemory

open Interleave Trails

structure Relationship (ν : Type) where
  id : Nat
  source : ν
  target : ν
  type : String
deriving DecidableEq

/-- A property graph; `properties` is what the driver makes of a node's properties. -/
structure PropertyGraph (ν π : Type) where
  labels : ν → List String
  memoryId : ν → Option String
  properties : ν → π
  relationships : List (Relationship ν)
  ids : (relationships.map (·.id)).Nodup

variable {ν π : Type}

/-- The node has the label and the memory's id. -/
def PropertyGraph.IsMemory (g : PropertyGraph ν π) (nodeLabel : String) (a : ν) (memoryId : String) :
    Prop := nodeLabel ∈ g.labels a ∧ g.memoryId a = some memoryId

/-- A memory graph: a memory's id is that of one node. -/
structure MemoryGraph (ν π : Type) (nodeLabel : String) extends PropertyGraph ν π where
  unique : ∀ a b memoryId, toPropertyGraph.IsMemory nodeLabel a memoryId →
    toPropertyGraph.IsMemory nodeLabel b memoryId → a = b

structure ModelGraphMemoryConfig where
  maxDepth : Nat := 5
  defaultDepth : Nat := 2
  defaultLimit : Nat := 100
  maxLimit : Nat := 1000
  bidirectional : Bool := true
  memoryNodeLabel : String := "Memory"
  scoreFilterMultiplier : ℚ := 3
  maxDepth_bounds : 1 ≤ maxDepth ∧ maxDepth ≤ 10 := by decide
  defaultDepth_bounds : 1 ≤ defaultDepth ∧ defaultDepth ≤ maxDepth := by decide
  defaultLimit_bounds : 1 ≤ defaultLimit ∧ defaultLimit ≤ maxLimit := by decide
  scoreFilterMultiplier_bounds : 1 ≤ scoreFilterMultiplier ∧ scoreFilterMultiplier ≤ 10 := by
    norm_num

/-- The arguments of `find_related`. -/
structure Request where
  memoryId : String
  depth : Option Nat := none
  relationshipTypes : Option (List String) := none
  limit : Option Nat := none
  minScore : Binary64.Value := .finite 0

/-- The traversal queries, by their parts: `find_related_query` and, with types, the same pattern
with the condition of `find_related_by_type_query` that all relationships are of these. -/
structure Query where
  maxDepth : Nat
  nodeLabel : String
  bidirectional : Bool
  memoryId : String
  relationshipTypes : Option (List String)
  limit : Nat

/-- A row of the traversal query. -/
structure Record (π : Type) where
  memoryId : String
  labels : List String
  properties : π
  depth : Nat

/-! ### The meaning of the queries -/

/-- The pattern follows the relationship from one node to the other. -/
def Follows (g : PropertyGraph ν π) (q : Query) (a : ν) (r : Relationship ν) (b : ν) : Prop :=
  r ∈ g.relationships ∧ (∀ types ∈ q.relationshipTypes, r.type ∈ types) ∧
    (r.source = a ∧ r.target = b ∨ q.bidirectional = true ∧ r.target = a ∧ r.source = b)

/-- The query returns the row for a trail from the memory to another one. -/
def Matches (g : PropertyGraph ν π) (q : Query) (row : Record π) : Prop :=
  ∃ start related trail, g.IsMemory q.nodeLabel start q.memoryId ∧
    Trail (Follows g q) start trail related ∧ 1 ≤ trail.length ∧ trail.length ≤ q.maxDepth ∧
    g.IsMemory q.nodeLabel related row.memoryId ∧ row.memoryId ≠ q.memoryId ∧
    row.labels = g.labels related ∧ row.properties = g.properties related ∧ row.depth = trail.length

/-- The rows of the query: every row once, by depth and in any order for equal depths, up to the
limit. -/
def Answers (g : PropertyGraph ν π) (q : Query) (records : List (Record π)) : Prop :=
  ∃ rows : List (Record π), rows.Nodup ∧ (∀ row, row ∈ rows ↔ Matches g q row) ∧
    rows.Pairwise (fun row row' => row.depth ≤ row'.depth) ∧ records = rows.take q.limit

/-- `handler.execute_query`, for the two queries. -/
inductive Op where
  | nodeExists (nodeLabel memoryId : String)
  | traverse (q : Query)

@[reducible] def Res (π : Type) : Op → Type
  | .nodeExists .. => Bool
  | .traverse _ => List (Record π)

abbrev GraphProg (π α : Type) := Prog Op (Res π) α

abbrev nodeExists (nodeLabel memoryId : String) : GraphProg π Bool :=
  .perform (Op.nodeExists nodeLabel memoryId)

abbrev traverse (q : Query) : GraphProg π (List (Record π)) := .perform (Op.traverse q)

def Serves (g : PropertyGraph ν π) : (op : Op) → Unit → Res π op → Unit → Prop
  | .nodeExists nodeLabel memoryId, _, found, _ =>
    found = true ↔ ∃ a, g.IsMemory nodeLabel a memoryId
  | .traverse q, _, records, _ => Answers g q records

/-! ### The adapter -/

structure ModelRelatedMemory (π : Type) where
  memoryId : String
  score : ℚ
  path : List String
  depth : Nat
  labels : List String
  properties : π

inductive Status where
  | success
  | noResults
  | notFound

structure ModelRelatedMemoryResult (π : Type) where
  status : Status
  memories : List (ModelRelatedMemory π) := []
  totalCount : Nat := 0
  candidatesFound : Nat := 0
  maxDepthReached : Nat := 0
  errorMessage : Option String := none

/-- `1.0 / (depth + 1)`. -/
def score (depth : Nat) : ℚ := Binary64.round (1 / (depth + 1))

/-- `max(0.0, min(min_score, 1.0))`. -/
def clamp : Binary64.Value → ℚ
  | .nan => 0
  | .infinite negative => if negative then 0 else 1
  | .finite q => max 0 (min q 1)

namespace AdapterGraphMemory

variable (config : ModelGraphMemoryConfig) (request : Request)

def effectiveDepth : Nat := min (request.depth.getD config.defaultDepth) config.maxDepth

def effectiveLimit : Nat := min (request.limit.getD config.defaultLimit) config.maxLimit

/-- `min(int(effective_limit * score_filter_multiplier), max_limit)`; the limit is made a float
before the product. -/
def queryLimit : Nat :=
  min ⌊Binary64.round
    (Binary64.round (effectiveLimit config request) * config.scoreFilterMultiplier)⌋₊ config.maxLimit

/-- The traversal query; an empty list of types is none. -/
def traversalQuery : Query where
  maxDepth := effectiveDepth config request
  nodeLabel := config.memoryNodeLabel
  bidirectional := config.bidirectional
  memoryId := request.memoryId
  relationshipTypes := request.relationshipTypes.filter (· ≠ [])
  limit := queryLimit config request

/-- One turn of the loop over the records: the memory, unless its score is too low. -/
def relatedMemory (record : Record π) : Option (ModelRelatedMemory π) :=
  if score record.depth < clamp request.minScore then none
  else
    some
      { memoryId := record.memoryId
        score := score record.depth
        path := [request.memoryId, record.memoryId]
        depth := record.depth
        labels := record.labels
        properties := record.properties }

/-- `heapq.nlargest(n, memories, key=score)`, which sorts stably. -/
def nlargest (n : Nat) (memories : List (ModelRelatedMemory π)) : List (ModelRelatedMemory π) :=
  (memories.insertionSort fun a b => b.score ≤ a.score).take n

/-- `find_related`. -/
def findRelated : GraphProg π (ModelRelatedMemoryResult π) := do
  if !(← nodeExists config.memoryNodeLabel request.memoryId) then
    return {
      status := .notFound
      errorMessage := some s!"Memory '{request.memoryId}' not found in graph" }
  let records ← traverse (traversalQuery config request)
  let memories := nlargest (effectiveLimit config request)
    (records.filterMap (relatedMemory request))
  return {
    status := if memories = [] then .noResults else .success
    memories
    totalCount := memories.length
    candidatesFound := records.length
    maxDepthReached := records.foldl (fun deepest record => max deepest record.depth) 0 }

end AdapterGraphMemory

end OmniMemory.GraphMemory
