import OmniMemory.Retrieval.GraphMock

/-! The search of `HandlerGraphMock` finds the stored snapshots within its depth, each once and by a
shortest path, as long as no weight is negative. A negative weight can make a score negative, which
the result model refuses. -/

namespace OmniMemory.Retrieval.Graph

open Binary64 Bfs HandlerGraphMock

variable {β : Type} {self : HandlerGraphMock β} {startId : String} {maxDepth limit : Nat}
  {allowedTypes : Option (List String)} {e : QueueEntry}

/-- A relationship of an allowed type leads from one id to the other. -/
def Leads (self : HandlerGraphMock β) (types : Option (List String)) (a b : String) : Prop :=
  ∃ r ∈ self.relationships, allows types r.relationshipType = true ∧
    (r.sourceId = a ∧ r.targetId = b ∨
      self.config.bidirectional = true ∧ r.targetId = a ∧ r.sourceId = b)

/-- A stored snapshot other than the start that is within the depth. -/
def Reachable (self : HandlerGraphMock β) (types : Option (List String)) (startId : String)
    (maxDepth : Nat) (id : String) : Prop :=
  id ≠ startId ∧ (self.snapshots id).isSome = true ∧
    ∃ n, n ≤ maxDepth ∧ Steps (Leads self types) n startId id

/-- What a search returns. -/
structure Traverses (graph : HandlerGraphMock β) (types : Option (List String)) (startId : String)
    (maxDepth : Nat) (results : List (ModelSearchResult β)) : Prop where
  stored : ∀ r ∈ results, graph.snapshots r.snapshot.snapshotId = some r.snapshot
  mem_iff : ∀ id, (∃ r ∈ results, r.snapshot.snapshotId = id) ↔
    Reachable graph types startId maxDepth id
  once : (results.map (·.snapshot.snapshotId)).Nodup
  path : ∀ r ∈ results, ∃ path n, r.path = some path ∧
    IsPath (Leads graph types) startId r.snapshot.snapshotId path ∧ path.length = n + 1 ∧
      Distance (Leads graph types) n startId r.snapshot.snapshotId
  sorted : results.Pairwise fun r r' => r'.score ≤ r.score

/-! ### The loop as a search -/

/-- The entry for a neighbor. -/
def extend (e : QueueEntry) (n : Neighbor) : QueueEntry :=
  ⟨n.targetId, e.depth + 1, e.path ++ [n.targetId], .mul e.cumWeight n.weight⟩

/-- The entries for all neighbors, up to the depth. -/
def children (self : HandlerGraphMock β) (maxDepth : Nat) (allowedTypes : Option (List String))
    (e : QueueEntry) : List QueueEntry :=
  if maxDepth ≤ e.depth then []
  else ((self.adjacency e.currentId).filter (allows allowedTypes ·.relationshipType)).map (extend e)

theorem mem_children {c : QueueEntry} :
    c ∈ children self maxDepth allowedTypes e ↔ e.depth < maxDepth ∧
      ∃ n ∈ self.adjacency e.currentId, allows allowedTypes n.relationshipType = true ∧
        extend e n = c := by
  unfold children
  split
  · rename_i deep
    simp [deep.not_gt]
  · rename_i shallow
    simp [Nat.lt_of_not_le shallow, and_assoc]

theorem foldl_explore (l : List Neighbor) (s : List QueueEntry × List String) :
    l.foldl (explore allowedTypes e) s =
      ((l.filter (allows allowedTypes ·.relationshipType)).map (extend e)).foldl
        (enqueue QueueEntry.currentId) s := by
  induction l generalizing s with
  | nil => rfl
  | cons n l ih =>
    rw [List.foldl_cons, ih, List.filter_cons]
    cases allowed : allows allowedTypes n.relationshipType with
    | true =>
      have one : explore allowedTypes e s n = enqueue QueueEntry.currentId s (extend e n) := by
        by_cases old : n.targetId ∈ s.2 <;> simp [explore, enqueue, extend, allowed, old]
      rw [if_pos rfl, List.map_cons, List.foldl_cons, one]
    | false =>
      have same : explore allowedTypes e s n = s := by simp [explore, allowed]
      rw [if_neg Bool.false_ne_true, same]

/-- What an entry adds to the results when it raises nothing. -/
def found (self : HandlerGraphMock β) (startId : String) (e : QueueEntry) :
    Option (ModelSearchResult β) := (self.visit startId e).toOption.join

/-- Within the limit, the results are what the entries add that leave the queue. -/
theorem traverseLoop_eq {fuel : Nat} {queue es : List QueueEntry} {visited : List String}
    {results : List (ModelSearchResult β)}
    (leaves : order QueueEntry.currentId (children self maxDepth allowedTypes) fuel queue visited =
      some es)
    (good : ∀ e ∈ es, ∃ r, self.visit startId e = .ok r)
    (room : results.length + (es.filterMap (found self startId)).length ≤ limit) :
    self.traverseLoop startId maxDepth allowedTypes limit fuel queue visited results =
      some (.ok (results ++ es.filterMap (found self startId))) := by
  induction fuel generalizing queue visited results es with
  | zero =>
    cases queue with
    | nil =>
      obtain rfl := Option.some.inj leaves
      simp [traverseLoop]
    | cons e queue => cases leaves
  | succ fuel ih =>
    cases queue with
    | nil =>
      obtain rfl := Option.some.inj leaves
      simp [traverseLoop]
    | cons e queue =>
      unfold traverseLoop
      split
      · rename_i full
        have none : es.filterMap (found self startId) = [] := List.eq_nil_of_length_eq_zero (by omega)
        rw [none, List.append_nil]
      · rw [order] at leaves
        obtain ⟨rest, later, rfl⟩ := Option.map_eq_some_iff.mp leaves
        obtain ⟨here, good⟩ := List.forall_mem_cons.mp good
        obtain ⟨r, added⟩ := here
        have found_eq : found self startId e = r := by rw [found, added]; rfl
        have cons : (e :: rest).filterMap (found self startId) =
            r.toList ++ rest.filterMap (found self startId) := by
          rw [List.filterMap_cons, found_eq]
          cases r <;> rfl
        rw [cons] at room ⊢
        rw [List.length_append] at room
        rw [added]
        have room' : (results ++ r.toList).length + (rest.filterMap (found self startId)).length ≤
            limit := by
          rw [List.length_append]
          omega
        have next := ih later good room'
        rw [List.append_assoc] at next
        dsimp only
        split
        · rename_i deep
          simp only [children, deep, if_true, List.foldl_nil] at next
          exact next
        · rename_i shallow
          rw [foldl_explore]
          simp only [children, shallow, if_false] at next
          exact next

/-! ### What the search finds -/

theorem leads_iff {a b : String} :
    Leads self allowedTypes a b ↔ ∃ n ∈ self.adjacency a,
      allows allowedTypes n.relationshipType = true ∧ n.targetId = b := by
  constructor
  · rintro ⟨r, mem, allowed, ends⟩
    refine ⟨⟨b, r.relationshipType, r.weight⟩, (self.lists a _).mpr ⟨r, mem, rfl, rfl, ?_⟩, allowed, rfl⟩
    exact ends.imp (fun ⟨source, target⟩ => ⟨source, target.symm⟩)
      fun ⟨both, target, source⟩ => ⟨both, target, source.symm⟩
  · rintro ⟨n, mem, allowed, rfl⟩
    obtain ⟨r, known, type, -, ends⟩ := (self.lists a n).mp mem
    refine ⟨r, known, type ▸ allowed, ?_⟩
    exact ends.imp (fun ⟨source, target⟩ => ⟨source, target.symm⟩)
      fun ⟨both, target, source⟩ => ⟨both, target, source.symm⟩

theorem child_iff (b : String) :
    (∃ c ∈ children self maxDepth allowedTypes e, c.currentId = b) ↔
      e.depth < maxDepth ∧ Leads self allowedTypes e.currentId b := by
  rw [leads_iff]
  constructor
  · rintro ⟨c, child, rfl⟩
    obtain ⟨shallow, n, mem, allowed, rfl⟩ := mem_children.mp child
    exact ⟨shallow, n, mem, allowed, rfl⟩
  · rintro ⟨shallow, n, mem, allowed, rfl⟩
    exact ⟨extend e n, mem_children.mpr ⟨shallow, n, mem, allowed, rfl⟩, rfl⟩

/-- No relationship has a negative weight. -/
def NoNegativeWeight (self : HandlerGraphMock β) : Prop :=
  ∀ r ∈ self.relationships, r.weight.isNegative = false

/-- What the search knows of an entry. -/
structure Good (graph : HandlerGraphMock β) (types : Option (List String)) (startId : String)
    (e : QueueEntry) : Prop where
  path : IsPath (Leads graph types) startId e.currentId e.path
  length : e.path.length = e.depth + 1
  weight : e.cumWeight.isNegative = false

theorem Good.child {c : QueueEntry} (positive : NoNegativeWeight self)
    (good : Good self allowedTypes startId e) (child : c ∈ children self maxDepth allowedTypes e) :
    Good self allowedTypes startId c := by
  obtain ⟨-, n, mem, allowed, rfl⟩ := mem_children.mp child
  obtain ⟨r, known, -, weight, -⟩ := (self.lists _ n).mp mem
  refine ⟨good.path.concat (leads_iff.mpr ⟨n, mem, allowed, rfl⟩), ?_, ?_⟩
  · show (e.path ++ [n.targetId]).length = e.depth + 1 + 1
    rw [List.length_append, good.length, List.length_singleton]
  · exact Value.isNegative_mul good.weight (weight ▸ positive r known)

/-- An entry without a negative weight raises nothing, and adds its snapshot if this is stored. -/
theorem visit_cases (self : HandlerGraphMock β) (startId : String)
    (weight : e.cumWeight.isNegative = false) :
    (e.currentId = startId ∨ self.snapshots e.currentId = none) ∧
      self.visit startId e = .ok none ∨
    e.currentId ≠ startId ∧ ∃ r : ModelSearchResult β, self.visit startId e = .ok (some r) ∧
      self.snapshots e.currentId = some r.snapshot ∧ r.path = some e.path := by
  unfold visit
  by_cases start : e.currentId = startId
  · rw [if_pos start]
    exact .inl ⟨.inl start, rfl⟩
  rw [if_neg start]
  cases stored : self.snapshots e.currentId with
  | none => exact .inl ⟨.inr rfl, rfl⟩
  | some s =>
    have inverse : (Value.ofRat (1 / (e.depth + 1))).isNegative = false :=
      Value.isNegative_ofRat (by positivity)
    obtain ⟨q, score, bounds⟩ :=
      Value.exists_minOne (a := scoreOf e) (Value.isNegative_mul weight inverse)
    rw [score]
    simp only [searchResult, bounds, and_self, dif_pos]
    exact .inr ⟨start, _, rfl, rfl, rfl⟩

theorem found_eq_some {r : ModelSearchResult β} (weight : e.cumWeight.isNegative = false)
    (finds : found self startId e = some r) :
    e.currentId ≠ startId ∧ self.snapshots e.currentId = some r.snapshot ∧ r.path = some e.path ∧
      r.snapshot.snapshotId = e.currentId := by
  rcases visit_cases self startId weight with ⟨-, visit⟩ | ⟨ne, r', visit, rest⟩
  · rw [found, visit] at finds
    cases finds
  · rw [found, visit] at finds
    cases finds
    exact ⟨ne, rest.1, rest.2, self.keyed _ _ rest.1⟩

theorem exists_found (weight : e.cumWeight.isNegative = false) (ne : e.currentId ≠ startId)
    (stored : (self.snapshots e.currentId).isSome = true) :
    ∃ r, found self startId e = some r := by
  rcases visit_cases self startId weight with
    ⟨start | none, -⟩ | ⟨-, r, visit, -⟩
  · exact absurd start ne
  · rw [none] at stored
    contradiction
  · exact ⟨r, by rw [found, visit]; rfl⟩

/-- The entries that leave the queue add what a search returns. -/
theorem traverses_filterMap {es : List QueueEntry}
    (good : ∀ e ∈ es, Good self allowedTypes startId e)
    (nearest : Nearest (Leads self allowedTypes) maxDepth startId QueueEntry.currentId
      QueueEntry.depth es) :
    Traverses self allowedTypes startId maxDepth
      ((es.filterMap (found self startId)).insertionSort fun a b => b.score ≤ a.score) := by
  have total : Std.Total fun a b : ModelSearchResult β => b.score ≤ a.score :=
    ⟨fun a b => le_total b.score a.score⟩
  have trans : IsTrans _ fun a b : ModelSearchResult β => b.score ≤ a.score :=
    ⟨fun _ _ _ first second => second.trans first⟩
  have perm := List.perm_insertionSort (fun a b : ModelSearchResult β => b.score ≤ a.score)
    (es.filterMap (found self startId))
  have of_mem : ∀ r ∈ es.filterMap (found self startId), ∃ e ∈ es, found self startId e = some r :=
    fun r mem => List.mem_filterMap.mp mem
  constructor
  · intro r mem
    obtain ⟨e, here, finds⟩ := of_mem r (perm.mem_iff.mp mem)
    obtain ⟨-, stored, -, key⟩ := found_eq_some (good e here).weight finds
    rw [key, stored]
  · intro id
    constructor
    · rintro ⟨r, mem, rfl⟩
      obtain ⟨e, here, finds⟩ := of_mem r (perm.mem_iff.mp mem)
      obtain ⟨ne, stored, -, key⟩ := found_eq_some (good e here).weight finds
      rw [key]
      exact ⟨ne, by rw [stored]; rfl, e.depth, nearest.within e here, (nearest.distance e here).1⟩
    · rintro ⟨ne, stored, n, within, steps⟩
      obtain ⟨e, here, rfl⟩ := nearest.complete n id steps within
      obtain ⟨r, finds⟩ := exists_found (good e here).weight ne stored
      exact ⟨r, perm.mem_iff.mpr (List.mem_filterMap.mpr ⟨e, here, finds⟩),
        (found_eq_some (good e here).weight finds).2.2.2⟩
  · refine (perm.map _).nodup_iff.mpr ?_
    refine List.pairwise_map.mpr (List.pairwise_filterMap.mpr ?_)
    refine (List.pairwise_map.mp nearest.nodup).imp_of_mem ?_
    intro e e' here here' ne r finds r' finds'
    rw [(found_eq_some (good e here).weight finds).2.2.2,
      (found_eq_some (good e' here').weight finds').2.2.2]
    exact ne
  · intro r mem
    obtain ⟨e, here, finds⟩ := of_mem r (perm.mem_iff.mp mem)
    obtain ⟨-, -, path, key⟩ := found_eq_some (good e here).weight finds
    rw [key]
    exact ⟨e.path, e.depth, path, (good e here).path, (good e here).length,
      nearest.distance e here⟩
  · exact List.pairwise_insertionSort _ _

/-- The types that `execute` allows, and the depth up to which it searches. -/
def typesOf (request : ModelMemoryRetrievalRequest) : Option (List String) :=
  request.relationshipTypes.filter (· ≠ [])

def depthOf (self : HandlerGraphMock β) (request : ModelMemoryRetrievalRequest) : Nat :=
  min request.traversalDepth self.config.maxTraversalDepth

theorem length_le_encard {ids : List String} {s : Set String} (nodup : ids.Nodup)
    (sub : ∀ id ∈ ids, id ∈ s) : (ids.length : ℕ∞) ≤ s.encard := by
  rw [← List.toFinset_card_of_nodup nodup, ← Set.encard_coe_eq_coe_finsetCard]
  exact Set.encard_le_encard fun id mem => sub id (List.mem_toFinset.mp mem)

/-- The loop has fuel for the search of all nodes, and what it returns is what the search is to
return. -/
theorem exists_traverseBfs (positive : NoNegativeWeight self)
    (room : {id | Reachable self allowedTypes startId maxDepth id}.encard ≤ limit) :
    ∃ results, self.traverseBfs startId maxDepth allowedTypes limit = some (.ok results) ∧
      Traverses self allowedTypes startId maxDepth results := by
  let nodes := startId :: self.relationships.flatMap fun r => [r.sourceId, r.targetId]
  have enough : nodes.length ≤ 2 * self.relationships.length + 1 := by
    simp [nodes, Nat.mul_comm]
  have one : (Value.finite 1).isNegative = false := by decide
  have inside : ∀ a b, Leads self allowedTypes a b → b ∈ nodes := by
    rintro a b ⟨r, known, -, ends⟩
    refine List.mem_cons_of_mem _ (List.mem_flatMap.mpr ⟨r, known, ?_⟩)
    rcases ends with ⟨-, rfl⟩ | ⟨-, -, rfl⟩ <;> simp
  let root : QueueEntry := ⟨startId, 0, [startId], .finite 1⟩
  have deeper : ∀ e, ∀ c ∈ children self maxDepth allowedTypes e, c.depth = e.depth + 1 := by
    intro e c child
    obtain ⟨-, n, -, -, rfl⟩ := mem_children.mp child
    rfl
  have here : Good self allowedTypes startId root := ⟨isPath_singleton startId, rfl, one⟩
  have passes : ∀ e, Good self allowedTypes startId e →
      ∀ c ∈ children self maxDepth allowedTypes e, Good self allowedTypes startId c :=
    fun e good c child => good.child positive child
  obtain ⟨es, leaves, good, nearest⟩ := exists_nearest (show root.depth = 0 from rfl) deeper
    (fun e b => child_iff b) List.mem_cons_self inside here passes enough
  have traverses := traverses_filterMap good nearest
  have perm := List.perm_insertionSort (fun a b : ModelSearchResult β => b.score ≤ a.score)
    (es.filterMap (found self startId))
  have count := length_le_encard traverses.once fun id mem =>
    (traverses.mem_iff id).mp (List.mem_map.mp mem)
  rw [List.length_map, perm.length_eq] at count
  have visits : ∀ e ∈ es, ∃ r, self.visit startId e = .ok r := by
    intro e here
    rcases visit_cases self startId (good e here).weight with
      ⟨-, visit⟩ | ⟨-, r, visit, -⟩
    · exact ⟨_, visit⟩
    · exact ⟨_, visit⟩
  have room' : ([] : List (ModelSearchResult β)).length +
      (es.filterMap (found self startId)).length ≤ limit := by
    rw [List.length_nil, Nat.zero_add]
    exact_mod_cast count.trans room
  have loop := traverseLoop_eq leaves visits room'
  refine ⟨_, ?_, traverses⟩
  unfold traverseBfs
  rw [loop]
  rfl

/-- A search from a stored snapshot, with room for all that is reachable and without negative
weights, returns every snapshot that is reachable, once and by a shortest path. -/
theorem execute_traverses {request : ModelMemoryRetrievalRequest}
    (operation : request.operation = .searchGraph) (start : request.snapshotId = some startId)
    (stored : (self.snapshots startId).isSome = true) (positive : NoNegativeWeight self)
    (room : {id | Reachable self (typesOf request) startId (depthOf self request) id}.encard ≤
      request.limit) :
    ∃ response, self.execute request = some (.ok response) ∧
      Traverses self (typesOf request) startId (depthOf self request) response.results := by
  obtain ⟨results, returns, traverses⟩ := exists_traverseBfs positive room
  have here : ¬ (self.snapshots startId).isNone = true := by
    rw [Option.isNone_iff_eq_none]
    exact Option.isSome_iff_ne_none.mp stored
  unfold execute
  rw [if_neg (by simp [operation]), start]
  dsimp only
  rw [if_neg here]
  have returns : self.traverseBfs startId (min request.traversalDepth self.config.maxTraversalDepth)
      (request.relationshipTypes.filter (· ≠ [])) request.limit = some (.ok results) := returns
  rw [returns]
  refine ⟨_, rfl, ?_⟩
  dsimp only
  split
  · rename_i none
    subst none
    exact traverses
  · exact traverses

/-- Two snapshots and a relationship from the first to the second. -/
def twoNodes (weight : Value) : HandlerGraphMock Unit :=
  ((new {}).seedSnapshots [⟨"a", ()⟩, ⟨"b", ()⟩]).addRelationship ⟨"a", "b", "related_to", weight⟩

def fromFirst : ModelMemoryRetrievalRequest where
  operation := .searchGraph
  snapshotId := some "a"
  snapshotId_isSome _ := rfl

theorem twoNodes_room (weight : Value) (types : Option (List String)) (maxDepth : Nat) :
    {id | Reachable (twoNodes weight) types "a" maxDepth id}.encard ≤ fromFirst.limit := by
  have sub : {id | Reachable (twoNodes weight) types "a" maxDepth id} ⊆ {"b"} := by
    rintro id ⟨ne, stored, -⟩
    by_contra other
    have none : (twoNodes weight).snapshots id = none := by
      show Function.update (Function.update (fun _ => none) "a" _) "b" _ id = none
      rw [Function.update_of_ne other, Function.update_of_ne ne]
    rw [none] at stored
    contradiction
  refine (Set.encard_le_encard sub).trans ?_
  rw [Set.encard_singleton]
  exact_mod_cast fromFirst.limit_bounds.1

theorem execute_traverses_twoNodes : ∃ response, (twoNodes (.finite 1)).execute fromFirst =
    some (.ok response) ∧ Traverses (twoNodes (.finite 1)) none "a" 2 response.results :=
  execute_traverses rfl rfl rfl (List.forall_mem_singleton.mpr (by decide +kernel))
    (twoNodes_room _ _ _)

/-- For a negative weight the search raises. -/
theorem not_traverses_negative_weight :
    ¬ ∀ (self : HandlerGraphMock Unit) (startId : String) (request : ModelMemoryRetrievalRequest),
      request.operation = .searchGraph → request.snapshotId = some startId →
        (self.snapshots startId).isSome = true →
        {id | Reachable self (typesOf request) startId (depthOf self request) id}.encard ≤
          request.limit →
        ∃ response, self.execute request = some (.ok response) ∧
          Traverses self (typesOf request) startId (depthOf self request) response.results := by
  intro all
  obtain ⟨response, returns, -⟩ := all (twoNodes (.finite (-1 / 2))) "a" fromFirst rfl rfl rfl
    (twoNodes_room _ _ _)
  have raises : ((twoNodes (.finite (-1 / 2))).execute fromFirst).any (·.toOption.isNone) = true := by
    decide +kernel
  rw [returns] at raises
  contradiction

end OmniMemory.Retrieval.Graph
