import OmniMemory.Subscription.Encoding

/-! The round trip of a subscription through the database and the cache. The columns and the cache
entry give back the subscription that `subscribe` returns, except that an empty `dict` of metadata is
persisted as NULL and read back as `None`. -/

namespace OmniMemory

open Interleave Interleave.Prog
open Json hiding Value

namespace Subscription

/-- The same items, in any order: `==` of two `dict`s. -/
def SameDict (metadata metadata' : Metadata) : Prop := metadata.rows.Perm metadata'.rows

/-- `==` of two subscriptions. -/
structure Same (s s' : ModelSubscription) : Prop where
  fields : { s with metadata := none } = { s' with metadata := none }
  metadata : Option.Rel SameDict s.metadata s'.metadata

/-! ### The database -/

/-- The parameters of the INSERT of `_persist_subscription`. -/
structure Parameters where
  id : String
  agentId : String
  topic : String
  status : String
  createdAt : String
  updatedAt : String
  metadata : Option String

def insertParameters (s : ModelSubscription) : Parameters where
  id := UUID.str s.id
  agentId := s.agentId
  topic := s.topic
  status := s.status.value
  createdAt := s.createdAt.isoformat
  updatedAt := s.updatedAt.isoformat
  metadata := s.metadata.bind fun metadata =>
    if metadata.rows = [] then none else some (dumps metadata)

/-- The columns hold what the parameters stand for: the time of an ISO text, the object of a JSON text
with its members in any order, and NULL for `None`. -/
structure Stored (p : Parameters) (row : SubscriptionRow) : Prop where
  id : UUID.str row.id = p.id
  agentId : row.agentId = p.agentId
  topic : row.topic = p.topic
  status : row.status.value = p.status
  createdAt : row.createdAt.InRange ∧ row.createdAt.IsoText p.createdAt
  updatedAt : row.updatedAt.InRange ∧ row.updatedAt.IsoText p.updatedAt
  metadata : Option.Rel
    (fun metadata text => ∃ metadata', SameDict metadata metadata' ∧ IsText (jsonOf metadata') text)
    row.metadata p.metadata

/-! ### The cache -/

/-- The names of the fields of `ModelSubscription`. -/
def fieldNames : List String :=
  ["id", "agent_id", "topic", "status", "created_at", "updated_at", "suspended_reason", "metadata"]

/-- The members of the JSON object of a subscription, with texts for its times. -/
def members (s : ModelSubscription) (createdAt updatedAt : String) : List (String × Json.Value) :=
  fieldNames.zip [.string (UUID.str s.id), .string s.agentId, .string s.topic,
    .string s.status.value, .string createdAt, .string updatedAt, .null,
    s.metadata.elim .null jsonOf]

/-- The subscription that has the members of an object as its fields. -/
def ofMembers (members : List (String × Json.Value)) : Option ModelSubscription := do
  if members.map Prod.fst ≠ fieldNames then none
  let id ← ((members.lookup "id").bind asString).bind UUID.ofStr
  let agentId ← (members.lookup "agent_id").bind asString
  let topic ← (members.lookup "topic").bind asString
  let status ← ((members.lookup "status").bind asString).bind fun status =>
    (EnumSubscriptionStatus.ofValue status).toOption
  let createdAt ← ((members.lookup "created_at").bind asString).bind DateTime.fromIsoFormat
  let updatedAt ← ((members.lookup "updated_at").bind asString).bind DateTime.fromIsoFormat
  let .null ← members.lookup "suspended_reason" | none
  let metadata ← (members.lookup "metadata").bind asMetadata
  some { id, agentId, topic, status, createdAt, updatedAt, metadata }

/-- What the surroundings are documented to do. `loads` and `fromisoformat` are Python's, a driver
returns a column as a value or as a text of it, and pydantic writes and validates JSON. -/
structure External.Documented (X : External) : Prop where
  loads : X.loads = Subscription.loads
  fromIsoFormat : ∀ s t, DateTime.fromIsoFormat s = some t → X.fromIsoFormat s = .ok t
  time : ∀ t : DateTime, t.InRange →
    X.driverTime t = .datetime t ∨ ∃ s, t.IsoText s ∧ X.driverTime t = .text s
  json : ∀ metadata, ∃ metadata', SameDict metadata' metadata ∧
    (X.driverJson metadata = .dict metadata' ∨
      ∃ s, IsText (jsonOf metadata') s ∧ X.driverJson metadata = .text s)
  dump : ∀ s : ModelSubscription, s.createdAt.InRange → s.updatedAt.InRange →
    ∃ createdAt updatedAt, s.createdAt.IsoText createdAt ∧ s.updatedAt.IsoText updatedAt ∧
      IsText (.object (members s createdAt updatedAt)) (X.modelDumpJson s)
  validate : ∀ text members s, Json.read text = some (.object members) →
    ofMembers members = some s → X.modelValidateJson text = s.check

/-! ### The law -/

variable (X : External)

def Serves (op : Op) (s : State) (answer : Res op) (s' : State) : Prop :=
  (world X).Calls ⟨op, s, answer, s'⟩

/-- The row that `subscribe` persisted and the cache entry that it wrote give back the
subscription. -/
structure RoundTrips (subscription : ModelSubscription) (before after : State) : Prop where
  persisted : ∃ row ∈ after.table, Stored (insertParameters subscription) row
  row : ∀ row, Stored (insertParameters subscription) row →
    ∃ read, rowToSubscription X (X.driverRow row) = .ok read ∧ Same read subscription
  entry : ∀ text, after.cache.entries subscription.id = some text →
    before.cache.entries subscription.id = some text ∨
      ∃ read, parseEntry X (some text) = some read ∧ Same read subscription

section Reading

variable {X : External} {row : SubscriptionRow} {subscription : ModelSubscription}

theorem ofMembers_members {createdAt updatedAt : String}
    (created : subscription.createdAt.InRange) (updated : subscription.updatedAt.InRange)
    (createdText : subscription.createdAt.IsoText createdAt)
    (updatedText : subscription.updatedAt.IsoText updatedAt) :
    ofMembers (members subscription createdAt updatedAt) = some subscription := by
  have metadata : asMetadata (subscription.metadata.elim .null jsonOf) =
      some subscription.metadata := by
    cases subscription.metadata with
    | none => rfl
    | some metadata => exact asMetadata_jsonOf metadata
  simp [ofMembers, members, fieldNames, List.lookup_cons, asString, createdText.fromIsoFormat created,
    updatedText.fromIsoFormat updated, metadata, Except.toOption]

/-- A cache entry is decoded to the subscription that it was made of. -/
theorem External.Documented.entry (documented : X.Documented) (valid : subscription.Valid)
    (created : subscription.createdAt.InRange) (updated : subscription.updatedAt.InRange) :
    parseEntry X (some (X.modelDumpJson subscription)) = some subscription := by
  obtain ⟨createdAt, updatedAt, createdText, updatedText, isText⟩ :=
    documented.dump subscription created updated
  have decoded := documented.validate _ _ _ (read_eq isText)
    (ofMembers_members created updated createdText updatedText)
  have some : X.modelDumpJson subscription ≠ "" := by
    intro empty
    have nothing : Json.read "" = none := by decide +kernel
    have read := read_eq isText
    rw [empty, nothing] at read
    contradiction
  rw [parseEntry, if_neg some, decoded, ModelSubscription.check_eq_ok.mpr ⟨valid, rfl⟩]
  rfl

theorem External.Documented.parseTime (documented : X.Documented) {t : DateTime}
    (inRange : t.InRange) : parseTime X (X.driverTime t) = .ok t := by
  rcases documented.time t inRange with datetime | ⟨s, isText, text⟩
  · rw [datetime]
    rfl
  · rw [text]
    exact documented.fromIsoFormat _ _ (isText.replace.fromIsoFormat inRange)

theorem External.Documented.parseMetadata (documented : X.Documented)
    (metadata : Option Metadata) :
    ∃ read, parseMetadata X (metadata.elim .null X.driverJson) = .ok read ∧
      Option.Rel SameDict read metadata := by
  cases metadata with
  | none => exact ⟨none, rfl, .none⟩
  | some metadata =>
    obtain ⟨metadata', same, dict | ⟨s, isText, text⟩⟩ := documented.json metadata
    · refine ⟨some metadata', ?_, .some same⟩
      rw [Option.elim_some, dict]
      rfl
    · refine ⟨some metadata', ?_, .some same⟩
      rw [Option.elim_some, text, Subscription.parseMetadata, documented.loads]
      exact loads_of_isText isText

/-- A row is read back as what its columns hold. -/
theorem External.Documented.readsRow (documented : X.Documented) (valid : row.toModel.Valid)
    (created : row.createdAt.InRange) (updated : row.updatedAt.InRange) :
    ∃ read, rowToSubscription X (X.driverRow row) = .ok read ∧ Same read row.toModel := by
  obtain ⟨metadata, parsed, same⟩ := documented.parseMetadata row.metadata
  refine ⟨{ row.toModel with metadata }, ?_, rfl, same⟩
  have valid' : ModelSubscription.Valid { row.toModel with metadata } := valid
  simp only [rowToSubscription, Bind.bind, Except.bind, External.driverRow, parsed,
    documented.parseTime created, documented.parseTime updated,
    EnumSubscriptionStatus.ofValue_value]
  exact ModelSubscription.check_eq_ok.mpr ⟨valid', rfl⟩

theorem metadata_insertParameters (subscription : ModelSubscription) :
    (insertParameters subscription).metadata =
      (metadataParameter subscription.metadata).map dumps := by
  unfold insertParameters metadataParameter
  cases subscription.metadata with
  | none => rfl
  | some metadata =>
    simp only [Option.bind_some]
    split <;> rfl

/-- The row of the model is one that the parameters stand for. -/
theorem stored_toRow (created : subscription.createdAt.InRange)
    (updated : subscription.updatedAt.InRange) :
    Stored (insertParameters subscription) subscription.toRow where
  id := rfl
  agentId := rfl
  topic := rfl
  status := rfl
  createdAt := ⟨created, DateTime.isoText_isoformat _⟩
  updatedAt := ⟨updated, DateTime.isoText_isoformat _⟩
  metadata := by
    rw [metadata_insertParameters]
    show Option.Rel _ (metadataParameter subscription.metadata) _
    cases metadataParameter subscription.metadata with
    | none => exact .none
    | some metadata => exact .some ⟨metadata, .refl _, isText_dumps metadata⟩

/-- The parameters stand for one row only. -/
theorem Stored.same (stored : Stored (insertParameters subscription) row)
    (created : subscription.createdAt.InRange) (updated : subscription.updatedAt.InRange) :
    Same row.toModel { subscription with metadata := metadataParameter subscription.metadata } := by
  have status : row.status = subscription.status := by
    have values := congrArg EnumSubscriptionStatus.ofValue stored.status
    simpa [insertParameters] using values
  have createdAt : row.createdAt = subscription.createdAt :=
    stored.createdAt.2.unique stored.createdAt.1 (DateTime.isoText_isoformat _) created
  have updatedAt : row.updatedAt = subscription.updatedAt :=
    stored.updatedAt.2.unique stored.updatedAt.1 (DateTime.isoText_isoformat _) updated
  have id : row.id = subscription.id := UUID.str_inj stored.id
  have agentId : row.agentId = subscription.agentId := stored.agentId
  have topic : row.topic = subscription.topic := stored.topic
  refine ⟨by simp [SubscriptionRow.toModel, status, createdAt, updatedAt, id, agentId, topic], ?_⟩
  have metadata := stored.metadata
  rw [metadata_insertParameters] at metadata
  show Option.Rel SameDict row.metadata (metadataParameter subscription.metadata)
  generalize metadataParameter subscription.metadata = kept at metadata ⊢
  generalize row.metadata = held at metadata ⊢
  cases kept with
  | none =>
    cases metadata
    exact .none
  | some kept =>
    cases metadata with
    | some object =>
      obtain ⟨metadata', same, isText⟩ := object
      have read := (loads_of_isText isText).symm.trans (loads_of_isText (isText_dumps kept))
      obtain rfl := Option.some.inj (Except.ok.inj read)
      exact .some same

theorem Same.refl (s : ModelSubscription) : Same s s := by
  refine ⟨rfl, ?_⟩
  cases s.metadata with
  | none => exact .none
  | some metadata => exact .some (.refl _)

theorem Same.trans {s s' s'' : ModelSubscription} (first : Same s s') (second : Same s' s'') :
    Same s s'' := by
  refine ⟨first.fields.trans second.fields, ?_⟩
  have left := first.metadata
  have right := second.metadata
  generalize s.metadata = a at left ⊢
  generalize s'.metadata = b at left right
  generalize s''.metadata = c at right ⊢
  cases left with
  | none => exact right
  | some left =>
    cases right with
    | some right => exact .some (List.Perm.trans left right)

theorem metadataParameter_of_ne {metadata : Option Metadata} (some : metadata ≠ some .empty) :
    metadataParameter metadata = metadata := by
  cases metadata with
  | none => rfl
  | some metadata =>
    refine if_neg fun empty => some ?_
    obtain ⟨rows, distinct⟩ := metadata
    subst empty
    rfl

/-- A row that the parameters stand for is read back as the subscription, except that an empty
`dict` is `None`. -/
theorem External.Documented.readsStored (documented : X.Documented) (valid : subscription.Valid)
    (created : subscription.createdAt.InRange) (updated : subscription.updatedAt.InRange)
    (stored : Stored (insertParameters subscription) row) :
    ∃ read, rowToSubscription X (X.driverRow row) = .ok read ∧
      Same read { subscription with metadata := metadataParameter subscription.metadata } := by
  have same := stored.same created updated
  have valid' : row.toModel.Valid := by
    have agentId : row.agentId = subscription.agentId := stored.agentId
    have topic : row.topic = subscription.topic := stored.topic
    simpa [ModelSubscription.Valid, SubscriptionRow.toModel, agentId, topic] using valid
  obtain ⟨read, parsed, same'⟩ :=
    documented.readsRow valid' stored.createdAt.1 stored.updatedAt.1
  exact ⟨read, parsed, same'.trans same⟩

end Reading

/-! ### Runs of `subscribe` -/

section Runs

variable {X : External} {s : State} {agentId topic : String} {metadata : Option Metadata}
  {uuid4 : UUID} {now : DateTime}

theorem entries_execute_cases {cache : Cache} {commands : List Command} {id : UUID} {text value : String}
    (only : ∀ id' value', Command.setKey id' value' ∈ commands → value' = value)
    (here : (cache.execute commands).entries id = some text) :
    cache.entries id = some text ∨ text = value := by
  induction commands generalizing cache with
  | nil => exact .inl here
  | cons command rest ih =>
    have only' := fun id' value' mem => only id' value' (List.mem_cons_of_mem _ mem)
    rcases ih only' here with before | same
    · cases command with
      | setKey id' value' =>
        rw [Command.apply, Cache.entries_setEntry] at before
        split at before
        · exact .inr ((Option.some.inj before).symm.trans (only _ _ List.mem_cons_self))
        · exact .inl before
      | sadd | expire | expireEntry => exact .inl before
    · exact .inr same

theorem getSubscription_new (new : ∀ row ∈ s.table, row.owner ≠ (agentId, topic)) :
    Always (Serves X) (HandlerSubscription.getSubscriptionByAgentAndTopic X agentId topic) s
      fun out s' => s' = s ∧ ∀ existing, out = .ok existing → existing = none := by
  refine always_op.mpr fun answer s₁ served => ?_
  have same : s₁ = s := by
    rcases after_cases served with same | same | ⟨commands, done, other, -⟩
    · exact same
    · exact same
    · contradiction
  rcases answer with e | rows
  · exact always_ret.mpr ⟨same, by rintro _ ⟨⟩⟩
  obtain ⟨listed, lists, rfl⟩ := query_cases served
  have nothing : listed = [] := by
    refine List.eq_nil_iff_forall_not_mem.mpr fun row mem => ?_
    obtain ⟨here, selected⟩ := lists.mem.mp mem
    simp only [Query.selects, Bool.and_eq_true, beq_iff_eq] at selected
    exact new row here selected.1
  rw [nothing]
  exact always_ret.mpr ⟨same, fun existing read => (Except.ok.inj read).symm⟩

/-- What `subscribe` leaves for a new agent and topic. -/
structure Leaves (X : External) (subscription : ModelSubscription) (before after : State) :
    Prop where
  row : subscription.toRow ∈ after.table
  entry : ∀ text, after.cache.entries subscription.id = some text →
    before.cache.entries subscription.id = some text ∨ text = X.modelDumpJson subscription

theorem subscribe_new (new : ∀ row ∈ s.table, row.owner ≠ (agentId, topic)) :
    Always (Serves X) (HandlerSubscription.subscribe X agentId topic metadata uuid4 now) s
      fun out after => ∀ subscription, out = .ok subscription →
        subscription = HandlerSubscription.newSubscription agentId topic metadata uuid4 now none ∧
          Leaves X subscription s after := by
  unfold HandlerSubscription.subscribe
  split
  · exact always_ret.mpr (by rintro _ ⟨⟩)
  refine (getSubscription_new new).seq fun out s₁ ⟨same, unknown⟩ => ?_
  subst same
  rcases out with e | existing
  · exact always_ret.mpr (by rintro _ ⟨⟩)
  obtain rfl := unknown existing rfl
  dsimp only
  split
  · exact always_ret.mpr (by rintro _ ⟨⟩)
  rename_i subscription checked
  obtain ⟨-, rfl⟩ := ModelSubscription.check_eq_ok.mp checked
  refine always_op.mpr fun answer s₁ served => ?_
  rcases answer with e | _
  · exact always_ret.mpr (by rintro _ ⟨⟩)
  obtain ⟨table, inserted, rfl⟩ := inserted_of_ok served
  have here : (HandlerSubscription.newSubscription agentId topic metadata uuid4 now none).toRow ∈
      table := by
    rcases Subscriptions.insert_cases inserted with ⟨old, mem, owner, -⟩ | ⟨-, -, rows⟩
    · exact absurd owner (new old mem)
    · rw [Subscriptions.mem_def, rows]
      exact List.mem_append_right _ (List.mem_singleton_self _)
  refine always_op.mpr fun answer s₂ served => ?_
  refine always_ret.mpr fun subscription returned => ?_
  obtain rfl := Except.ok.inj returned
  let commands := HandlerSubscription.subscribeCommands X
    (HandlerSubscription.newSubscription agentId topic metadata uuid4 now none)
  have only : ∀ id value, Command.setKey id value ∈ commands → value = X.modelDumpJson
      (HandlerSubscription.newSubscription agentId topic metadata uuid4 now none) := by
    intro id value mem
    simp only [commands, HandlerSubscription.subscribeCommands, List.mem_cons, reduceCtorEq,
      Command.setKey.injEq, List.not_mem_nil, or_false, false_or] at mem
    exact mem.2
  rcases after_cases served with same | same | ⟨_, done, pipeline, sublist, same⟩
  · dsimp only at same
    subst same
    exact ⟨rfl, here, fun text cached => .inl cached⟩
  · dsimp only at same
    subst same
    exact ⟨rfl, here, fun text cached => entries_execute_cases only cached⟩
  · obtain rfl := Op.pipeline.inj pipeline
    dsimp only at same
    subst same
    exact ⟨rfl, here, fun text cached =>
      entries_execute_cases (fun id value mem => only id value (sublist.subset mem)) cached⟩

/-- Nothing fails. -/
theorem possibly_subscribe (new : ∀ row ∈ s.table, row.owner ≠ (agentId, topic))
    (fresh : ∀ row ∈ s.table, row.id ≠ uuid4)
    (valid : (HandlerSubscription.newSubscription agentId topic metadata uuid4 now none).Valid) :
    Possibly (Serves X) (HandlerSubscription.subscribe X agentId topic metadata uuid4 now) s
      fun out _ => out =
        .ok (HandlerSubscription.newSubscription agentId topic metadata uuid4 now none) := by
  let subscription := HandlerSubscription.newSubscription agentId topic metadata uuid4 now none
  have matched : matchTopic topic = true := valid.2.2
  have lists : (Query.byAgentAndTopic agentId topic).Lists s.table [] := by
    refine ⟨?_, .nil⟩
    have nothing : s.table.rows.filter (Query.byAgentAndTopic agentId topic).selects = [] := by
      refine List.filter_eq_nil_iff.mpr fun row mem => ?_
      simp [Query.selects, new row mem]
    rw [nothing]
  obtain ⟨table, inserted⟩ : ∃ table, s.table.insert subscription.toRow = some table := by
    have conflict : ¬ ∃ old ∈ s.table.rows, old.owner = subscription.toRow.owner := by
      rintro ⟨old, mem, same⟩
      exact new old mem same
    have taken : ¬ ∃ old ∈ s.table.rows, old.id = subscription.toRow.id := by
      rintro ⟨old, mem, same⟩
      exact fresh old mem same
    unfold Subscriptions.insert
    rw [dif_neg conflict, dif_neg taken]
    exact ⟨_, rfl⟩
  unfold HandlerSubscription.subscribe
  rw [if_neg (by simp [matched])]
  refine Possibly.seq (Q := fun out s' => s' = s ∧ out = .ok none) ?_ ?_
  · refine possibly_op.mpr ⟨.ok [], s, ⟨.rows [], ?_⟩, ?_⟩
    · simp only [world, exec]
      rw [if_pos lists]
      rfl
    · exact possibly_ret.mpr ⟨rfl, rfl⟩
  rintro _ s' ⟨same, rfl⟩
  subst same
  dsimp only
  rw [ModelSubscription.check_eq_ok.mpr ⟨valid, rfl⟩]
  refine possibly_op.mpr ⟨.ok (), { s' with table }, ⟨.run, ?_⟩, ?_⟩
  · show exec X (.insert subscription.toRow) .run _ = _
    simp only [exec, answer, inserted]
  let after : State := { s' with table }
  refine possibly_op.mpr ⟨.ok (), after.mapCache fun cache =>
    cache.execute (HandlerSubscription.subscribeCommands X subscription), ⟨.run, rfl⟩, ?_⟩
  exact possibly_ret.mpr rfl

/-- An empty `dict` of metadata is read back as `None`. -/
theorem not_always_empty (documented : X.Documented) (clock : now.InRange)
    (new : ∀ row ∈ s.table, row.owner ≠ (agentId, topic)) (fresh : ∀ row ∈ s.table, row.id ≠ uuid4)
    (valid : (HandlerSubscription.newSubscription agentId topic (some .empty) uuid4 now none).Valid) :
    ¬ Always (Serves X)
      (HandlerSubscription.subscribe X agentId topic (some .empty) uuid4 now) s
      (fun out after => ∀ subscription, out = .ok subscription →
        RoundTrips X subscription s after) := by
  let subscription :=
    HandlerSubscription.newSubscription agentId topic (some .empty) uuid4 now none
  intro always
  obtain ⟨_, after, runs, rfl⟩ := possibly_subscribe (X := X) new fresh valid
  obtain ⟨read, parsed, same⟩ :=
    (always _ after runs subscription rfl).row _ (stored_toRow clock clock)
  have stored : Stored (insertParameters subscription) subscription.toRow := stored_toRow clock clock
  obtain ⟨read', parsed', same'⟩ := documented.readsStored valid clock clock stored
  obtain rfl : read' = read := Except.ok.inj (parsed'.symm.trans parsed)
  have null : Option.Rel SameDict read'.metadata none := same'.metadata
  have empty : Option.Rel SameDict read'.metadata (some .empty) := same.metadata
  generalize read'.metadata = held at null empty
  cases null
  cases empty

/-- The subscription that `subscribe` returns for a new agent and topic is what the row and the cache
entry give back, exactly if its metadata is not an empty `dict`. -/
theorem subscribe_roundTrips_iff (X : External) (documented : X.Documented) (s : State)
    (agentId topic : String) (metadata : Option Metadata) (uuid4 : UUID) (now : DateTime)
    (clock : now.InRange) (new : ∀ row ∈ s.table, row.owner ≠ (agentId, topic))
    (fresh : ∀ row ∈ s.table, row.id ≠ uuid4)
    (valid : (HandlerSubscription.newSubscription agentId topic metadata uuid4 now none).Valid) :
    Always (Serves X) (HandlerSubscription.subscribe X agentId topic metadata uuid4 now) s
      (fun out after => ∀ subscription, out = .ok subscription →
        RoundTrips X subscription s after) ↔
    metadata ≠ some .empty := by
  constructor
  · rintro always rfl
    exact not_always_empty documented clock new fresh valid always
  · intro some out after runs subscription' returned
    obtain ⟨rfl, leaves⟩ := subscribe_new new out after runs subscription' returned
    let subscription := HandlerSubscription.newSubscription agentId topic metadata uuid4 now none
    have kept : { subscription with metadata := metadataParameter subscription.metadata } =
        subscription := by
      have same : metadataParameter subscription.metadata = subscription.metadata :=
        metadataParameter_of_ne some
      rw [same]
    refine ⟨⟨_, leaves.row, stored_toRow clock clock⟩, fun row stored => ?_, fun text cached => ?_⟩
    · obtain ⟨read, parsed, same⟩ := documented.readsStored valid clock clock stored
      rw [kept] at same
      exact ⟨read, parsed, same⟩
    · rcases leaves.entry text cached with before | rfl
      · exact .inl before
      · exact .inr ⟨_, documented.entry valid clock clock, .refl _⟩

/-! ### Plain instances -/

/-- The members of the JSON object of a subscription, with a text of each value. -/
def memberTexts (s : ModelSubscription) : List (String × Json.Value × List Char) :=
  let string (text : String) := (Json.Value.string text, quote text)
  fieldNames.zip [string (UUID.str s.id), string s.agentId, string s.topic, string s.status.value,
    string (s.createdAt.isoWith ['Z']), string (s.updatedAt.isoWith ['Z']), (.null, "null".toList),
    s.metadata.elim (.null, "null".toList) fun metadata =>
      (jsonOf metadata, writeObject [','] [':'] (metadata.rows.map fun r => (r.1, quote r.2)))]

/-- A driver of texts. -/
def External.textual : External where
  driverTime t := .text (t.isoWith ['Z'])
  driverJson metadata := .text (dumps metadata)
  loads := Subscription.loads
  fromIsoFormat s :=
    match DateTime.fromIsoFormat s with
    | some t => .ok t
    | none => .error (.valueError s!"Invalid isoformat string: '{s}'")
  modelDumpJson s :=
    String.ofList (writeObject [','] [':'] ((memberTexts s).map fun m => (m.1, m.2.2)))
  modelValidateJson text :=
    match Json.read text with
    | some (.object members) =>
      match ofMembers members with
      | some s => s.check
      | none => .error (.valueError "Invalid fields")
    | _ => .error (.valueError "Invalid JSON")

theorem renders_memberTexts (s : ModelSubscription) :
    Renders (.value (.object (members s (s.createdAt.isoWith ['Z']) (s.updatedAt.isoWith ['Z']))))
      (writeObject [','] [':'] ((memberTexts s).map fun m => (m.1, m.2.2))) := by
  have null : Renders (.value .null) "null".toList := .scalar (List.all_eq_true.mp rfl) rfl
  have texts : ∀ m ∈ memberTexts s, Renders (.value m.2.1) m.2.2 := by
    simp only [memberTexts, fieldNames, List.zip_cons_cons, List.zip_nil_left,
      List.forall_mem_cons, renders_quote, null, true_and]
    refine ⟨?_, nofun⟩
    cases s.metadata with
    | none => exact null
    | some metadata => exact renders_jsonOf space_nil space_nil metadata
  have renders := renders_writeObject space_nil space_nil texts
  have same : (memberTexts s).map (fun m => (m.1, m.2.1)) =
      members s (s.createdAt.isoWith ['Z']) (s.updatedAt.isoWith ['Z']) := by
    cases metadata : s.metadata <;> simp [memberTexts, members, fieldNames, metadata]
  rwa [same] at renders

theorem documented_textual : External.textual.Documented where
  loads := rfl
  fromIsoFormat s t read := by simp [External.textual, read]
  time t _ := .inr ⟨_, t.isoText_isoWith (by decide), rfl⟩
  json metadata := ⟨metadata, .refl _, .inr ⟨_, isText_dumps metadata, rfl⟩⟩
  dump s _ _ := by
    have isZone : ['Z'] ∈ ["+00:00".toList, ['Z']] := by decide
    refine ⟨_, _, s.createdAt.isoText_isoWith isZone, s.updatedAt.isoText_isoWith isZone,
      [], _, [], space_nil, renders_memberTexts s, space_nil, ?_⟩
    simp [External.textual]
  validate text members s parsed fields := by simp [External.textual, parsed, fields]

theorem roundTrips_textual :
    Always (Serves .textual)
      (HandlerSubscription.subscribe .textual "a" "memory.item.created"
        (some (dict [("k", "v")])) 1 ⟨2026, 1, 1, 0⟩)
      ⟨.empty, .empty⟩ (fun out after => ∀ subscription, out = .ok subscription →
        RoundTrips .textual subscription ⟨.empty, .empty⟩ after) :=
  (subscribe_roundTrips_iff .textual documented_textual ⟨.empty, .empty⟩ "a" "memory.item.created"
    _ 1 ⟨2026, 1, 1, 0⟩ (by decide) nofun nofun (by decide +kernel)).mpr (by decide)

theorem not_roundTrips_empty :
    ¬ Always (Serves .textual)
      (HandlerSubscription.subscribe .textual "a" "memory.item.created" (some .empty) 1
        ⟨2026, 1, 1, 0⟩)
      ⟨.empty, .empty⟩ (fun out after => ∀ subscription, out = .ok subscription →
        RoundTrips .textual subscription ⟨.empty, .empty⟩ after) :=
  not_always_empty documented_textual (by decide) nofun nofun (by decide +kernel)

end Runs

end Subscription

end OmniMemory
