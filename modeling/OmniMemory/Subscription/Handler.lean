import OmniMemory.Subscription.Calls

/-! `HandlerSubscription`, after `initialize`. The functions follow the source; metrics and log
lines are left out. -/

namespace OmniMemory

open Interleave

namespace Subscription

section Rows

variable (X : External)

/-- A timestamp of `_row_to_subscription`. -/
def parseTime : DriverTime → Except PyError DateTime
  | .datetime t => .ok t
  | .text s => X.fromIsoFormat (s.replace "Z" "+00:00")

/-- The metadata of `_row_to_subscription`. -/
def parseMetadata : DriverJson → Except PyError (Option Metadata)
  | .null => .ok none
  | .dict metadata => .ok (some metadata)
  | .text s | .other s => X.loads s

def rowToSubscription (row : DriverRow) : Except PyError ModelSubscription := do
  let metadata ← parseMetadata X row.metadata
  let createdAt ← parseTime X row.createdAt
  let updatedAt ← parseTime X row.updatedAt
  let status ← EnumSubscriptionStatus.ofValue row.status
  ModelSubscription.check
    { id := row.id, agentId := row.agentId, topic := row.topic, status, createdAt, updatedAt,
      metadata }

/-- A cached text, if it is there and can be parsed. -/
def parseEntry : Option String → Option ModelSubscription
  | none => none
  | some text => if text = "" then none else (X.modelValidateJson text).toOption

/-- A driver hands back what the columns hold: as values, or as texts that are parsed to them. -/
structure External.Reads (X : External) : Prop where
  time : ∀ t, parseTime X (X.driverTime t) = .ok t
  json : ∀ metadata, parseMetadata X (X.driverJson metadata) = .ok (some metadata)

theorem External.Reads.row {X : External} (reads : X.Reads) (row : SubscriptionRow) :
    rowToSubscription X (X.driverRow row) = row.toModel.check := by
  have metadata : parseMetadata X (X.driverRow row).metadata = .ok row.metadata := by
    cases here : row.metadata with
    | none => simp [External.driverRow, here, parseMetadata]
    | some metadata => simp [External.driverRow, here, reads.json]
  unfold rowToSubscription
  rw [metadata]
  simp only [bind, Except.bind, External.driverRow, reads.time,
    EnumSubscriptionStatus.ofValue_value]
  rfl

/-- Rows are read if each of them is valid. -/
theorem External.Reads.rows {X : External} (reads : X.Reads) {rows : List SubscriptionRow}
    {subscriptions : List ModelSubscription} :
    (rows.map X.driverRow).mapM (rowToSubscription X) = .ok subscriptions ↔
      (∀ row ∈ rows, row.toModel.Valid) ∧ subscriptions = rows.map (·.toModel) := by
  induction rows generalizing subscriptions with
  | nil => simp [pure, Except.pure, eq_comm]
  | cons row rest ih =>
    rw [List.map_cons, List.mapM_cons, reads.row]
    constructor
    · intro read
      cases checked : row.toModel.check with
      | error e =>
        rw [checked] at read
        contradiction
      | ok first =>
        cases others : (rest.map X.driverRow).mapM (rowToSubscription X) with
        | error e =>
          rw [checked, others] at read
          contradiction
        | ok tail =>
          rw [checked, others] at read
          cases read
          obtain ⟨valid, rfl⟩ := ModelSubscription.check_eq_ok.mp checked
          obtain ⟨valids, rfl⟩ := ih.mp others
          exact ⟨List.forall_mem_cons.mpr ⟨valid, valids⟩, rfl⟩
    · rintro ⟨valid, rfl⟩
      obtain ⟨first, others⟩ := List.forall_mem_cons.mp valid
      rw [ModelSubscription.check_eq_ok.mpr ⟨first, rfl⟩, ih.mpr ⟨others, rfl⟩]
      rfl

end Rows

/-- The fields of `ModelHandlerSubscriptionConfig` that the functions read. -/
structure HandlerSubscription where
  kafkaNotificationTopic : String := "omnimemory.memory.notification.v1"
  paginationMaxLimit : Nat := 1000
  cacheRebuildBatchSize : Nat := 1000

/-- What `list_subscriptions` returns: a list, or `ModelPaginatedSubscriptions`. -/
inductive Listing where
  | all (subscriptions : List ModelSubscription)
  | page (subscriptions : List ModelSubscription) (totalCount limit offset : Nat)

namespace HandlerSubscription

variable (X : External) (self : HandlerSubscription)

def getSubscriptionByAgentAndTopic (agentId topic : String) :
    SubscriptionProg (Except PyError (Option ModelSubscription)) := do
  match ← call (.query (.byAgentAndTopic agentId topic)) with
  | .error e => return .error e
  | .ok [] => return .ok none
  | .ok (row :: _) => return (rowToSubscription X row).map some

def persistSubscription (subscription : ModelSubscription) :
    (isUpdate : Bool) → SubscriptionProg (Except PyError Unit)
  | true => call (.update subscription.id subscription.status subscription.updatedAt
      (metadataParameter subscription.metadata))
  | false => call (.insert subscription.toRow)

/-- The subscription that `subscribe` builds. -/
def newSubscription (agentId topic : String) (metadata : Option Metadata) (uuid4 : UUID)
    (now : DateTime) (existing : Option ModelSubscription) : ModelSubscription where
  id := existing.elim uuid4 (·.id)
  agentId
  topic
  status := .active
  createdAt := existing.elim now (·.createdAt)
  updatedAt := now
  metadata

/-- The commands by which `subscribe` updates the cache. -/
def subscribeCommands (subscription : ModelSubscription) : List Command :=
  [.sadd (.topicSubscribers subscription.topic) {subscription.id},
    .expire (.topicSubscribers subscription.topic),
    .sadd (.agentSubscriptions subscription.agentId) {subscription.id},
    .expire (.agentSubscriptions subscription.agentId),
    .setKey subscription.id (X.modelDumpJson subscription)]

/-- `subscribe`, which gets `uuid4` and `now` for the new id and the time. -/
def subscribe (agentId topic : String) (metadata : Option Metadata) (uuid4 : UUID)
    (now : DateTime) : SubscriptionProg (Except PyError ModelSubscription) := do
  if !matchTopic topic then
    return .error (.valueError (s!"subscribe() received invalid topic format: '{topic}'. " ++
      "Expected pattern: memory.<entity>.<event> (e.g., memory.item.created)"))
  match ← getSubscriptionByAgentAndTopic X agentId topic with
  | .error e => return .error e
  | .ok existing =>
  match (newSubscription agentId topic metadata uuid4 now existing).check with
  | .error e => return .error e
  | .ok subscription =>
  match ← persistSubscription subscription existing.isSome with
  | .error e => return .error e
  | .ok () =>
  -- A cache that fails is logged, and the subscription is returned all the same.
  let _ ← call (.pipeline (subscribeCommands X subscription))
  return .ok subscription

/-- The evictions of `unsubscribe`; the first one that fails ends them. -/
def evict (agentId topic : String) (id : UUID) : SubscriptionProg Unit := do
  match ← call (.srem (.topicSubscribers topic) id) with
  | .error _ => return ()
  | .ok () =>
  match ← call (.srem (.agentSubscriptions agentId) id) with
  | .error _ => return ()
  | .ok () =>
  let _ ← call (.delete id)
  return ()

/-- `unsubscribe`, which gets `now` for the time of the soft delete. -/
def unsubscribe (agentId topic : String) (now : DateTime) :
    SubscriptionProg (Except PyError Bool) := do
  match ← getSubscriptionByAgentAndTopic X agentId topic with
  | .error e => return .error e
  | .ok none => return .ok false
  | .ok (some subscription) =>
  match ← call (.softDelete subscription.id now) with
  | .error e => return .error e
  | .ok () =>
  evict agentId topic subscription.id
  return .ok true

/-- `_get_subscribers_for_topic` after a cache miss. -/
def subscribersFromDb (topic : String) : SubscriptionProg (Except PyError (Finset UUID)) := do
  match ← call (.queryIds topic) with
  | .error e => return .error e
  | .ok ids =>
  if ids.toFinset = ∅ then
    return .ok ids.toFinset
  let _ ← call (.pipeline
    [.sadd (.topicSubscribers topic) ids.toFinset, .expire (.topicSubscribers topic)])
  return .ok ids.toFinset

def getSubscribersForTopic (topic : String) :
    SubscriptionProg (Except PyError (Finset UUID)) := do
  match ← call (.smembers (.topicSubscribers topic)) with
  | .error _ => subscribersFromDb topic
  | .ok subscriberIds =>
  if subscriberIds = ∅ then
    subscribersFromDb topic
  else
    let _ ← call (.expire (.topicSubscribers topic))
    return .ok subscriberIds

def notify (topic : String) (event : ModelNotificationEvent) (strict : Bool) :
    SubscriptionProg (Except PyError Nat) := do
  if event.topic ≠ topic then
    return .error (.valueError
      (s!"Event topic mismatch: event.topic='{event.topic}' does not match " ++
        s!"topic argument='{topic}'. Ensure the event is being sent to the correct topic."))
  match ← getSubscribersForTopic topic with
  | .error e => return .error e
  | .ok subscriberIds =>
  if subscriberIds.card = 0 then
    return .ok 0
  match ← call (.publish self.kafkaNotificationTopic topic event) with
  | .error e => return if strict then .error e else .ok 0
  | .ok () => return .ok subscriberIds.card

/-- The loop of `_load_subscriptions` over the rows. -/
def loadRows : List DriverRow → List ModelSubscription →
    SubscriptionProg (Except PyError (List ModelSubscription))
  | [], subscriptions => return .ok subscriptions
  | row :: rest, subscriptions => do
    match rowToSubscription X row with
    | .error e => return .error e
    | .ok subscription =>
    let _ ← call (.setKey subscription.id (X.modelDumpJson subscription))
    loadRows rest (subscriptions ++ [subscription])

/-- `_load_subscriptions` for the ids that were not in the cache; `_sql_placeholders` takes up to
10000. -/
def loadMissing (subscriptions : List ModelSubscription) (missingIds : Finset UUID) :
    SubscriptionProg (Except PyError (List ModelSubscription)) := do
  if missingIds = ∅ then
    return .ok subscriptions
  if 10000 < missingIds.card then
    return .error (.valueError
      s!"count exceeds maximum (10000) for safety, got {missingIds.card}")
  match ← call (.query (.byIds missingIds)) with
  | .error e => return .error e
  | .ok rows => loadRows X rows subscriptions

def loadSubscriptions (subscriptionIds : Finset UUID) :
    SubscriptionProg (Except PyError (List ModelSubscription)) := do
  if subscriptionIds = ∅ then
    return .ok []
  match ← call (.mget subscriptionIds) with
  | .error _ => loadMissing X [] subscriptionIds
  | .ok cached =>
  let subscriptions := cached.filterMap fun (_, text) => parseEntry X text
  let missingIds := (cached.filter fun (_, text) => (parseEntry X text).isNone).map (·.1)
  if subscriptions = [] then
    loadMissing X subscriptions missingIds.toFinset
  else
    let _ ← call (.pipeline (subscriptions.map fun subscription => .expireEntry subscription.id))
    loadMissing X subscriptions missingIds.toFinset

def getSubscriptionsFromDb (agentId : String) :
    SubscriptionProg (Except PyError (List ModelSubscription)) := do
  match ← call (.query (.activeByAgent agentId)) with
  | .error e => return .error e
  | .ok rows => return rows.mapM (rowToSubscription X)

def getSubscriptionsWithCountFromDb (agentId : String) (limit offset : Nat) :
    SubscriptionProg (Except PyError (List ModelSubscription × Nat)) := do
  match ← call (.queryPage agentId limit offset) with
  | .error e => return .error e
  | .ok [] => return .ok ([], 0)
  | .ok ((row, totalCount) :: rest) =>
    return ((row :: rest.map (·.1)).mapM (rowToSubscription X)).map (·, totalCount)

/-- `list_subscriptions` without a limit. -/
def listAll (agentId : String) : SubscriptionProg (Except PyError (List ModelSubscription)) := do
  match ← call (.smembers (.agentSubscriptions agentId)) with
  | .error _ => getSubscriptionsFromDb X agentId
  | .ok subscriptionIds =>
  if subscriptionIds = ∅ then
    getSubscriptionsFromDb X agentId
  else
    match ← loadSubscriptions X subscriptionIds with
    | .error _ => getSubscriptionsFromDb X agentId
    | .ok subscriptions => return .ok (subscriptions.filter (·.status == .active))

def listSubscriptions (agentId : String) (limit : Option Int) (offset : Int) :
    SubscriptionProg (Except PyError Listing) := do
  if offset < 0 then
    return .error (.valueError s!"offset must be non-negative, got {offset}")
  match limit with
  | none => return (← listAll X agentId).map .all
  | some limit =>
    if limit ≤ 0 then
      return .error (.valueError s!"limit must be positive when provided, got {limit}")
    if self.paginationMaxLimit < limit then
      return .error (.valueError s!"limit exceeds maximum ({self.paginationMaxLimit}), got {limit}")
    let page ← getSubscriptionsWithCountFromDb X agentId limit.toNat offset.toNat
    return page.map fun (subscriptions, totalCount) =>
      .page subscriptions totalCount limit.toNat offset.toNat

/-- The commands by which `_rebuild_cache_from_db` caches a subscription. -/
def rebuildCommands (subscription : ModelSubscription) : List Command :=
  [.setKey subscription.id (X.modelDumpJson subscription),
    .sadd (.topicSubscribers subscription.topic) {subscription.id},
    .expire (.topicSubscribers subscription.topic),
    .sadd (.agentSubscriptions subscription.agentId) {subscription.id},
    .expire (.agentSubscriptions subscription.agentId)]

/-- The loop of `_rebuild_cache_from_db`. A batch has at least one row, so `totalCount` rounds are
enough. -/
def rebuildBatches (totalCount : Nat) : (rounds offset : Nat) →
    SubscriptionProg (Except PyError Unit)
  | 0, _ => return .ok ()
  | rounds + 1, offset => do
    if totalCount ≤ offset then
      return .ok ()
    match ← call (.query (.activePage self.cacheRebuildBatchSize offset)) with
    | .error e => return .error e
    | .ok rows =>
    if rows.isEmpty then
      return .ok ()
    match rows.mapM (rowToSubscription X) with
    | .error e => return .error e
    | .ok subscriptions =>
    match ← call (.pipeline (subscriptions.flatMap (rebuildCommands X))) with
    | .error e => return .error e
    | .ok () => rebuildBatches totalCount rounds (offset + self.cacheRebuildBatchSize)

def rebuildCacheFromDb : SubscriptionProg (Except PyError Unit) := do
  match ← call .queryCount with
  | .error e => return .error e
  | .ok totalCount =>
  if totalCount = 0 then
    return .ok ()
  self.rebuildBatches X totalCount totalCount 0

end HandlerSubscription

inductive Request where
  | subscribe (agentId topic : String) (metadata : Option Metadata) (uuid4 : UUID) (now : DateTime)
  | unsubscribe (agentId topic : String) (now : DateTime)
  | notify (topic : String) (event : ModelNotificationEvent) (strict : Bool)
  | listSubscriptions (agentId : String) (limit : Option Int) (offset : Int)

inductive Reply where
  | subscription (subscription : ModelSubscription)
  | removed (found : Bool)
  | subscribers (count : Nat)
  | listing (listing : Listing)

def HandlerSubscription.serve (X : External) (self : HandlerSubscription) :
    Request → SubscriptionProg (Except PyError Reply)
  | .subscribe agentId topic metadata uuid4 now => do
    return (← subscribe X agentId topic metadata uuid4 now).map .subscription
  | .unsubscribe agentId topic now => do
    return (← unsubscribe X agentId topic now).map .removed
  | .notify topic event strict => do
    return (← self.notify topic event strict).map .subscribers
  | .listSubscriptions agentId limit offset => do
    return (← self.listSubscriptions X agentId limit offset).map .listing

/-- The world of the handlers, which may run in several processes. -/
def world (X : External) :
    World Op Res (Except PyError Reply) (HandlerSubscription × Request) Choice Move State where
  code cmd := cmd.1.serve X cmd.2
  exec := exec X
  move := move

/-! ### Plain instances, for runs -/

/-- A driver of values, and the JSON form of one subscription. -/
def External.plain (subscription : ModelSubscription) (text : String) : External where
  driverTime := .datetime
  driverJson := .dict
  loads _ := .error (.valueError "Expecting value")
  fromIsoFormat _ := .error (.valueError "Invalid isoformat string")
  modelDumpJson s := if s = subscription then text else ""
  modelValidateJson t := if t = text then .ok subscription else .error (.valueError "Invalid JSON")

/-- A subscription to the topic `memory.item.created` on the first day of 2026. -/
def plainSubscription (id : UUID) (agentId : String) : ModelSubscription where
  id
  agentId
  topic := "memory.item.created"
  status := .active
  createdAt := ⟨2026, 1, 1, 0⟩
  updatedAt := ⟨2026, 1, 1, 0⟩
  metadata := none

/-- The JSON form of `plainSubscription 1 "a"`. -/
def plainText : String :=
  "\x7b\"id\":\"00000000-0000-0000-0000-000000000001\",\"agent_id\":\"a\"," ++
    "\"topic\":\"memory.item.created\",\"status\":\"active\"," ++
    "\"created_at\":\"2026-01-01T00:00:00Z\",\"updated_at\":\"2026-01-01T00:00:00Z\"," ++
    "\"suspended_reason\":null,\"metadata\":null\x7d"

/-- A table with the row of a subscription. -/
def plainTable (subscription : ModelSubscription) : Subscriptions :=
  ⟨[subscription.toRow], List.nodup_singleton _, List.nodup_singleton _⟩

def plainEvent : ModelNotificationEvent where
  eventId := "evt_1"
  topic := "memory.item.created"
  payload := { entityType := "item", entityId := "item_1", action := "created" }
  createdAt := ⟨2026, 1, 1, 0⟩

def plainNotify : HandlerSubscription × Request :=
  ({}, .notify "memory.item.created" plainEvent true)

def plainExternal : External := .plain (plainSubscription 1 "a") plainText

theorem reads_plain : plainExternal.Reads := ⟨fun _ => rfl, fun _ => rfl⟩

theorem External.plain_decodes {subscription s s' : ModelSubscription} {text : String}
    (some : text ≠ "")
    (parsed : parseEntry (.plain subscription text)
      (.some ((External.plain subscription text).modelDumpJson s)) = .some s') : s' = s := by
  by_cases same : s = subscription
  · simp [External.plain, parseEntry, same, some, Except.toOption] at parsed
    exact parsed.symm.trans same.symm
  · simp [External.plain, parseEntry, same] at parsed

theorem decodes_plain (s s' : ModelSubscription) :
    parseEntry plainExternal (some (plainExternal.modelDumpJson s)) = some s' → s' = s :=
  External.plain_decodes (by decide +kernel)

def plainSubscribe (agentId : String) (uuid4 : UUID) : HandlerSubscription × Request :=
  ({}, .subscribe agentId "memory.item.created" none uuid4 ⟨2026, 1, 1, 0⟩)

def plainUnsubscribe (agentId : String) : HandlerSubscription × Request :=
  ({}, .unsubscribe agentId "memory.item.created" ⟨2026, 1, 2, 0⟩)

def plainList (agentId : String) : HandlerSubscription × Request :=
  ({}, .listSubscriptions agentId none 0)

end Subscription

end OmniMemory
