import OmniMemory.Lib.Table
import OmniMemory.Python
import Mathlib.Data.Finset.Basic
import Mathlib.Logic.Function.Basic

/-! Subscriptions: the topics and the models that are checked when they are built, the
`subscriptions` table with its two keys, and the cache. Columns, fields and times to live that no
modelled function reads are left out. -/

namespace OmniMemory

open Interleave

namespace Subscription

inductive EnumSubscriptionStatus where
  | active
  | suspended
  | deleted
deriving DecidableEq

namespace EnumSubscriptionStatus

def value : EnumSubscriptionStatus → String
  | active => "active"
  | suspended => "suspended"
  | deleted => "deleted"

/-- `EnumSubscriptionStatus(value)`. -/
def ofValue (value : String) : Except PyError EnumSubscriptionStatus :=
  if value = "active" then .ok active
  else if value = "suspended" then .ok suspended
  else if value = "deleted" then .ok deleted
  else .error (.valueError s!"'{value}' is not a valid EnumSubscriptionStatus")

@[simp] theorem ofValue_value (status : EnumSubscriptionStatus) :
    ofValue status.value = .ok status := by
  cases status <;> rfl

end EnumSubscriptionStatus

/-- What `[a-z][a-z0-9_]*` leaves of a text that it matches the start of. -/
def matchIdentifier : List Char → Option (List Char)
  | [] => none
  | c :: rest =>
    if 'a' ≤ c ∧ c ≤ 'z' then
      some (rest.dropWhile fun c =>
        decide ('a' ≤ c ∧ c ≤ 'z') || decide ('0' ≤ c ∧ c ≤ '9') || c == '_')
    else none

/-- `TOPIC_PATTERN.match`: `$` also matches before a newline that ends the text. -/
def matchTopic (topic : String) : Bool :=
  match topic.toList with
  | 'm' :: 'e' :: 'm' :: 'o' :: 'r' :: 'y' :: '.' :: rest =>
    match matchIdentifier rest with
    | some ('.' :: rest) =>
      match matchIdentifier rest with
      | some [] | some ['\n'] => true
      | _ => false
    | _ => false
  | _ => false

example : matchTopic "memory.item.created" = true := by decide +kernel

/-- A `dict[str, str]`. -/
abbrev Metadata := Table (Prod.fst : String × String → String)

/-- `ModelSubscription`. No modelled function sets `suspended_reason`. -/
structure ModelSubscription where
  id : UUID
  agentId : String
  topic : String
  status : EnumSubscriptionStatus
  createdAt : DateTime
  updatedAt : DateTime
  metadata : Option Metadata
deriving DecidableEq

/-- The fields that `ModelSubscription` accepts. An id is a UUID and never blank. -/
def ModelSubscription.Valid (s : ModelSubscription) : Prop :=
  isBlank s.agentId = false ∧ s.topic.length ≤ 256 ∧ matchTopic s.topic = true

instance (s : ModelSubscription) : Decidable s.Valid :=
  inferInstanceAs (Decidable (_ ∧ _ ∧ _))

/-- A `ModelSubscription` is built. -/
def ModelSubscription.check (s : ModelSubscription) : Except PyError ModelSubscription :=
  if isBlank s.agentId then .error (.valueError "Field cannot be empty")
  else if s.topic.length = 0 then
    .error (.valueError "String should have at least 1 character")
  else if 256 < s.topic.length then
    .error (.valueError "String should have at most 256 characters")
  else if !matchTopic s.topic then
    .error (.valueError s!"Topic must match pattern 'memory.<entity>.<event>', got: {s.topic}")
  else .ok s

theorem ModelSubscription.check_eq_ok {s s' : ModelSubscription} :
    s.check = .ok s' ↔ s.Valid ∧ s' = s := by
  constructor
  · intro checked
    unfold check at checked
    split at checked
    · contradiction
    split at checked
    · contradiction
    split at checked
    · contradiction
    split at checked
    · contradiction
    · rename_i agent _ short topic
      refine ⟨⟨?_, ?_, ?_⟩, (Except.ok.inj checked).symm⟩
      · simpa using agent
      · omega
      · simpa using topic
  · rintro ⟨⟨agent, short, topic⟩, rfl⟩
    have long : s'.topic.length ≠ 0 := by
      intro empty
      rw [String.length_eq_zero_iff.mp empty] at topic
      exact absurd topic (by decide +kernel)
    simp [check, agent, topic, long, Nat.not_lt.mpr short]

/-- A row of `subscriptions`. -/
structure SubscriptionRow where
  id : UUID
  agentId : String
  topic : String
  status : EnumSubscriptionStatus
  createdAt : DateTime
  updatedAt : DateTime
  metadata : Option Metadata
deriving DecidableEq

namespace SubscriptionRow

/-- The columns of `uq_subscriptions_agent_topic`. -/
def owner (row : SubscriptionRow) : String × String := (row.agentId, row.topic)

/-- The subscription that a row holds. -/
def toModel (row : SubscriptionRow) : ModelSubscription where
  id := row.id
  agentId := row.agentId
  topic := row.topic
  status := row.status
  createdAt := row.createdAt
  updatedAt := row.updatedAt
  metadata := row.metadata

end SubscriptionRow

/-- `json.dumps(metadata) if metadata else None`, as the JSONB value that the text stands for. -/
def metadataParameter : Option Metadata → Option Metadata
  | some metadata => if metadata.rows = [] then none else some metadata
  | none => none

/-- The parameters of the INSERT. -/
def ModelSubscription.toRow (s : ModelSubscription) : SubscriptionRow where
  id := s.id
  agentId := s.agentId
  topic := s.topic
  status := s.status
  createdAt := s.createdAt
  updatedAt := s.updatedAt
  metadata := metadataParameter s.metadata

/-- A change of the columns that are in no key. -/
structure Edit where
  apply : SubscriptionRow → SubscriptionRow
  id_eq : ∀ row, (apply row).id = row.id
  owner_eq : ∀ row, (apply row).owner = row.owner

attribute [simp] Edit.id_eq Edit.owner_eq

namespace Edit

/-- `SET status, updated_at`. -/
def status (status : EnumSubscriptionStatus) (updatedAt : DateTime) : Edit where
  apply row := { row with status, updatedAt }
  id_eq _ := rfl
  owner_eq _ := rfl

/-- `SET status, updated_at, metadata`. -/
def renew (status : EnumSubscriptionStatus) (updatedAt : DateTime) (metadata : Option Metadata) :
    Edit where
  apply row := { row with status, updatedAt, metadata }
  id_eq _ := rfl
  owner_eq _ := rfl

@[simp] theorem agentId_eq (edit : Edit) (row : SubscriptionRow) :
    (edit.apply row).agentId = row.agentId := congrArg Prod.fst (edit.owner_eq row)

@[simp] theorem topic_eq (edit : Edit) (row : SubscriptionRow) :
    (edit.apply row).topic = row.topic := congrArg Prod.snd (edit.owner_eq row)

end Edit

/-- The `subscriptions` table. -/
structure Subscriptions where
  rows : List SubscriptionRow
  primaryKey : (rows.map (·.id)).Nodup
  unique : (rows.map (·.owner)).Nodup

namespace Subscriptions

instance : Membership SubscriptionRow Subscriptions := ⟨fun t row => row ∈ t.rows⟩

theorem mem_def {t : Subscriptions} {row : SubscriptionRow} : row ∈ t ↔ row ∈ t.rows := Iff.rfl

def empty : Subscriptions := ⟨[], List.nodup_nil, List.nodup_nil⟩

theorem eq_of_id {t : Subscriptions} {row row' : SubscriptionRow} (mem : row ∈ t) (mem' : row' ∈ t)
    (same : row.id = row'.id) : row = row' :=
  List.inj_on_of_nodup_map t.primaryKey mem mem' same

/-- An UPDATE of the rows in `which`. -/
def edit (t : Subscriptions) (which : SubscriptionRow → Bool) (edit : Edit) : Subscriptions where
  rows := t.rows.map fun row => if which row then edit.apply row else row
  primaryKey := by
    have same : ((t.rows.map fun row => if which row then edit.apply row else row).map (·.id)) =
        t.rows.map (·.id) := by
      rw [List.map_map]
      refine List.map_congr_left fun row _ => ?_
      by_cases here : which row <;> simp [here]
    rw [same]
    exact t.primaryKey
  unique := by
    have same : ((t.rows.map fun row => if which row then edit.apply row else row).map (·.owner)) =
        t.rows.map (·.owner) := by
      rw [List.map_map]
      refine List.map_congr_left fun row _ => ?_
      by_cases here : which row <;> simp [here]
    rw [same]
    exact t.unique

theorem mem_edit {t : Subscriptions} {which : SubscriptionRow → Bool} {edit : Edit}
    {row : SubscriptionRow} : row ∈ t.edit which edit ↔
      ∃ old ∈ t, row = if which old then edit.apply old else old := by
  simp only [mem_def, Subscriptions.edit, List.mem_map]
  exact exists_congr fun old => and_congr_right fun _ => eq_comm

/-- `INSERT … ON CONFLICT (agent_id, topic) DO UPDATE`. It fails if the id is taken. -/
def insert (t : Subscriptions) (row : SubscriptionRow) : Option Subscriptions :=
  if conflict : ∃ old ∈ t.rows, old.owner = row.owner then
    some (t.edit (fun old => old.owner == row.owner) (.renew row.status row.updatedAt row.metadata))
  else if taken : ∃ old ∈ t.rows, old.id = row.id then none
  else some
    { rows := t.rows ++ [row]
      primaryKey := by
        rw [List.map_append, List.map_singleton]
        refine t.primaryKey.append (List.nodup_singleton _) ?_
        rintro id mem here
        obtain ⟨old, there, rfl⟩ := List.mem_map.mp mem
        exact taken ⟨old, there, List.mem_singleton.mp here⟩
      unique := by
        rw [List.map_append, List.map_singleton]
        refine t.unique.append (List.nodup_singleton _) ?_
        rintro owner mem here
        obtain ⟨old, there, rfl⟩ := List.mem_map.mp mem
        exact conflict ⟨old, there, List.mem_singleton.mp here⟩ }

/-- An insert updates the row of the same agent and topic, or adds a row with a new id. -/
theorem insert_cases {t t' : Subscriptions} {row : SubscriptionRow}
    (inserted : t.insert row = some t') :
    (∃ old ∈ t, old.owner = row.owner ∧ t' = t.edit (fun old => old.owner == row.owner)
      (.renew row.status row.updatedAt row.metadata)) ∨
    (∀ old ∈ t, old.owner ≠ row.owner) ∧ (∀ old ∈ t, old.id ≠ row.id) ∧
      t'.rows = t.rows ++ [row] := by
  unfold insert at inserted
  split at inserted
  · rename_i conflict
    obtain ⟨old, mem, same⟩ := conflict
    exact .inl ⟨old, mem, same, (Option.some.inj inserted).symm⟩
  · rename_i conflict
    push Not at conflict
    split at inserted
    · contradiction
    · rename_i taken
      push Not at taken
      cases inserted
      exact .inr ⟨conflict, taken, rfl⟩

/-- `row` is ACTIVE and of the agent. -/
def activeOf (agentId : String) (row : SubscriptionRow) : Bool :=
  row.agentId == agentId && row.status == .active

/-- `row` is ACTIVE and of the topic. -/
def activeFor (topic : String) (row : SubscriptionRow) : Bool :=
  row.topic == topic && row.status == .active

end Subscriptions

/-- The keys of the two kinds of sets: `CACHE_KEY_TOPIC_SUBSCRIBERS` and
`CACHE_KEY_AGENT_SUBSCRIPTIONS`. -/
inductive SetKey where
  | topicSubscribers (topic : String)
  | agentSubscriptions (agentId : String)
deriving DecidableEq

/-- The ACTIVE rows that a set is about. -/
def SetKey.active : SetKey → SubscriptionRow → Bool
  | topicSubscribers topic => Subscriptions.activeFor topic
  | agentSubscriptions agentId => Subscriptions.activeOf agentId

/-- The ids of the ACTIVE rows that a set is about. -/
def Subscriptions.activeIds (t : Subscriptions) (key : SetKey) : Finset UUID :=
  ((t.rows.filter key.active).map (·.id)).toFinset

theorem Subscriptions.mem_activeIds {t : Subscriptions} {key : SetKey} {id : UUID} :
    id ∈ t.activeIds key ↔ ∃ row ∈ t, key.active row = true ∧ row.id = id := by
  simp [Subscriptions.activeIds, Subscriptions.mem_def, and_assoc]

/-- The cache: sets of subscription ids, a set that is not there being empty, and JSON texts by
subscription id (`CACHE_KEY_SUBSCRIPTION`). -/
structure Cache where
  sets : SetKey → Finset UUID
  entries : UUID → Option String

namespace Cache

def empty : Cache := ⟨fun _ => ∅, fun _ => none⟩

def setSet (cache : Cache) (key : SetKey) (ids : Finset UUID) : Cache :=
  { cache with sets := Function.update cache.sets key ids }

def setEntry (cache : Cache) (id : UUID) (text : Option String) : Cache :=
  { cache with entries := Function.update cache.entries id text }

@[simp] theorem entries_setSet (cache : Cache) (key : SetKey) (ids : Finset UUID) :
    (cache.setSet key ids).entries = cache.entries := rfl

@[simp] theorem sets_setEntry (cache : Cache) (id : UUID) (text : Option String) :
    (cache.setEntry id text).sets = cache.sets := rfl

theorem sets_setSet (cache : Cache) (key key' : SetKey) (ids : Finset UUID) :
    (cache.setSet key ids).sets key' = if key' = key then ids else cache.sets key' := by
  simp [setSet, Function.update_apply]

theorem entries_setEntry (cache : Cache) (id id' : UUID) (text : Option String) :
    (cache.setEntry id text).entries id' = if id' = id then text else cache.entries id' := by
  simp [setEntry, Function.update_apply]

end Cache

/-- A command of a `ValkeyPipeline`. -/
inductive Command where
  | sadd (key : SetKey) (ids : Finset UUID)
  | expire (key : SetKey)
  | expireEntry (id : UUID)
  | setKey (id : UUID) (value : String)
deriving DecidableEq

/-- A time to live changes nothing yet: a key expires at some later time. -/
def Command.apply (cache : Cache) : Command → Cache
  | sadd key ids => cache.setSet key (cache.sets key ∪ ids)
  | expire _ => cache
  | expireEntry _ => cache
  | setKey id value => cache.setEntry id (some value)

/-- The commands of a pipeline, in order. -/
def Cache.execute (cache : Cache) (commands : List Command) : Cache :=
  commands.foldl Command.apply cache

end Subscription

end OmniMemory
