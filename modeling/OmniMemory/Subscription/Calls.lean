import OmniMemory.Lib.Pool
import OmniMemory.Subscription.State
import Mathlib.Data.Finset.Sort
import Mathlib.Data.List.Sort

/-! The calls that `HandlerSubscription` makes, and what the surroundings do with them: statements
on the `subscriptions` table, each atomic, commands of the cache, and the event bus. -/

namespace OmniMemory

open Interleave

/-- Orders times whose fields are in range. -/
def DateTime.rank (t : DateTime) : Nat :=
  ((t.year * 13 + t.month) * 32 + t.day) * 86400000000 + t.time

namespace Subscription

/-- A timestamp as a driver returns it. -/
inductive DriverTime where
  | datetime (t : DateTime)
  | text (s : String)

/-- A JSONB value as a driver returns it; `other` is any other object, by its `str`. -/
inductive DriverJson where
  | null
  | dict (metadata : Metadata)
  | text (s : String)
  | other (str : String)

/-- A row as a driver returns it. -/
structure DriverRow where
  id : UUID
  agentId : String
  topic : String
  status : String
  createdAt : DriverTime
  updatedAt : DriverTime
  metadata : DriverJson

/-- What is not in the repository: the driver, the parsers of JSON and of ISO times, and pydantic's
JSON form of a subscription. `loads` fails on a value that the model does not accept. -/
structure External where
  driverTime : DateTime → DriverTime
  driverJson : Metadata → DriverJson
  loads : String → Except PyError (Option Metadata)
  fromIsoFormat : String → Except PyError DateTime
  modelDumpJson : ModelSubscription → String
  modelValidateJson : String → Except PyError ModelSubscription

def External.driverRow (X : External) (row : SubscriptionRow) : DriverRow where
  id := row.id
  agentId := row.agentId
  topic := row.topic
  status := row.status.value
  createdAt := X.driverTime row.createdAt
  updatedAt := X.driverTime row.updatedAt
  metadata := row.metadata.elim .null X.driverJson

/-- A SELECT of all columns. -/
inductive Query where
  | byAgentAndTopic (agentId topic : String)
  | activeByAgent (agentId : String)
  | byIds (ids : Finset UUID)
  | activePage (limit offset : Nat)

namespace Query

/-- The WHERE clause. -/
def selects : Query → SubscriptionRow → Bool
  | byAgentAndTopic agentId topic, row => row.owner == (agentId, topic) && row.status != .deleted
  | activeByAgent agentId, row => Subscriptions.activeOf agentId row
  | byIds ids, row => row.id ∈ ids
  | activePage _ _, row => row.status == .active

/-- The ORDER BY clause: `row` may come before `row'`. -/
def before : Query → SubscriptionRow → SubscriptionRow → Bool
  | activeByAgent _, row, row' => row'.createdAt.rank ≤ row.createdAt.rank
  | activePage _ _, row, row' => row.id ≤ row'.id
  | _, _, _ => true

/-- The LIMIT and OFFSET clauses. -/
def slice : Query → List SubscriptionRow → List SubscriptionRow
  | activePage limit offset, rows => (rows.drop offset).take limit
  | _, rows => rows

/-- The rows may be listed so, before LIMIT and OFFSET. -/
def Lists (q : Query) (t : Subscriptions) (listed : List SubscriptionRow) : Prop :=
  listed.Perm (t.rows.filter q.selects) ∧ listed.Pairwise fun row row' => q.before row row'

instance (q : Query) (t : Subscriptions) (listed : List SubscriptionRow) :
    Decidable (q.Lists t listed) := inferInstanceAs (Decidable (_ ∧ _))

/-- One of the orders in which the rows may be listed. -/
def list (q : Query) (t : Subscriptions) : List SubscriptionRow :=
  (t.rows.filter q.selects).insertionSort fun row row' => q.before row row'

theorem before_total (q : Query) (row row' : SubscriptionRow) :
    q.before row row' = true ∨ q.before row' row = true := by
  cases q with
  | activeByAgent agentId =>
    simp only [before, decide_eq_true_eq]
    omega
  | activePage limit offset =>
    simp only [before, decide_eq_true_eq]
    bv_omega
  | byAgentAndTopic => exact .inl rfl
  | byIds => exact .inl rfl

theorem before_trans (q : Query) {row row' row'' : SubscriptionRow}
    (first : q.before row row' = true) (second : q.before row' row'' = true) :
    q.before row row'' = true := by
  cases q with
  | activeByAgent agentId =>
    simp only [before, decide_eq_true_eq] at *
    omega
  | activePage limit offset =>
    simp only [before, decide_eq_true_eq] at *
    bv_omega
  | byAgentAndTopic => rfl
  | byIds => rfl

theorem lists_list (q : Query) (t : Subscriptions) : q.Lists t (q.list t) := by
  have total : Std.Total fun row row' => q.before row row' = true := ⟨q.before_total⟩
  have trans : IsTrans SubscriptionRow fun row row' => q.before row row' = true :=
    ⟨fun _ _ _ => q.before_trans⟩
  exact ⟨List.perm_insertionSort _ _, List.pairwise_insertionSort _ _⟩

theorem Lists.mem {q : Query} {t : Subscriptions} {listed : List SubscriptionRow}
    (lists : q.Lists t listed) {row : SubscriptionRow} :
    row ∈ listed ↔ row ∈ t ∧ q.selects row = true := by
  rw [lists.1.mem_iff, List.mem_filter, Subscriptions.mem_def]

end Query

structure ModelNotificationEventPayload where
  entityType : String
  entityId : String
  action : String
  changes : Option Metadata := none
  actorId : Option String := none
  correlationId : Option String := none
deriving DecidableEq

/-- `ModelNotificationEvent`, without its schema version. -/
structure ModelNotificationEvent where
  eventId : String
  topic : String
  payload : ModelNotificationEventPayload
  createdAt : DateTime
  metadata : Option Metadata := none
  source : Option String := none
deriving DecidableEq

inductive Op where
  | query (q : Query)
  | queryPage (agentId : String) (limit offset : Nat)
  | queryIds (topic : String)
  | queryCount
  | insert (row : SubscriptionRow)
  | update (id : UUID) (status : EnumSubscriptionStatus) (updatedAt : DateTime)
      (metadata : Option Metadata)
  | softDelete (id : UUID) (updatedAt : DateTime)
  | smembers (key : SetKey)
  | srem (key : SetKey) (id : UUID)
  | expire (key : SetKey)
  | mget (ids : Finset UUID)
  | setKey (id : UUID) (value : String)
  | delete (id : UUID)
  | pipeline (commands : List Command)
  | publish (topic key : String) (value : ModelNotificationEvent)

def Op.isDatabase : Op → Bool
  | query _ | queryPage .. | queryIds _ | queryCount | insert _ | update .. | softDelete .. => true
  | _ => false

/-- What a call returns. A page comes with the total count in every row, and the values that MGET
returns come with the ids that they were asked for. -/
@[reducible] def Value : Op → Type
  | .query _ => List DriverRow
  | .queryPage .. => List (DriverRow × Nat)
  | .queryIds _ => List UUID
  | .queryCount => Nat
  | .smembers _ => Finset UUID
  | .mget _ => List (UUID × Option String)
  | .insert _ | .update .. | .softDelete .. | .srem .. | .expire _ | .setKey .. | .delete _
  | .pipeline _ | .publish .. => Unit

@[reducible] def Res (op : Op) : Type := Except PyError (Value op)

end Subscription

abbrev SubscriptionProg := Prog Subscription.Op Subscription.Res

namespace Subscription

abbrev call (op : Op) : SubscriptionProg (Except PyError (Value op)) := .perform op

structure State where
  table : Subscriptions
  cache : Cache

def State.mapCache (s : State) (f : Cache → Cache) : State := { s with cache := f s.cache }

def State.editRow (s : State) (id : UUID) (edit : Edit) : State :=
  { s with table := s.table.edit (fun row => row.id == id) edit }

/-- A call on which nothing fails. -/
def answer (X : External) : (op : Op) → State → Res op × State
  | .query q, s => (.ok ((q.slice (q.list s.table)).map X.driverRow), s)
  | .queryPage agentId limit offset, s =>
    let listed := (Query.activeByAgent agentId).list s.table
    (.ok (((listed.drop offset).take limit).map fun row => (X.driverRow row, listed.length)), s)
  | .queryIds topic, s =>
    (.ok ((s.table.rows.filter (Subscriptions.activeFor topic)).map (·.id)), s)
  | .queryCount, s => (.ok (s.table.rows.filter fun row => row.status == .active).length, s)
  | .insert row, s =>
    match s.table.insert row with
    | some table => (.ok (), { s with table })
    | none => (.error (.postgresError "duplicate key value violates unique constraint"), s)
  | .update id status updatedAt metadata, s =>
    (.ok (), s.editRow id (.renew status updatedAt metadata))
  | .softDelete id updatedAt, s => (.ok (), s.editRow id (.status .deleted updatedAt))
  | .smembers key, s => (.ok (s.cache.sets key), s)
  | .srem key id, s => (.ok (), s.mapCache fun cache => cache.setSet key ((cache.sets key).erase id))
  | .expire _, s => (.ok (), s)
  | .mget ids, s => (.ok ((ids.sort (· ≤ ·)).map fun id => (id, s.cache.entries id)), s)
  | .setKey id value, s => (.ok (), s.mapCache fun cache => cache.setEntry id (some value))
  | .delete id, s => (.ok (), s.mapCache fun cache => cache.setEntry id none)
  | .pipeline commands, s => (.ok (), s.mapCache fun cache => cache.execute commands)
  | .publish .., s => (.ok (), s)

section Insert

variable {X : External} {row : SubscriptionRow} {table : Subscriptions} {s : State}

theorem answer_insert (inserted : s.table.insert row = some table) :
    answer X (.insert row) s = (.ok (), { s with table }) := by
  simp only [answer, inserted]

theorem answer_insert_none (refused : s.table.insert row = none) :
    answer X (.insert row) s =
      (.error (.postgresError "duplicate key value violates unique constraint"), s) := by
  simp only [answer, refused]

end Insert

/-- How the surroundings treat a call: nothing fails, rows or ids are listed in some order, the call
fails without effect or after it, or some commands of a pipeline are executed before it fails. -/
inductive Choice where
  | run
  | rows (listed : List SubscriptionRow)
  | members (listed : List UUID)
  | fail (e : PyError)
  | lost (e : PyError)
  | cut (done : List Command) (e : PyError)

def exec (X : External) : (op : Op) → Choice → State → Option (Res op × State)
  | op, .run, s => some (answer X op s)
  | _, .fail e, s => some (.error e, s)
  | op, .lost e, s => some (.error e, (answer X op s).2)
  | .query q, .rows listed, s =>
    if q.Lists s.table listed then some (.ok ((q.slice listed).map X.driverRow), s) else none
  | .queryPage agentId limit offset, .rows listed, s =>
    if (Query.activeByAgent agentId).Lists s.table listed then
      some (.ok (((listed.drop offset).take limit).map fun row =>
        (X.driverRow row, listed.length)), s)
    else none
  | .mget ids, .members listed, s =>
    if listed.Nodup ∧ listed.toFinset = ids then
      some (.ok (listed.map fun id => (id, s.cache.entries id)), s)
    else none
  | .pipeline commands, .cut done e, s =>
    if done.Sublist commands then some (.error e, s.mapCache fun cache => cache.execute done)
    else none
  | _, _, _ => none

section Exec

variable {X : External} {op : Op} {ch : Choice} {s : State}

/-- Whatever comes of a call, its effect is that of the call when nothing fails, that of some of the
commands of a pipeline, or none. -/
theorem exec_cases {r : Res op × State} (executed : exec X op ch s = some r) : r.2 = s ∨
    r.2 = (answer X op s).2 ∨
    ∃ commands done, op = .pipeline commands ∧ done.Sublist commands ∧
      r.2 = s.mapCache fun cache => cache.execute done := by
  cases ch with
  | run =>
    simp only [exec, Option.some.injEq] at executed
    exact .inr (.inl (congrArg Prod.snd executed).symm)
  | fail error =>
    simp only [exec, Option.some.injEq] at executed
    exact .inl (congrArg Prod.snd executed).symm
  | lost error =>
    simp only [exec, Option.some.injEq] at executed
    exact .inr (.inl (congrArg Prod.snd executed).symm)
  | rows listed =>
    cases op <;> simp [exec] at executed
    · exact .inl (congrArg Prod.snd executed.2).symm
    · exact .inl (congrArg Prod.snd executed.2).symm
  | members listed =>
    cases op <;> simp [exec] at executed
    exact .inl (congrArg Prod.snd executed.2).symm
  | cut done error =>
    cases op <;> simp [exec] at executed
    exact .inr (.inr ⟨_, done, rfl, executed.1, (congrArg Prod.snd executed.2).symm⟩)

theorem exec_ok {value : Value op} {after : State}
    (executed : exec X op ch s = some (.ok value, after)) : after = (answer X op s).2 := by
  cases ch with
  | run =>
    simp only [exec, Option.some.injEq] at executed
    exact (congrArg Prod.snd executed).symm
  | fail error => simp [exec] at executed
  | lost error => simp [exec] at executed
  | rows listed =>
    cases op <;> simp [exec] at executed
    · exact executed.2.2.symm
    · exact executed.2.2.symm
  | members listed =>
    cases op <;> simp [exec] at executed
    exact executed.2.2.symm
  | cut done error => cases op <;> simp [exec] at executed

end Exec

/-- What happens to the cache: a key expires, or all is lost. -/
inductive Move where
  | expireSet (key : SetKey)
  | expireEntry (id : UUID)
  | lose

def move : Move → State → Option State
  | .expireSet key, s => some (s.mapCache fun cache => cache.setSet key ∅)
  | .expireEntry id, s => some (s.mapCache fun cache => cache.setEntry id none)
  | .lose, s => some (s.mapCache fun _ => .empty)

end Subscription

end OmniMemory
