import OmniMemory.Lib.Contract
import OmniMemory.Subscription.Handler

/-! Subscription ids. `subscribe` looks for a row that is not deleted, and inserts one with a new id
otherwise; the insert keeps the id of a deleted row, or of one that another `subscribe` has just
inserted. Where every insert is of a row that is not there yet, the ids that are returned and the
ids in the cache are ids of rows. -/

namespace OmniMemory

open Interleave

namespace Subscription

abbrev SubscriptionCall := Event Op Res State

abbrev SubscriptionTask := Task Op Res (Except PyError Reply) (HandlerSubscription × Request) State

abbrev SubscriptionPool := Pool Op Res (Except PyError Reply) (HandlerSubscription × Request) State

abbrev SubscriptionLabel := Label Op Res (HandlerSubscription × Request) Move State

/-! ### What the calls do to the state -/

/-- Rows stay, with their ids, agents and topics. -/
def Persists (t t' : Subscriptions) : Prop :=
  ∀ row ∈ t, ∃ row' ∈ t', row'.id = row.id ∧ row'.owner = row.owner

theorem Persists.refl (t : Subscriptions) : Persists t t := fun row mem => ⟨row, mem, rfl, rfl⟩

theorem Persists.trans {t t' t'' : Subscriptions} (first : Persists t t')
    (second : Persists t' t'') : Persists t t'' := by
  intro row mem
  obtain ⟨row', mem, id, owner⟩ := first row mem
  obtain ⟨row'', mem, id', owner'⟩ := second row' mem
  exact ⟨row'', mem, id'.trans id, owner'.trans owner⟩

theorem persists_edit (t : Subscriptions) (which : SubscriptionRow → Bool) (edit : Edit) :
    Persists t (t.edit which edit) := by
  intro row mem
  refine ⟨_, Subscriptions.mem_edit.mpr ⟨row, mem, rfl⟩, ?_, ?_⟩
  · split <;> simp
  · split <;> simp

theorem persists_insert {t t' : Subscriptions} {row : SubscriptionRow}
    (inserted : t.insert row = some t') : Persists t t' := by
  rcases Subscriptions.insert_cases inserted with ⟨old, -, -, rfl⟩ | ⟨-, -, rows⟩
  · exact persists_edit _ _ _
  · intro old mem
    refine ⟨old, ?_, rfl, rfl⟩
    rw [Subscriptions.mem_def, rows]
    exact List.mem_append_left _ mem

section Calls

variable {X : External} {e : SubscriptionCall}

theorem after_cases (call : (world X).Calls e) : e.after = e.before ∨
    e.after = (answer X e.op e.before).2 ∨
    ∃ commands done, e.op = .pipeline commands ∧ done.Sublist commands ∧
      e.after = e.before.mapCache fun cache => cache.execute done := by
  obtain ⟨ch, call⟩ := call
  exact exec_cases call

theorem after_eq_of_ok {op : Op} {before after : State} {value : Value op}
    (call : (world X).Calls ⟨op, before, .ok value, after⟩) : after = (answer X op before).2 := by
  obtain ⟨ch, call⟩ := call
  exact exec_ok call

theorem inserted_of_ok {row : SubscriptionRow} {before after : State} {value : Unit}
    (call : (world X).Calls ⟨.insert row, before, .ok value, after⟩) :
    ∃ table, before.table.insert row = some table ∧ after = { before with table } := by
  cases inserted : before.table.insert row with
  | none =>
    obtain ⟨ch, call⟩ := call
    cases ch <;> simp [world, exec, answer_insert_none inserted] at call
  | some table => exact ⟨table, rfl, by rw [after_eq_of_ok call, answer_insert inserted]⟩

theorem table_persists (call : (world X).Calls e) : Persists e.before.table e.after.table := by
  rcases after_cases call with same | same | ⟨commands, done, -, -, same⟩
  · rw [same]
    exact .refl _
  · rw [same]
    cases e.op with
    | insert row =>
      cases inserted : e.before.table.insert row with
      | none =>
        rw [answer_insert_none inserted]
        exact .refl _
      | some table =>
        rw [answer_insert inserted]
        exact persists_insert inserted
    | update => exact persists_edit _ _ _
    | softDelete => exact persists_edit _ _ _
    | _ => exact .refl _
  · rw [same]
    exact .refl _

theorem query_cases {q : Query} {before after : State} {rows : List DriverRow}
    (call : (world X).Calls ⟨.query q, before, .ok rows, after⟩) :
    ∃ listed, q.Lists before.table listed ∧ rows = (q.slice listed).map X.driverRow := by
  obtain ⟨ch, call⟩ := call
  cases ch <;> simp [world, exec, answer] at call
  case run => exact ⟨_, q.lists_list _, call.1.symm⟩
  case rows listed => exact ⟨listed, call.1, call.2.1.symm⟩

theorem queryIds_cases {topic : String} {before after : State} {ids : List UUID}
    (call : (world X).Calls ⟨.queryIds topic, before, .ok ids, after⟩) :
    ids.toFinset = before.table.activeIds (.topicSubscribers topic) := by
  obtain ⟨ch, call⟩ := call
  cases ch <;> simp [world, exec, answer] at call
  case run =>
    rw [← call.1]
    rfl

end Calls

theorem mem_execute {cache : Cache} {commands : List Command} {key : SetKey} {id : UUID} :
    id ∈ (cache.execute commands).sets key ↔
      id ∈ cache.sets key ∨ ∃ ids, .sadd key ids ∈ commands ∧ id ∈ ids := by
  induction commands generalizing cache with
  | nil => simp [Cache.execute]
  | cons command rest ih =>
    have step : (cache.execute (command :: rest)).sets key =
        ((command.apply cache).execute rest).sets key := rfl
    rw [step, ih]
    cases command with
    | sadd key' ids =>
      simp only [Command.apply, Cache.sets_setSet]
      split
      · rename_i same
        subst same
        simp [or_and_right, exists_or, or_assoc]
      · rename_i other
        simp [other]
    | _ => simp [Command.apply]

/-- The model that a row is read as has its id, its agent, its topic and its status. -/
theorem fields_of_rowToSubscription {X : External} {row : SubscriptionRow}
    {subscription : ModelSubscription}
    (read : rowToSubscription X (X.driverRow row) = .ok subscription) :
    subscription.id = row.id ∧ subscription.agentId = row.agentId ∧
      subscription.topic = row.topic ∧ subscription.status = row.status := by
  simp only [rowToSubscription, bind, Except.bind, External.driverRow,
    EnumSubscriptionStatus.ofValue_value] at read
  split at read
  · contradiction
  split at read
  · contradiction
  split at read
  · contradiction
  · obtain ⟨-, rfl⟩ := ModelSubscription.check_eq_ok.mp read
    exact ⟨rfl, rfl, rfl, rfl⟩

/-! ### The contract -/

def HasId (t : Subscriptions) (id : UUID) : Prop := ∃ row ∈ t, row.id = id

/-- The row of the agent and the topic has the id. -/
def Holds (t : Subscriptions) (agentId topic : String) (id : UUID) : Prop :=
  ∃ row ∈ t, row.owner = (agentId, topic) ∧ row.id = id

theorem HasId.mono {t t' : Subscriptions} {id : UUID} (has : HasId t id) (later : Persists t t') :
    HasId t' id := by
  obtain ⟨row, mem, rfl⟩ := has
  obtain ⟨row', mem', same, -⟩ := later row mem
  exact ⟨row', mem', same⟩

theorem Holds.mono {t t' : Subscriptions} {agentId topic : String} {id : UUID}
    (holds : Holds t agentId topic id) (later : Persists t t') : Holds t' agentId topic id := by
  obtain ⟨row, mem, owner, rfl⟩ := holds
  obtain ⟨row', mem', same, owner'⟩ := later row mem
  exact ⟨row', mem', owner'.trans owner, same⟩

theorem Holds.hasId {t : Subscriptions} {agentId topic : String} {id : UUID}
    (holds : Holds t agentId topic id) : HasId t id := by
  obtain ⟨row, mem, -, same⟩ := holds
  exact ⟨row, mem, same⟩

/-- Every id in a set of the cache is the id of a row. -/
def CachedIds (s : State) : Prop := ∀ key, ∀ id ∈ s.cache.sets key, HasId s.table id

/-- An INSERT that succeeds finds no row of the same agent and topic with another id. -/
def InsertsNew : SubscriptionCall → Prop
  | ⟨.insert row, before, .ok (), _⟩ =>
    ∀ old ∈ before.table, old.owner = row.owner → old.id = row.id
  | _ => True

/-- The contract of the handlers: rows stay, and the sets of the cache hold ids of rows. -/
def coherent : Contract Op Res (HandlerSubscription × Request) State where
  inv := CachedIds
  rely s s' := Persists s.table s'.table
  can _ := InsertsNew
  guar _ _ _ := True

/-- The ids that a pipeline adds to sets are ids of rows. -/
def Safe (t : Subscriptions) : Op → Prop
  | .pipeline commands => ∀ key ids, .sadd key ids ∈ commands → ∀ id ∈ ids, HasId t id
  | _ => True

/-- The call is neither an INSERT nor an UPDATE. -/
def Op.keepsTable : Op → Bool
  | insert _ | update .. | softDelete .. => false
  | _ => true

/-- The call changes neither the table nor, but for a key that is added again, the sets. -/
def Op.Reading (op : Op) : Prop := op.keepsTable = true ∧ ∀ t, Safe t op

theorem table_eq {X : External} {e : SubscriptionCall} (keeps : e.op.keepsTable = true)
    (call : (world X).Calls e) : e.after.table = e.before.table := by
  rcases after_cases call with same | same | ⟨commands, done, -, -, same⟩
  · rw [same]
  · rw [same]
    cases here : e.op with
    | insert row => simp [here, Op.keepsTable] at keeps
    | update => simp [here, Op.keepsTable] at keeps
    | softDelete => simp [here, Op.keepsTable] at keeps
    | _ => rfl
  · rw [same]
    rfl

theorem cachedIds_of_call {X : External} {e : SubscriptionCall} (call : (world X).Calls e)
    (inv : CachedIds e.before) (safe : Safe e.before.table e.op) : CachedIds e.after := by
  have later := table_persists call
  suffices same : ∀ key, ∀ id ∈ e.after.cache.sets key, id ∈ e.before.cache.sets key ∨
      HasId e.before.table id by
    intro key id mem
    rcases same key id mem with old | new
    · exact (inv key id old).mono later
    · exact new.mono later
  intro key id mem
  rcases after_cases call with same | same | ⟨commands, done, op, sub, same⟩
  · exact .inl (same ▸ mem)
  · rw [same] at mem
    cases here : e.op with
    | pipeline commands =>
      rw [here] at mem safe
      rcases mem_execute.mp mem with old | ⟨ids, added, mem⟩
      · exact .inl old
      · exact .inr (safe key ids added id mem)
    | srem key' id' =>
      rw [here] at mem
      simp only [answer, State.mapCache, Cache.sets_setSet] at mem
      split at mem
      · rename_i same
        subst same
        exact .inl (Finset.mem_of_mem_erase mem)
      · exact .inl mem
    | insert row =>
      rw [here] at mem
      simp only [answer] at mem
      split at mem <;> exact .inl mem
    | _ =>
      rw [here] at mem
      exact .inl mem
  · rw [same] at mem
    rw [op] at safe
    rcases mem_execute.mp mem with old | ⟨ids, added, mem⟩
    · exact .inl old
    · exact .inr (safe key ids (sub.subset added) id mem)

section Keeps

variable {X : External} {cmd : HandlerSubscription × Request} {h : List SubscriptionCall} {s : State}
  {α β : Type}

theorem keeps_op {Q : α → List SubscriptionCall → State → Prop} {op : Op}
    {rest : Res op → SubscriptionProg α}
    (safe : ∀ before : State, Persists s.table before.table → Safe before.table op)
    (next : ∀ (before : State) answered after, Persists s.table before.table →
      (world X).Calls ⟨op, before, answered, after⟩ → InsertsNew ⟨op, before, answered, after⟩ →
      coherent.Keeps (world X) cmd Q (rest answered) (h ++ [⟨op, before, answered, after⟩]) after) :
    coherent.Keeps (world X) cmd Q (Prog.perform op >>= rest) h s := by
  intro before later inv answered after call can
  exact ⟨⟨cachedIds_of_call call inv (safe before later), table_persists call, trivial⟩,
    next before answered after later call can⟩

/-- A program whose calls are no pipelines keeps the contract. -/
theorem keeps_plain {p : SubscriptionProg α}
    (uses : p.Uses fun op => ∀ t, Safe t op) :
    coherent.Keeps (world X) cmd (fun _ _ _ => True) p h s :=
  .of_uses (φ := fun _ => True) uses
    (fun _ _ safe call inv _ _ =>
      ⟨⟨cachedIds_of_call call inv (safe _), table_persists call, trivial⟩, trivial⟩) trivial

theorem getSubscriptionByAgentAndTopic_keeps (agentId topic : String) :
    coherent.Keeps (world X) cmd
      (fun out _ s' => ∀ subscription, out = .ok (some subscription) →
        Holds s'.table agentId topic subscription.id)
      (HandlerSubscription.getSubscriptionByAgentAndTopic X agentId topic) h s := by
  refine keeps_op (fun _ _ => trivial) fun before answered after _ call _ => ?_
  rcases answered with e | rows
  · rintro _ ⟨⟩
  rcases rows with _ | ⟨first, rest⟩
  · rintro _ ⟨⟩
  rintro subscription read
  obtain ⟨listed, lists, rows⟩ := query_cases call
  obtain ⟨row, rest', rfl, rfl, -⟩ := List.map_eq_cons_iff.mp rows.symm
  have mem := lists.mem.mp List.mem_cons_self
  simp only [Query.selects, Bool.and_eq_true, beq_iff_eq] at mem
  cases parsed : rowToSubscription X (X.driverRow row) with
  | error e =>
    rw [parsed] at read
    contradiction
  | ok found =>
    rw [parsed] at read
    cases read
    refine Holds.mono ⟨row, mem.1, mem.2.1, ?_⟩ (table_persists call)
    exact (fields_of_rowToSubscription parsed).1.symm

theorem persistSubscription_keeps {subscription : ModelSubscription} {isUpdate : Bool}
    (old : isUpdate = true →
      Holds s.table subscription.agentId subscription.topic subscription.id) :
    coherent.Keeps (world X) cmd
      (fun out _ s' => out = .ok () →
        Holds s'.table subscription.agentId subscription.topic subscription.id)
      (HandlerSubscription.persistSubscription subscription isUpdate) h s := by
  cases isUpdate with
  | true =>
    refine keeps_op (fun _ _ => trivial) fun before answered after later call _ _ => ?_
    exact ((old rfl).mono later).mono (table_persists call)
  | false =>
    refine keeps_op (fun _ _ => trivial) fun before answered after later call new done => ?_
    obtain rfl : answered = .ok () := done
    obtain ⟨table, inserted, rfl⟩ := inserted_of_ok call
    rcases Subscriptions.insert_cases inserted with ⟨row, mem, same, rfl⟩ | ⟨-, -, rows⟩
    · exact Holds.mono ⟨row, mem, same, new row mem same⟩ (persists_edit _ _ _)
    · refine ⟨subscription.toRow, ?_, rfl, rfl⟩
      rw [Subscriptions.mem_def, rows]
      exact List.mem_append_right _ (List.mem_singleton_self _)

theorem subscribe_keeps (agentId topic : String) (metadata : Option Metadata) (uuid4 : UUID)
    (now : DateTime) :
    coherent.Keeps (world X) cmd
      (fun out _ s' => ∀ subscription, out = .ok subscription →
        Holds s'.table agentId topic subscription.id)
      (HandlerSubscription.subscribe X agentId topic metadata uuid4 now) h s := by
  unfold HandlerSubscription.subscribe
  split
  · rintro _ ⟨⟩
  refine (getSubscriptionByAgentAndTopic_keeps agentId topic).seq fun out _ s found => ?_
  rcases out with e | existing
  · rintro _ ⟨⟩
  dsimp only
  split
  · rintro _ ⟨⟩
  rename_i subscription checked
  obtain ⟨-, rfl⟩ := ModelSubscription.check_eq_ok.mp checked
  refine (persistSubscription_keeps ?_).seq fun out _ s persisted => ?_
  · intro isUpdate
    obtain ⟨old, rfl⟩ := Option.isSome_iff_exists.mp isUpdate
    exact found old rfl
  rcases out with e | _
  · rintro _ ⟨⟩
  have holds := persisted rfl
  refine keeps_op (fun before later => ?_) fun before answered after later call _ => ?_
  · have has := (holds.mono later).hasId
    intro key ids added id mem
    simp only [HandlerSubscription.subscribeCommands, List.mem_cons, Command.sadd.injEq,
      reduceCtorEq, List.not_mem_nil, false_or, or_false] at added
    rcases added with ⟨-, rfl⟩ | ⟨-, rfl⟩
    · rwa [Finset.mem_singleton.mp mem]
    · rwa [Finset.mem_singleton.mp mem]
  · rintro _ ⟨⟩
    exact (holds.mono later).mono (table_persists call)

theorem subscribersFromDb_keeps (topic : String) :
    coherent.Keeps (world X) cmd (fun _ _ _ => True)
      (HandlerSubscription.subscribersFromDb topic) h s := by
  refine keeps_op (fun _ _ => trivial) fun before answered after _ call _ => ?_
  rcases answered with e | ids
  · trivial
  dsimp only
  split
  · trivial
  refine keeps_op (fun before' later => ?_) fun _ _ _ _ _ _ => trivial
  intro key ids' added id mem
  simp only [List.mem_cons, Command.sadd.injEq, reduceCtorEq, List.not_mem_nil, or_false] at added
  obtain ⟨-, rfl⟩ := added
  rw [queryIds_cases call] at mem
  obtain ⟨row, there, -, rfl⟩ := Subscriptions.mem_activeIds.mp mem
  exact HasId.mono ⟨row, there, rfl⟩ ((table_persists call).trans later)

theorem notify_keeps (self : HandlerSubscription) (topic : String) (event : ModelNotificationEvent)
    (strict : Bool) :
    coherent.Keeps (world X) cmd (fun _ _ _ => True) (self.notify topic event strict) h s := by
  unfold HandlerSubscription.notify HandlerSubscription.getSubscribersForTopic
  split
  · trivial
  refine Contract.Keeps.seq (Q := fun _ _ _ => True) ?_ fun out h s _ => ?_
  · refine keeps_op (fun _ _ => trivial) fun before answered after _ _ _ => ?_
    rcases answered with e | ids
    · exact subscribersFromDb_keeps topic
    dsimp only
    split
    · exact subscribersFromDb_keeps topic
    · exact keeps_plain ⟨fun _ => trivial, fun _ => trivial⟩
  · refine keeps_plain ?_
    rcases out with e | ids
    · trivial
    dsimp only
    split
    · trivial
    · refine ⟨fun _ => trivial, fun answered => ?_⟩
      rcases answered with e | _
      · dsimp only
        split <;> trivial
      · trivial

theorem uses_loadRows (rows : List DriverRow) (subscriptions : List ModelSubscription) :
    (HandlerSubscription.loadRows X rows subscriptions).Uses Op.Reading := by
  induction rows generalizing subscriptions with
  | nil => trivial
  | cons row rest ih =>
    unfold HandlerSubscription.loadRows
    split
    · trivial
    · exact ⟨⟨rfl, fun _ => trivial⟩, fun _ => ih _⟩

theorem uses_loadMissing (subscriptions : List ModelSubscription) (missingIds : Finset UUID) :
    (HandlerSubscription.loadMissing X subscriptions missingIds).Uses Op.Reading := by
  unfold HandlerSubscription.loadMissing
  split
  · trivial
  split
  · trivial
  refine Prog.uses_op.mpr ⟨⟨rfl, fun _ => trivial⟩, fun answered => ?_⟩
  rcases answered with e | rows
  · trivial
  · exact uses_loadRows _ _

theorem uses_loadSubscriptions (ids : Finset UUID) :
    (HandlerSubscription.loadSubscriptions X ids).Uses Op.Reading := by
  unfold HandlerSubscription.loadSubscriptions
  split
  · trivial
  refine Prog.uses_op.mpr ⟨⟨rfl, fun _ => trivial⟩, fun answered => ?_⟩
  rcases answered with e | cached
  · exact uses_loadMissing _ _
  dsimp only
  split
  · exact uses_loadMissing _ _
  · refine ⟨⟨rfl, fun _ key ids added => ?_⟩, fun _ => uses_loadMissing _ _⟩
    simp at added

theorem uses_listAll (agentId : String) :
    (HandlerSubscription.listAll X agentId).Uses Op.Reading := by
  have fallback : (HandlerSubscription.getSubscriptionsFromDb X agentId).Uses Op.Reading := by
    refine Prog.uses_op.mpr ⟨⟨rfl, fun _ => trivial⟩, fun answered => ?_⟩
    rcases answered with e | rows <;> trivial
  refine Prog.uses_op.mpr ⟨⟨rfl, fun _ => trivial⟩, fun answered => ?_⟩
  rcases answered with e | ids
  · exact fallback
  dsimp only
  split
  · exact fallback
  · refine (uses_loadSubscriptions _).bind fun out => ?_
    rcases out with e | subscriptions
    · exact fallback
    · trivial

theorem listSubscriptions_keeps (self : HandlerSubscription) (agentId : String)
    (limit : Option Int) (offset : Int) :
    coherent.Keeps (world X) cmd (fun _ _ _ => True)
      (self.listSubscriptions X agentId limit offset) h s := by
  refine keeps_plain ?_
  unfold HandlerSubscription.listSubscriptions
  split
  · trivial
  split
  · exact ((uses_listAll agentId).mono fun _ => And.right).bind fun _ => trivial
  split
  · trivial
  split
  · trivial
  refine Prog.uses_op.mpr ⟨fun _ => trivial, fun answered => ?_⟩
  rcases answered with e | _ | _ <;> trivial

theorem evict_keeps (agentId topic : String) (id : UUID) :
    coherent.Keeps (world X) cmd (fun _ _ _ => True)
      (HandlerSubscription.evict agentId topic id) h s := by
  refine keeps_plain (Prog.uses_op.mpr ⟨fun _ => trivial, fun answered => ?_⟩)
  rcases answered with e | _
  · trivial
  refine Prog.uses_op.mpr ⟨fun _ => trivial, fun answered => ?_⟩
  rcases answered with e | _
  · trivial
  · exact ⟨fun _ => trivial, fun _ => trivial⟩

theorem unsubscribe_keeps (agentId topic : String) (now : DateTime) :
    coherent.Keeps (world X) cmd (fun _ _ _ => True)
      (HandlerSubscription.unsubscribe X agentId topic now) h s := by
  refine (getSubscriptionByAgentAndTopic_keeps agentId topic).seq fun out _ s _ => ?_
  rcases out with e | _ | subscription
  · trivial
  · trivial
  refine keeps_op (fun _ _ => trivial) fun _ answered _ _ _ _ => ?_
  rcases answered with e | _
  · trivial
  · exact (evict_keeps agentId topic _).seq fun _ _ _ _ => trivial

/-- What a request returns: a subscription comes with the id of its row. -/
def Returned (request : Request) (out : Except PyError Reply) (s : State) : Prop :=
  ∀ agentId topic metadata uuid4 now subscription,
    request = .subscribe agentId topic metadata uuid4 now → out = .ok (.subscription subscription) →
      Holds s.table agentId topic subscription.id

theorem serve_keeps : coherent.Keeps (world X) cmd (fun out _ s' => Returned cmd.2 out s')
    (cmd.1.serve X cmd.2) h s := by
  cases here : cmd.2 with
  | subscribe agentId topic metadata uuid4 now =>
    refine (subscribe_keeps agentId topic metadata uuid4 now).seq fun out _ s found => ?_
    rintro _ _ _ _ _ subscription ⟨⟩ returned
    rcases out with e | subscription'
    · contradiction
    · cases returned
      exact found _ rfl
  | unsubscribe agentId topic now =>
    exact (unsubscribe_keeps agentId topic now).seq fun _ _ _ _ _ _ _ _ _ _ other => nomatch other
  | notify topic event strict =>
    exact (notify_keeps cmd.1 topic event strict).seq fun _ _ _ _ _ _ _ _ _ _ other => nomatch other
  | listSubscriptions agentId limit offset =>
    exact (listSubscriptions_keeps cmd.1 agentId limit offset).seq
      fun _ _ _ _ _ _ _ _ _ _ other => nomatch other

end Keeps

/-! ### Runs -/

def InsertStep (_ : SubscriptionPool) : SubscriptionLabel → Prop
  | .call _ _ e => InsertsNew e
  | _ => True

theorem coherent_holds {X : External} : coherent.Holds (world X) (·.cache = Cache.empty) InsertStep
    fun cmd out _ s => Returned cmd.2 out s where
  refl s := .refl _
  trans _ _ _ := Persists.trans
  init s empty := by
    intro key id mem
    simp [empty, Cache.empty] at mem
  move p m after _ inv moved := by
    cases m <;> cases moved
    case expireSet key =>
      refine ⟨fun key' id mem => ?_, .refl _⟩
      simp only [State.mapCache, Cache.sets_setSet] at mem
      split at mem
      · simp at mem
      · exact inv key' id mem
    case expireEntry id => exact ⟨inv, .refl _⟩
    case lose => exact ⟨fun key id mem => by simp [State.mapCache, Cache.empty] at mem, .refl _⟩
  call p i cmd e met := met
  code cmd s _ := serve_keeps
  stable cmd out h s s' later returned := by
    intro agentId topic metadata uuid4 now subscription request out
    exact (returned agentId topic metadata uuid4 now subscription request out).mono later

/-- The ids that `subscribe` returned are those of the rows, and so are the ids in the cache. -/
structure Coherent (p : SubscriptionPool) : Prop where
  returned : ∀ t ∈ p.tasks, ∀ agentId topic metadata uuid4 now subscription,
    t.cmd.2 = .subscribe agentId topic metadata uuid4 now →
      t.result? = some (.ok (.subscription subscription)) →
        Holds p.shared.table agentId topic subscription.id
  cached : CachedIds p.shared

/-- In every run in which no insert finds the row of another id, ids are coherent. -/
theorem coherent_of_reach {X : External} {p : SubscriptionPool}
    (reach : (world X).Reach (·.cache = Cache.empty) InsertStep p) : Coherent p := by
  obtain ⟨inv, kept⟩ := coherent_holds.reach reach
  refine ⟨fun t task agentId topic metadata uuid4 now subscription request result => ?_, inv⟩
  have keeps := (kept t task).keeps
  rw [Task.result?_eq_some.mp result] at keeps
  exact keeps agentId topic metadata uuid4 now subscription request rfl

/-! ### Two runs -/

/-- A subscription that is made, deleted and made again under another id. -/
def resubscribe : List (Act (HandlerSubscription × Request) Choice Move) :=
  .start (plainSubscribe "a" 1) :: List.replicate 3 (.call 0 .run) ++
    .start (plainUnsubscribe "a") :: List.replicate 5 (.call 1 .run) ++
    .start (plainSubscribe "a" 2) :: List.replicate 3 (.call 2 .run)

def checkInsert (_ : SubscriptionPool) : SubscriptionLabel → Bool
  | .call _ _ ⟨.insert row, before, _, _⟩ =>
    before.table.rows.all fun old => old.owner != row.owner || old.id == row.id
  | _ => true

theorem insertStep_of_check {p : SubscriptionPool} {l : SubscriptionLabel}
    (check : checkInsert p l = true) : InsertStep p l := by
  rcases l with c | ⟨i, c, op, before, answered, after⟩ | m
  · trivial
  · cases op with
    | insert row =>
      rcases answered with e | _
      · trivial
      intro old mem same
      have checked := List.all_eq_true.mp check old mem
      simpa [same] using checked
    | _ => trivial
  · trivial

/-- The ids that the subscribe tasks returned. -/
def returnedIds (p : SubscriptionPool) : List UUID :=
  p.tasks.filterMap fun t =>
    match t.result? with
    | some (.ok (.subscription subscription)) => some subscription.id
    | _ => none

/-- A subscription that is made, deleted and made by another agent. -/
theorem coherent_subscribeTwice : ∃ p : SubscriptionPool, returnedIds p = [1, 2] ∧ Coherent p := by
  obtain ⟨p, reach, ids⟩ : ∃ p : SubscriptionPool,
      (world plainExternal).Reach (· = ⟨.empty, .empty⟩) InsertStep p ∧
        decide (returnedIds p = [1, 2]) = true :=
    World.Reach.of_run checkInsert _
      (.start (plainSubscribe "a" 1) :: List.replicate 3 (.call 0 .run) ++
        .start (plainUnsubscribe "a") :: List.replicate 5 (.call 1 .run) ++
        .start (plainSubscribe "b" 2) :: List.replicate 3 (.call 2 .run))
      (fun _ _ _ => insertStep_of_check) (by decide +kernel)
  refine ⟨p, of_decide_eq_true ids, coherent_of_reach (reach.mono ?_ fun _ _ met => met)⟩
  rintro s rfl
  rfl

/-- The second id is returned and cached, while the row keeps the first one. -/
theorem not_coherent_resubscribe : ¬ ∀ (X : External) (p : SubscriptionPool),
    (world X).Reach (·.cache = Cache.empty) World.Free p → Coherent p := by
  intro all
  obtain ⟨p, reach, wrong⟩ : ∃ p : SubscriptionPool,
      (world plainExternal).Reach (· = ⟨.empty, .empty⟩) World.Free p ∧
        decide (p.shared.table.rows.map (·.id) = [1] ∧
          2 ∈ p.shared.cache.sets (.agentSubscriptions "a")) = true :=
    World.Reach.of_run (fun _ _ => true) _ resubscribe (fun _ _ _ _ => trivial) (by decide +kernel)
  obtain ⟨rows, cached⟩ := of_decide_eq_true wrong
  obtain ⟨row, mem, same⟩ := (all plainExternal p
    (reach.mono (by rintro s rfl; rfl) fun _ _ met => met)).cached _ 2 cached
  have mem := List.mem_map_of_mem (f := fun row : SubscriptionRow => row.id) mem
  rw [rows, same] at mem
  exact absurd mem (by decide)

end Subscription

end OmniMemory
