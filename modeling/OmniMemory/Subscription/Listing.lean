import OmniMemory.Lib.Turns
import OmniMemory.Subscription.Coherence

/-! Listings and counts. A set of the cache is read as if it were complete. When it has expired, a
`subscribe` fills it with one id; and a `subscribe` to a deleted subscription caches an id that no
row has. Where neither happens, the sets are complete or gone in every state between two operations,
and what is listed and counted is what the table holds. -/

namespace OmniMemory

open Interleave

namespace Subscription

/-- What the surroundings do between two calls: keys of the cache go. -/
structure Drift (s s' : State) : Prop where
  table : s'.table = s.table
  sets : ∀ key, s'.cache.sets key = s.cache.sets key ∨ s'.cache.sets key = ∅
  entries : ∀ id, s'.cache.entries id = s.cache.entries id ∨ s'.cache.entries id = none

theorem Drift.refl (s : State) : Drift s s := ⟨rfl, fun _ => .inl rfl, fun _ => .inl rfl⟩

theorem Drift.trans {s s' s'' : State} (first : Drift s s') (second : Drift s' s'') :
    Drift s s'' where
  table := second.table.trans first.table
  sets key := by
    rcases second.sets key with same | gone
    · rw [same]
      exact first.sets key
    · exact .inr gone
  entries id := by
    rcases second.entries id with same | gone
    · rw [same]
      exact first.entries id
    · exact .inr gone

theorem drift_of_move {m : Move} {s s' : State} (moved : move m s = some s') : Drift s s' := by
  cases m <;> cases moved
  case expireSet key =>
    refine ⟨rfl, fun key' => ?_, fun _ => .inl rfl⟩
    simp only [State.mapCache, Cache.sets_setSet]
    split
    · exact .inr rfl
    · exact .inl rfl
  case expireEntry id =>
    refine ⟨rfl, fun _ => .inl rfl, fun id' => ?_⟩
    simp only [State.mapCache, Cache.entries_setEntry]
    split
    · exact .inr rfl
    · exact .inl rfl
  case lose => exact ⟨rfl, fun _ => .inr rfl, fun _ => .inr rfl⟩

/-- No row of the same agent and topic is there when a row is inserted. -/
def InsertsFresh : SubscriptionCall → Prop
  | ⟨.insert row, before, _, _⟩ => ∀ old ∈ before.table, old.owner ≠ row.owner
  | _ => True

/-- When ids are added to a set, it is there, or they are all that it should hold. -/
def Fills : SubscriptionCall → Prop
  | ⟨.pipeline commands, before, _, _⟩ => ∀ key ids, .sadd key ids ∈ commands →
      before.cache.sets key ≠ ∅ ∨ before.table.activeIds key ⊆ ids
  | _ => True

/-- The condition on calls: they do not fail, insert fresh rows and fill sets. -/
structure Steady (e : SubscriptionCall) : Prop where
  returns : ∃ value, e.answer = .ok value
  fresh : InsertsFresh e
  fills : Fills e

/-! ### The invariant -/

/-- Every set is gone or as in `ideal`, every entry that is not stale decodes to its row, and the
rows can be read. -/
structure Settled (X : External) (ideal : SetKey → Finset UUID) (stale : UUID → Prop)
    (s : State) : Prop where
  sets : ∀ key, s.cache.sets key = ∅ ∨ s.cache.sets key = ideal key
  entries : ∀ id subscription, ¬ stale id →
    parseEntry X (s.cache.entries id) = some subscription →
      ∃ row ∈ s.table, row.id = id ∧ subscription.toRow = row.toModel.toRow
  valid : ∀ row ∈ s.table, row.toModel.Valid

/-- What holds when no operation runs. -/
def AtRest (X : External) (s : State) : Prop := Settled X s.table.activeIds (fun _ => False) s

theorem Settled.drift {X : External} {ideal : SetKey → Finset UUID} {stale : UUID → Prop}
    {s s' : State} (settled : Settled X ideal stale s) (drift : Drift s s') :
    Settled X ideal stale s' where
  sets key := by
    rcases drift.sets key with same | gone
    · rw [same]
      exact settled.sets key
    · exact .inl gone
  entries id subscription fresh parsed := by
    rcases drift.entries id with same | gone
    · rw [drift.table]
      exact settled.entries id subscription fresh (same ▸ parsed)
    · rw [gone] at parsed
      contradiction
  valid := drift.table ▸ settled.valid

theorem AtRest.drift {X : External} {s s' : State} (rest : AtRest X s) (drift : Drift s s') :
    AtRest X s' := by
  unfold AtRest
  rw [drift.table]
  exact Settled.drift rest drift

/-! ### Changes of one row -/

/-- `t'` is `t` with `row` in place of the row with its id, if there is one. -/
structure Replaces (t t' : Subscriptions) (row : SubscriptionRow) : Prop where
  mem : ∀ r, r ∈ t' ↔ r = row ∨ r ∈ t ∧ r.id ≠ row.id
  owner : ∀ r ∈ t, r.id = row.id → r.owner = row.owner

theorem replaces_edit {t : Subscriptions} {old : SubscriptionRow} (mem : old ∈ t) (edit : Edit) :
    Replaces t (t.edit (fun row => row.id == old.id) edit) (edit.apply old) where
  mem r := by
    rw [Subscriptions.mem_edit]
    constructor
    · rintro ⟨row, there, rfl⟩
      by_cases same : row.id = old.id
      · rw [Subscriptions.eq_of_id there mem same]
        simp
      · simp [same, there]
    · rintro (rfl | ⟨there, other⟩)
      · exact ⟨old, mem, by simp⟩
      · rw [edit.id_eq] at other
        exact ⟨r, there, by simp [other]⟩
  owner r there same := by
    rw [edit.id_eq] at same
    rw [Subscriptions.eq_of_id there mem same, edit.owner_eq]

theorem replaces_insert {t t' : Subscriptions} {row : SubscriptionRow}
    (fresh : ∀ old ∈ t, old.owner ≠ row.owner) (inserted : t.insert row = some t') :
    Replaces t t' row := by
  rcases Subscriptions.insert_cases inserted with ⟨old, mem, same, -⟩ | ⟨-, ids, rows⟩
  · exact absurd same (fresh old mem)
  · refine ⟨fun r => ?_, fun r there same => absurd same (ids r there)⟩
    rw [Subscriptions.mem_def, rows, List.mem_append, List.mem_singleton, ← Subscriptions.mem_def,
      or_comm]
    exact or_congr_right ⟨fun there => ⟨there, ids r there⟩, And.left⟩

section Replaces

variable {X : External} {t t' : Subscriptions} {row : SubscriptionRow}

theorem Replaces.mem_activeIds (replaces : Replaces t t' row) {key : SetKey} {id : UUID} :
    id ∈ t'.activeIds key ↔
      id = row.id ∧ key.active row = true ∨ id ≠ row.id ∧ id ∈ t.activeIds key := by
  simp only [Subscriptions.mem_activeIds]
  constructor
  · rintro ⟨r, mem, active, rfl⟩
    rcases (replaces.mem r).mp mem with rfl | ⟨mem, other⟩
    · exact .inl ⟨rfl, active⟩
    · exact .inr ⟨other, r, mem, active, rfl⟩
  · rintro (⟨rfl, active⟩ | ⟨other, r, mem, active, rfl⟩)
    · exact ⟨row, (replaces.mem row).mpr (.inl rfl), active, rfl⟩
    · exact ⟨r, (replaces.mem r).mpr (.inr ⟨mem, other⟩), active, rfl⟩

/-- A set that the row can be in. -/
def SetKey.covers : SetKey → SubscriptionRow → Prop
  | topicSubscribers topic, row => row.topic = topic
  | agentSubscriptions agentId, row => row.agentId = agentId

theorem SetKey.active_iff {key : SetKey} : key.active row = true ↔
    key.covers row ∧ row.status = .active := by
  cases key with
  | topicSubscribers topic => simp [SetKey.active, Subscriptions.activeFor, SetKey.covers]
  | agentSubscriptions agentId => simp [SetKey.active, Subscriptions.activeOf, SetKey.covers]

theorem SetKey.covers_of_owner {key : SetKey} {old : SubscriptionRow}
    (same : old.owner = row.owner) (covers : key.covers old) : key.covers row := by
  obtain ⟨agent, topic⟩ := Prod.mk.inj same
  cases key with
  | topicSubscribers => exact topic.symm.trans covers
  | agentSubscriptions => exact agent.symm.trans covers

/-- A set that the row cannot be in stays as it is. -/
theorem Replaces.activeIds_eq (replaces : Replaces t t' row) {key : SetKey}
    (other : ¬ key.covers row) : t'.activeIds key = t.activeIds key := by
  ext id
  rw [replaces.mem_activeIds]
  constructor
  · rintro (⟨-, active⟩ | ⟨-, old⟩)
    · exact absurd (SetKey.active_iff.mp active).1 other
    · exact old
  · intro old
    refine .inr ⟨?_, old⟩
    rintro rfl
    obtain ⟨r, mem, active, same⟩ := Subscriptions.mem_activeIds.mp old
    exact other (SetKey.covers_of_owner (replaces.owner r mem same)
      (SetKey.active_iff.mp active).1)

/-- When a row has changed in the table, the cache is as before, and only the entry of the row is
stale. -/
theorem Replaces.settled (replaces : Replaces t t' row) {cache : Cache}
    (rest : AtRest X ⟨t, cache⟩) (valid : row.toModel.Valid) :
    Settled X t.activeIds (· = row.id) ⟨t', cache⟩ where
  sets := rest.sets
  entries id subscription other parsed := by
    obtain ⟨r, mem, rfl, same⟩ := rest.entries id subscription not_false parsed
    exact ⟨r, (replaces.mem r).mpr (.inr ⟨mem, other⟩), rfl, same⟩
  valid r mem := by
    rcases (replaces.mem r).mp mem with rfl | ⟨mem, -⟩
    · exact valid
    · exact rest.valid r mem

end Replaces

/-! ### The operations -/

section Leads

variable {X : External} {h : List SubscriptionCall} {s : State} {α : Type}

theorem leads_call {Q : α → List SubscriptionCall → State → Prop} {op : Op}
    {next : Res op → SubscriptionProg α}
    (rest : ∀ (before : State) (value : Value op), Drift s before →
      (world X).Calls ⟨op, before, .ok value, (answer X op before).2⟩ →
      Steady ⟨op, before, .ok value, (answer X op before).2⟩ →
      (world X).Leads Drift Steady Q (next (.ok value))
        (h ++ [⟨op, before, .ok value, (answer X op before).2⟩]) (answer X op before).2) :
    (world X).Leads Drift Steady Q (Prog.perform op >>= next) h s := by
  intro before drift answered after call steady
  obtain ⟨value, rfl⟩ : ∃ value : Value op, answered = .ok value := steady.returns
  obtain rfl := after_eq_of_ok call
  exact rest before value drift call steady

theorem getSubscriptionByAgentAndTopic_leads (reads : X.Reads) (agentId topic : String)
    (rest : AtRest X s) :
    (world X).Leads Drift Steady
      (fun out _ s' => AtRest X s' ∧ ∀ subscription, out = .ok (some subscription) →
        ∃ row ∈ s'.table, row.owner = (agentId, topic) ∧ subscription = row.toModel)
      (HandlerSubscription.getSubscriptionByAgentAndTopic X agentId topic) h s := by
  refine leads_call fun before rows drift call _ => ?_
  have rest' : AtRest X before := rest.drift drift
  rcases rows with _ | ⟨first, others⟩
  · exact ⟨rest', nofun⟩
  refine ⟨rest', fun subscription read => ?_⟩
  obtain ⟨listed, lists, rows⟩ := query_cases call
  obtain ⟨row, others', rfl, rfl, -⟩ := List.map_eq_cons_iff.mp rows.symm
  obtain ⟨mem, selected⟩ := lists.mem.mp List.mem_cons_self
  simp only [Query.selects, Bool.and_eq_true, beq_iff_eq] at selected
  rw [reads.row, ModelSubscription.check_eq_ok.mpr ⟨rest'.valid row mem, rfl⟩] at read
  cases read
  exact ⟨row, mem, selected.1, rfl⟩

/-- The row of a subscription was written, and the cache was not updated yet. -/
def Written (X : External) (row : SubscriptionRow) (s : State) : Prop :=
  ∃ t, Replaces t s.table row ∧ Settled X t.activeIds (· = row.id) s

theorem Written.drift {row : SubscriptionRow} {s' : State} (written : Written X row s)
    (drift : Drift s s') : Written X row s' := by
  obtain ⟨t, replaces, settled⟩ := written
  exact ⟨t, drift.table ▸ replaces, settled.drift drift⟩

theorem sadd_mem_subscribeCommands {subscription : ModelSubscription} {key : SetKey}
    {ids : Finset UUID} :
    .sadd key ids ∈ HandlerSubscription.subscribeCommands X subscription ↔
      key.covers subscription.toRow ∧ ids = {subscription.id} := by
  cases key <;> simp [HandlerSubscription.subscribeCommands, SetKey.covers,
    ModelSubscription.toRow, eq_comm]

/-- What the pipeline of `subscribe` adds to the sets. -/
theorem mem_sets_subscribeCommands {subscription : ModelSubscription} {cache : Cache}
    {key : SetKey} {id : UUID} :
    id ∈ (cache.execute (HandlerSubscription.subscribeCommands X subscription)).sets key ↔
      id ∈ cache.sets key ∨ key.covers subscription.toRow ∧ id = subscription.id := by
  rw [mem_execute]
  refine or_congr_right ?_
  simp only [sadd_mem_subscribeCommands]
  constructor
  · rintro ⟨ids, ⟨covers, rfl⟩, here⟩
    exact ⟨covers, Finset.mem_singleton.mp here⟩
  · rintro ⟨covers, rfl⟩
    exact ⟨_, ⟨covers, rfl⟩, Finset.mem_singleton_self _⟩

/-- What it writes under the ids. -/
theorem entries_subscribeCommands {subscription : ModelSubscription} {cache : Cache} {id : UUID} :
    (cache.execute (HandlerSubscription.subscribeCommands X subscription)).entries id =
      if id = subscription.id then some (X.modelDumpJson subscription)
      else cache.entries id := by
  simp [Cache.execute, HandlerSubscription.subscribeCommands, Command.apply,
    Cache.entries_setEntry]

/-- The row of a subscription is read back as it was written, an empty metadata as none. -/
theorem toRow_toModel_toRow (subscription : ModelSubscription) :
    subscription.toRow = subscription.toRow.toModel.toRow := by
  simp only [ModelSubscription.toRow, SubscriptionRow.toModel]
  congr 1
  rcases subscription.metadata with _ | metadata
  · rfl
  · simp only [metadataParameter]
    split
    · rfl
    · rename_i some
      simp [some]

/-- The pipeline of `subscribe` brings the cache up to date. -/
theorem Written.subscribed {subscription : ModelSubscription}
    (decodes : ∀ s s', parseEntry X (some (X.modelDumpJson s)) = some s' → s' = s)
    (active : subscription.status = .active) (written : Written X subscription.toRow s)
    {answered : Except PyError Unit} {after : State}
    (fills : Fills ⟨.pipeline (HandlerSubscription.subscribeCommands X subscription), s, answered,
      after⟩) :
    AtRest X (s.mapCache fun cache =>
      cache.execute (HandlerSubscription.subscribeCommands X subscription)) := by
  obtain ⟨t, replaces, settled⟩ := written
  have activeRow : subscription.toRow.status = .active := active
  refine ⟨fun key => ?_, fun id decoded _ parsed => ?_, settled.valid⟩
  · by_cases covers : key.covers subscription.toRow
    · right
      have own : key.active subscription.toRow = true := SetKey.active_iff.mpr ⟨covers, activeRow⟩
      ext id
      simp only [State.mapCache, mem_sets_subscribeCommands, covers, true_and]
      rcases settled.sets key with gone | full
      · -- The set was gone, so the new id is all that it should hold.
        have all := (fills key _ (sadd_mem_subscribeCommands.mpr ⟨covers, rfl⟩)).resolve_left
          (not_not_intro gone)
        constructor
        · rintro (old | rfl)
          · simp [gone] at old
          · exact replaces.mem_activeIds.mpr (.inl ⟨rfl, own⟩)
        · exact fun new => .inr (Finset.mem_singleton.mp (all new))
      · have same : subscription.toRow.id = subscription.id := rfl
        rw [full, replaces.mem_activeIds, same]
        by_cases here : id = subscription.id
        · simp [here, own]
        · simp [here]
    · have same : (s.cache.execute
          (HandlerSubscription.subscribeCommands X subscription)).sets key = s.cache.sets key := by
        ext id
        rw [mem_sets_subscribeCommands]
        simp [covers]
      simp only [State.mapCache, same]
      rw [replaces.activeIds_eq covers]
      exact settled.sets key
  · simp only [State.mapCache, entries_subscribeCommands] at parsed
    split at parsed
    · rename_i same
      rw [decodes _ _ parsed, same]
      exact ⟨subscription.toRow, (replaces.mem _).mpr (.inl rfl), rfl,
        toRow_toModel_toRow subscription⟩
    · rename_i other
      exact settled.entries id decoded other parsed

theorem subscribe_leads (reads : X.Reads)
    (decodes : ∀ s s', parseEntry X (some (X.modelDumpJson s)) = some s' → s' = s)
    (agentId topic : String) (metadata : Option Metadata) (uuid4 : UUID) (now : DateTime)
    (rest : AtRest X s) :
    (world X).Leads Drift Steady (fun _ _ s' => AtRest X s')
      (HandlerSubscription.subscribe X agentId topic metadata uuid4 now) h s := by
  unfold HandlerSubscription.subscribe
  split
  · exact rest
  refine (getSubscriptionByAgentAndTopic_leads reads agentId topic rest).seq fun out h s found => ?_
  obtain ⟨rest, found⟩ := found
  rcases out with e | existing
  · exact rest
  dsimp only
  split
  · exact rest
  rename_i subscription checked
  obtain ⟨valid, rfl⟩ := ModelSubscription.check_eq_ok.mp checked
  generalize new : HandlerSubscription.newSubscription agentId topic metadata uuid4 now existing =
    subscription at valid
  have active : subscription.status = .active := by
    rw [← new]
    rfl
  have validRow : subscription.toRow.toModel.Valid := valid
  -- The row is written: an old one is changed, or a fresh one is inserted.
  have written : (world X).Leads Drift Steady
      (fun out _ s' => ∃ value, out = .ok value ∧ Written X subscription.toRow s')
      (HandlerSubscription.persistSubscription subscription existing.isSome) h s := by
    cases existing with
    | none =>
      refine leads_call fun before value drift call steady => ?_
      refine ⟨value, rfl, before.table, ?_⟩
      obtain ⟨t, inserted, -⟩ := inserted_of_ok call
      have replaces := replaces_insert steady.fresh inserted
      simp only [answer, inserted]
      exact ⟨replaces, replaces.settled (rest.drift drift) validRow⟩
    | some old =>
      obtain ⟨row, mem, owner, rfl⟩ := found old rfl
      refine leads_call fun before value drift call steady => ?_
      refine ⟨value, rfl, before.table, ?_⟩
      have replaces := replaces_edit (t := before.table) (drift.table ▸ mem)
        (.renew subscription.status subscription.updatedAt (metadataParameter subscription.metadata))
      have same : (Edit.renew subscription.status subscription.updatedAt
          (metadataParameter subscription.metadata)).apply row = subscription.toRow := by
        obtain ⟨agent, topic⟩ := Prod.mk.inj owner
        rw [← new]
        simp [Edit.renew, ModelSubscription.toRow, HandlerSubscription.newSubscription,
          SubscriptionRow.toModel, agent, topic]
      have id : subscription.id = row.id := congrArg SubscriptionRow.id same.symm
      rw [same] at replaces
      simp only [answer, State.editRow, id]
      exact ⟨replaces, replaces.settled (rest.drift drift) validRow⟩
  refine written.seq fun out _ s written => ?_
  obtain ⟨value, rfl, written⟩ := written
  refine leads_call fun before _ drift _ steady => ?_
  exact (written.drift drift).subscribed decodes active steady.fills

/-- Nothing is stale any more when the id of a deleted row has left its sets and its entry. -/
theorem evict_leads {t : Subscriptions} {row : SubscriptionRow} (replaces : Replaces t s.table row)
    (deleted : row.status ≠ .active) (settled : Settled X t.activeIds (· = row.id) s) :
    (world X).Leads Drift Steady (fun _ _ s' => AtRest X s')
      (HandlerSubscription.evict row.agentId row.topic row.id) h s := by
  have srem : ∀ {ideal : SetKey → Finset UUID} {s : State} (key : SetKey),
      Settled X ideal (· = row.id) s →
        Settled X (Function.update ideal key ((ideal key).erase row.id)) (· = row.id)
          (answer X (.srem key row.id) s).2 := by
    intro ideal s key settled
    refine ⟨fun key' => ?_, settled.entries, settled.valid⟩
    simp only [answer, State.mapCache, Cache.sets_setSet, Function.update_apply]
    split
    · rcases settled.sets key with gone | full
      · simp [gone]
      · simp [full]
    · exact settled.sets key'
  unfold HandlerSubscription.evict
  refine leads_call fun before _ drift _ _ => ?_
  have settled := srem (.topicSubscribers row.topic) (settled.drift drift)
  have table : (answer X (.srem (.topicSubscribers row.topic) row.id) before).2.table = s.table :=
    drift.table
  refine leads_call fun before _ drift _ _ => ?_
  have settled := srem (.agentSubscriptions row.agentId) (settled.drift drift)
  have table : (answer X (.srem (.agentSubscriptions row.agentId) row.id) before).2.table =
    s.table := drift.table.trans table
  refine leads_call fun before _ drift _ _ => ?_
  have settled := settled.drift drift
  have table : before.table = s.table := drift.table.trans table
  -- In every set the id is erased, or was not there.
  have ideal : ∀ key, s.table.activeIds key = (t.activeIds key).erase row.id := by
    intro key
    ext id
    rw [replaces.mem_activeIds, Finset.mem_erase]
    simp [SetKey.active_iff, deleted]
  have final : ∀ key, before.cache.sets key = ∅ ∨
      before.cache.sets key = s.table.activeIds key := by
    intro key
    refine (settled.sets key).imp_right fun full => ?_
    rw [full, Function.update_apply]
    split
    · rename_i here
      have other : SetKey.agentSubscriptions row.agentId ≠ .topicSubscribers row.topic := by simp
      rw [here, Function.update_of_ne other, ← ideal]
    · rename_i agent
      rw [Function.update_apply]
      split
      · rename_i here
        rw [here, ← ideal]
      · rename_i topic
        refine (replaces.activeIds_eq fun covers => ?_).symm
        cases key with
        | topicSubscribers => exact topic (congrArg SetKey.topicSubscribers covers.symm)
        | agentSubscriptions => exact agent (congrArg SetKey.agentSubscriptions covers.symm)
  refine ⟨fun key => ?_, fun id subscription _ parsed => ?_, settled.valid⟩
  · simp only [answer, State.mapCache, Cache.sets_setEntry, table]
    exact final key
  · simp only [answer, State.mapCache, Cache.entries_setEntry] at parsed
    split at parsed
    · contradiction
    · rename_i other
      exact settled.entries id subscription other parsed

theorem unsubscribe_leads (reads : X.Reads) (agentId topic : String) (now : DateTime)
    (rest : AtRest X s) :
    (world X).Leads Drift Steady (fun _ _ s' => AtRest X s')
      (HandlerSubscription.unsubscribe X agentId topic now) h s := by
  refine (getSubscriptionByAgentAndTopic_leads reads agentId topic rest).seq fun out h s found => ?_
  obtain ⟨rest, found⟩ := found
  rcases out with e | _ | subscription
  · exact rest
  · exact rest
  obtain ⟨row, mem, owner, rfl⟩ := found subscription rfl
  obtain ⟨rfl, rfl⟩ := Prod.mk.inj owner
  refine leads_call fun before _ drift _ _ => ?_
  have mem : row ∈ before.table := drift.table ▸ mem
  have rest := rest.drift drift
  have replaces := replaces_edit mem (.status .deleted now)
  have settled := replaces.settled rest (rest.valid row mem)
  have deleted : ((Edit.status .deleted now).apply row).status ≠ .active := by simp [Edit.status]
  exact (evict_leads replaces deleted settled).seq fun _ _ _ evicted => evicted

/-- A set that is gone or full can be filled. -/
theorem AtRest.fill (rest : AtRest X s) (key : SetKey) :
    AtRest X (s.mapCache fun cache =>
      cache.execute [.sadd key (s.table.activeIds key), .expire key]) where
  sets key' := by
    simp only [State.mapCache, Cache.execute, List.foldl_cons, List.foldl_nil, Command.apply,
      Cache.sets_setSet]
    split
    · rename_i same
      subst same
      right
      rcases rest.sets key' with gone | full
      · simp [gone]
      · simp [full]
    · exact rest.sets key'
  entries := rest.entries
  valid := rest.valid

theorem smembers_eq {key : SetKey} {before after : State} {ids : Finset UUID}
    (call : (world X).Calls ⟨.smembers key, before, .ok ids, after⟩) :
    ids = before.cache.sets key := by
  obtain ⟨ch, call⟩ := call
  cases ch <;> simp [world, exec, answer] at call
  exact call.1.symm

theorem subscribersFromDb_leads (topic : String) (rest : AtRest X s) :
    (world X).Leads Drift Steady (fun out _ s' => AtRest X s' ∧
        out = .ok (s'.table.activeIds (.topicSubscribers topic)))
      (HandlerSubscription.subscribersFromDb topic) h s := by
  refine leads_call fun before ids drift call _ => ?_
  have rest := rest.drift drift
  dsimp only
  rw [queryIds_cases call]
  split
  · exact ⟨rest, rfl⟩
  refine leads_call fun before' _ drift _ _ => ?_
  have table : before'.table = before.table := drift.table
  rw [← table]
  exact ⟨(rest.drift drift).fill _, rfl⟩

theorem getSubscribersForTopic_leads (topic : String) (rest : AtRest X s) :
    (world X).Leads Drift Steady (fun out _ s' => AtRest X s' ∧
        out = .ok (s'.table.activeIds (.topicSubscribers topic)))
      (HandlerSubscription.getSubscribersForTopic topic) h s := by
  refine leads_call fun before ids drift call _ => ?_
  have rest := rest.drift drift
  have members := smembers_eq call
  dsimp only
  split
  · exact subscribersFromDb_leads topic rest
  rename_i some
  have full := (rest.sets (.topicSubscribers topic)).resolve_left (members ▸ some)
  refine leads_call fun before' _ drift _ _ => ?_
  have table : before'.table = before.table := drift.table
  refine ⟨rest.drift drift, ?_⟩
  rw [members, full, ← table]
  rfl

theorem notify_leads (self : HandlerSubscription) (topic : String) (event : ModelNotificationEvent)
    (strict : Bool) (rest : AtRest X s) :
    (world X).Leads Drift Steady (fun out _ s' => AtRest X s' ∧ (event.topic = topic →
        out = .ok (s'.table.activeIds (.topicSubscribers topic)).card))
      (self.notify topic event strict) h s := by
  unfold HandlerSubscription.notify
  split
  · rename_i other
    exact ⟨rest, fun same => absurd same other⟩
  refine (getSubscribersForTopic_leads topic rest).seq fun out h s found => ?_
  obtain ⟨rest, rfl⟩ := found
  dsimp only
  split
  · rename_i none
    exact ⟨rest, fun _ => by rw [none]⟩
  refine leads_call fun before _ drift _ _ => ?_
  have table : before.table = s.table := drift.table
  refine ⟨rest.drift drift, fun _ => ?_⟩
  rw [← table]
  rfl

/-! ### Listings -/

/-- What the listed subscriptions are of, up to an empty map of metadata, which is stored as
NULL. -/
def Lists (t : Subscriptions) (selected : SubscriptionRow → Bool)
    (subscriptions : List ModelSubscription) : Prop :=
  (subscriptions.map (·.toRow)).Perm ((t.rows.filter selected).map (·.toModel.toRow))

theorem getSubscriptionsFromDb_leads (reads : X.Reads) (agentId : String) (rest : AtRest X s) :
    (world X).Leads Drift Steady (fun out _ s' => AtRest X s' ∧ ∃ subscriptions,
        out = .ok subscriptions ∧ Lists s'.table (Subscriptions.activeOf agentId) subscriptions)
      (HandlerSubscription.getSubscriptionsFromDb X agentId) h s := by
  refine leads_call fun before rows drift call _ => ?_
  have rest := rest.drift drift
  obtain ⟨listed, lists, rfl⟩ := query_cases call
  refine ⟨rest, listed.map (·.toModel), ?_, ?_⟩
  · exact reads.rows.mpr ⟨fun row mem => rest.valid row (lists.mem.mp mem).1, rfl⟩
  · rw [Lists, List.map_map]
    exact lists.1.map _

theorem AtRest.setEntry (rest : AtRest X s)
    (decodes : ∀ s s', parseEntry X (some (X.modelDumpJson s)) = some s' → s' = s)
    {row : SubscriptionRow} (mem : row ∈ s.table) :
    AtRest X (s.mapCache fun cache =>
      cache.setEntry row.id (some (X.modelDumpJson row.toModel))) where
  sets := rest.sets
  entries id subscription _ parsed := by
    simp only [State.mapCache, Cache.entries_setEntry] at parsed
    split at parsed
    · rename_i same
      rw [decodes _ _ parsed]
      exact ⟨row, mem, same.symm, rfl⟩
    · exact rest.entries id subscription not_false parsed
  valid := rest.valid

theorem loadRows_leads (reads : X.Reads)
    (decodes : ∀ s s', parseEntry X (some (X.modelDumpJson s)) = some s' → s' = s)
    (rows : List SubscriptionRow) (subscriptions : List ModelSubscription)
    (mem : ∀ row ∈ rows, row ∈ s.table) (rest : AtRest X s) :
    (world X).Leads Drift Steady (fun out _ s' => AtRest X s' ∧
        out = .ok (subscriptions ++ rows.map (·.toModel)))
      (HandlerSubscription.loadRows X (rows.map X.driverRow) subscriptions) h s := by
  induction rows generalizing subscriptions h s with
  | nil => exact ⟨rest, by rw [List.map_nil, List.append_nil]⟩
  | cons row others ih =>
    obtain ⟨here, later⟩ := List.forall_mem_cons.mp mem
    simp only [List.map_cons]
    rw [HandlerSubscription.loadRows, reads.row,
      ModelSubscription.check_eq_ok.mpr ⟨rest.valid row here, rfl⟩]
    refine leads_call fun before _ drift _ _ => ?_
    have table : before.table = s.table := drift.table
    have rest := (rest.drift drift).setEntry decodes (table ▸ here)
    refine (ih (subscriptions ++ [row.toModel]) (fun row mem => ?_) rest).imp ?_
    · exact table ▸ later row mem
    · rintro out _ s' ⟨rest, rfl⟩
      exact ⟨rest, by simp⟩

theorem loadMissing_leads (reads : X.Reads)
    (decodes : ∀ s s', parseEntry X (some (X.modelDumpJson s)) = some s' → s' = s)
    (subscriptions : List ModelSubscription) (missingIds : Finset UUID) (rest : AtRest X s) :
    (world X).Leads Drift Steady (fun out _ s' => AtRest X s' ∧ ∀ loaded, out = .ok loaded →
        ∃ rows : List SubscriptionRow, rows.Perm (s.table.rows.filter fun row => row.id ∈ missingIds) ∧
          loaded = subscriptions ++ rows.map (·.toModel))
      (HandlerSubscription.loadMissing X subscriptions missingIds) h s := by
  unfold HandlerSubscription.loadMissing
  split
  · rename_i none
    refine ⟨rest, ?_⟩
    rintro _ ⟨⟩
    exact ⟨[], by simp [none], by simp⟩
  split
  · exact ⟨rest, nofun⟩
  refine leads_call fun before rows drift call _ => ?_
  have rest := rest.drift drift
  have table : before.table = s.table := drift.table
  obtain ⟨listed, lists, rfl⟩ := query_cases call
  refine (loadRows_leads reads decodes listed subscriptions (fun row mem => (lists.mem.mp mem).1)
    rest).imp ?_
  rintro out _ s' ⟨rest, rfl⟩
  refine ⟨rest, ?_⟩
  rintro _ ⟨⟩
  exact ⟨listed, table ▸ lists.1, rfl⟩

theorem mget_cases {ids : Finset UUID} {before after : State} {cached : List (UUID × Option String)}
    (call : (world X).Calls ⟨.mget ids, before, .ok cached, after⟩) :
    ∃ listed : List UUID, listed.Nodup ∧ listed.toFinset = ids ∧
      cached = listed.map fun id => (id, before.cache.entries id) := by
  obtain ⟨ch, call⟩ := call
  cases ch <;> simp [world, exec, answer] at call
  case run =>
    exact ⟨_, Finset.sort_nodup _ _, Finset.sort_toFinset _ _, call.1.symm⟩
  case members listed => exact ⟨listed, call.1.1, call.1.2, call.2.1.symm⟩

end Leads

section Loaded

variable {t : Subscriptions} {listed : List UUID} {entry : UUID → Option ModelSubscription}

/-- Each of the ids was loaded once, as the row that has it. -/
structure Loaded (t : Subscriptions) (ids : Finset UUID)
    (subscriptions : List ModelSubscription) : Prop where
  once : (subscriptions.map (·.id)).Nodup
  rows : ∀ r, (∃ subscription ∈ subscriptions, subscription.toRow = r) ↔
    ∃ row ∈ t, row.id ∈ ids ∧ row.toModel.toRow = r

theorem ids_filterMap (own : ∀ id subscription, entry id = some subscription → subscription.id = id)
    (listed : List UUID) :
    (listed.filterMap entry).map (·.id) = listed.filter fun id => (entry id).isSome := by
  induction listed with
  | nil => rfl
  | cons id rest ih =>
    cases here : entry id with
    | none => simp [here, ih]
    | some subscription => simp [here, ih, own id subscription here]

/-- The ids that are in the cache and those that are not, together. -/
theorem loaded_of_parts (nodup : listed.Nodup)
    (entries : ∀ id subscription, entry id = some subscription →
      ∃ row ∈ t, row.id = id ∧ subscription.toRow = row.toModel.toRow)
    {rows : List SubscriptionRow}
    (missing : rows.Perm (t.rows.filter fun row =>
      row.id ∈ (listed.filter fun id => (entry id).isNone).toFinset)) :
    Loaded t listed.toFinset (listed.filterMap entry ++ rows.map (·.toModel)) := by
  have own : ∀ id subscription, entry id = some subscription → subscription.id = id := by
    intro id subscription here
    obtain ⟨row, -, rfl, same⟩ := entries id subscription here
    exact congrArg SubscriptionRow.id same
  have mem : ∀ row, row ∈ rows ↔ row ∈ t ∧ row.id ∈ listed ∧ entry row.id = none := by
    intro row
    rw [missing.mem_iff]
    simp [Subscriptions.mem_def]
  have ids : (rows.map (·.toModel)).map (·.id) = rows.map (·.id) := by
    rw [List.map_map]
    rfl
  constructor
  · rw [List.map_append, ids_filterMap own, ids]
    refine (nodup.filter _).append ?_ ?_
    · refine (missing.map _).nodup_iff.mpr ?_
      exact t.primaryKey.sublist (List.filter_sublist.map _)
    · rintro id hit here
      obtain ⟨row, there, rfl⟩ := List.mem_map.mp here
      have none := ((mem row).mp there).2.2
      simp [none] at hit
  · intro r
    simp only [List.mem_append, List.mem_filterMap, List.mem_map, List.mem_toFinset]
    constructor
    · rintro ⟨subscription, ⟨id, there, hit⟩ | ⟨row, there, rfl⟩, rfl⟩
      · obtain ⟨row, mem, rfl, same⟩ := entries id subscription hit
        exact ⟨row, mem, there, same.symm⟩
      · obtain ⟨mem, listed, -⟩ := (mem row).mp there
        exact ⟨row, mem, listed, rfl⟩
    · rintro ⟨row, there, here, rfl⟩
      cases hit : entry row.id with
      | none => exact ⟨row.toModel, .inr ⟨row, (mem row).mpr ⟨there, here, hit⟩, rfl⟩, rfl⟩
      | some subscription =>
        obtain ⟨row', there', same, toRow⟩ := entries row.id subscription hit
        obtain rfl := Subscriptions.eq_of_id there' there same
        exact ⟨subscription, .inl ⟨row'.id, here, hit⟩, toRow⟩

/-- When the ids are those of the ACTIVE rows of an agent, these are listed. -/
theorem Loaded.lists {agentId : String} {subscriptions : List ModelSubscription}
    (loaded : Loaded t (t.activeIds (.agentSubscriptions agentId)) subscriptions) :
    Lists t (Subscriptions.activeOf agentId) (subscriptions.filter (·.status == .active)) := by
  have rows : ∀ r, (∃ subscription ∈ subscriptions, subscription.toRow = r) ↔
      ∃ row ∈ t, Subscriptions.activeOf agentId row = true ∧ row.toModel.toRow = r := by
    intro r
    rw [loaded.rows]
    constructor
    · rintro ⟨row, mem, here, same⟩
      obtain ⟨row', mem', active, id⟩ := Subscriptions.mem_activeIds.mp here
      obtain rfl := Subscriptions.eq_of_id mem' mem id
      exact ⟨row', mem, active, same⟩
    · rintro ⟨row, mem, active, same⟩
      exact ⟨row, mem, Subscriptions.mem_activeIds.mpr ⟨row, mem, active, rfl⟩, same⟩
  have all : subscriptions.filter (·.status == .active) = subscriptions := by
    refine List.filter_eq_self.mpr fun subscription mem => ?_
    obtain ⟨row, -, active, same⟩ := (rows _).mp ⟨subscription, mem, rfl⟩
    have status : row.status = subscription.status := congrArg SubscriptionRow.status same
    simp only [Subscriptions.activeOf, Bool.and_eq_true, beq_iff_eq] at active
    simp [← status, active.2]
  have ids (l : List ModelSubscription) : (l.map (·.toRow)).map (·.id) = l.map (·.id) := by
    rw [List.map_map]
    rfl
  rw [all, Lists]
  refine (List.perm_ext_iff_of_nodup ?_ ?_).mpr fun r => ?_
  · refine List.Nodup.of_map (·.id) ?_
    rw [ids]
    exact loaded.once
  · refine List.Nodup.of_map (·.id) ?_
    rw [List.map_map]
    exact t.primaryKey.sublist (List.filter_sublist.map _)
  · rw [List.mem_map, rows]
    simp [Subscriptions.mem_def, and_assoc]

end Loaded

section Leads

variable {X : External} {h : List SubscriptionCall} {s : State}

theorem loadSubscriptions_leads (reads : X.Reads)
    (decodes : ∀ s s', parseEntry X (some (X.modelDumpJson s)) = some s' → s' = s)
    (ids : Finset UUID) (rest : AtRest X s) :
    (world X).Leads Drift Steady (fun out _ s' => AtRest X s' ∧
        ∀ loaded, out = .ok loaded → Loaded s.table ids loaded)
      (HandlerSubscription.loadSubscriptions X ids) h s := by
  unfold HandlerSubscription.loadSubscriptions
  split
  · rename_i none
    refine ⟨rest, ?_⟩
    rintro _ ⟨⟩
    exact ⟨List.nodup_nil, by simp [none]⟩
  refine leads_call fun before cached drift call _ => ?_
  have rest := rest.drift drift
  have table : before.table = s.table := drift.table
  obtain ⟨listed, nodup, rfl, rfl⟩ := mget_cases call
  have parts : ∀ rows : List SubscriptionRow, rows.Perm (s.table.rows.filter fun row =>
      row.id ∈ (listed.filter fun id => (parseEntry X (before.cache.entries id)).isNone).toFinset) →
        Loaded s.table listed.toFinset (listed.filterMap (fun id =>
          parseEntry X (before.cache.entries id)) ++ rows.map (·.toModel)) := by
    refine fun rows missing => loaded_of_parts nodup (fun id subscription parsed => ?_) missing
    rw [← table]
    exact rest.entries id subscription not_false parsed
  have hits : (listed.map fun id => (id, before.cache.entries id)).filterMap
      (fun entry => parseEntry X entry.2) =
        listed.filterMap fun id => parseEntry X (before.cache.entries id) := by
    rw [List.filterMap_map]
    rfl
  have misses : ((listed.map fun id => (id, before.cache.entries id)).filter
      fun entry => (parseEntry X entry.2).isNone).map (·.1) =
        listed.filter fun id => (parseEntry X (before.cache.entries id)).isNone := by
    rw [List.filter_map, List.map_map]
    exact List.map_id _
  -- The rows that were not in the cache complete the ones that were.
  have complete : ∀ {h : List SubscriptionCall} {s' : State}, s'.table = s.table → AtRest X s' →
      (world X).Leads Drift Steady (fun out _ s' => AtRest X s' ∧
          ∀ loaded, out = .ok loaded → Loaded s.table listed.toFinset loaded)
        (HandlerSubscription.loadMissing X
          (listed.filterMap fun id => parseEntry X (before.cache.entries id))
          (listed.filter fun id => (parseEntry X (before.cache.entries id)).isNone).toFinset)
        h s' := by
    intro h s' table rest
    refine (loadMissing_leads reads decodes _ _ rest).imp ?_
    rintro out _ s' ⟨rest, loads⟩
    refine ⟨rest, fun loaded returned => ?_⟩
    obtain ⟨rows, missing, rfl⟩ := loads loaded returned
    exact parts rows (table ▸ missing)
  dsimp only
  rw [hits, misses]
  split
  · exact complete table rest
  refine leads_call fun before' _ drift' _ _ => ?_
  have same : ∀ (cache : Cache) (subscriptions : List ModelSubscription), cache.execute
      (subscriptions.map fun subscription => .expireEntry subscription.id) = cache := by
    intro cache subscriptions
    induction subscriptions with
    | nil => rfl
    | cons _ _ ih => exact ih
  have table' : before'.table = s.table := drift'.table.trans table
  refine complete table' ?_
  simp only [answer, State.mapCache, same]
  exact rest.drift drift'

theorem listAll_leads (reads : X.Reads)
    (decodes : ∀ s s', parseEntry X (some (X.modelDumpJson s)) = some s' → s' = s)
    (agentId : String) (rest : AtRest X s) :
    (world X).Leads Drift Steady (fun out _ s' => AtRest X s' ∧ ∃ subscriptions,
        out = .ok subscriptions ∧ Lists s'.table (Subscriptions.activeOf agentId) subscriptions)
      (HandlerSubscription.listAll X agentId) h s := by
  refine leads_call fun before ids drift call _ => ?_
  have rest := rest.drift drift
  have members := smembers_eq call
  dsimp only
  split
  · exact getSubscriptionsFromDb_leads reads agentId rest
  rename_i some
  have full := (rest.sets (.agentSubscriptions agentId)).resolve_left (members ▸ some)
  rw [members, full]
  have loads (h : List SubscriptionCall) := loadSubscriptions_leads (h := h) reads decodes
    (before.table.activeIds (.agentSubscriptions agentId)) rest
  have still : ∀ s s', Drift s s' → s'.table = s.table := fun _ _ => Drift.table
  refine ((loads _).steady (uses_loadSubscriptions _) (fun e reading => table_eq reading.1) still).seq
    fun out h s found => ?_
  obtain ⟨⟨rest, loaded⟩, table, -⟩ := found
  rcases out with e | subscriptions
  · exact getSubscriptionsFromDb_leads reads agentId rest
  · exact ⟨rest, _, rfl, table ▸ (loaded subscriptions rfl).lists⟩

/-! ### Runs -/

/-- What an operation tells of the table: while it ran, the table held the subscriptions that it
listed, or as many as it counted. -/
structure Tells (request : Request) (out : Except PyError Reply) (calls : List SubscriptionCall) :
    Prop where
  listed : ∀ agentId, request = .listSubscriptions agentId none 0 → calls ≠ [] ∧
    ∃ subscriptions, out = .ok (.listing (.all subscriptions)) ∧
      ∀ e ∈ calls, Lists e.before.table (Subscriptions.activeOf agentId) subscriptions
  counted : ∀ topic event strict, request = .notify topic event strict → event.topic = topic →
    calls ≠ [] ∧ ∃ count, out = .ok (.subscribers count) ∧
      ∀ e ∈ calls, count = (e.before.table.rows.filter (Subscriptions.activeFor topic)).length

theorem card_activeIds (t : Subscriptions) (key : SetKey) :
    (t.activeIds key).card = (t.rows.filter key.active).length := by
  rw [Subscriptions.activeIds, List.toFinset_card_of_nodup, List.length_map]
  exact t.primaryKey.sublist (List.filter_sublist.map _)

theorem uses_notify (self : HandlerSubscription) (topic : String) (event : ModelNotificationEvent)
    (strict : Bool) :
    (self.notify topic event strict).Uses (Op.keepsTable · = true) := by
  have fromDb : (HandlerSubscription.subscribersFromDb topic).Uses (Op.keepsTable · = true) := by
    refine Prog.uses_op.mpr ⟨rfl, fun answered => ?_⟩
    rcases answered with e | ids
    · trivial
    dsimp only
    split
    · trivial
    · exact ⟨rfl, fun _ => trivial⟩
  unfold HandlerSubscription.notify
  split
  · trivial
  refine Prog.Uses.bind (Prog.uses_op.mpr ⟨rfl, fun answered => ?_⟩) fun out => ?_
  · rcases answered with e | ids
    · exact fromDb
    dsimp only
    split
    · exact fromDb
    · exact ⟨rfl, fun _ => trivial⟩
  · rcases out with e | ids
    · trivial
    dsimp only
    split
    · trivial
    refine Prog.uses_op.mpr ⟨rfl, fun answered => ?_⟩
    rcases answered with e | _ <;> trivial

/-- An operation that only reads the table tells of the table as it is during the whole
operation. -/
theorem tells_of_leads {p : SubscriptionProg (Except PyError Reply)}
    {P : Except PyError Reply → Subscriptions → Prop}
    (leads : (world X).Leads Drift Steady (fun out _ s' => AtRest X s' ∧ P out s'.table) p [] s)
    (uses : p.Uses (Op.keepsTable · = true)) (running : ∀ out, p ≠ .ret out) :
    (world X).Leads Drift Steady (fun out h s' =>
      (h ≠ [] ∧ ∃ t, P out t ∧ ∀ e ∈ h, e.before.table = t) ∧ AtRest X s') p [] s := by
  have still : ∀ s s', Drift s s' → s'.table = s.table := fun _ _ => Drift.table
  refine ((leads.steady uses (fun _ => table_eq) still).called running).imp ?_
  rintro out h s' ⟨⟨⟨rest, told⟩, table, steady⟩, some⟩
  refine ⟨⟨some, s'.table, told, fun e mem => ?_⟩, rest⟩
  exact ((steady e mem).resolve_left List.not_mem_nil).trans table.symm

/-- A publication counts what is active in the table. -/
theorem serve_notify_leads (self : HandlerSubscription) (topic : String)
    (event : ModelNotificationEvent) (strict : Bool) (rest : AtRest X s) :
    (world X).Leads Drift Steady
      (fun out h' s' => Tells (.notify topic event strict) out h' ∧ AtRest X s')
      (self.serve X (.notify topic event strict)) [] s := by
  by_cases same : event.topic = topic
  · have leads : (world X).Leads Drift Steady (fun out _ s' => AtRest X s' ∧
        out = .ok (.subscribers (s'.table.activeIds (.topicSubscribers topic)).card))
        (self.serve X (.notify topic event strict)) [] s := by
      refine (notify_leads self topic event strict rest).seq fun out h s notified => ?_
      obtain ⟨rest, count⟩ := notified
      rw [count same]
      exact ⟨rest, rfl⟩
    refine (tells_of_leads (P := fun out t => out = .ok (.subscribers
      (t.activeIds (.topicSubscribers topic)).card)) leads
      ((uses_notify self topic event strict).bind fun _ => trivial) ?_).imp ?_
    · intro out
      simp [HandlerSubscription.serve, HandlerSubscription.notify, same,
        HandlerSubscription.getSubscribersForTopic]
    · rintro out h' s' ⟨⟨some, t, rfl, table⟩, rest⟩
      refine ⟨⟨by simp, ?_⟩, rest⟩
      rintro _ _ _ ⟨⟩ -
      refine ⟨some, _, rfl, fun e mem => ?_⟩
      rw [table e mem, card_activeIds]
      rfl
  · refine (notify_leads self topic event strict rest).seq fun out h s notified => ?_
    refine ⟨⟨by simp, ?_⟩, notified.1⟩
    rintro _ _ _ ⟨⟩ here
    exact absurd here same

/-- A listing without a limit lists what is active in the table. -/
theorem serve_list_leads (reads : X.Reads)
    (decodes : ∀ s s', parseEntry X (some (X.modelDumpJson s)) = some s' → s' = s)
    (self : HandlerSubscription) (agentId : String) (limit : Option Int) (offset : Int)
    (rest : AtRest X s) :
    (world X).Leads Drift Steady
      (fun out h' s' => Tells (.listSubscriptions agentId limit offset) out h' ∧ AtRest X s')
      (self.serve X (.listSubscriptions agentId limit offset)) [] s := by
  by_cases whole : limit = none ∧ offset = 0
  · obtain ⟨rfl, rfl⟩ := whole
    have leads : (world X).Leads Drift Steady (fun out _ s' => AtRest X s' ∧ ∃ subscriptions,
        out = .ok (.listing (.all subscriptions)) ∧
          Lists s'.table (Subscriptions.activeOf agentId) subscriptions)
        (self.serve X (.listSubscriptions agentId none 0)) [] s := by
      have code : self.serve X (.listSubscriptions agentId none 0) =
          HandlerSubscription.listAll X agentId >>= fun out =>
            .ret ((out.map .all).map .listing) := by
        simp [HandlerSubscription.serve, HandlerSubscription.listSubscriptions, Prog.bind_assoc]
      rw [code]
      refine (listAll_leads reads decodes agentId rest).seq fun out h s listed => ?_
      obtain ⟨rest, subscriptions, rfl, lists⟩ := listed
      exact ⟨rest, subscriptions, rfl, lists⟩
    have uses : (self.serve X (.listSubscriptions agentId none 0)).Uses
        (Op.keepsTable · = true) := by
      refine Prog.Uses.bind ?_ fun _ => trivial
      exact ((uses_listAll agentId).mono fun _ => And.left).bind fun _ => trivial
    refine (tells_of_leads (P := fun out t => ∃ subscriptions,
      out = .ok (.listing (.all subscriptions)) ∧
        Lists t (Subscriptions.activeOf agentId) subscriptions) leads uses ?_).imp ?_
    · intro out
      simp [HandlerSubscription.serve, HandlerSubscription.listSubscriptions,
        HandlerSubscription.listAll]
    · rintro out h' s' ⟨⟨some, t, ⟨subscriptions, rfl, lists⟩, table⟩, rest⟩
      refine ⟨⟨?_, by simp⟩, rest⟩
      rintro _ ⟨⟩
      exact ⟨some, subscriptions, rfl, fun e mem => table e mem ▸ lists⟩
  · have leads : (world X).Leads Drift Steady (fun _ _ s' => AtRest X s')
        (self.listSubscriptions X agentId limit offset) [] s := by
      unfold HandlerSubscription.listSubscriptions
      split
      · exact rest
      split
      · exact (listAll_leads reads decodes agentId rest).seq fun _ _ _ listed => listed.1
      split
      · exact rest
      split
      · exact rest
      refine leads_call fun before rows drift _ _ => ?_
      rcases rows with _ | _
      · exact rest.drift drift
      · exact rest.drift drift
    refine leads.seq fun _ _ _ rest => ?_
    refine ⟨⟨?_, by simp⟩, rest⟩
    rintro _ ⟨⟩
    exact absurd ⟨rfl, rfl⟩ whole

theorem serve_leads (reads : X.Reads)
    (decodes : ∀ s s', parseEntry X (some (X.modelDumpJson s)) = some s' → s' = s)
    (cmd : HandlerSubscription × Request) (rest : AtRest X s) :
    (world X).Leads Drift Steady (fun out h' s' => Tells cmd.2 out h' ∧ AtRest X s')
      (cmd.1.serve X cmd.2) [] s := by
  cases request : cmd.2 with
  | subscribe agentId topic metadata uuid4 now =>
    refine (subscribe_leads reads decodes agentId topic metadata uuid4 now rest).seq
      fun _ _ _ rest => ?_
    exact ⟨⟨by simp, by simp⟩, rest⟩
  | unsubscribe agentId topic now =>
    refine (unsubscribe_leads reads agentId topic now rest).seq fun _ _ _ rest => ?_
    exact ⟨⟨by simp, by simp⟩, rest⟩
  | notify topic event strict =>
    exact serve_notify_leads cmd.1 topic event strict rest
  | listSubscriptions agentId limit offset =>
    exact serve_list_leads reads decodes cmd.1 agentId limit offset rest

end Leads

/-- The condition on a step: operations do not overlap, and calls are steady. -/
def SteadyStep (p : SubscriptionPool) : SubscriptionLabel → Prop
  | .start _ => p.Idle
  | .call _ _ e => Steady e
  | .move _ => True

/-- No key is cached yet, and the rows of the table can be read. -/
structure Fresh (s : State) : Prop where
  cache : s.cache = .empty
  valid : ∀ row ∈ s.table, row.toModel.Valid

/-- In every run of operations that do not overlap, in which calls do not fail, rows are inserted
when no row of their agent and topic is there, and ids are added to sets that are there or that they
complete: what is listed and counted is what the table holds, whatever expires. -/
theorem tells_of_reach {X : External} (reads : X.Reads)
    (decodes : ∀ s s', parseEntry X (some (X.modelDumpJson s)) = some s' → s' = s)
    {p : SubscriptionPool} (reach : (world X).Reach Fresh SteadyStep p) :
    ∀ t ∈ p.tasks, ∀ out, t.result? = some out → Tells t.cmd.2 out t.calls := by
  have turns : (world X).Turns Drift Steady (AtRest X) Fresh SteadyStep
      fun cmd out calls => Tells cmd.2 out calls :=
    { refl := Drift.refl
      trans := fun _ _ _ => Drift.trans
      init := by
        rintro ⟨t, cache⟩ ⟨rfl, valid⟩
        refine ⟨fun _ => .inl rfl, fun id subscription _ parsed => ?_, valid⟩
        simp [Cache.empty, parseEntry] at parsed
      start := fun _ _ met => met
      call := fun _ _ _ _ met => met
      move := fun _ _ _ _ moved => drift_of_move moved
      keep := fun _ _ drift rest => rest.drift drift
      code := fun cmd _ rest => serve_leads reads decodes cmd rest }
  exact (turns.reach reach).returned

/-! ### Two runs -/

/-- Operations do not overlap and calls do not fail. -/
def TurnStep (p : SubscriptionPool) : SubscriptionLabel → Prop
  | .start _ => p.Idle
  | .call _ _ e => ∃ value, e.answer = .ok value
  | .move _ => True

def checkTurn (p : SubscriptionPool) : SubscriptionLabel → Bool
  | .start _ => p.tasks.all (·.result?.isSome)
  | .call _ _ e => e.answer.toBool
  | .move _ => true

theorem turnStep_of_check {p : SubscriptionPool} {l : SubscriptionLabel}
    (check : checkTurn p l = true) : TurnStep p l := by
  rcases l with c | ⟨i, c, e⟩ | m
  · intro t task
    exact Option.isSome_iff_ne_none.mp (List.all_eq_true.mp check t task)
  · cases answered : e.answer with
    | error error => simp [checkTurn, answered, Except.toBool] at check
    | ok value => exact ⟨value, answered⟩
  · trivial

/-- A decidable form of the condition on rows that are inserted and sets that are filled. -/
def checkFills : SubscriptionCall → Bool
  | ⟨.insert row, before, _, _⟩ => before.table.rows.all fun old => old.owner != row.owner
  | ⟨.pipeline commands, before, _, _⟩ => commands.all fun
    | .sadd key ids => before.cache.sets key ≠ ∅ ∨ before.table.activeIds key ⊆ ids
    | _ => true
  | _ => true

theorem fresh_and_fills_of_check {e : SubscriptionCall} (check : checkFills e = true) :
    InsertsFresh e ∧ Fills e := by
  obtain ⟨op, before, answered, after⟩ := e
  cases op with
  | insert row =>
    refine ⟨fun old mem => ?_, trivial⟩
    simpa using List.all_eq_true.mp check old mem
  | pipeline commands =>
    refine ⟨trivial, fun key ids mem => ?_⟩
    simpa using List.all_eq_true.mp check _ mem
  | _ => exact ⟨trivial, trivial⟩

def checkSteady (p : SubscriptionPool) (l : SubscriptionLabel) : Bool :=
  checkTurn p l && match l with
    | .call _ _ e => checkFills e
    | _ => true

theorem steadyStep_of_check {p : SubscriptionPool} {l : SubscriptionLabel}
    (check : checkSteady p l = true) : SteadyStep p l := by
  rcases l with c | ⟨i, c, e⟩ | m
  · obtain ⟨turn, -⟩ := Bool.and_eq_true_iff.mp check
    exact turnStep_of_check turn
  · obtain ⟨turn, fills⟩ := Bool.and_eq_true_iff.mp check
    obtain ⟨fresh, fills⟩ := fresh_and_fills_of_check fills
    exact ⟨turnStep_of_check turn, fresh, fills⟩
  · trivial

/-- The counts that the notify tasks returned. -/
def counts (p : SubscriptionPool) : List Nat :=
  p.tasks.filterMap fun t =>
    match t.result? with
    | some (.ok (.subscribers count)) => some count
    | _ => none

/-- A subscription that is listed and counted after the set of its agent has expired. -/
theorem tells_expired : ∃ p : SubscriptionPool, counts p = [1] ∧
    ∀ t ∈ p.tasks, ∀ out, t.result? = some out → Tells t.cmd.2 out t.calls := by
  obtain ⟨p, reach, counted⟩ : ∃ p : SubscriptionPool,
      (world plainExternal).Reach (· = ⟨.empty, .empty⟩) SteadyStep p ∧
        decide (counts p = [1]) = true :=
    World.Reach.of_run checkSteady _
      (.start (plainSubscribe "a" 1) :: List.replicate 3 (.call 0 .run) ++
        .move (.expireSet (.agentSubscriptions "a")) ::
        .start (plainList "a") :: List.replicate 2 (.call 1 .run) ++
        .start plainNotify :: List.replicate 3 (.call 2 .run))
      (fun _ _ _ => steadyStep_of_check) (by decide +kernel)
  refine ⟨p, of_decide_eq_true counted,
    tells_of_reach reads_plain decodes_plain (reach.mono ?_ fun _ _ met => met)⟩
  rintro s rfl
  exact ⟨rfl, fun row mem => absurd mem List.not_mem_nil⟩

/-- A `notify` counted one subscriber of a topic that has two. -/
def undercounted (p : SubscriptionPool) : Bool :=
  p.tasks.any fun t =>
    match t.cmd.2, t.result? with
    | .notify topic event _, some (.ok (.subscribers 1)) => event.topic == topic &&
        t.calls.any fun e =>
          (e.before.table.rows.filter (Subscriptions.activeFor topic)).length == 2
    | _, _ => false

/-- The set of a topic expires, and the next `subscribe` fills it with its own id. -/
theorem not_tells_turns : ¬ ∀ (X : External), X.Reads →
    (∀ s s', parseEntry X (some (X.modelDumpJson s)) = some s' → s' = s) →
      ∀ p : SubscriptionPool, (world X).Reach Fresh TurnStep p →
        ∀ t ∈ p.tasks, ∀ out, t.result? = some out → Tells t.cmd.2 out t.calls := by
  intro all
  obtain ⟨p, reach, wrong⟩ : ∃ p : SubscriptionPool,
      (world plainExternal).Reach (· = ⟨.empty, .empty⟩) TurnStep p ∧ undercounted p = true :=
    World.Reach.of_run checkTurn _
      (.start (plainSubscribe "a" 1) :: List.replicate 3 (.call 0 .run) ++
        .move (.expireSet (.topicSubscribers "memory.item.created")) ::
        .start (plainSubscribe "b" 2) :: List.replicate 3 (.call 1 .run) ++
        .start plainNotify :: List.replicate 3 (.call 2 .run))
      (fun _ _ _ => turnStep_of_check) (by decide +kernel)
  obtain ⟨t, task, wrong⟩ := List.any_eq_true.mp wrong
  split at wrong
  · rename_i topic event strict request result
    simp only [Bool.and_eq_true, beq_iff_eq, List.any_eq_true] at wrong
    obtain ⟨same, e, mem, two⟩ := wrong
    obtain ⟨-, count, counted, table⟩ := (all _ reads_plain decodes_plain p
      (reach.mono (by rintro s rfl; exact ⟨rfl, fun row mem => absurd mem List.not_mem_nil⟩)
        fun _ _ met => met) t task _ result).counted _ _ _ request same
    cases counted
    have one := table e mem
    omega
  · contradiction

end Subscription

end OmniMemory
