import OmniMemory.Subscription.Coherence

/-! The rebuild of the cache. `_rebuild_cache_from_db` pages through the ACTIVE rows by id, and adds
every one to the sets of its topic and its agent; it removes nothing. So the sets are right after it
if they held nothing wrong before it. -/

namespace OmniMemory

open Interleave

namespace Subscription

/-- The sets of the cache hold the ids of the ACTIVE rows, and the entries of these decode to
them. -/
structure Agrees (X : External) (s : State) : Prop where
  sets : ∀ key, s.cache.sets key = s.table.activeIds key
  entries : ∀ row ∈ s.table, row.status = .active →
    parseEntry X (s.cache.entries row.id) = some row.toModel

/-! ### Pipelines -/

theorem execute_append (cache : Cache) (first second : List Command) :
    cache.execute (first ++ second) = (cache.execute first).execute second :=
  List.foldl_append

/-- An entry that is only ever set to one value has it, if it had it before or is set. -/
theorem entries_execute {cache : Cache} {commands : List Command} {id : UUID} {value : String}
    (only : ∀ other, .setKey id other ∈ commands → other = value)
    (some : cache.entries id = some value ∨ .setKey id value ∈ commands) :
    (cache.execute commands).entries id = .some value := by
  induction commands generalizing cache with
  | nil => simpa [Cache.execute] using some
  | cons command rest ih =>
    refine ih (fun other mem => only other (List.mem_cons_of_mem _ mem)) ?_
    cases command with
    | setKey id' value' =>
      by_cases same : id = id'
      · subst same
        left
        rw [Command.apply, Cache.entries_setEntry, if_pos rfl, only value' List.mem_cons_self]
      · rcases some with before | mem
        · left
          rw [Command.apply, Cache.entries_setEntry, if_neg same, before]
        · right
          rcases List.mem_cons.mp mem with here | mem
          · cases here
            exact absurd rfl same
          · exact mem
    | _ =>
      rcases some with before | mem
      · exact .inl before
      · rcases List.mem_cons.mp mem with here | mem
        · cases here
        · exact .inr mem

section Rebuild

variable {X : External} {t : Subscriptions} {self : HandlerSubscription}

/-- The ACTIVE rows in the order of the pages. -/
def activeRows (t : Subscriptions) : List SubscriptionRow := (Query.activePage 0 0).list t

theorem mem_activeRows {row : SubscriptionRow} :
    row ∈ activeRows t ↔ row ∈ t ∧ row.status = .active := by
  rw [activeRows, (Query.lists_list _ t).mem]
  simp [Query.selects]

theorem length_activeRows :
    (activeRows t).length = (t.rows.filter fun row => row.status == .active).length :=
  (Query.lists_list (.activePage 0 0) t).1.length_eq

/-- The commands that cache some rows. -/
def rowCommands (X : External) (rows : List SubscriptionRow) : List Command :=
  (rows.map (·.toModel)).flatMap (HandlerSubscription.rebuildCommands X)

theorem rowCommands_append (rows rows' : List SubscriptionRow) :
    rowCommands X (rows ++ rows') = rowCommands X rows ++ rowCommands X rows' := by
  rw [rowCommands, List.map_append, List.flatMap_append, rowCommands, rowCommands]

theorem sadd_mem_rowCommands {rows : List SubscriptionRow} {key : SetKey} {ids : Finset UUID} :
    .sadd key ids ∈ rowCommands X rows ↔ ∃ row ∈ rows, ids = {row.id} ∧
      (key = .topicSubscribers row.topic ∨ key = .agentSubscriptions row.agentId) := by
  simp only [rowCommands, List.mem_flatMap, List.mem_map, exists_exists_and_eq_and,
    HandlerSubscription.rebuildCommands, SubscriptionRow.toModel, List.mem_cons,
    Command.sadd.injEq, reduceCtorEq, List.not_mem_nil, or_false, false_or]
  refine exists_congr fun row => and_congr_right fun _ => ?_
  tauto

theorem setKey_mem_rowCommands {rows : List SubscriptionRow} {id : UUID} {value : String} :
    .setKey id value ∈ rowCommands X rows ↔
      ∃ row ∈ rows, row.id = id ∧ X.modelDumpJson row.toModel = value := by
  simp only [rowCommands, List.mem_flatMap, List.mem_map, exists_exists_and_eq_and,
    HandlerSubscription.rebuildCommands, List.mem_cons, Command.setKey.injEq, reduceCtorEq,
    List.not_mem_nil, or_false]
  refine exists_congr fun row => and_congr_right fun _ => ?_
  simp [SubscriptionRow.toModel, eq_comm]

theorem sets_rowCommands (cache : Cache) (key : SetKey) :
    (cache.execute (rowCommands X (activeRows t))).sets key = cache.sets key ∪ t.activeIds key := by
  ext id
  rw [mem_execute, Finset.mem_union, Subscriptions.mem_activeIds]
  refine or_congr_right ?_
  simp only [sadd_mem_rowCommands, mem_activeRows]
  constructor
  · rintro ⟨_, ⟨row, ⟨mem, active⟩, rfl, rfl | rfl⟩, here⟩
    · refine ⟨row, mem, ?_, (Finset.mem_singleton.mp here).symm⟩
      simp [SetKey.active, Subscriptions.activeFor, active]
    · refine ⟨row, mem, ?_, (Finset.mem_singleton.mp here).symm⟩
      simp [SetKey.active, Subscriptions.activeOf, active]
  · rintro ⟨row, mem, active, rfl⟩
    cases key with
    | topicSubscribers topic =>
      simp only [SetKey.active, Subscriptions.activeFor, Bool.and_eq_true, beq_iff_eq] at active
      obtain ⟨rfl, active⟩ := active
      exact ⟨_, ⟨row, ⟨mem, active⟩, rfl, .inl rfl⟩, Finset.mem_singleton_self _⟩
    | agentSubscriptions agentId =>
      simp only [SetKey.active, Subscriptions.activeOf, Bool.and_eq_true, beq_iff_eq] at active
      obtain ⟨rfl, active⟩ := active
      exact ⟨_, ⟨row, ⟨mem, active⟩, rfl, .inr rfl⟩, Finset.mem_singleton_self _⟩

theorem entries_rowCommands (cache : Cache) {row : SubscriptionRow} (mem : row ∈ t)
    (active : row.status = .active) :
    (cache.execute (rowCommands X (activeRows t))).entries row.id =
      some (X.modelDumpJson row.toModel) := by
  have here := mem_activeRows.mpr ⟨mem, active⟩
  refine entries_execute (fun other set => ?_) (.inr ?_)
  · obtain ⟨row', mem', same, rfl⟩ := setKey_mem_rowCommands.mp set
    rw [Subscriptions.eq_of_id (mem_activeRows.mp mem').1 mem same]
  · exact setKey_mem_rowCommands.mpr ⟨row, here, rfl, rfl⟩

/-- The batches from `offset` on: they end without an exception if the rows are valid, and then
these are cached. -/
theorem rebuildBatches_ensures (reads : X.Reads) (batch : 0 < self.cacheRebuildBatchSize)
    (rounds offset : Nat) (enough : (activeRows t).length ≤ offset + rounds) (cache : Cache) :
    Prog.Ensures (answer X) (self.rebuildBatches X (activeRows t).length rounds offset) ⟨t, cache⟩
      fun out s' => (out = .ok () ↔ ∀ row ∈ (activeRows t).drop offset, row.toModel.Valid) ∧
        (out = .ok () →
          s' = ⟨t, cache.execute (rowCommands X ((activeRows t).drop offset))⟩) := by
  have ended (short : (activeRows t).length ≤ offset) :
      (activeRows t).drop offset = [] := List.drop_eq_nil_of_le short
  induction rounds generalizing offset cache with
  | zero =>
    rw [ended (by omega)]
    exact ⟨⟨fun _ _ mem => absurd mem List.not_mem_nil, fun _ => rfl⟩, fun _ => rfl⟩
  | succ rounds ih =>
    unfold HandlerSubscription.rebuildBatches
    split
    · rename_i short
      rw [ended short]
      exact ⟨by simp, fun _ => rfl⟩
    rename_i more
    refine Prog.ensures_op.mpr ?_
    have split := List.take_append_drop self.cacheRebuildBatchSize ((activeRows t).drop offset)
    rw [List.drop_drop] at split
    generalize page : ((activeRows t).drop offset).take self.cacheRebuildBatchSize = rows at split
    have answered : (answer X (.query (.activePage self.cacheRebuildBatchSize offset))
        ⟨t, cache⟩) = (.ok (rows.map X.driverRow), ⟨t, cache⟩) := by
      rw [← page]
      rfl
    rw [answered]
    dsimp only
    have some : rows ≠ [] := by
      rw [← List.length_pos_iff, ← page, List.length_take, List.length_drop]
      omega
    rw [if_neg (by simpa using some)]
    cases read : (rows.map X.driverRow).mapM (rowToSubscription X) with
    | error e =>
      refine ⟨⟨nofun, fun valid => ?_⟩, nofun⟩
      have fine := reads.rows.mpr ⟨fun row mem => valid row
        (by rw [← split]; exact List.mem_append_left _ mem), rfl⟩
      rw [read] at fine
      contradiction
    | ok subscriptions =>
      obtain ⟨valid, rfl⟩ := reads.rows.mp read
      refine Prog.ensures_op.mpr ?_
      refine (ih (offset + self.cacheRebuildBatchSize) (by omega) (cache.execute (rowCommands X rows))
        (fun short => List.drop_eq_nil_of_le short)).imp ?_
      rintro out s' ⟨done, cached⟩
      rw [← split]
      refine ⟨?_, fun fine => ?_⟩
      · rw [done, List.forall_mem_append]
        exact ⟨fun rest => ⟨valid, rest⟩, And.right⟩
      · rw [cached fine, rowCommands_append, execute_append]

/-- `_rebuild_cache_from_db` makes the cache agree with the database, whatever the batch size,
exactly if the sets held no other ids before and every ACTIVE row can be read. -/
theorem rebuilds_iff (reads : X.Reads)
    (decodes : ∀ row ∈ t, row.toModel.Valid →
      parseEntry X (some (X.modelDumpJson row.toModel)) = some row.toModel)
    (batch : 1 ≤ self.cacheRebuildBatchSize) (cache : Cache) :
    Prog.Ensures (answer X) (self.rebuildCacheFromDb X) ⟨t, cache⟩
        (fun out s' => out = .ok () ∧ s'.table = t ∧ Agrees X s') ↔
      (∀ key, cache.sets key ⊆ t.activeIds key) ∧
        ∀ row ∈ t, row.status = .active → row.toModel.Valid := by
  -- The early return for no rows is that of no batch.
  have all : Prog.Ensures (answer X) (self.rebuildCacheFromDb X) ⟨t, cache⟩ fun out s' =>
      (out = .ok () ↔ ∀ row ∈ activeRows t, row.toModel.Valid) ∧
        (out = .ok () → s' = ⟨t, cache.execute (rowCommands X (activeRows t))⟩) := by
    refine Prog.ensures_op.mpr ?_
    have count : answer X .queryCount ⟨t, cache⟩ = (.ok (activeRows t).length, ⟨t, cache⟩) := by
      rw [length_activeRows]
      rfl
    rw [count]
    dsimp only
    split
    · rename_i none
      rw [List.length_eq_zero_iff.mp none]
      exact ⟨by simp, fun _ => rfl⟩
    · exact rebuildBatches_ensures reads batch _ 0 (by omega) cache
  unfold Prog.Ensures at all ⊢
  obtain ⟨done, cached⟩ := all
  simp only [mem_activeRows, and_imp] at done
  constructor
  · rintro ⟨fine, -, agrees⟩
    refine ⟨fun key => ?_, done.mp fine⟩
    have sets := agrees.sets key
    rw [cached fine, sets_rowCommands] at sets
    exact Finset.union_eq_right.mp sets
  · rintro ⟨clean, valid⟩
    have fine := done.mpr valid
    rw [cached fine]
    refine ⟨fine, rfl, fun key => ?_, fun row mem active => ?_⟩
    · rw [sets_rowCommands]
      exact Finset.union_eq_right.mpr (clean key)
    · dsimp only
      rw [entries_rowCommands cache mem active]
      exact decodes row mem (valid row mem active)

end Rebuild

theorem rebuilds_plain : Prog.Ensures (answer plainExternal)
    (HandlerSubscription.rebuildCacheFromDb plainExternal {})
    ⟨plainTable (plainSubscription 1 "a"), .empty⟩
    fun out s' => out = .ok () ∧ s'.table = plainTable (plainSubscription 1 "a") ∧
      Agrees plainExternal s' := by
  refine (rebuilds_iff reads_plain (fun row mem _ => ?_) (by decide) .empty).mpr
    ⟨fun key => Finset.empty_subset _, fun row mem _ => ?_⟩
  · obtain rfl := List.mem_singleton.mp mem
    decide +kernel
  · obtain rfl := List.mem_singleton.mp mem
    decide +kernel

/-- The id of a subscription that was deleted stays in its sets. -/
theorem not_rebuilds_stale : ¬ ∀ (X : External) (t : Subscriptions) (self : HandlerSubscription)
    (cache : Cache), X.Reads → 1 ≤ self.cacheRebuildBatchSize →
      (∀ row ∈ t, row.toModel.Valid →
        parseEntry X (some (X.modelDumpJson row.toModel)) = some row.toModel) →
      (∀ row ∈ t, row.status = .active → row.toModel.Valid) →
        Prog.Ensures (answer X) (self.rebuildCacheFromDb X) ⟨t, cache⟩
          fun out s' => out = .ok () ∧ s'.table = t ∧ Agrees X s' := by
  intro all
  have stale := all plainExternal .empty {} ⟨fun _ => {1}, fun _ => none⟩
    reads_plain (by decide) (fun _ mem => absurd mem List.not_mem_nil)
    (fun _ mem => absurd mem List.not_mem_nil)
  exact absurd (stale.2.2.sets (.topicSubscribers "memory.item.created")) (by decide +kernel)

end Subscription

end OmniMemory
