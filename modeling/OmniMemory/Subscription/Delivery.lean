import OmniMemory.Subscription.Coherence

/-! Notifications. `notify` publishes if it finds a subscriber: in the cache, or in the database
when the cache is empty or fails. A subscriber in the database is found whatever the cache does. -/

namespace OmniMemory

open Interleave

namespace Subscription

def Op.isPublish : Op → Bool
  | publish .. => true
  | _ => false

/-- The calls of the event bus, in order. -/
def publishes (calls : List SubscriptionCall) : List Op := (calls.map (·.op)).filter Op.isPublish

/-- The topic has an ACTIVE subscription at each call, and the calls of the database succeed. -/
def Subscribed (topic : String) (calls : List SubscriptionCall) : Prop :=
  ∀ e ∈ calls, (∃ row ∈ e.before.table, Subscriptions.activeFor topic row = true) ∧
    (e.op.isDatabase = true → ∃ value, e.answer = .ok value)

section Keeps

variable {X : External} {cmd : HandlerSubscription × Request} {h : List SubscriptionCall} {s : State}

theorem publishes_snoc {e : SubscriptionCall} (other : e.op.isPublish = false) :
    publishes (h ++ [e]) = publishes h := by
  simp [publishes, other]

/-- What `_get_subscribers_for_topic` returns for a topic that has a subscriber. -/
def Heard (topic : String) (h : List SubscriptionCall) (out : Except PyError (Finset UUID))
    (h' : List SubscriptionCall) : Prop :=
  publishes h' = publishes h ∧ (Subscribed topic h' → ∃ ids, out = .ok ids ∧ ids ≠ ∅)

theorem Heard.of_snoc {topic : String} {e : SubscriptionCall} {out : Except PyError (Finset UUID)}
    {h' : List SubscriptionCall} (heard : Heard topic (h ++ [e]) out h')
    (other : e.op.isPublish = false) : Heard topic h out h' :=
  ⟨heard.1.trans (publishes_snoc other), heard.2⟩

theorem subscribersFromDb_heard (topic : String) :
    Contract.anything.Keeps (world X) cmd (fun out h' _ => Heard topic h out h')
      (HandlerSubscription.subscribersFromDb topic) h s := by
  refine Contract.anything_op fun before answered after call => ?_
  have last := List.mem_append_right h
    (List.mem_singleton_self (⟨.queryIds topic, before, answered, after⟩ : SubscriptionCall))
  rcases answered with e | ids
  · refine ⟨publishes_snoc rfl, fun subscribed => ?_⟩
    obtain ⟨value, failed⟩ := (subscribed _ last).2 rfl
    contradiction
  have found : Subscribed topic (h ++ [⟨.queryIds topic, before, .ok ids, after⟩]) →
      ids.toFinset ≠ ∅ := by
    intro subscribed
    obtain ⟨row, mem, active⟩ := (subscribed _ last).1
    rw [queryIds_cases call]
    exact Finset.ne_empty_of_mem (Subscriptions.mem_activeIds.mpr ⟨row, mem, active, rfl⟩)
  dsimp only
  split
  · exact ⟨publishes_snoc rfl, fun subscribed => ⟨_, rfl, found subscribed⟩⟩
  · rename_i some
    refine Contract.anything_op fun before answered after call => ?_
    refine ⟨?_, fun _ => ⟨_, rfl, some⟩⟩
    rw [publishes_snoc rfl, publishes_snoc rfl]

theorem getSubscribersForTopic_heard (topic : String) :
    Contract.anything.Keeps (world X) cmd (fun out h' _ => Heard topic h out h')
      (HandlerSubscription.getSubscribersForTopic topic) h s := by
  refine Contract.anything_op fun before answered after call => ?_
  have fallback : Contract.anything.Keeps (world X) cmd (fun out h' _ => Heard topic h out h')
      (HandlerSubscription.subscribersFromDb topic)
      (h ++ [⟨.smembers (.topicSubscribers topic), before, answered, after⟩]) after :=
    (subscribersFromDb_heard topic).imp fun out h' _ heard => heard.of_snoc rfl
  rcases answered with e | ids
  · exact fallback
  dsimp only
  split
  · exact fallback
  · rename_i some
    refine Contract.anything_op fun before answered after call => ?_
    refine ⟨?_, fun _ => ⟨_, rfl, some⟩⟩
    rw [publishes_snoc rfl, publishes_snoc rfl]

/-- What `notify` does for a topic that has a subscriber. -/
def Delivers (self : HandlerSubscription) (topic : String) (event : ModelNotificationEvent)
    (h : List SubscriptionCall) : Prop :=
  event.topic = topic → Subscribed topic h →
    publishes h = [.publish self.kafkaNotificationTopic topic event]

theorem notify_delivers (self : HandlerSubscription) (topic : String)
    (event : ModelNotificationEvent) (strict : Bool) :
    Contract.anything.Keeps (world X) cmd (fun _ h' _ => Delivers self topic event h')
      (self.notify topic event strict) [] s := by
  unfold HandlerSubscription.notify
  split
  · rename_i other
    exact fun same => absurd same other
  refine (getSubscribersForTopic_heard topic).seq fun out h s heard => ?_
  obtain ⟨silent, heard⟩ := heard
  rcases out with e | ids
  · intro _ subscribed
    obtain ⟨ids, failed, -⟩ := heard subscribed
    contradiction
  dsimp only
  split
  · rename_i none
    intro _ subscribed
    obtain ⟨ids', same, some⟩ := heard subscribed
    cases same
    exact absurd (Finset.card_eq_zero.mp none) some
  refine Contract.anything_op fun before answered after call => ?_
  have once : publishes (h ++ [⟨.publish self.kafkaNotificationTopic topic event, before, answered,
      after⟩]) = [.publish self.kafkaNotificationTopic topic event] := by
    have one : publishes [⟨.publish self.kafkaNotificationTopic topic event, before, answered,
      after⟩] = [.publish self.kafkaNotificationTopic topic event] := rfl
    rw [publishes, List.map_append, List.filter_append, ← publishes, ← publishes, silent, one]
    rfl
  rcases answered with e | _
  · exact fun _ _ => once
  · exact fun _ _ => once

end Keeps

/-- Whatever the cache holds and does, and whatever runs beside: a `notify` that returns has made
one call of the event bus, with its event, if the topic has an ACTIVE subscription while it runs and
the database does not fail. -/
theorem delivers_of_reach {X : External} {init : State → Prop}
    {ok : SubscriptionPool → SubscriptionLabel → Prop} {p : SubscriptionPool}
    (reach : (world X).Reach init ok p) {t : SubscriptionTask} (task : t ∈ p.tasks)
    {topic : String} {event : ModelNotificationEvent} {strict : Bool}
    (notify : t.cmd.2 = .notify topic event strict) (same : event.topic = topic)
    (subscribed : Subscribed topic t.calls) (returned : t.result? ≠ none) :
    publishes t.calls = [.publish t.cmd.1.kafkaNotificationTopic topic event] := by
  obtain ⟨out, result⟩ := Option.ne_none_iff_exists'.mp returned
  refine Contract.anything_of_reach (Q := fun cmd _ h => ∀ topic event strict,
    cmd.2 = .notify topic event strict → Delivers cmd.1 topic event h) ?_ reach task result
    topic event strict notify same subscribed
  intro cmd s
  cases here : cmd.2 with
  | notify topic event strict =>
    have code : (world X).code cmd = cmd.1.serve X (.notify topic event strict) :=
      congrArg (cmd.1.serve X) here
    rw [code]
    refine (notify_delivers cmd.1 topic event strict).seq fun _ _ _ delivers => ?_
    rintro _ _ _ ⟨⟩
    exact delivers
  | _ =>
    refine (Contract.timeline_keeps (fun _ _ _ => trivial) _).imp fun _ _ _ _ => ?_
    intro _ _ _ other
    contradiction

/-- A decidable form of `Subscribed`. -/
def checkSubscribed (topic : String) (calls : List SubscriptionCall) : Bool :=
  calls.all fun e => e.before.table.rows.any (Subscriptions.activeFor topic) &&
    (!e.op.isDatabase || e.answer.toBool)

theorem subscribed_of_check {topic : String} {calls : List SubscriptionCall}
    (check : checkSubscribed topic calls = true) : Subscribed topic calls := by
  intro e mem
  have checked := List.all_eq_true.mp check e mem
  simp only [Bool.and_eq_true, Bool.or_eq_true, Bool.not_eq_true', List.any_eq_true] at checked
  refine ⟨checked.1, fun database => ?_⟩
  cases answered : e.answer with
  | error error => simp [database, answered, Except.toBool] at checked
  | ok value => exact ⟨value, rfl⟩

/-- A `notify` has returned, with a subscriber in the table all along. -/
def notifiedInPool (p : SubscriptionPool) : Bool :=
  p.tasks.any fun t =>
    match t.cmd with
    | (⟨"omnimemory.memory.notification.v1", 1000, 1000⟩,
        .notify "memory.item.created" event true) =>
      event == plainEvent && checkSubscribed "memory.item.created" t.calls && t.result?.isSome
    | _ => false

/-- The cache fails at every call, and the event is published all the same. -/
theorem delivers_cacheDown : ∃ p : SubscriptionPool, ∃ t ∈ p.tasks, publishes t.calls =
    [.publish "omnimemory.memory.notification.v1" "memory.item.created" plainEvent] := by
  obtain ⟨p, reach, done⟩ : ∃ p : SubscriptionPool,
      (world plainExternal).Reach (· = ⟨plainTable (plainSubscription 1 "a"), .empty⟩) World.Free
        p ∧ notifiedInPool p = true :=
    World.Reach.of_run (fun _ _ => true) _
      [.start plainNotify, .call 0 (.fail (.other "down")), .call 0 .run,
        .call 0 (.fail (.other "down")), .call 0 .run]
      (fun _ _ _ _ => trivial) (by decide +kernel)
  obtain ⟨t, task, done⟩ := List.any_eq_true.mp done
  refine ⟨p, t, task, ?_⟩
  split at done
  · rename_i event cmd
    simp only [Bool.and_eq_true, beq_iff_eq] at done
    obtain ⟨⟨rfl, check⟩, returned⟩ := done
    have delivered := delivers_of_reach reach task (congrArg Prod.snd cmd) rfl
      (subscribed_of_check check) (Option.isSome_iff_ne_none.mp returned)
    rwa [cmd] at delivered
  · contradiction

end Subscription

end OmniMemory
