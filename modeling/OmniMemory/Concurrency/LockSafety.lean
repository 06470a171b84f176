import OmniMemory.Concurrency.PriorityLock

/-! The queue and the holder of a `PriorityLock`. In every reachable state the queue holds the
requests of the tasks that poll, in the order of their priorities and then of their arrivals, and
the holder is the request of the task in the body. So bodies exclude each other, a task that has
left leaves nothing behind, and every grant goes to the first request by priority and arrival. -/

namespace OmniMemory

open Interleave Asyncio

namespace PriorityLock

/-- `a` came into the queue before `b`. -/
def Before (enqueued : List Nat) (a b : LockRequest) : Prop :=
  [a.requestId, b.requestId].Sublist enqueued

/-- `a` is to be granted before `b`: it has the higher priority, or the same one and came first. -/
def Ahead (enqueued : List Nat) (a b : LockRequest) : Prop :=
  b.priority.value < a.priority.value ∨
    a.priority.value = b.priority.value ∧ Before enqueued a b

section Order

variable {enqueued : List Nat} {a b request : LockRequest} {queue : List LockRequest}

theorem Ahead.le (ahead : Ahead enqueued a b) : b.priority.value ≤ a.priority.value := by
  rcases ahead with higher | ⟨same, -⟩ <;> omega

theorem Ahead.grow (ahead : Ahead enqueued a b) (id : Nat) : Ahead (enqueued ++ [id]) a b :=
  ahead.imp_right fun ⟨same, first⟩ => ⟨same, first.trans (List.sublist_append_left _ _)⟩

theorem Before.last (came : a.requestId ∈ enqueued) :
    Before (enqueued ++ [b.requestId]) a b :=
  (List.singleton_sublist.mpr came).append (List.Sublist.refl [b.requestId])

/-- A request that is inserted before the first one of lower priority keeps the order. -/
theorem pairwise_insert (sorted : queue.Pairwise (Ahead enqueued))
    (came : ∀ q ∈ queue, q.requestId ∈ enqueued) :
    (queue.orderedInsert (fun new queued => queued.priority.value < new.priority.value)
      request).Pairwise (Ahead (enqueued ++ [request.requestId])) := by
  induction queue with
  | nil => simp
  | cons front rest ih =>
    rw [List.pairwise_cons] at sorted
    have grown := ih sorted.2 fun q mem => came q (List.mem_cons_of_mem _ mem)
    rw [List.orderedInsert_cons]
    split
    · rename_i lower
      refine List.pairwise_cons.mpr ⟨fun q mem => .inl ?_, ?_⟩
      · rcases List.mem_cons.mp mem with rfl | mem
        · exact lower
        · exact (sorted.1 q mem).le.trans_lt lower
      · exact List.pairwise_cons.mpr ⟨fun q mem => (sorted.1 q mem).grow _,
          sorted.2.imp fun ahead => ahead.grow _⟩
    · rename_i higher
      refine List.pairwise_cons.mpr ⟨fun q mem => ?_, grown⟩
      rcases (List.mem_orderedInsert _).mp mem with rfl | mem
      · rcases Nat.lt_or_eq_of_le (Nat.le_of_not_lt higher) with less | same
        · exact .inl less
        · exact .inr ⟨same.symm, .last (came front List.mem_cons_self)⟩
      · exact (sorted.1 q mem).grow _

end Order

/-- The queue is in order, without repetition, and all of it has been enqueued. -/
structure Data.Ordered (d : Data) : Prop where
  sorted : d.queue.Pairwise (Ahead d.enqueued)
  once : d.queue.Nodup
  came : ∀ q ∈ d.queue, q.requestId ∈ d.enqueued
  unique : d.enqueued.Nodup

namespace Data.Ordered

variable {d : Data} {request front : LockRequest} {rest : List LockRequest}

theorem enqueueRequest (o : d.Ordered) (new : request.requestId ∉ d.enqueued) :
    (d.enqueueRequest request).Ordered where
  sorted := pairwise_insert o.sorted o.came
  once := ((List.perm_orderedInsert _ request d.queue).nodup_iff).mpr
    (List.nodup_cons.mpr ⟨fun mem => new (o.came _ mem), o.once⟩)
  came q mem := by
    rcases (List.mem_orderedInsert _).mp mem with rfl | mem
    · exact List.mem_append_right _ (List.mem_singleton_self _)
    · exact List.mem_append_left _ (o.came q mem)
  unique := List.nodup_append.mpr ⟨o.unique, List.nodup_singleton _, fun id mem other last => by
    rw [List.mem_singleton.mp last]
    rintro rfl
    exact new mem⟩

theorem turn (o : d.Ordered) (queue : d.queue = front :: rest) :
    (Data.hold request { d with queue := rest }).Ordered where
  sorted := (List.pairwise_cons.mp (queue ▸ o.sorted)).2
  once := (List.nodup_cons.mp (queue ▸ o.once)).2
  came q mem := o.came q (queue ▸ List.mem_cons_of_mem _ mem)
  unique := o.unique

theorem cleanup (o : d.Ordered) (out : Outcome) (acquired : Bool) :
    ((d.countTimeout out).cleanupRequest request acquired).Ordered := by
  have same : (d.countTimeout out).queue = d.queue ∧ (d.countTimeout out).enqueued = d.enqueued := by
    unfold Data.countTimeout
    split <;> exact ⟨rfl, rfl⟩
  constructor
  · simpa only [cleanupRequest, same] using o.sorted.filter _
  · simpa only [cleanupRequest, same] using o.once.filter _
  · simpa only [cleanupRequest, same] using fun q mem => o.came q (List.mem_of_mem_filter mem)
  · simpa only [cleanupRequest, same] using o.unique

end Data.Ordered

/-- What holds in every reachable state. -/
structure Consistent (s : PriorityLockSystem) : Prop where
  free : s.shared.lock = .free
  calm : ∀ t ∈ s.tasks, t.pc.atLock = false
  ids : ∀ (i : Nat) (t : Task), s.tasks[i]? = some t → t.request.requestId = i
  started : ∀ id ∈ s.shared.data.enqueued, ∃ t, s.tasks[id]? = some t ∧ t.pc ≠ .ready
  waiting : ∀ r, r ∈ s.shared.data.queue ↔ ⟨r, .sleeping⟩ ∈ s.tasks
  holding : ∀ r, s.shared.data.currentHolder = some r ↔ ⟨r, .body⟩ ∈ s.tasks
  ordered : s.shared.data.Ordered

theorem consistent_initial : Consistent ⟨State.initial, []⟩ where
  free := rfl
  calm := by simp
  ids := by simp
  started := by simp [State.initial]
  waiting := by simp [State.initial]
  holding := by simp [State.initial]
  ordered := by constructor <;> simp [State.initial]

namespace Consistent

variable {s : PriorityLockSystem} {i : Nat} {t : Task} {request q : LockRequest} {pc pc' p : Pc}
  {d d' : Data}

theorem add (inv : Consistent s) (ready : t.pc = .ready) (id : t.request.requestId = s.tasks.length) :
    Consistent (s.add t) where
  free := inv.free
  calm u mem := by
    rcases List.mem_append.mp mem with mem | mem
    · exact inv.calm u mem
    · rw [List.mem_singleton.mp mem, ready]
      rfl
  ids j u task := by
    rcases System.getElem?_add task with ⟨rfl, rfl⟩ | task
    · exact id
    · exact inv.ids j u task
  started id mem := by
    obtain ⟨u, task, moved⟩ := inv.started id mem
    exact ⟨u, System.getElem?_add_of_some task, moved⟩
  waiting r := by
    rw [System.shared_add, inv.waiting, System.add, List.mem_append, List.mem_singleton]
    refine ⟨.inl, fun mem => mem.resolve_right fun same => ?_⟩
    rw [← same] at ready
    cases ready
  holding r := by
    rw [System.shared_add, inv.holding, System.add, List.mem_append, List.mem_singleton]
    refine ⟨.inl, fun mem => mem.resolve_right fun same => ?_⟩
    rw [← same] at ready
    cases ready
  ordered := inv.ordered

theorem pc_eq (inv : Consistent s) (task : s.tasks[i]? = some ⟨request, pc⟩)
    (mem : ⟨request, p⟩ ∈ s.tasks) : p = pc := by
  obtain ⟨j, there⟩ := List.mem_iff_getElem?.mp mem
  have hi := inv.ids i _ task
  have hj := inv.ids j _ there
  obtain rfl : i = j := hi.symm.trans hj
  rw [task] at there
  cases there
  rfl

theorem eq_of_id (inv : Consistent s) (task : s.tasks[i]? = some ⟨request, pc⟩)
    (mem : ⟨q, p⟩ ∈ s.tasks) (same : q.requestId = request.requestId) : q = request := by
  obtain ⟨j, there⟩ := List.mem_iff_getElem?.mp mem
  have hi := inv.ids i _ task
  have hj := inv.ids j _ there
  obtain rfl : i = j := hi.symm.trans (same.symm.trans hj)
  rw [task] at there
  cases there
  rfl

theorem mem_put (inv : Consistent s) (task : s.tasks[i]? = some ⟨request, pc⟩) {sh : State} :
    ⟨q, p⟩ ∈ (s.put i ⟨request, pc'⟩ sh).tasks ↔
      (q = request ∧ p = pc') ∨ (q ≠ request ∧ ⟨q, p⟩ ∈ s.tasks) := by
  constructor
  · intro mem
    obtain ⟨j, there⟩ := List.mem_iff_getElem?.mp mem
    rw [System.getElem?_put task] at there
    split at there
    · cases there
      exact .inl ⟨rfl, rfl⟩
    · rename_i apart
      refine .inr ⟨?_, List.mem_of_getElem? there⟩
      rintro rfl
      have hi := inv.ids i _ task
      have hj := inv.ids j _ there
      exact apart (hi.symm.trans hj)
  · rintro (⟨rfl, rfl⟩ | ⟨other, mem⟩)
    · exact List.mem_of_getElem? (i := i) (by rw [System.getElem?_put task, if_pos rfl])
    · obtain ⟨j, there⟩ := List.mem_iff_getElem?.mp mem
      refine List.mem_of_getElem? (i := j) ?_
      rw [System.getElem?_put task, if_neg, there]
      rintro rfl
      rw [task] at there
      cases there
      exact other rfl

/-- A step that changes the queue and the holder for its own request only, as its task goes. -/
theorem put (inv : Consistent s) (task : s.tasks[i]? = some ⟨request, pc⟩) (calm : pc'.atLock = false)
    (moved : pc' ≠ .ready) (came : ∀ id ∈ d'.enqueued, id ∈ s.shared.data.enqueued ∨ id = i)
    (others : ∀ q, q ≠ request → (q ∈ d'.queue ↔ q ∈ s.shared.data.queue))
    (self : request ∈ d'.queue ↔ pc' = .sleeping)
    (holders : ∀ q, q ≠ request →
      (d'.currentHolder = some q ↔ s.shared.data.currentHolder = some q))
    (own : d'.currentHolder = some request ↔ pc' = .body) (ordered : d'.Ordered) :
    Consistent (s.put i ⟨request, pc'⟩ ⟨.free, d'⟩) where
  free := rfl
  calm u mem := by
    obtain ⟨q, p⟩ := u
    rcases (inv.mem_put task).mp mem with ⟨-, rfl⟩ | ⟨-, mem⟩
    · exact calm
    · exact inv.calm _ mem
  ids j u there := by
    rw [System.getElem?_put task] at there
    split at there
    · rename_i same
      cases there
      have hi : request.requestId = i := inv.ids i _ task
      exact hi.trans same
    · exact inv.ids j u there
  started id mem := by
    rw [System.getElem?_put task]
    split
    · exact ⟨_, rfl, moved⟩
    · rename_i apart
      exact inv.started id ((came id mem).resolve_right fun same => apart same.symm)
  waiting r := by
    rw [inv.mem_put task, System.shared_put]
    by_cases same : r = request
    · subst same
      simp [self, eq_comm]
    · simp [same, others r same, inv.waiting]
  holding r := by
    rw [inv.mem_put task, System.shared_put]
    by_cases same : r = request
    · subst same
      simp [own, eq_comm]
    · simp [same, holders r same, inv.holding]
  ordered := ordered

theorem not_mem_queue (inv : Consistent s) (task : s.tasks[i]? = some ⟨request, pc⟩)
    (awake : pc ≠ .sleeping) : request ∉ s.shared.data.queue := fun mem =>
  awake (inv.pc_eq task ((inv.waiting request).mp mem)).symm

theorem holder_ne (inv : Consistent s) (task : s.tasks[i]? = some ⟨request, pc⟩)
    (outside : pc ≠ .body) : s.shared.data.currentHolder ≠ some request := fun held =>
  outside (inv.pc_eq task ((inv.holding request).mp held)).symm

/-- A task that leaves takes its request out of the queue and gives up the lock, and touches
nothing else. -/
theorem put_left (inv : Consistent s) (task : s.tasks[i]? = some ⟨request, pc⟩) (out : Outcome)
    (acquired : Bool) (ordered : d.Ordered)
    (came : ∀ id ∈ d.enqueued, id ∈ s.shared.data.enqueued ∨ id = i)
    (queue : ∀ q, q ≠ request → (q ∈ d.queue ↔ q ∈ s.shared.data.queue))
    (holder : d.currentHolder = s.shared.data.currentHolder) :
    Consistent (s.put i ⟨request, .left out⟩
      ⟨.free, (d.countTimeout out).cleanupRequest request acquired⟩) := by
  have same : (d.countTimeout out).queue = d.queue ∧ (d.countTimeout out).enqueued = d.enqueued ∧
      (d.countTimeout out).currentHolder = d.currentHolder := by
    unfold Data.countTimeout
    split <;> exact ⟨rfl, rfl, rfl⟩
  refine inv.put task rfl (by simp) ?_ ?_ ?_ ?_ ?_ (ordered.cleanup out acquired)
  · simpa only [Data.cleanupRequest, same] using came
  · intro q other
    simp only [Data.cleanupRequest, same, List.mem_filter, bne_iff_ne, ne_eq, queue q other]
    refine ⟨And.left, fun mem => ⟨mem, fun id => ?_⟩⟩
    exact other (inv.eq_of_id task ((inv.waiting q).mp mem) id)
  · simp [Data.cleanupRequest]
  · intro q other
    simp only [Data.cleanupRequest, same, holder, Option.filter_eq_some_iff, bne_iff_ne, ne_eq]
    refine ⟨And.left, fun held => ⟨held, fun id => ?_⟩⟩
    exact other (inv.eq_of_id task ((inv.holding q).mp held) id)
  · simp [Data.cleanupRequest, Option.filter_eq_some_iff]

theorem front_eq (inv : Consistent s) (task : s.tasks[i]? = some ⟨request, pc⟩)
    (queue : ∀ q, q ≠ request → (q ∈ d.queue ↔ q ∈ s.shared.data.queue))
    {front : LockRequest} {rest : List LockRequest} (there : d.queue = front :: rest)
    (id : front.requestId = request.requestId) : front = request := by
  by_contra other
  have mem := (queue front other).mp (there ▸ List.mem_cons_self)
  exact other (inv.eq_of_id task ((inv.waiting front).mp mem) id)

theorem put_polled (inv : Consistent s) (task : s.tasks[i]? = some ⟨request, pc⟩)
    (ordered : d.Ordered) (came : ∀ id ∈ d.enqueued, id ∈ s.shared.data.enqueued ∨ id = i)
    (queue : ∀ q, q ≠ request → (q ∈ d.queue ↔ q ∈ s.shared.data.queue)) (self : request ∈ d.queue)
    (holder : d.currentHolder = s.shared.data.currentHolder) (outside : pc ≠ .body)
    (polls : Polls request d pc' d') : Consistent (s.put i ⟨request, pc'⟩ ⟨.free, d'⟩) := by
  cases polls with
  | @turn front rest there id vacant =>
    obtain rfl := inv.front_eq task queue there id
    have once := List.nodup_cons.mp (there ▸ ordered.once)
    refine inv.put task rfl (by simp) came ?_ ?_ ?_ ?_ (ordered.turn there)
    · intro q other
      rw [← queue q other, there]
      simp [Data.hold, other]
    · simpa [Data.hold] using once.1
    · intro q other
      rw [← holder, vacant]
      simp [Data.hold, Ne.symm other]
    · simp [Data.hold]
  | again =>
    refine inv.put task rfl (by simp) came queue (by simp [self]) ?_ ?_ ordered
    · intro q _
      rw [holder]
    · simp [holder, inv.holder_ne task outside]
  | leave out => exact inv.put_left task out false ordered came queue holder

theorem new_request (inv : Consistent s) (task : s.tasks[i]? = some ⟨request, .ready⟩) :
    request.requestId ∉ s.shared.data.enqueued := by
  intro mem
  have id : request.requestId = i := inv.ids i _ task
  obtain ⟨t, there, moved⟩ := inv.started _ mem
  rw [id, task] at there
  cases there
  exact moved rfl

theorem step (inv : Consistent s) (task : s.tasks[i]? = some ⟨request, pc⟩)
    (moves : Moves request s.shared.data pc pc' d') :
    Consistent (s.put i ⟨request, pc'⟩ ⟨.free, d'⟩) := by
  cases moves with
  | never =>
    refine inv.put task rfl (by simp) (fun _ => .inl) (fun _ _ => Iff.rfl) ?_
      (fun _ _ => Iff.rfl) ?_ inv.ordered
    · simpa using inv.not_mem_queue task (by simp)
    · simpa using inv.holder_ne task (by simp)
  | enqueue polls =>
    refine inv.put_polled task (inv.ordered.enqueueRequest (inv.new_request task)) ?_ ?_ ?_ rfl
      (by simp) polls
    · intro old mem
      rw [← show request.requestId = i from inv.ids i _ task]
      simpa [Data.enqueueRequest] using mem
    · intro q other
      simp [Data.enqueueRequest, List.mem_orderedInsert, other]
    · simp [Data.enqueueRequest, List.mem_orderedInsert]
  | poll polls =>
    refine inv.put_polled task inv.ordered (fun _ => .inl) (fun _ _ => Iff.rfl) ?_ rfl (by simp)
      polls
    exact (inv.waiting request).mpr (List.mem_of_getElem? task)
  | finish out =>
    exact inv.put_left task out true inv.ordered (fun _ => .inl) (fun _ _ => Iff.rfl) rfl

end Consistent

namespace Consistent

variable {s : PriorityLockSystem} {i : Nat} {t : Task} {front : LockRequest}
  {rest : List LockRequest}

theorem vacant (inv : Consistent s) (outside : ∀ t ∈ s.tasks, t.pc ≠ .body) :
    s.shared.data.currentHolder = none := by
  cases held : s.shared.data.currentHolder with
  | none => rfl
  | some r => exact absurd rfl (outside _ ((inv.holding r).mp held))

theorem exclusive (inv : Consistent s) {j : Nat} {u : Task} (ti : s.tasks[i]? = some t)
    (uj : s.tasks[j]? = some u) (ht : t.pc = .body) (hu : u.pc = .body) : i = j := by
  obtain ⟨r, pt⟩ := t
  obtain ⟨q, pu⟩ := u
  cases ht
  cases hu
  have held := (inv.holding r).mpr (List.mem_of_getElem? ti)
  rw [(inv.holding q).mpr (List.mem_of_getElem? uj)] at held
  cases held
  exact (inv.ids i _ ti).symm.trans (inv.ids j _ uj)

/-- The front request is granted at its next poll when no task is in the body. -/
theorem front_granted (inv : Consistent s) (queue : s.shared.data.queue = front :: rest)
    (outside : ∀ t ∈ s.tasks, t.pc ≠ .body) (now : Int) :
    ∃ s', machine.next s (.resume front.requestId (.go now)) = some s' ∧
      s'.tasks[front.requestId]? = some ⟨front, .body⟩ := by
  have mem := (inv.waiting front).mp (queue ▸ List.mem_cons_self)
  obtain ⟨j, task⟩ := List.mem_iff_getElem?.mp mem
  obtain rfl : front.requestId = j := inv.ids j _ task
  have polled := waitForTurn_front queue (inv.vacant outside) now
  rw [← inv.free] at polled
  refine ⟨s.put front.requestId ⟨front, (waitForTurn front now false s.shared).1⟩
    (waitForTurn front now false s.shared).2, ?_, ?_⟩
  · exact Machine.next_resume.mpr ⟨_, _, _, task, rfl, rfl⟩
  · rw [System.getElem?_put task, if_pos rfl]
    exact congrArg (fun pc => some (Task.mk front pc)) polled

end Consistent

abbrev Reachable (s : PriorityLockSystem) : Prop :=
  machine.Reach (· = State.initial) Machine.Free s

theorem consistent_of_reach {s : PriorityLockSystem} (reach : Reachable s) : Consistent s := by
  refine reach.invariant ?_ ?_ ?_
  · rintro sh rfl
    exact consistent_initial
  · intro s a inv _
    exact inv.add rfl rfl
  · rintro ⟨⟨lock, data⟩, tasks⟩ i ch ⟨request, pc⟩ t' sh inv _ task ran
    obtain rfl : lock = .free := inv.free
    obtain ⟨⟨pc', s'⟩, ran, same⟩ := Option.map_eq_some_iff.mp ran
    cases same
    obtain ⟨free, moves⟩ := resume_free (inv.calm _ (List.mem_of_getElem? task)) ran
    obtain ⟨lock, data'⟩ := sh
    obtain rfl : lock = .free := free
    exact inv.step task moves

/-- At most one task is in the body. A task that has left has no entry in the queue and no holder
record. When no task is in the body the front request is granted at its next poll, and a body that
ends, however it does, leaves no task in the body. -/
structure Safe (s : PriorityLockSystem) : Prop where
  exclusive : ∀ (i j : Nat) (t u : Task), s.tasks[i]? = some t → s.tasks[j]? = some u →
    t.pc = .body → u.pc = .body → i = j
  gone : ∀ (i : Nat) (t : Task) (out : Outcome), s.tasks[i]? = some t → t.pc = .left out →
    (∀ q ∈ s.shared.data.queue, q.requestId ≠ i) ∧
      ∀ q, s.shared.data.currentHolder = some q → q.requestId ≠ i
  granted : ∀ (front : LockRequest) (rest : List LockRequest) (now : Int),
    s.shared.data.queue = front :: rest → (∀ t ∈ s.tasks, t.pc ≠ .body) →
    ∃ s', machine.next s (.resume front.requestId (.go now)) = some s' ∧
      s'.tasks[front.requestId]? = some ⟨front, .body⟩
  vacated : ∀ (i : Nat) (t : Task) (out : Outcome), s.tasks[i]? = some t → t.pc = .body →
    ∃ s', machine.next s (.resume i (.finish out)) = some s' ∧ ∀ u ∈ s'.tasks, u.pc ≠ .body

/-- Whatever the priorities, and whoever times out, is cancelled or raises, and when. -/
theorem safe_of_reach {s : PriorityLockSystem} (reach : Reachable s) : Safe s := by
  have inv := consistent_of_reach reach
  refine ⟨fun i j t u => inv.exclusive, ?_, fun front rest now queue outside =>
    inv.front_granted queue outside now, ?_⟩
  · rintro i ⟨r, pc⟩ out task rfl
    have id : r.requestId = i := inv.ids i _ task
    constructor
    · intro q mem same
      obtain rfl := inv.eq_of_id task ((inv.waiting q).mp mem) (same.trans id.symm)
      exact inv.not_mem_queue task (by simp) mem
    · intro q held same
      obtain rfl := inv.eq_of_id task ((inv.holding q).mp held) (same.trans id.symm)
      exact inv.holder_ne task (by simp) held
  · rintro i ⟨r, pc⟩ out task rfl
    refine ⟨_, Machine.next_resume.mpr ⟨_, _, _, task, rfl, rfl⟩, ?_⟩
    intro u mem inside
    obtain ⟨j, there⟩ := List.mem_iff_getElem?.mp mem
    rw [System.getElem?_put task] at there
    split at there
    · cases there
      rw [inv.free] at inside
      cases inside
    · rename_i apart
      exact apart (inv.exclusive task there rfl inside)

/-- One task in the body, one that waits, and one that was cancelled while it waited. -/
theorem safe_contended : ∃ s : PriorityLockSystem,
    s.tasks.map (·.pc) = [.body, .sleeping, .left .cancelled] ∧ Safe s := by
  obtain ⟨s, reach, pcs⟩ : ∃ s, Reachable s ∧
      decide (s.tasks.map (·.pc) = [.body, .sleeping, .left .cancelled]) = true :=
    Machine.Reach.of_run (fun _ _ => true) _
      [.start ⟨.normal, none, 0⟩, .resume 0 (.go 0), .start ⟨.high, some 5, 0⟩, .resume 1 (.go 0),
        .start ⟨.low, none, 1⟩, .resume 2 (.go 1), .resume 2 .cancel, .resume 1 (.go 2)]
      (fun _ _ _ => trivial) (by decide +kernel)
  exact ⟨s, of_decide_eq_true pcs, safe_of_reach reach⟩

def Pc.waits : Pc → Bool
  | sleeping | turnLock => true
  | _ => false

/-- `request` waits to be granted. -/
def Waiting (s : PriorityLockSystem) (request : LockRequest) : Prop :=
  ∃ pc : Pc, pc.waits = true ∧ ⟨request, pc⟩ ∈ s.tasks

def Grants (s s' : PriorityLockSystem) (request : LockRequest) : Prop :=
  ⟨request, .body⟩ ∈ s'.tasks ∧ ⟨request, .body⟩ ∉ s.tasks

theorem Consistent.queued {s : PriorityLockSystem} (inv : Consistent s) {request : LockRequest}
    (waiting : Waiting s request) : request ∈ s.shared.data.queue := by
  obtain ⟨pc, waits, mem⟩ := waiting
  cases pc with
  | sleeping => exact (inv.waiting request).mpr mem
  | turnLock => exact absurd (inv.calm _ mem) (by simp [Pc.atLock])
  | _ => cases waits

theorem Polls.ahead {request q : LockRequest} {d d' : Data} (ordered : d.Ordered)
    (polls : Polls request d .body d')
    (front : ∀ front rest, d.queue = front :: rest → front.requestId = request.requestId →
      front = request) (mem : q ∈ d'.queue) : Ahead d'.enqueued request q := by
  cases polls with
  | @turn first rest there id vacant =>
    obtain rfl := front first rest there id
    exact (List.pairwise_cons.mp (there ▸ ordered.sorted)).1 q mem

/-- In every reachable state the queue is in order. The request that a step grants has the greatest
priority of those that wait, and came into the queue before the others of that priority. -/
theorem grants_in_order {s s' : PriorityLockSystem} {a : Machine.Act Arg Choice}
    (reach : Reachable s) (next : machine.next s a = some s') :
    (s'.shared.data.queue.Pairwise (Ahead s'.shared.data.enqueued) ∧
      s'.shared.data.enqueued.Nodup) ∧
    ∀ r, Grants s s' r → ∀ q, Waiting s' q → Ahead s'.shared.data.enqueued r q := by
  have inv' := consistent_of_reach (.step reach trivial next)
  refine ⟨⟨inv'.ordered.sorted, inv'.ordered.unique⟩, ?_⟩
  rintro r ⟨granted, new⟩ q waiting
  have inv := consistent_of_reach reach
  have queued := inv'.queued waiting
  cases a with
  | start arg =>
    cases next
    rcases List.mem_append.mp granted with mem | mem
    · exact absurd mem new
    · cases List.mem_singleton.mp mem
  | resume i ch =>
    obtain ⟨⟨request, pc⟩, t', sh, task, ran, rfl⟩ := Machine.next_resume.mp next
    obtain ⟨⟨pc', s1⟩, ran, same⟩ := Option.map_eq_some_iff.mp ran
    cases same
    rcases (inv.mem_put task).mp granted with ⟨rfl, rfl⟩ | ⟨-, mem⟩
    · obtain ⟨⟨lock, data⟩, tasks⟩ := s
      obtain rfl : lock = .free := inv.free
      obtain ⟨-, moves⟩ := resume_free (inv.calm _ (List.mem_of_getElem? task)) ran
      cases moves with
      | enqueue polls =>
        have new := inv.new_request task
        refine polls.ahead (inv.ordered.enqueueRequest new) (fun front rest there id => ?_) queued
        refine inv.front_eq task (fun q other => ?_) there id
        simp [Data.enqueueRequest, List.mem_orderedInsert, other]
      | poll polls =>
        exact polls.ahead inv.ordered (fun front rest there id =>
          inv.front_eq task (fun _ _ => Iff.rfl) there id) queued
    · exact absurd mem new

def plainRequest (id : Nat) (priority : LockPriority) : LockRequest := ⟨id, priority, 0, none⟩

/-- A request of high priority is granted before one that came first. -/
theorem grants_high : ∃ enqueued : List Nat,
    Ahead enqueued (plainRequest 2 .high) (plainRequest 1 .normal) := by
  obtain ⟨s, reach, granted⟩ : ∃ s, Reachable s ∧
      ((machine.next s (.resume 2 (.go 3))).any fun s' =>
        decide ((⟨plainRequest 2 .high, .body⟩ ∈ s'.tasks ∧ ⟨plainRequest 2 .high, .body⟩ ∉ s.tasks) ∧
          ⟨plainRequest 1 .normal, .sleeping⟩ ∈ s'.tasks)) = true :=
    Machine.Reach.of_run (fun _ _ => true) _
      [.start ⟨.low, none, 0⟩, .resume 0 (.go 0), .start ⟨.normal, none, 0⟩, .resume 1 (.go 0),
        .start ⟨.high, none, 0⟩, .resume 2 (.go 0), .resume 0 (.finish .returned)]
      (fun _ _ _ => trivial) (by decide +kernel)
  obtain ⟨s', next, facts⟩ := (Option.any_eq_true _ _).mp granted
  obtain ⟨grants, waits⟩ := of_decide_eq_true facts
  exact ⟨_, (grants_in_order reach next).2 _ grants _ ⟨.sleeping, rfl, waits⟩⟩

end PriorityLock

end OmniMemory
