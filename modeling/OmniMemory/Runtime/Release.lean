import OmniMemory.Runtime.Generation

/-! What the calls of an instance release of what they have opened. No call closes an adapter, a
repeated `start_consumers` drops the subscriptions of the one before, and what is not closed in a
loop that closes is dropped with the rest. In the runs in which none of this happens, a failed call
leaves open nothing that it has opened, and a shutdown that has succeeded nothing of its
instance. -/

namespace OmniMemory

open Sequential

namespace Plugin

namespace Pc

/-- The call that the instance is in. -/
def method : Pc → Option Method
  | idle => none
  | subscribing _ _ | rollingBack _ => some .startConsumers
  | stopping _ | leaving _ | shutdownReset | unsubscribing _ _ => some .shutdown
  | _ => some .wireDispatchers

end Pc

/-- The method that opens a resource. -/
def ResourceKind.method : ResourceKind → Method
  | subscription _ => .startConsumers
  | _ => .wireDispatchers

/-- The subscriptions that the call of the instance, or its next `shutdown`, cancels. -/
def PluginMemory.subscriptions (p : PluginMemory) : List Resource :=
  match p.pc with
  | .subscribing _ callbacks => callbacks ++ p.unsubscribeCallbacks
  | .rollingBack rest => rest ++ p.unsubscribeCallbacks
  | .unsubscribing rest _ => rest
  | _ => p.unsubscribeCallbacks

/-- The step drops nothing that is open, and reports no failure or success while there is an adapter
that should have been closed. -/
def PluginMemory.drops (C : Contracts) (p : PluginMemory) (s : Shared) (e : Ended) : Bool :=
  match p.pc, e with
  | .introspecting _, .returned _ => !s.published && !p.introspectionProxies.isEmpty
  | .graph _, e => e.opens && !e.isReturned
  | .cleanReset, .returned _ => p.graphMemoryAdapter.any (·.call = p.call)
  | .subscribing topic _, .returned _ =>
    C.subscribeTopics ≤ topic + 1 && !p.unsubscribeCallbacks.isEmpty
  | .subscribing _ callbacks, .cancelled isOpen => isOpen || !callbacks.isEmpty
  | .rollingBack rest, .cancelled isOpen => isOpen || 1 < rest.length
  | .subscribing _ _, .raised isOpen | .rollingBack _, .raised isOpen
  | .unsubscribing _ _, .raised isOpen => isOpen
  | _, _ => false

/-- An event of the instance that lets it release what it has opened. -/
def PluginMemory.releases (C : Contracts) (p : PluginMemory) (s : Shared) : Act → Bool
  | .wireDispatchers _ => true
  | .startConsumers _ => C.subscribeTopics ≠ 0 || p.unsubscribeCallbacks.isEmpty
  | .shutdown => !p.shutdownInProgress && p.graphMemoryAdapter.isNone
  | .ended e => p.tends e && !p.drops C s e

def Releases (C : Contracts) (i : Nat) (s : Process) (event : Event) : Prop :=
  event.plugin = i → ∀ p ∈ s.plugins[i]?, p.releases C s.shared event.act = true

instance (C : Contracts) (i : Nat) (s : Process) (event : Event) :
    Decidable (Releases C i s event) :=
  inferInstanceAs (Decidable (_ → ∀ p ∈ s.plugins[i]?, p.releases C s.shared event.act = true))

/-- What holds after an event of the instance: when a call has reported failure, nothing is open
that it has opened, and when a shutdown has reported success, nothing that the instance has. -/
structure Released (id call : Nat) (next : Answer × List Resource) : Prop where
  failed : ∀ method, method ≠ .shutdown → next.1 = some (method, .failed) →
    ∀ r ∈ next.2, r.plugin = id → r.call ≠ call
  closed : ∀ result, result.success = true → next.1 = some (.shutdown, result) →
    ∀ r ∈ next.2, r.plugin ≠ id

/-- What the instance knows, in a call of `method`, of the subscriptions and adapters that are
open. -/
structure Books (method : Option Method) (p : PluginMemory) (s : Shared)
    (subscriptions : List Resource) : Prop where
  subscribed : Within p.id ResourceKind.isSubscription s subscriptions
  adapters : ∀ r ∈ s.opened, r.plugin = p.id → r.kind.isAdapter = true →
    ∃ adapter, p.graphMemoryAdapter = some adapter ∧ r.call ≤ adapter.call
  adapter : ∀ adapter, p.graphMemoryAdapter = some adapter → adapter.call ≤ p.call
  calls : ∀ r ∈ s.opened, r.plugin = p.id → r.call ≤ p.call
  current : ∀ r ∈ s.opened, r.plugin = p.id → r.call = p.call →
    ∀ m, method = some m → r.kind.method = m
  bound : ∀ r ∈ subscriptions ++ p.unsubscribeCallbacks, r.call ≤ p.call
  earlier : method = some .startConsumers → ∀ r ∈ p.unsubscribeCallbacks, r.call < p.call
  shutting : method = some .shutdown → p.graphMemoryAdapter = none

/-- The books of the instance where its call is suspended. -/
structure Ledger (p : PluginMemory) (s : Shared) : Prop where
  books : Books p.pc.method p s p.subscriptions
  unsubscribing : ∀ rest errors, p.pc = .unsubscribing rest errors →
    rest ⊆ p.unsubscribeCallbacks
  connected : ∀ env, p.pc = .intent env → ∃ adapter, p.graphMemoryAdapter = some adapter ∧
    adapter.call = p.call

section Books

variable {C : Contracts} {p : PluginMemory} {s : Shared} {l : List Resource} {n : Nat}
  {method : Option Method} {r : Resource} {b : Bool} {next : Next} {env : Wiring} {e : Ended}

/-- Between two calls. -/
theorem Books.idle (books : Books method p s l) : Books none p s l :=
  { books with current := by simp, earlier := by simp, shutting := by simp }

/-- The books do not depend on where the call is suspended. -/
theorem Books.move {p' : PluginMemory} (books : Books method p s l) (id : p'.id = p.id)
    (call : p'.call = p.call) (adapter : p'.graphMemoryAdapter = p.graphMemoryAdapter)
    (callbacks : p'.unsubscribeCallbacks = p.unsubscribeCallbacks) : Books method p' s l := by
  obtain ⟨subscribed, adapters, ref, calls, current, bound, earlier, shutting⟩ := books
  refine ⟨?_, ?_, ?_, ?_, ?_, ?_, ?_, ?_⟩
  · rwa [id]
  · rwa [id, adapter]
  · rwa [adapter, call]
  · rwa [id, call]
  · rwa [id, call]
  · rwa [callbacks, call]
  · rwa [callbacks, call]
  · rwa [adapter]

theorem Books.closeIf (books : Books method p s l) : Books method p (s.closeIf r b) l :=
  { books with
    subscribed := books.subscribed.closeIf
    adapters := fun r' there => books.adapters r' (mem_closeIf.mp there).1
    calls := fun r' there => books.calls r' (mem_closeIf.mp there).1
    current := fun r' there => books.current r' (mem_closeIf.mp there).1 }

/-- The subscription that is closed is struck off. -/
theorem Books.closeIf_head (books : Books method p s (r :: l)) (closes : b = true) :
    Books method p (s.closeIf r b) l :=
  { books.closeIf with
    subscribed := books.subscribed.closeIf_head closes
    bound := fun r' there => books.bound r' (List.mem_cons_of_mem _ there) }

/-- A resource that is neither a subscription nor an adapter, or whose adapter is known. -/
theorem Books.openIf (books : Books (some .wireDispatchers) p s l) (kind : ResourceKind)
    (other : kind.isSubscription = false)
    (known : kind.isAdapter = true → b = true → ∃ adapter, p.graphMemoryAdapter = some adapter ∧
      p.call ≤ adapter.call) :
    Books (some .wireDispatchers) p (s.openIf (p.resource kind) b) l :=
  { books with
    subscribed := books.subscribed.openIf_other other
    adapters := by
      intro r there own is
      rcases mem_openIf.mp there with ⟨opens, rfl⟩ | there
      · exact known is opens
      · exact books.adapters r there own is
    calls := by
      intro r there own
      rcases mem_openIf.mp there with ⟨-, rfl⟩ | there
      · exact Nat.le_refl _
      · exact books.calls r there own
    current := by
      intro r there own last m same
      rcases mem_openIf.mp there with ⟨-, rfl⟩ | there
      · cases same
        cases kind <;> simp_all [ResourceKind.method, ResourceKind.isSubscription,
          PluginMemory.resource]
      · exact books.current r there own last m same }

/-- `wire_dispatchers` does nothing to the subscriptions. -/
theorem Wires.ledger (wires : Wires p s next)
    (books : Books (some .wireDispatchers) p s p.unsubscribeCallbacks) :
    Ledger next.2.1 next.2.2 := by
  obtain ⟨⟨shared, id, call, adapter⟩, callbacks, pc, -⟩ := wires
  have method : next.2.1.pc.method = none ∨ next.2.1.pc.method = some .wireDispatchers := by
    cases h : next.2.1.pc <;> simp_all [Pc.method, Pc.wires]
  have subscriptions : next.2.1.subscriptions = next.2.1.unsubscribeCallbacks := by
    unfold PluginMemory.subscriptions
    cases h : next.2.1.pc <;> simp_all [Pc.wires]
  have here : Books (some .wireDispatchers) next.2.1 next.2.2 next.2.1.unsubscribeCallbacks := by
    rw [shared, callbacks]
    exact books.move id call adapter callbacks
  refine ⟨?_, ?_, ?_⟩
  · rw [subscriptions]
    rcases method with none | wire
    · rw [none]
      exact here.idle
    · rw [wire]
      exact here
  · intro rest errors unsubscribing
    simp [unsubscribing, Pc.wires] at pc
  · intro env intent
    simp [intent, Pc.wires] at pc

/-- What an event of the instance leaves. -/
structure Settles (p : PluginMemory) (next : Next) : Prop where
  ledger : Ledger next.2.1 next.2.2
  released : Released p.id p.call (next.1, next.2.2.opened)

theorem ResourceKind.cases (kind : ResourceKind) :
    kind.isHeartbeat = true ∨ kind.isSubscription = true ∨ kind.isAdapter = true := by
  cases kind <;> simp [isHeartbeat, isSubscription, isAdapter]

theorem released_none {opened : List Resource} : Released p.id p.call (none, opened) :=
  ⟨by simp, by simp⟩

theorem Wires.settles (wires : Wires p s next)
    (books : Books (some .wireDispatchers) p s p.unsubscribeCallbacks) : Settles p next := by
  refine ⟨wires.ledger books, fun method other answer => ?_, fun result success answer => ?_⟩
  · exact absurd rfl (wires.answer method .failed answer).2
  · have := (wires.answer .shutdown result answer).1
    contradiction

theorem await_settles {pc : Pc}
    (books : Books pc.method p s ({ p with pc } : PluginMemory).subscriptions)
    (unsubscribing : ∀ rest errors, pc = .unsubscribing rest errors → rest ⊆ p.unsubscribeCallbacks)
    (connected : ∀ env, pc = .intent env → ∃ adapter, p.graphMemoryAdapter = some adapter ∧
      adapter.call = p.call) : Settles p (p.await s pc) :=
  ⟨⟨books.move rfl rfl rfl rfl, unsubscribing, connected⟩, released_none⟩

theorem leave_settles {m : Method} {result : Result}
    (books : Books method p s p.unsubscribeCallbacks) (unfailed : result ≠ .failed)
    (unclosed : m ≠ .shutdown ∨ result.success = false) : Settles p (p.leave s m result) := by
  refine ⟨⟨books.idle.move rfl rfl rfl rfl, ?_, ?_⟩, ?_, ?_⟩
  · simp [PluginMemory.leave]
  · simp [PluginMemory.leave]
  · rintro _ _ ⟨⟩
    exact absurd rfl unfailed
  · rintro _ success ⟨⟩
    rcases unclosed with other | failed
    · exact absurd rfl other
    · rw [failed] at success
      contradiction

/-- A failure of `wire_dispatchers` is reported when none of its heartbeat tasks run and it has
connected no adapter. -/
theorem cleaned_settles (books : Books (some .wireDispatchers) p s p.unsubscribeCallbacks)
    (running : p.Runs s []) (unconnected : p.graphMemoryAdapter.any (·.call = p.call) = false) :
    Settles p (p.cleaned s) := by
  refine ⟨⟨books.idle.move rfl rfl rfl rfl, ?_, ?_⟩, ?_, ?_⟩
  · simp [PluginMemory.cleaned, PluginMemory.leave]
  · simp [PluginMemory.cleaned, PluginMemory.leave]
  · intro _ _ _ r there own last
    rcases r.kind.cases with heartbeat | subscription | adapter
    · cases running r there own heartbeat
    · have method := books.current r there own last _ rfl
      cases kind : r.kind <;> simp [kind, ResourceKind.isSubscription, ResourceKind.method]
        at subscription method
    · obtain ⟨adapter, known, le⟩ := books.adapters r there own adapter
      have := books.adapter adapter known
      simp only [known, Option.any_some, decide_eq_false_iff_not] at unconnected
      omega
  · rintro _ _ ⟨⟩

theorem subscribe_settles
    (books : Books (some .startConsumers) p s (l ++ p.unsubscribeCallbacks))
    (first : C.subscribeTopics ≤ n → p.unsubscribeCallbacks = []) :
    Settles p (p.subscribe C s n l) := by
  unfold PluginMemory.subscribe
  split
  · exact await_settles books (by simp) (by simp)
  · rename_i last
    have none := first (Nat.le_of_not_lt last)
    rw [none, List.append_nil] at books
    refine ⟨⟨?_, by simp [PluginMemory.leave], by simp [PluginMemory.leave]⟩, ?_, ?_⟩
    · refine ⟨books.subscribed, books.adapters, books.adapter, books.calls, ?_, ?_, ?_, ?_⟩
      · simp [PluginMemory.leave, Pc.method]
      · intro r there
        refine books.bound r (List.mem_append_left _ ?_)
        rcases List.mem_append.mp there with there | there
        · exact there
        · exact there
      · simp [PluginMemory.leave, Pc.method]
      · simp [PluginMemory.leave, Pc.method]
    · rintro _ _ ⟨⟩
    · rintro _ _ ⟨⟩

theorem rollBack_settles
    (books : Books (some .startConsumers) p s (l ++ p.unsubscribeCallbacks)) :
    Settles p (p.rollBack s l) := by
  cases l with
  | nil =>
    refine ⟨⟨books.idle.move rfl rfl rfl rfl, ?_, ?_⟩, ?_, ?_⟩
    · simp [PluginMemory.rollBack, PluginMemory.leave]
    · simp [PluginMemory.rollBack, PluginMemory.leave]
    · intro _ _ _ r there own last
      have method := books.current r there own last _ rfl
      have subscription : r.kind.isSubscription = true := by
        cases kind : r.kind <;> simp_all [ResourceKind.method, ResourceKind.isSubscription]
      have earlier := books.earlier rfl r (books.subscribed r there own subscription)
      omega
    · rintro _ _ ⟨⟩
  | cons r l => exact await_settles books (by simp) (by simp)

theorem startConsumers_settles {env : Consuming}
    (books : Books (some .startConsumers) p s p.unsubscribeCallbacks)
    (first : C.subscribeTopics = 0 → p.unsubscribeCallbacks = []) :
    Settles p (p.startConsumers C s env) := by
  unfold PluginMemory.startConsumers
  split
  · exact leave_settles books (by simp) (.inl (by simp))
  split
  · exact leave_settles books (by simp) (.inl (by simp))
  split
  · exact leave_settles books (by simp) (.inl (by simp))
  · exact subscribe_settles (l := []) books fun none => first (Nat.le_zero.mp none)

/-- A shutdown succeeds when no heartbeat tasks run and no adapter has been connected. -/
theorem unsubscribe_settles {errors : Bool} (books : Books (some .shutdown) p s l)
    (sub : l ⊆ p.unsubscribeCallbacks) (running : p.Runs s []) :
    Settles p (p.unsubscribe s errors l) := by
  cases l with
  | nil =>
    refine ⟨⟨?_, ?_, ?_⟩, ?_, ?_⟩
    · refine ⟨books.subscribed, books.adapters, books.adapter, books.calls, ?_, ?_, ?_, ?_⟩
      · simp [PluginMemory.unsubscribe, PluginMemory.closed, PluginMemory.leave, Pc.method]
      · simp [PluginMemory.unsubscribe, PluginMemory.closed, PluginMemory.leave,
          PluginMemory.subscriptions]
      · simp [PluginMemory.unsubscribe, PluginMemory.closed, PluginMemory.leave, Pc.method]
      · simp [PluginMemory.unsubscribe, PluginMemory.closed, PluginMemory.leave, Pc.method]
    · simp [PluginMemory.unsubscribe, PluginMemory.closed, PluginMemory.leave]
    · simp [PluginMemory.unsubscribe, PluginMemory.closed, PluginMemory.leave]
    · intro method other answer
      simp only [PluginMemory.unsubscribe, PluginMemory.closed, PluginMemory.leave,
        Option.some.injEq, Prod.mk.injEq] at answer
      exact absurd answer.1.symm other
    · intro _ _ _ r there own
      rcases r.kind.cases with heartbeat | subscription | adapter
      · cases running r there own heartbeat
      · cases books.subscribed r there own subscription
      · obtain ⟨adapter, known, -⟩ := books.adapters r there own adapter
        rw [books.shutting rfl] at known
        contradiction
  | cons r l =>
    refine await_settles books ?_ (by simp)
    rintro _ _ ⟨⟩
    exact sub

theorem leaveNode_settles (books : Books (some .shutdown) p s p.unsubscribeCallbacks) :
    Settles p (p.leaveNode C s n) := by
  unfold PluginMemory.leaveNode
  split
  · exact await_settles books (by simp) (by simp)
  · exact await_settles books (by simp) (by simp)

theorem stop_settles (books : Books (some .shutdown) p s p.unsubscribeCallbacks) :
    Settles p (p.stop C s l) := by
  cases l with
  | nil => exact leaveNode_settles books
  | cons r l => exact await_settles books (by simp) (by simp)

theorem shutdown_settles (books : Books (some .shutdown) p s p.unsubscribeCallbacks)
    (running : p.Runs s p.kept) : Settles p (p.shutdown C s) := by
  rw [shutdown_eq]
  split
  · obtain ⟨ledger, released⟩ := stop_settles (C := C) (l := p.introspectionProxies)
      (p := { p with shutdownInProgress := true }) (s := s) (books.move rfl rfl rfl rfl)
    exact ⟨ledger, released⟩
  · rename_i absent
    have none : p.Runs s [] := by simpa [PluginMemory.kept, absent] using running
    obtain ⟨ledger, released⟩ := unsubscribe_settles (l := p.unsubscribeCallbacks)
      (p := { p with shutdownInProgress := true }) (s := s) (books.move rfl rfl rfl rfl)
      (List.Subset.refl _) none
    exact ⟨ledger, released⟩

theorem Books.publish (books : Books method p s l) (published : Bool) :
    Books method p { s with published } l :=
  ⟨books.subscribed, books.adapters, books.adapter, books.calls, books.current, books.bound,
    books.earlier, books.shutting⟩

/-- The graph adapter, once it is connected, is known. -/
theorem graph_settles
    (books : Books (some .wireDispatchers) p s p.unsubscribeCallbacks) :
    Settles p (PluginMemory.await
      { p with graphMemoryAdapter := some (p.resource .graphAdapter) }
      (s.openIf (p.resource .graphAdapter) true) (.intent env)) := by
  refine ⟨⟨⟨?_, ?_, ?_, ?_, ?_, books.bound, ?_, ?_⟩, ?_, ?_⟩, released_none⟩
  · exact books.subscribed.openIf_other rfl
  · intro r there own is
    rcases mem_openIf.mp there with ⟨-, rfl⟩ | there
    · exact ⟨_, rfl, Nat.le_refl _⟩
    · exact ⟨_, rfl, books.calls r there own⟩
  · rintro _ ⟨⟩
    exact Nat.le_refl _
  · intro r there own
    rcases mem_openIf.mp there with ⟨-, rfl⟩ | there
    · exact Nat.le_refl _
    · exact books.calls r there own
  · rintro r there own last _ ⟨⟩
    rcases mem_openIf.mp there with ⟨-, rfl⟩ | there
    · rfl
    · exact books.current r there own last _ rfl
  · simp [PluginMemory.await, Pc.method]
  · simp [PluginMemory.await, Pc.method]
  · simp [PluginMemory.await]
  · rintro _ ⟨⟩
    exact ⟨_, rfl, rfl⟩

theorem Books.openIf_subscription (books : Books (some .startConsumers) p s l) (topic : Nat) :
    Books (some .startConsumers) p (s.openIf (p.resource (.subscription topic)) b)
      (p.resource (.subscription topic) :: l) := by
  refine ⟨?_, ?_, books.adapter, ?_, ?_, ?_, books.earlier, books.shutting⟩
  · exact books.subscribed.openIf.mono
      (List.append_subset.mpr ⟨List.subset_cons_self _ _, by simp⟩)
  · intro r there own is
    rcases mem_openIf.mp there with ⟨-, rfl⟩ | there
    · simp [PluginMemory.resource, ResourceKind.isAdapter] at is
    · exact books.adapters r there own is
  · intro r there own
    rcases mem_openIf.mp there with ⟨-, rfl⟩ | there
    · exact Nat.le_refl _
    · exact books.calls r there own
  · intro r there own last m same
    rcases mem_openIf.mp there with ⟨-, rfl⟩ | there
    · cases same
      rfl
    · exact books.current r there own last m same
  · intro r there
    rcases List.mem_cons.mp there with rfl | there
    · exact Nat.le_refl _
    · exact books.bound r there

/-- The same subscriptions in another order. -/
theorem Books.mono {l' : List Resource} (books : Books method p s l) (le : l ⊆ l')
    (ge : l' ⊆ l) : Books method p s l' :=
  { books with
    subscribed := books.subscribed.mono le
    bound := fun r there => books.bound r <| by
      rcases List.mem_append.mp there with there | there
      · exact List.mem_append_left _ (ge there)
      · exact List.mem_append_right _ there }

/-- The subscriptions that a shutdown has not come to are still those of the instance. -/
theorem Books.keep (books : Books method p s l) (sub : l ⊆ p.unsubscribeCallbacks) :
    Books method p s p.unsubscribeCallbacks :=
  { books with
    subscribed := books.subscribed.mono sub
    bound := fun r there => books.bound r <| by
      rcases List.mem_append.mp there with there | there
      · exact List.mem_append_right _ there
      · exact List.mem_append_right _ there }

theorem cancelShutdown_settles (books : Books method p s p.unsubscribeCallbacks) :
    Settles p (p.cancelShutdown s) := by
  obtain ⟨ledger, released⟩ : Settles { p with shutdownInProgress := false } (PluginMemory.leave
      { p with shutdownInProgress := false } s .shutdown .raised) :=
    leave_settles (books.move rfl rfl rfl rfl) (by simp) (.inr rfl)
  exact ⟨ledger, released⟩

/-- An `initialize` of the graph adapter that fails has not connected it. -/
theorem graph_resumes (pc : p.pc = .graph env) (ledger : Ledger p s)
    (keeps : p.drops C s e = false) : Settles p (p.resume C s e) := by
  have books := ledger.books
  simp only [pc, Pc.method, PluginMemory.subscriptions] at books
  simp only [PluginMemory.resume, pc]
  have closed (isOpen : Bool) (isFalse : isOpen = false) : Books (some .wireDispatchers) p
      (s.openIf (p.resource .graphAdapter) isOpen) p.unsubscribeCallbacks := by
    rw [isFalse]
    exact books
  cases e with
  | returned value => exact graph_settles books
  | raised isOpen =>
    refine failWiring_wires.settles (closed isOpen ?_)
    simpa [PluginMemory.drops, pc, Ended.opens, Ended.isReturned] using keeps
  | cancelled isOpen =>
    refine (leave_wires (by simp)).settles (closed isOpen ?_)
    simpa [PluginMemory.drops, pc, Ended.opens, Ended.isReturned] using keeps

theorem intent_resumes (pc : p.pc = .intent env) (ledger : Ledger p s) :
    Settles p (p.resume C s e) := by
  have books := ledger.books
  simp only [pc, Pc.method, PluginMemory.subscriptions] at books
  obtain ⟨adapter, known, last⟩ := ledger.connected env pc
  have books : Books (some .wireDispatchers) p (s.openIf (p.resource .intentAdapter) e.opens)
      p.unsubscribeCallbacks :=
    books.openIf _ rfl fun _ _ => ⟨adapter, known, Nat.le_of_eq last.symm⟩
  simp only [PluginMemory.resume, pc]
  cases e with
  | returned value =>
    have wires : Wires { p with intentGraphAdapter := some (p.resource .intentAdapter) } _
        (PluginMemory.build { p with intentGraphAdapter := some (p.resource .intentAdapter) }
          (s.openIf (p.resource .intentAdapter) true) env) := build_wires
    obtain ⟨ledger, released⟩ := wires.settles (books.move rfl rfl rfl rfl)
    exact ⟨ledger, released⟩
  | raised isOpen => exact failWiring_wires.settles books
  | cancelled isOpen => exact (leave_wires (by simp)).settles books

theorem introspecting_resumes (pc : p.pc = .introspecting env) (ledger : Ledger p s) :
    Settles p (p.resume C s e) := by
  have books := ledger.books
  simp only [pc, Pc.method, PluginMemory.subscriptions] at books
  simp only [PluginMemory.resume, pc]
  cases e with
  | returned value =>
    simp only [PluginMemory.inWiring, PluginMemory.introspect]
    split
    · exact failWiring_wires.settles books
    · split
      · exact wired_wires.settles books
      · exact publishNode_wires.settles (books.publish true)
  | raised isOpen => exact failWiring_wires.settles books
  | cancelled isOpen => exact (leave_wires (by simp)).settles books

theorem publishing_resumes {node : Nat} {proxies : List Resource}
    (pc : p.pc = .publishing env node proxies) (ledger : Ledger p s) :
    Settles p (p.resume C s e) := by
  have books := ledger.books
  simp only [pc, Pc.method, PluginMemory.subscriptions] at books
  have wires : Wires p s (p.publishNode C s env (node + 1) proxies) := publishNode_wires
  have next := wires.settles books
  simp only [PluginMemory.resume, pc]
  cases e with
  | returned value =>
    cases value with
    | false => exact next
    | true =>
      simp only
      split
      · exact (await_wires rfl).settles books
      · exact next
  | raised isOpen => exact next
  | cancelled isOpen => exact (leave_wires (by simp)).settles books

theorem subscribing_resumes {topic : Nat} {callbacks : List Resource}
    (pc : p.pc = .subscribing topic callbacks) (ledger : Ledger p s)
    (keeps : p.drops C s e = false) : Settles p (p.resume C s e) := by
  have books := ledger.books
  simp only [pc, Pc.method, PluginMemory.subscriptions] at books
  have closed (isOpen : Bool) (isFalse : isOpen = false) : Books (some .startConsumers) p
      (s.openIf (p.resource (.subscription topic)) isOpen)
      (callbacks ++ p.unsubscribeCallbacks) := by
    rw [isFalse]
    exact books
  simp only [PluginMemory.resume, pc]
  cases e with
  | returned value =>
    refine subscribe_settles ?_ fun last => ?_
    · refine (books.openIf_subscription topic).mono ?_ ?_ <;> intro r there <;>
        simp only [List.mem_cons, List.mem_append, List.not_mem_nil, or_false] at there ⊢ <;>
        tauto
    · simpa [PluginMemory.drops, pc, last] using keeps
  | raised isOpen =>
    refine rollBack_settles (closed isOpen ?_)
    simpa [PluginMemory.drops, pc] using keeps
  | cancelled isOpen =>
    obtain ⟨shut, none⟩ : isOpen = false ∧ callbacks = [] := by
      simpa [PluginMemory.drops, pc] using keeps
    have books := closed isOpen shut
    rw [none] at books
    exact leave_settles books (by simp) (.inl (by simp))

theorem rollingBack_resumes {rest : List Resource} (pc : p.pc = .rollingBack rest)
    (ledger : Ledger p s) (keeps : p.drops C s e = false) : Settles p (p.resume C s e) := by
  have books := ledger.books
  simp only [pc, Pc.method, PluginMemory.subscriptions] at books
  cases rest with
  | nil =>
    simp only [PluginMemory.resume, pc]
    exact rollBack_settles books
  | cons r rest =>
    simp only [PluginMemory.resume, pc]
    cases e with
    | returned value => exact rollBack_settles (books.closeIf_head rfl)
    | raised isOpen =>
      have shut : isOpen = false := by simpa [PluginMemory.drops, pc] using keeps
      exact rollBack_settles (books.closeIf_head (by simp [Ended.closes, shut]))
    | cancelled isOpen =>
      obtain ⟨shut, none⟩ : isOpen = false ∧ rest = [] := by
        simpa [PluginMemory.drops, pc] using keeps
      rw [none] at books
      exact leave_settles (books.closeIf_head (by simp [Ended.closes, shut])) (by simp)
        (.inl (by simp))

/-- A step that drops nothing keeps the books, and what it reports has been released. -/
theorem resume_settles (owns : Owns p s) (ledger : Ledger p s) (keeps : p.drops C s e = false) :
    Settles p (p.resume C s e) := by
  have books := ledger.books
  have running := owns.running
  cases pc : p.pc with
  | idle =>
    simp only [PluginMemory.resume, pc]
    exact ⟨ledger, released_none⟩
  | topics env =>
    simp only [pc, Pc.method, PluginMemory.subscriptions] at books
    simp only [PluginMemory.resume, pc]
    exact (inWiring_wires fun _ => connect_wires).settles books
  | probing env =>
    simp only [pc, Pc.method, PluginMemory.subscriptions] at books
    simp only [PluginMemory.resume, pc]
    refine Wires.settles (inWiring_wires fun reachable => ?_) books
    split
    · exact await_wires rfl
    · exact build_wires
  | graph env => exact graph_resumes pc ledger keeps
  | intent env => exact intent_resumes pc ledger
  | introspecting env => exact introspecting_resumes pc ledger
  | publishing env node proxies => exact publishing_resumes pc ledger
  | starting env node proxies =>
    simp only [pc, Pc.method, PluginMemory.subscriptions] at books
    have books : Books (some .wireDispatchers) p (s.openIf (p.resource (.heartbeat node)) e.opens)
        p.unsubscribeCallbacks := books.openIf _ rfl (by simp [ResourceKind.isAdapter])
    simp only [PluginMemory.resume, pc]
    cases e with
    | returned value => exact publishNode_wires.settles books
    | raised isOpen => exact publishNode_wires.settles books
    | cancelled isOpen => exact (leave_wires (by simp)).settles books
  | cleaning rest =>
    simp only [pc, Pc.method, PluginMemory.subscriptions] at books
    cases rest with
    | nil =>
      simp only [PluginMemory.resume, pc]
      exact clean_wires.settles books
    | cons r rest =>
      simp only [PluginMemory.resume, pc]
      split
      · exact (leave_wires (by simp)).settles books.closeIf
      · exact clean_wires.settles books.closeIf
  | cleanReset =>
    simp only [pc, Pc.method, PluginMemory.subscriptions] at books
    simp only [PluginMemory.heartbeats, pc] at running
    simp only [PluginMemory.resume, pc]
    cases e with
    | returned value =>
      have unconnected : p.graphMemoryAdapter.any (·.call = p.call) = false := by
        simpa only [PluginMemory.drops, pc] using keeps
      exact cleaned_settles (books.publish false) running unconnected
    | raised isOpen => exact (leave_wires (by simp)).settles books
    | cancelled isOpen => exact (leave_wires (by simp)).settles books
  | subscribing topic callbacks => exact subscribing_resumes pc ledger keeps
  | rollingBack rest => exact rollingBack_resumes pc ledger keeps
  | stopping rest =>
    simp only [pc, Pc.method, PluginMemory.subscriptions] at books
    cases rest with
    | nil =>
      simp only [PluginMemory.resume, pc]
      exact stop_settles books
    | cons r rest =>
      simp only [PluginMemory.resume, pc]
      split
      · exact cancelShutdown_settles books.closeIf
      · exact stop_settles books.closeIf
  | leaving node =>
    simp only [pc, Pc.method, PluginMemory.subscriptions] at books
    simp only [PluginMemory.resume, pc]
    split
    · exact cancelShutdown_settles books
    · exact leaveNode_settles books
  | shutdownReset =>
    simp only [pc, Pc.method, PluginMemory.subscriptions] at books
    simp only [PluginMemory.heartbeats, pc] at running
    simp only [PluginMemory.resume, pc]
    cases e with
    | returned value =>
      exact unsubscribe_settles (books.publish false) (List.Subset.refl _) running
    | raised isOpen => exact unsubscribe_settles books (List.Subset.refl _) running
    | cancelled isOpen => exact cancelShutdown_settles books
  | unsubscribing rest errors =>
    simp only [pc, Pc.method, PluginMemory.subscriptions] at books
    simp only [PluginMemory.heartbeats, pc] at running
    have sub := ledger.unsubscribing rest errors pc
    cases rest with
    | nil =>
      simp only [PluginMemory.resume, pc]
      exact unsubscribe_settles books sub running
    | cons r rest =>
      have rest_sub := List.subset_of_cons_subset sub
      simp only [PluginMemory.resume, pc]
      cases e with
      | returned value =>
        exact unsubscribe_settles (books.closeIf_head rfl) rest_sub running.closeIf
      | raised isOpen =>
        have shut : isOpen = false := by simpa [PluginMemory.drops, pc] using keeps
        exact unsubscribe_settles (books.closeIf_head (by simp [Ended.closes, shut])) rest_sub
          running.closeIf
      | cancelled isOpen => exact cancelShutdown_settles (books.closeIf.keep sub)

end Books

section Runs

variable {C : Contracts} {s : Process} {i j : Nat} {p q : PluginMemory} {event : Event}

/-- A call that begins has opened nothing yet. -/
theorem Ledger.begin {method : Method} {sh : Shared} (ledger : Ledger p sh) (idle : p.pc = .idle)
    (shutting : method = .shutdown → p.graphMemoryAdapter = none) :
    Books (some method) p.begin sh p.begin.unsubscribeCallbacks := by
  have books := ledger.books
  simp only [idle, PluginMemory.subscriptions] at books
  have callbacks : ∀ r ∈ p.unsubscribeCallbacks, r.call < p.begin.call := fun r there =>
    Nat.lt_succ_of_le (books.bound r (List.mem_append_left _ there))
  refine ⟨books.subscribed, books.adapters, ?_, ?_, ?_, ?_, ?_, ?_⟩
  · exact fun adapter known => Nat.le_succ_of_le (books.adapter adapter known)
  · exact fun r there own => Nat.le_succ_of_le (books.calls r there own)
  · intro r there own last
    have le := books.calls r there own
    simp only [PluginMemory.begin] at last
    omega
  · intro r there
    rcases List.mem_append.mp there with there | there
    · exact Nat.le_of_lt (callbacks r there)
    · exact Nat.le_of_lt (callbacks r there)
  · exact fun _ => callbacks
  · rintro ⟨⟩
    exact shutting rfl

theorem Ledger.frame {sh sh' : Shared} (ledger : Ledger p sh)
    (opened : ∀ r ∈ sh'.opened, r.plugin = p.id → r ∈ sh.opened) : Ledger p sh' :=
  { ledger with books := { ledger.books with
      subscribed := fun r there own => ledger.books.subscribed r (opened r there own) own
      adapters := fun r there own => ledger.books.adapters r (opened r there own) own
      calls := fun r there own => ledger.books.calls r (opened r there own) own
      current := fun r there own => ledger.books.current r (opened r there own) own } }

/-- The instance `i` has all that it has opened in its books. -/
structure Balanced (i : Nat) (s : Process) : Prop where
  id : ∀ j (q : PluginMemory), s.plugins[j]? = some q → q.id = j
  owns : ∀ p, s.plugins[i]? = some p → Owns p s.shared
  ledger : ∀ p, s.plugins[i]? = some p → Ledger p s.shared

/-- What an event of an instance changes. -/
theorem Steps.frame {a : Act} {next : Answer × Process} (steps : Steps C s j q a next) :
    next.2 = s ∨ ∃ n : Next, next = s.put j n ∧ n.2.1.id = q.id ∧
      ∀ r ∈ n.2.2.opened, r ∈ s.shared.opened ∨ r.plugin = q.id := by
  cases steps with
  | ignored call => exact .inl rfl
  | skipped busy => exact .inl rfl
  | wireDispatchers idle env => exact .inr ⟨_, rfl, rfl, fun r there => .inl there⟩
  | startConsumers idle env =>
    have same : Same q.begin s.shared (q.begin.startConsumers C s.shared env) :=
      startConsumers_same
    refine .inr ⟨_, rfl, same.id, fun r there => .inl ?_⟩
    rwa [same.shared] at there
  | shutdown idle =>
    have same : Same q.begin s.shared (q.begin.shutdown C s.shared) := shutdown_same
    refine .inr ⟨_, rfl, same.id, fun r there => .inl ?_⟩
    rwa [same.shared] at there
  | ended e =>
    obtain ⟨shared, id, -⟩ := resume_goes (C := C) (p := q) (s := s.shared) e
    refine .inr ⟨_, rfl, id, fun r there => ?_⟩
    rw [shared] at there
    rcases mem_after there with old | ⟨kind, rfl, -, -⟩
    · exact .inl old
    · exact .inr rfl

/-- An event of the instance. -/
theorem Balanced.own (balanced : Balanced i s) (here : s.plugins[i]? = some p) {a : Act}
    {next : Answer × Process} (steps : Steps C s i p a next) (releases : Releases C i s ⟨i, a⟩) :
    (∀ q, next.2.plugins[i]? = some q → Owns q next.2.shared ∧ Ledger q next.2.shared ∧
      Released i q.call (next.1, next.2.shared.opened)) := by
  have id := balanced.id i p here
  have owns := balanced.owns p here
  have ledger := balanced.ledger p here
  have releases := releases rfl p here
  have unchanged : ∀ q, s.plugins[i]? = some q → Owns q s.shared ∧ Ledger q s.shared ∧
      Released i q.call (none, s.shared.opened) := fun q there =>
    ⟨balanced.owns q there, balanced.ledger q there, ⟨by simp, by simp⟩⟩
  have put {p' : PluginMemory} {n : Next} (settles : Settles p' n) (same : p'.id = p.id)
      (call : n.2.1.call = p'.call) (owns : Owns n.2.1 n.2.2) :
      ∀ q, (s.put i n).2.plugins[i]? = some q → Owns q (s.put i n).2.shared ∧
        Ledger q (s.put i n).2.shared ∧
        Released i q.call ((s.put i n).1, (s.put i n).2.shared.opened) := by
    intro q there
    rcases plugins_put here there with ⟨-, rfl⟩ | ⟨other, -⟩
    · refine ⟨owns, settles.ledger, ?_⟩
      rw [call, ← id, ← same]
      exact settles.released
    · exact absurd rfl other
  cases steps with
  | ignored call => exact unchanged
  | skipped busy => simp [PluginMemory.releases, busy] at releases
  | wireDispatchers idle env =>
    have settles : Settles p.begin (p.begin.await s.shared (.topics env)) :=
      (await_wires rfl).settles (ledger.begin idle (by simp))
    exact put settles rfl rfl (owns_plain rfl (owns.begin idle))
  | startConsumers idle env =>
    have same : Same p.begin s.shared (p.begin.startConsumers C s.shared env) :=
      startConsumers_same
    have first : C.subscribeTopics = 0 → p.unsubscribeCallbacks = [] := by
      simpa [PluginMemory.releases, or_iff_not_imp_left] using releases
    exact put (startConsumers_settles (ledger.begin idle (by simp)) first) rfl same.call
      (same.owns (owns_startConsumers (owns.begin idle)))
  | shutdown idle =>
    have same : Same p.begin s.shared (p.begin.shutdown C s.shared) := shutdown_same
    have absent : p.graphMemoryAdapter = none := by
      simp only [PluginMemory.releases, Bool.and_eq_true, Option.isNone_iff_eq_none] at releases
      exact releases.2
    exact put (shutdown_settles (ledger.begin idle fun _ => absent) (owns.begin idle)) rfl same.call
      (same.owns (owns_shutdown (owns.begin idle)))
  | ended e =>
    obtain ⟨tends, keeps⟩ : p.tends e = true ∧ p.drops C s.shared e = false := by
      simpa [PluginMemory.releases] using releases
    refine put (resume_settles owns ledger keeps) rfl (resume_goes e).call
      (owns_resume owns tends ?_)
    intro env pc returned clear
    have empty : p.introspectionProxies = [] := by
      cases e with
      | returned value => simpa [PluginMemory.drops, pc, clear] using keeps
      | _ => contradiction
    have running := owns.running
    simp only [PluginMemory.heartbeats, pc, empty] at running
    exact running

theorem Balanced.step (balanced : Balanced i s) (releases : Releases C i s event) :
    Balanced i ((automaton C).step s event).2 := by
  obtain ⟨j, a⟩ := event
  cases here : s.plugins[j]? with
  | none =>
    rw [step_absent here]
    exact balanced
  | some q =>
    have steps : Steps C s j q a (act C s j q a) := act_steps j a
    rw [step_plugin here]
    generalize act C s j q a = next at steps
    have id := balanced.id j q here
    have ids : ∀ k (p : PluginMemory), next.2.plugins[k]? = some p → p.id = k := by
      intro k p found
      rcases steps.frame with same | ⟨n, rfl, kept, -⟩
      · exact balanced.id k p (same ▸ found)
      · rcases plugins_put here found with ⟨rfl, rfl⟩ | ⟨-, found⟩
        · exact kept.trans id
        · exact balanced.id k p found
    by_cases own : j = i
    · subst own
      have settled := balanced.own here steps releases
      exact ⟨ids, fun p found => (settled p found).1, fun p found => (settled p found).2.1⟩
    · rcases steps.frame with same | ⟨n, rfl, -, opened⟩
      · rw [same]
        exact balanced
      · have frame {p : PluginMemory} (found : (s.put j n).2.plugins[i]? = some p) :
            s.plugins[i]? = some p ∧ ∀ r ∈ n.2.2.opened, r.plugin = p.id → r ∈ s.shared.opened := by
          rcases plugins_put here found with ⟨same, -⟩ | ⟨-, found⟩
          · exact absurd same.symm own
          · refine ⟨found, fun r there mine => ?_⟩
            rcases opened r there with old | other
            · exact old
            · rw [other, id, balanced.id i p found] at mine
              exact absurd mine own
        exact ⟨ids, fun p found => (balanced.owns p (frame found).1).frame (frame found).2,
          fun p found => (balanced.ledger p (frame found).1).frame (frame found).2⟩

theorem balanced_initial (i instances : Nat) : Balanced i (.initial instances) := by
  refine ⟨fun j p found => ?_, fun p found => ?_, fun p found => ?_⟩
  · rw [initial_plugins found]
    rfl
  · rw [initial_plugins found]
    exact owns_plain rfl (by simp [Within, Process.initial])
  · rw [initial_plugins found]
    refine ⟨⟨?_, ?_, ?_, ?_, ?_, ?_, ?_, ?_⟩, ?_, ?_⟩ <;>
      simp [Within, Process.initial, PluginMemory.new, PluginMemory.subscriptions, Pc.method]

end Runs

/-- What an event of the instance `i` comes to, after others. -/
def Frees (C : Contracts) (s : Process) (i : Nat) (a : Act) : Prop :=
  ∀ p ∈ ((automaton C).step s ⟨i, a⟩).2.plugins[i]?, Released i p.call
    (((automaton C).step s ⟨i, a⟩).1, ((automaton C).step s ⟨i, a⟩).2.shared.opened)

/-- In the runs in which the calls of an instance drop nothing that is open, a call of it that
reports failure leaves open nothing that it has opened, and a shutdown that reports success nothing
that the instance has. -/
theorem frees_of_releases (C : Contracts) (instances i : Nat) (es : List Event) (a : Act)
    (releases : (automaton C).Meets (Releases C i) (.initial instances) (es ++ [⟨i, a⟩])) :
    Frees C ((automaton C).run (.initial instances) es) i a := by
  obtain ⟨before, last⟩ := Automaton.meets_concat.mp releases
  have balanced : Balanced i ((automaton C).run (.initial instances) es) :=
    Automaton.invariant (balanced_initial i instances) (fun _ _ => Balanced.step) before
  generalize (automaton C).run (.initial instances) es = s at balanced last
  intro p found
  cases here : s.plugins[i]? with
  | none =>
    rw [step_absent here, here] at found
    contradiction
  | some q =>
    rw [step_plugin here] at found ⊢
    exact (balanced.own here (act_steps i a) last p found).2.2

/-- The end of a shutdown, of an instance that was wired and has consumed. -/
theorem frees_of_releases_sample :
    let es : List Event := (Act.wireDispatchers .sample).events 0 5 ++
      (Act.startConsumers ⟨true, true⟩).events 0 1 ++ Act.shutdown.events 0 4
    let s : Process := (automaton .sample).run (.initial 1) es
    Frees .sample s 0 (.ended (.returned true)) ∧ s.shared.opened = [⟨0, 2, .subscription 0⟩] ∧
      (automaton .sample).step s ⟨0, .ended (.returned true)⟩ = (some (.shutdown, .succeeded),
        ⟨⟨false, []⟩, [⟨0, 3, .idle, false, [], [], none, none, false, false⟩]⟩) :=
  ⟨frees_of_releases .sample 1 0 _ _ (by decide +kernel), by decide +kernel, by decide +kernel⟩

/-- A shutdown that succeeds leaves the graph adapter open. -/
theorem not_frees_adapter : ¬ ∀ (C : Contracts) (instances i : Nat) (es : List Event) (a : Act),
    Frees C ((automaton C).run (.initial instances) es) i a := by
  intro all
  let es : List Event := (Act.wireDispatchers ⟨true, true, true, true, true⟩).events 0 8 ++
    Act.shutdown.events 0 3
  have released := all .sample 1 0 es (.ended (.returned true))
  let q : PluginMemory := ⟨0, 2, .idle, false, [], [], some ⟨0, 1, .graphAdapter⟩,
    some ⟨0, 1, .intentAdapter⟩, false, false⟩
  have closed := (released q (by decide +kernel)).closed .succeeded rfl (by decide +kernel)
    ⟨0, 1, .graphAdapter⟩ (by decide +kernel)
  exact closed rfl

end Plugin

end OmniMemory
