import OmniMemory.Runtime.PluginMemory

/-! Who stops the heartbeat tasks of an instance. `heartbeats` are those that the instance, or the
call that it is in, will stop; in the steps that leave none of them behind, they are all that
run. -/

namespace OmniMemory

open Sequential

namespace Plugin

namespace ResourceKind

def isHeartbeat : ResourceKind → Bool
  | heartbeat _ => true
  | _ => false

def isSubscription : ResourceKind → Bool
  | subscription _ => true
  | _ => false

def isAdapter : ResourceKind → Bool
  | graphAdapter | intentAdapter => true
  | _ => false

end ResourceKind

namespace Pc

/-- The call is in the loop of `publish_memory_introspection`. -/
def publishes : Pc → Bool
  | publishing _ _ _ | starting _ _ _ => true
  | _ => false

/-- The instance is in no call, or in `wire_dispatchers`, and not at the intent adapter. -/
def wires : Pc → Bool
  | idle | topics _ | probing _ | graph _ | introspecting _ | publishing _ _ _ | starting _ _ _
  | cleaning _ | cleanReset => true
  | _ => false

/-- The call has no heartbeat tasks in its hands. -/
def plain : Pc → Bool
  | publishing _ _ _ | starting _ _ _ | cleaning _ | stopping _ | introspecting _ => false
  | _ => true

end Pc

/-- The heartbeat tasks that `shutdown` stops. -/
def PluginMemory.kept (p : PluginMemory) : List Resource :=
  if p.eventBus then p.introspectionProxies else []

/-- The heartbeat tasks that a call of the instance in progress hands over to it, or stops; else
those that its `shutdown` stops. -/
def PluginMemory.heartbeats (p : PluginMemory) : List Resource :=
  match p.pc with
  | .publishing _ _ proxies | .starting _ _ proxies => proxies
  | .cleaning rest | .stopping rest => rest
  | .cleanReset | .leaving _ | .shutdownReset | .unsubscribing _ _ => []
  | .introspecting _ => p.introspectionProxies
  | _ => p.kept

/-- The step leaves no heartbeat task behind: none runs whose start has raised, or whose stop has,
and no call is cancelled that has some in its hands. -/
def PluginMemory.tends (p : PluginMemory) (e : Ended) : Bool :=
  match p.pc, e with
  | .introspecting _, .cancelled _ => p.eventBus || p.introspectionProxies.isEmpty
  | .publishing _ _ proxies, .cancelled _ => proxies.isEmpty
  | .starting _ _ proxies, .cancelled isOpen => proxies.isEmpty && !isOpen
  | .cleaning _, .cancelled _ => p.eventBus
  | .starting _ _ _, .raised isOpen | .cleaning _, .raised isOpen | .stopping _, .raised isOpen =>
    !isOpen
  | _, _ => true

/-- The open resources of an instance and a kind are among `l`. -/
def Within (id : Nat) (kind : ResourceKind → Bool) (s : Shared) (l : List Resource) : Prop :=
  ∀ r ∈ s.opened, r.plugin = id → kind r.kind = true → r ∈ l

/-- The heartbeat tasks of the instance that run are those that it will stop. -/
structure Owns (p : PluginMemory) (s : Shared) : Prop where
  running : Within p.id ResourceKind.isHeartbeat s p.heartbeats
  bus : p.pc.publishes = true → p.eventBus = true
  introspecting : ∀ env, p.pc = .introspecting env → p.eventBus = env.eventBus
  cleaning : ∀ rest, p.pc = .cleaning rest → rest ⊆ p.introspectionProxies
  stopping : ∀ rest, p.pc = .stopping rest → rest ⊆ p.introspectionProxies ∧ p.eventBus = true

/-- What a call comes to that opens and closes nothing on its way. -/
structure Same (p : PluginMemory) (s : Shared) (next : Next) : Prop where
  shared : next.2.2 = s
  id : next.2.1.id = p.id
  call : next.2.1.call = p.call
  adapter : next.2.1.graphMemoryAdapter = p.graphMemoryAdapter

/-- The same, of `wire_dispatchers`, before its failure is reported. -/
structure Wires (p : PluginMemory) (s : Shared) (next : Next) : Prop extends Same p s next where
  callbacks : next.2.1.unsubscribeCallbacks = p.unsubscribeCallbacks
  pc : next.2.1.pc.wires = true
  answer : ∀ method result, next.1 = some (method, result) →
    method = .wireDispatchers ∧ result ≠ .failed

section Within

variable {id : Nat} {kind : ResourceKind → Bool} {s : Shared} {l l' : List Resource} {r : Resource}
  {b : Bool}

theorem Within.mono (within : Within id kind s l) (sub : l ⊆ l') : Within id kind s l' :=
  fun r there own is => sub (within r there own is)

theorem Within.none (within : Within id kind s []) (l : List Resource) : Within id kind s l :=
  within.mono (List.nil_subset l)

theorem mem_openIf {r' : Resource} :
    r' ∈ (s.openIf r b).opened ↔ (b = true ∧ r' = r) ∨ r' ∈ s.opened := by
  cases b <;> simp [Shared.openIf]

theorem mem_closeIf {r' : Resource} :
    r' ∈ (s.closeIf r b).opened ↔ r' ∈ s.opened ∧ (b = true → r' ≠ r) := by
  cases b <;> simp [Shared.closeIf]

@[simp] theorem openIf_published : (s.openIf r b).published = s.published := by
  cases b <;> rfl

@[simp] theorem closeIf_published : (s.closeIf r b).published = s.published := by
  cases b <;> rfl

/-- A resource of another kind. -/
theorem Within.openIf_other (within : Within id kind s l) (other : kind r.kind = false) :
    Within id kind (s.openIf r b) l := by
  intro r' there own is
  rcases mem_openIf.mp there with ⟨-, rfl⟩ | there
  · rw [other] at is
    contradiction
  · exact within r' there own is

theorem Within.openIf (within : Within id kind s l) : Within id kind (s.openIf r b) (l ++ [r]) := by
  intro r' there own is
  rcases mem_openIf.mp there with ⟨-, rfl⟩ | there
  · simp
  · exact List.mem_append_left _ (within r' there own is)

theorem Within.openIf_false (within : Within id kind s l) (not : b = false) :
    Within id kind (s.openIf r b) l := by
  rw [not]
  exact within

theorem Within.closeIf (within : Within id kind s l) : Within id kind (s.closeIf r b) l :=
  fun r' there => within r' (mem_closeIf.mp there).1

theorem Within.closeIf_head (within : Within id kind s (r :: l)) (closes : b = true) :
    Within id kind (s.closeIf r b) l := by
  intro r' there own is
  obtain ⟨there, other⟩ := mem_closeIf.mp there
  rcases List.mem_cons.mp (within r' there own is) with rfl | here
  · exact absurd rfl (other closes)
  · exact here

end Within

section Same

variable {C : Contracts} {p : PluginMemory} {s : Shared} {env : Wiring} {l : List Resource}
  {n : Nat}

theorem await_same (pc : Pc) : Same p s (p.await s pc) := ⟨rfl, rfl, rfl, rfl⟩

theorem leave_same (method : Method) (result : Result) : Same p s (p.leave s method result) :=
  ⟨rfl, rfl, rfl, rfl⟩

theorem await_wires {pc : Pc} (wires : pc.wires = true) : Wires p s (p.await s pc) :=
  { await_same pc with callbacks := rfl, pc := wires, answer := by simp [PluginMemory.await] }

theorem leave_wires {result : Result} (result_ne : result ≠ .failed) :
    Wires p s (p.leave s .wireDispatchers result) :=
  { leave_same _ _ with
    callbacks := rfl
    pc := rfl
    answer := by
      rintro _ _ ⟨⟩
      exact ⟨rfl, result_ne⟩ }

theorem clean_wires : Wires p s (p.clean s l) := by
  cases l <;> exact await_wires rfl

theorem failWiring_wires : Wires p s (p.failWiring s) := clean_wires

theorem wired_wires : Wires p s (p.wired s env l) := by
  cases reported : env.reported with
  | true =>
    simp only [PluginMemory.wired, reported]
    obtain ⟨⟨shared, id, call, adapter⟩, callbacks, pc, answer⟩ : Wires
        { p with introspectionProxies := l } s (PluginMemory.leave
          { p with introspectionProxies := l } s .wireDispatchers .succeeded) :=
      leave_wires (by simp)
    exact ⟨⟨shared, id, call, adapter⟩, callbacks, pc, answer⟩
  | false =>
    simp only [PluginMemory.wired, reported]
    obtain ⟨⟨shared, id, call, adapter⟩, callbacks, pc, answer⟩ :=
      failWiring_wires (p := { p with introspectionProxies := l }) (s := s)
    exact ⟨⟨shared, id, call, adapter⟩, callbacks, pc, answer⟩

theorem publishNode_wires : Wires p s (p.publishNode C s env n l) := by
  unfold PluginMemory.publishNode
  split
  · exact await_wires rfl
  · exact wired_wires

theorem build_wires : Wires p s (p.build s env) := by
  unfold PluginMemory.build
  split
  · exact ⟨⟨rfl, rfl, rfl, rfl⟩, rfl, rfl, by simp [PluginMemory.await]⟩
  · exact failWiring_wires

theorem connect_wires : Wires p s (p.connect s env) := by
  unfold PluginMemory.connect
  split
  · exact build_wires
  · split
    · exact await_wires rfl
    · exact failWiring_wires

theorem inWiring_wires {e : Ended} {next : Bool → Next}
    (returned : ∀ value, Wires p s (next value)) : Wires p s (p.inWiring s e next) := by
  cases e with
  | returned value => exact returned value
  | raised isOpen => exact failWiring_wires
  | cancelled isOpen => exact leave_wires (by simp)

theorem subscribe_same : Same p s (p.subscribe C s n l) := by
  unfold PluginMemory.subscribe
  split
  · exact await_same _
  · exact ⟨rfl, rfl, rfl, rfl⟩

theorem rollBack_same : Same p s (p.rollBack s l) := by
  cases l with
  | nil => exact leave_same _ _
  | cons r l => exact await_same _

theorem unsubscribe_same {errors : Bool} : Same p s (p.unsubscribe s errors l) := by
  cases l with
  | nil => exact ⟨rfl, rfl, rfl, rfl⟩
  | cons r l => exact await_same _

theorem leaveNode_same : Same p s (p.leaveNode C s n) := by
  unfold PluginMemory.leaveNode
  split <;> exact await_same _

theorem stop_same : Same p s (p.stop C s l) := by
  cases l with
  | nil => exact leaveNode_same
  | cons r l => exact await_same _

theorem startConsumers_same {env : Consuming} : Same p s (p.startConsumers C s env) := by
  unfold PluginMemory.startConsumers
  split
  · exact leave_same _ _
  split
  · exact leave_same _ _
  split
  · exact leave_same _ _
  · exact subscribe_same

theorem shutdown_eq : p.shutdown C s =
    if p.eventBus then
      PluginMemory.stop C { p with shutdownInProgress := true } s p.introspectionProxies
    else PluginMemory.unsubscribe { p with shutdownInProgress := true } s false
      p.unsubscribeCallbacks := rfl

theorem shutdown_same : Same p s (p.shutdown C s) := by
  rw [shutdown_eq]
  split
  · obtain ⟨shared, id, call, adapter⟩ :=
      stop_same (C := C) (p := { p with shutdownInProgress := true }) (s := s)
        (l := p.introspectionProxies)
    exact ⟨shared, id, call, adapter⟩
  · obtain ⟨shared, id, call, adapter⟩ := unsubscribe_same
      (p := { p with shutdownInProgress := true }) (s := s) (l := p.unsubscribeCallbacks)
    exact ⟨shared, id, call, adapter⟩

/-- What the instances share after a step. -/
def PluginMemory.after (p : PluginMemory) (s : Shared) (e : Ended) : Shared :=
  match p.pc, e with
  | .graph _, e => s.openIf (p.resource .graphAdapter) e.opens
  | .intent _, e => s.openIf (p.resource .intentAdapter) e.opens
  | .starting _ node _, e => s.openIf (p.resource (.heartbeat node)) e.opens
  | .subscribing topic _, e => s.openIf (p.resource (.subscription topic)) e.opens
  | .cleaning (r :: _), e | .rollingBack (r :: _), e | .stopping (r :: _), e
  | .unsubscribing (r :: _) _, e => s.closeIf r e.closes
  | .introspecting env, .returned _ =>
    if !s.published && env.eventBus then { s with published := true } else s
  | .cleanReset, .returned _ | .shutdownReset, .returned _ => { s with published := false }
  | _, _ => s

namespace Pc

/-- The call resets the guard when it goes on. -/
def resets : Pc → Bool
  | cleanReset | shutdownReset => true
  | _ => false

end Pc

/-- A step of a call, after which the instances share `s`. -/
structure Goes (p : PluginMemory) (s : Shared) (next : Next) : Prop where
  shared : next.2.2 = s
  id : next.2.1.id = p.id
  call : next.2.1.call = p.call

theorem Same.goes {next : Next} (same : Same p s next) : Goes p s next :=
  ⟨same.shared, same.id, same.call⟩

theorem introspect_goes : Goes p
    (if !s.published && env.eventBus then { s with published := true } else s)
    (p.introspect C s env) := by
  cases published : s.published with
  | true =>
    simp only [PluginMemory.introspect, published]
    exact failWiring_wires.goes
  | false =>
    cases bus : env.eventBus with
    | false =>
      simp only [PluginMemory.introspect, published, bus]
      exact wired_wires.goes
    | true =>
      simp only [PluginMemory.introspect, published, bus]
      exact publishNode_wires.goes

theorem cancelShutdown_same : Same p s (p.cancelShutdown s) := ⟨rfl, rfl, rfl, rfl⟩

theorem cleaned_same : Same p s (p.cleaned s) := ⟨rfl, rfl, rfl, rfl⟩

theorem resume_goes (e : Ended) : Goes p (p.after s e) (p.resume C s e) := by
  cases pc : p.pc with
  | idle =>
    simp only [PluginMemory.resume, PluginMemory.after, pc]
    exact ⟨rfl, rfl, rfl⟩
  | topics env =>
    simp only [PluginMemory.resume, PluginMemory.after, pc]
    exact (inWiring_wires fun _ => connect_wires).goes
  | probing env =>
    simp only [PluginMemory.resume, PluginMemory.after, pc]
    refine (inWiring_wires fun reachable => ?_).goes
    split
    · exact await_wires rfl
    · exact build_wires
  | graph env =>
    simp only [PluginMemory.resume, PluginMemory.after, pc]
    cases e with
    | returned value => exact ⟨rfl, rfl, rfl⟩
    | raised isOpen => exact failWiring_wires.goes
    | cancelled isOpen => exact (leave_same _ _).goes
  | intent env =>
    simp only [PluginMemory.resume, PluginMemory.after, pc]
    cases e with
    | returned value =>
      obtain ⟨shared, id, call, adapter⟩ : Same
          { p with intentGraphAdapter := some (p.resource .intentAdapter) } _
          (PluginMemory.build { p with intentGraphAdapter := some (p.resource .intentAdapter) }
            (s.openIf (p.resource .intentAdapter) true) env) := build_wires.toSame
      exact ⟨shared, id, call⟩
    | raised isOpen => exact failWiring_wires.goes
    | cancelled isOpen => exact (leave_same _ _).goes
  | introspecting env =>
    simp only [PluginMemory.resume, PluginMemory.after, pc]
    cases e with
    | returned value => exact introspect_goes
    | raised isOpen => exact failWiring_wires.goes
    | cancelled isOpen => exact (leave_same _ _).goes
  | publishing env node proxies =>
    simp only [PluginMemory.resume, PluginMemory.after, pc]
    cases e with
    | returned value =>
      cases value with
      | false => exact publishNode_wires.goes
      | true =>
        simp only
        split
        · exact (await_same _).goes
        · exact publishNode_wires.goes
    | raised isOpen => exact publishNode_wires.goes
    | cancelled isOpen => exact (leave_same _ _).goes
  | starting env node proxies =>
    simp only [PluginMemory.resume, PluginMemory.after, pc]
    cases e with
    | cancelled isOpen => exact (leave_same _ _).goes
    | _ => exact publishNode_wires.goes
  | cleaning rest =>
    cases rest with
    | nil =>
      simp only [PluginMemory.resume, PluginMemory.after, pc]
      exact clean_wires.goes
    | cons r rest =>
      simp only [PluginMemory.resume, PluginMemory.after, pc]
      split
      · exact (leave_same _ _).goes
      · exact clean_wires.goes
  | cleanReset =>
    simp only [PluginMemory.resume, PluginMemory.after, pc]
    cases e with
    | returned value => exact cleaned_same.goes
    | _ => exact (leave_same _ _).goes
  | subscribing topic callbacks =>
    simp only [PluginMemory.resume, PluginMemory.after, pc]
    cases e with
    | returned value => exact subscribe_same.goes
    | raised isOpen => exact rollBack_same.goes
    | cancelled isOpen => exact (leave_same _ _).goes
  | rollingBack rest =>
    cases rest with
    | nil =>
      simp only [PluginMemory.resume, PluginMemory.after, pc]
      exact rollBack_same.goes
    | cons r rest =>
      simp only [PluginMemory.resume, PluginMemory.after, pc]
      split
      · exact (leave_same _ _).goes
      · exact rollBack_same.goes
  | stopping rest =>
    cases rest with
    | nil =>
      simp only [PluginMemory.resume, PluginMemory.after, pc]
      exact stop_same.goes
    | cons r rest =>
      simp only [PluginMemory.resume, PluginMemory.after, pc]
      split
      · exact cancelShutdown_same.goes
      · exact stop_same.goes
  | leaving node =>
    simp only [PluginMemory.resume, PluginMemory.after, pc]
    split
    · exact cancelShutdown_same.goes
    · exact leaveNode_same.goes
  | shutdownReset =>
    simp only [PluginMemory.resume, PluginMemory.after, pc]
    cases e with
    | cancelled isOpen => exact cancelShutdown_same.goes
    | _ => exact unsubscribe_same.goes
  | unsubscribing rest errors =>
    cases rest with
    | nil =>
      simp only [PluginMemory.resume, PluginMemory.after, pc]
      exact unsubscribe_same.goes
    | cons r rest =>
      simp only [PluginMemory.resume, PluginMemory.after, pc]
      cases e with
      | cancelled isOpen => exact cancelShutdown_same.goes
      | _ => exact unsubscribe_same.goes

/-- Only a reset clears the guard. -/
theorem after_published {e : Ended} (set : s.published = true)
    (keeps : p.pc.resets = true → e.isReturned = false) : (p.after s e).published = true := by
  unfold PluginMemory.after
  split
  · simpa using set
  · simpa using set
  · simpa using set
  · simpa using set
  · simpa using set
  · simpa using set
  · simpa using set
  · simpa using set
  · split
    · rfl
    · exact set
  · rename_i pc
    simp [pc, Pc.resets, Ended.isReturned] at keeps
  · rename_i pc
    simp [pc, Pc.resets, Ended.isReturned] at keeps
  · exact set

theorem mem_after {e : Ended} {r : Resource} (there : r ∈ (p.after s e).opened) :
    r ∈ s.opened ∨ ∃ kind, r = p.resource kind ∧ e.opens = true ∧
      (kind.isHeartbeat = true → p.pc.publishes = true) := by
  unfold PluginMemory.after at there
  split at there
  · rcases mem_openIf.mp there with ⟨opens, rfl⟩ | there
    · exact .inr ⟨_, rfl, opens, by simp [ResourceKind.isHeartbeat]⟩
    · exact .inl there
  · rcases mem_openIf.mp there with ⟨opens, rfl⟩ | there
    · exact .inr ⟨_, rfl, opens, by simp [ResourceKind.isHeartbeat]⟩
    · exact .inl there
  · rename_i pc
    rcases mem_openIf.mp there with ⟨opens, rfl⟩ | there
    · exact .inr ⟨_, rfl, opens, fun _ => by simp [pc, Pc.publishes]⟩
    · exact .inl there
  · rcases mem_openIf.mp there with ⟨opens, rfl⟩ | there
    · exact .inr ⟨_, rfl, opens, by simp [ResourceKind.isHeartbeat]⟩
    · exact .inl there
  · exact .inl (mem_closeIf.mp there).1
  · exact .inl (mem_closeIf.mp there).1
  · exact .inl (mem_closeIf.mp there).1
  · exact .inl (mem_closeIf.mp there).1
  · split at there <;> exact .inl there
  · exact .inl there
  · exact .inl there
  · exact .inl there

end Same

section Owns

variable {C : Contracts} {p : PluginMemory} {s : Shared} {env : Wiring} {l : List Resource}
  {n : Nat} {e : Ended}

/-- The heartbeat tasks of the instance that run are among `l`. -/
abbrev PluginMemory.Runs (p : PluginMemory) (s : Shared) (l : List Resource) : Prop :=
  Within p.id ResourceKind.isHeartbeat s l

theorem kept_subset : p.kept ⊆ p.introspectionProxies := by
  unfold PluginMemory.kept
  split
  · exact List.Subset.refl _
  · exact List.nil_subset _

theorem owns_plain (plain : p.pc.plain = true) (running : p.Runs s p.heartbeats) : Owns p s := by
  refine ⟨running, fun publishes => ?_, fun env pc => ?_, fun rest pc => ?_, fun rest pc => ?_⟩
  · cases pc : p.pc <;> simp_all [Pc.plain, Pc.publishes]
  all_goals simp [pc, Pc.plain] at plain

theorem owns_leave {method : Method} {result : Result} (running : p.Runs s p.kept) :
    Owns (p.leave s method result).2.1 s :=
  owns_plain rfl running

theorem owns_clean (running : p.Runs s l) (sub : l ⊆ p.introspectionProxies) :
    Owns (p.clean s l).2.1 s := by
  cases l with
  | nil => exact owns_plain rfl running
  | cons r l =>
    refine ⟨running, ?_, ?_, ?_, ?_⟩
    · simp [PluginMemory.clean, PluginMemory.await, Pc.publishes]
    · simp [PluginMemory.clean, PluginMemory.await]
    · rintro rest ⟨⟩
      exact sub
    · simp [PluginMemory.clean, PluginMemory.await]

theorem owns_failWiring (running : p.Runs s p.introspectionProxies) :
    Owns (p.failWiring s).2.1 s :=
  owns_clean running (List.Subset.refl _)

theorem owns_wired (running : p.Runs s l) (bus : p.eventBus = true ∨ l = []) :
    Owns (p.wired s env l).2.1 s := by
  cases reported : env.reported with
  | false =>
    simp only [PluginMemory.wired, reported]
    exact owns_failWiring (p := { p with introspectionProxies := l }) running
  | true =>
    simp only [PluginMemory.wired, reported]
    refine owns_leave (p := { p with introspectionProxies := l }) ?_
    rcases bus with bus | rfl
    · simpa [PluginMemory.kept, bus] using running
    · exact running.none _

theorem owns_publishNode (running : p.Runs s l) (bus : p.eventBus = true) :
    Owns (p.publishNode C s env n l).2.1 s := by
  unfold PluginMemory.publishNode
  split
  · refine ⟨running, fun _ => bus, ?_, ?_, ?_⟩ <;> simp [PluginMemory.await]
  · exact owns_wired running (.inl bus)

/-- The guard lets on only an instance that has no heartbeat tasks. -/
theorem owns_introspect (running : p.Runs s p.introspectionProxies)
    (clear : s.published = false → p.Runs s []) (bus : p.eventBus = env.eventBus) :
    Owns (p.introspect C s env).2.1 (p.introspect C s env).2.2 := by
  unfold PluginMemory.introspect
  split
  · rw [failWiring_wires.shared]
    exact owns_failWiring running
  · rename_i published
    have none := clear (by simpa using published)
    split
    · rw [wired_wires.shared]
      exact owns_wired none (.inr rfl)
    · rename_i there
      rw [publishNode_wires.shared]
      exact owns_publishNode none (by simpa [bus] using there)

theorem owns_build (running : p.Runs s p.introspectionProxies) : Owns (p.build s env).2.1 s := by
  unfold PluginMemory.build
  split
  · refine ⟨running, ?_, ?_, ?_, ?_⟩
    · simp [PluginMemory.await, Pc.publishes]
    · rintro _ ⟨⟩
      rfl
    · simp [PluginMemory.await]
    · simp [PluginMemory.await]
  · exact owns_failWiring running

theorem owns_connect (running : p.Runs s p.kept) : Owns (p.connect s env).2.1 s := by
  unfold PluginMemory.connect
  split
  · exact owns_build (running.mono kept_subset)
  · split
    · exact owns_plain rfl running
    · exact owns_failWiring (running.mono kept_subset)

/-- The end of an await at which no heartbeat task is in the hands of the call. -/
theorem owns_inWiring {next : Bool → Next} (running : p.Runs s p.introspectionProxies)
    (cancelled : e.isCancelled = true → p.Runs s p.kept)
    (returned : ∀ value, e = .returned value → Owns (next value).2.1 s) :
    Owns (p.inWiring s e next).2.1 s := by
  cases e with
  | returned value => exact returned value rfl
  | raised isOpen => exact owns_failWiring running
  | cancelled isOpen => exact owns_leave (cancelled rfl)

theorem owns_unsubscribe {errors : Bool} (running : p.Runs s []) :
    Owns (p.unsubscribe s errors l).2.1 s := by
  cases l with
  | nil => exact owns_plain rfl running
  | cons r l => exact owns_plain rfl running

theorem owns_leaveNode (running : p.Runs s []) : Owns (p.leaveNode C s n).2.1 s := by
  unfold PluginMemory.leaveNode
  split <;> exact owns_plain rfl running

theorem owns_stop (running : p.Runs s l) (sub : l ⊆ p.introspectionProxies)
    (bus : p.eventBus = true) : Owns (p.stop C s l).2.1 s := by
  cases l with
  | nil => exact owns_leaveNode running
  | cons r l =>
    refine ⟨running, ?_, ?_, ?_, ?_⟩
    · simp [PluginMemory.stop, PluginMemory.await, Pc.publishes]
    · simp [PluginMemory.stop, PluginMemory.await]
    · simp [PluginMemory.stop, PluginMemory.await]
    · rintro rest ⟨⟩
      exact ⟨sub, bus⟩

theorem owns_subscribe (running : p.Runs s p.kept) : Owns (p.subscribe C s n l).2.1 s := by
  unfold PluginMemory.subscribe
  split <;> exact owns_plain rfl running

theorem owns_rollBack (running : p.Runs s p.kept) : Owns (p.rollBack s l).2.1 s := by
  cases l with
  | nil => exact owns_plain rfl running
  | cons r l => exact owns_plain rfl running

theorem owns_startConsumers {env : Consuming} (running : p.Runs s p.kept) :
    Owns (p.startConsumers C s env).2.1 s := by
  unfold PluginMemory.startConsumers
  split
  · exact owns_leave running
  split
  · exact owns_leave running
  split
  · exact owns_leave running
  · exact owns_subscribe running

theorem owns_shutdown (running : p.Runs s p.kept) : Owns (p.shutdown C s).2.1 s := by
  rw [shutdown_eq]
  split
  · rename_i bus
    refine owns_stop (p := { p with shutdownInProgress := true }) ?_ (List.Subset.refl _) bus
    simpa [PluginMemory.kept, bus] using running
  · rename_i absent
    refine owns_unsubscribe (p := { p with shutdownInProgress := true }) ?_
    simpa [PluginMemory.kept, absent] using running

/-- What others open and close does not matter. -/
theorem Owns.frame {s' : Shared} (owns : Owns p s)
    (opened : ∀ r ∈ s'.opened, r.plugin = p.id → r ∈ s.opened) : Owns p s' :=
  { owns with running := fun r there own => owns.running r (opened r there own) own }

theorem Same.owns {next : Next} (same : Same p s next) (owns : Owns next.2.1 s) :
    Owns next.2.1 next.2.2 := by
  rwa [same.shared]

theorem owns_graph (pc : p.pc = .graph env) (owns : Owns p s) :
    Owns (p.resume C s e).2.1 (p.resume C s e).2.2 := by
  have running : p.Runs (s.openIf (p.resource .graphAdapter) e.opens) p.kept := by
    refine Within.openIf_other ?_ rfl
    simpa only [PluginMemory.heartbeats, pc] using owns.running
  simp only [PluginMemory.resume, pc]
  cases e with
  | returned value => exact owns_plain rfl running
  | raised isOpen => exact failWiring_wires.owns (owns_failWiring (running.mono kept_subset))
  | cancelled isOpen => exact owns_leave running

theorem owns_intent (pc : p.pc = .intent env) (owns : Owns p s) :
    Owns (p.resume C s e).2.1 (p.resume C s e).2.2 := by
  have running : p.Runs (s.openIf (p.resource .intentAdapter) e.opens) p.kept := by
    refine Within.openIf_other ?_ rfl
    simpa only [PluginMemory.heartbeats, pc] using owns.running
  simp only [PluginMemory.resume, pc]
  cases e with
  | returned value =>
    refine build_wires.owns (owns_build ?_)
    exact running.mono kept_subset
  | raised isOpen => exact failWiring_wires.owns (owns_failWiring (running.mono kept_subset))
  | cancelled isOpen => exact owns_leave running

theorem owns_publishing {node : Nat} {proxies : List Resource}
    (pc : p.pc = .publishing env node proxies) (owns : Owns p s) (tends : p.tends e = true) :
    Owns (p.resume C s e).2.1 (p.resume C s e).2.2 := by
  have running : p.Runs s proxies := by simpa only [PluginMemory.heartbeats, pc] using owns.running
  have bus := owns.bus (by simp [pc, Pc.publishes])
  have next : Owns (p.publishNode C s env (node + 1) proxies).2.1
      (p.publishNode C s env (node + 1) proxies).2.2 :=
    publishNode_wires.owns (owns_publishNode running bus)
  simp only [PluginMemory.resume, pc]
  cases e with
  | returned value =>
    cases value with
    | false => exact next
    | true =>
      simp only
      split
      · refine ⟨running, fun _ => bus, ?_, ?_, ?_⟩ <;> simp [PluginMemory.await]
      · exact next
  | raised isOpen => exact next
  | cancelled isOpen =>
    simp only [PluginMemory.tends, pc, List.isEmpty_iff] at tends
    exact owns_leave ((tends ▸ running).none _)

theorem owns_starting {node : Nat} {proxies : List Resource}
    (pc : p.pc = .starting env node proxies) (owns : Owns p s) (tends : p.tends e = true) :
    Owns (p.resume C s e).2.1 (p.resume C s e).2.2 := by
  have running : p.Runs s proxies := by simpa only [PluginMemory.heartbeats, pc] using owns.running
  have bus := owns.bus (by simp [pc, Pc.publishes])
  simp only [PluginMemory.resume, pc]
  cases e with
  | returned value => exact publishNode_wires.owns (owns_publishNode running.openIf bus)
  | raised isOpen =>
    have closed : isOpen = false := by simpa [PluginMemory.tends, pc] using tends
    exact publishNode_wires.owns (owns_publishNode (running.openIf_false closed) bus)
  | cancelled isOpen =>
    simp only [PluginMemory.tends, pc, Bool.and_eq_true, List.isEmpty_iff,
      Bool.not_eq_true'] at tends
    exact owns_leave (((tends.1 ▸ running).openIf_false tends.2).none _)

theorem owns_cleaning {rest : List Resource} (pc : p.pc = .cleaning rest) (owns : Owns p s)
    (tends : p.tends e = true) : Owns (p.resume C s e).2.1 (p.resume C s e).2.2 := by
  have running : p.Runs s rest := by simpa only [PluginMemory.heartbeats, pc] using owns.running
  have sub := owns.cleaning rest pc
  cases rest with
  | nil =>
    simp only [PluginMemory.resume, pc]
    exact clean_wires.owns (owns_clean running sub)
  | cons r rest =>
    simp only [PluginMemory.resume, pc]
    cases e with
    | cancelled isOpen =>
      have bus : p.eventBus = true := by simpa [PluginMemory.tends, pc] using tends
      refine owns_leave ?_
      simpa [PluginMemory.kept, bus] using running.closeIf.mono sub
    | returned value =>
      exact clean_wires.owns
        (owns_clean (running.closeIf_head rfl) (List.subset_of_cons_subset sub))
    | raised isOpen =>
      have closes : (Ended.raised isOpen).closes = true := by
        simpa [PluginMemory.tends, pc, Ended.closes] using tends
      exact clean_wires.owns
        (owns_clean (running.closeIf_head closes) (List.subset_of_cons_subset sub))

theorem owns_stopping {rest : List Resource} (pc : p.pc = .stopping rest) (owns : Owns p s)
    (tends : p.tends e = true) : Owns (p.resume C s e).2.1 (p.resume C s e).2.2 := by
  have running : p.Runs s rest := by simpa only [PluginMemory.heartbeats, pc] using owns.running
  obtain ⟨sub, bus⟩ := owns.stopping rest pc
  cases rest with
  | nil =>
    simp only [PluginMemory.resume, pc]
    exact stop_same.owns (owns_stop running sub bus)
  | cons r rest =>
    simp only [PluginMemory.resume, pc]
    have rest_sub := List.subset_of_cons_subset sub
    cases e with
    | cancelled isOpen =>
      refine owns_leave (p := { p with shutdownInProgress := false }) ?_
      simpa [PluginMemory.kept, bus] using running.closeIf.mono sub
    | returned value => exact stop_same.owns (owns_stop (running.closeIf_head rfl) rest_sub bus)
    | raised isOpen =>
      have closes : (Ended.raised isOpen).closes = true := by
        simpa [PluginMemory.tends, pc, Ended.closes] using tends
      exact stop_same.owns (owns_stop (running.closeIf_head closes) rest_sub bus)

theorem owns_unsubscribing {rest : List Resource} {errors : Bool}
    (pc : p.pc = .unsubscribing rest errors) (owns : Owns p s) :
    Owns (p.resume C s e).2.1 (p.resume C s e).2.2 := by
  have running : p.Runs s [] := by simpa only [PluginMemory.heartbeats, pc] using owns.running
  cases rest with
  | nil =>
    simp only [PluginMemory.resume, pc]
    exact unsubscribe_same.owns (owns_unsubscribe running)
  | cons r rest =>
    simp only [PluginMemory.resume, pc]
    cases e with
    | cancelled isOpen => exact owns_leave (running.closeIf.none _)
    | _ => exact unsubscribe_same.owns (owns_unsubscribe running.closeIf)

/-- A step that leaves no heartbeat task behind, where the guard lets on only an instance that has
none. -/
theorem owns_resume (owns : Owns p s) (tends : p.tends e = true)
    (clear : ∀ env, p.pc = .introspecting env → e.isReturned = true → s.published = false →
      p.Runs s []) :
    Owns (p.resume C s e).2.1 (p.resume C s e).2.2 := by
  have running : p.Runs s p.heartbeats := owns.running
  cases pc : p.pc with
  | idle =>
    simp only [PluginMemory.resume, pc]
    exact owns
  | topics env =>
    have running : p.Runs s p.kept := by simpa only [PluginMemory.heartbeats, pc] using running
    simp only [PluginMemory.resume, pc]
    refine (inWiring_wires fun _ => connect_wires).owns ?_
    exact owns_inWiring (running.mono kept_subset) (fun _ => running)
      fun _ _ => owns_connect running
  | probing env =>
    have running : p.Runs s p.kept := by simpa only [PluginMemory.heartbeats, pc] using running
    simp only [PluginMemory.resume, pc]
    refine (inWiring_wires fun reachable => ?_).owns ?_
    · split
      · exact await_wires rfl
      · exact build_wires
    · refine owns_inWiring (running.mono kept_subset) (fun _ => running) fun reachable _ => ?_
      split
      · exact owns_plain rfl running
      · exact owns_build (running.mono kept_subset)
  | graph env => exact owns_graph pc owns
  | intent env => exact owns_intent pc owns
  | introspecting env =>
    have running : p.Runs s p.introspectionProxies := by
      simpa only [PluginMemory.heartbeats, pc] using running
    simp only [PluginMemory.resume, pc]
    cases e with
    | returned value => exact owns_introspect running (clear env pc rfl) (owns.introspecting env pc)
    | raised isOpen => exact failWiring_wires.owns (owns_failWiring running)
    | cancelled isOpen =>
      refine owns_leave ?_
      simp only [PluginMemory.tends, pc, Bool.or_eq_true, List.isEmpty_iff] at tends
      rcases tends with bus | none
      · simpa [PluginMemory.kept, bus] using running
      · exact (none ▸ running).none _
  | publishing env node proxies => exact owns_publishing pc owns tends
  | starting env node proxies => exact owns_starting pc owns tends
  | cleaning rest => exact owns_cleaning pc owns tends
  | cleanReset =>
    have running : p.Runs s [] := by simpa only [PluginMemory.heartbeats, pc] using running
    simp only [PluginMemory.resume, pc]
    cases e with
    | returned value => exact owns_plain rfl (running.none _)
    | _ => exact owns_leave (running.none _)
  | subscribing topic callbacks =>
    have running : p.Runs (s.openIf (p.resource (.subscription topic)) e.opens) p.kept := by
      refine Within.openIf_other ?_ rfl
      simpa only [PluginMemory.heartbeats, pc] using running
    simp only [PluginMemory.resume, pc]
    cases e with
    | returned value => exact subscribe_same.owns (owns_subscribe running)
    | raised isOpen => exact rollBack_same.owns (owns_rollBack running)
    | cancelled isOpen => exact owns_leave running
  | rollingBack rest =>
    have running : p.Runs s p.kept := by simpa only [PluginMemory.heartbeats, pc] using running
    cases rest with
    | nil =>
      simp only [PluginMemory.resume, pc]
      exact owns_leave running
    | cons r rest =>
      simp only [PluginMemory.resume, pc]
      split
      · exact owns_leave running.closeIf
      · exact rollBack_same.owns (owns_rollBack running.closeIf)
  | stopping rest => exact owns_stopping pc owns tends
  | leaving node =>
    have running : p.Runs s [] := by simpa only [PluginMemory.heartbeats, pc] using running
    simp only [PluginMemory.resume, pc]
    split
    · exact owns_leave (running.none _)
    · exact leaveNode_same.owns (owns_leaveNode running)
  | shutdownReset =>
    have running : p.Runs s [] := by simpa only [PluginMemory.heartbeats, pc] using running
    simp only [PluginMemory.resume, pc]
    cases e with
    | returned value => exact unsubscribe_same.owns (owns_unsubscribe running)
    | raised isOpen => exact unsubscribe_same.owns (owns_unsubscribe running)
    | cancelled isOpen => exact owns_leave (running.none _)
  | unsubscribing rest errors => exact owns_unsubscribing pc owns

end Owns

section Steps

variable {C : Contracts} {s : Process} {event : Event} {p : PluginMemory}

/-- The instance as it begins another call. -/
def PluginMemory.begin (p : PluginMemory) : PluginMemory := { p with call := p.call + 1 }

/-- An instance that begins a call has in its hands what its `shutdown` stops. -/
theorem Owns.begin {sh : Shared} (owns : Owns p sh) (idle : p.pc = .idle) :
    p.begin.Runs sh p.begin.kept := by
  have same : p.heartbeats = p.kept := by simp only [PluginMemory.heartbeats, idle]
  exact same ▸ owns.running

/-- What an event of an instance comes to. -/
inductive Steps (C : Contracts) (s : Process) (i : Nat) (p : PluginMemory) :
    Act → Answer × Process → Prop where
  | ignored {act : Act} (call : ∀ e, act ≠ .ended e) : Steps C s i p act (none, s)
  | skipped (busy : p.shutdownInProgress = true) :
    Steps C s i p .shutdown (some (.shutdown, .skipped), s)
  | wireDispatchers (idle : p.pc = .idle) (env : Wiring) :
    Steps C s i p (.wireDispatchers env) (s.put i (p.begin.await s.shared (.topics env)))
  | startConsumers (idle : p.pc = .idle) (env : Consuming) :
    Steps C s i p (.startConsumers env) (s.put i (p.begin.startConsumers C s.shared env))
  | shutdown (idle : p.pc = .idle) : Steps C s i p .shutdown (s.put i (p.begin.shutdown C s.shared))
  | ended (e : Ended) : Steps C s i p (.ended e) (s.put i (p.resume C s.shared e))

theorem step_plugin {i : Nat} {a : Act} (here : s.plugins[i]? = some p) :
    (automaton C).step s ⟨i, a⟩ = act C s i p a := by
  simp only [automaton, here]

theorem step_absent {i : Nat} {a : Act} (here : s.plugins[i]? = none) :
    (automaton C).step s ⟨i, a⟩ = (none, s) := by
  simp only [automaton, here]

theorem act_steps (i : Nat) (a : Act) : Steps C s i p a (act C s i p a) := by
  cases a with
  | wireDispatchers env =>
    simp only [act, Process.start]
    split
    · exact .wireDispatchers ‹_› env
    · exact .ignored (by simp)
  | startConsumers env =>
    simp only [act, Process.start]
    split
    · exact .startConsumers ‹_› env
    · exact .ignored (by simp)
  | shutdown =>
    simp only [act, Process.start]
    split
    · exact .skipped ‹_›
    · split
      · exact .shutdown ‹_›
      · exact .ignored (by simp)
  | ended e => exact .ended e

/-- The instance after an event of it or of another. -/
theorem plugins_put {i j : Nat} {next : Next} {q : PluginMemory} (here : s.plugins[i]? = some p)
    (found : (s.put i next).2.plugins[j]? = some q) :
    (j = i ∧ q = next.2.1) ∨ (j ≠ i ∧ s.plugins[j]? = some q) := by
  obtain ⟨bound, -⟩ := List.getElem?_eq_some_iff.mp here
  simp only [Process.put, List.getElem?_set, bound, if_true] at found
  split at found
  · rename_i same
    exact .inl ⟨same.symm, (Option.some.inj found).symm⟩
  · rename_i other
    exact .inr ⟨fun same => other same.symm, found⟩

theorem initial_plugins {instances i : Nat}
    (found : (Process.initial instances).plugins[i]? = some p) : p = .new i := by
  simp only [Process.initial, List.getElem?_map, Option.map_eq_some_iff] at found
  obtain ⟨j, there, rfl⟩ := found
  obtain ⟨bound, rfl⟩ := List.getElem?_eq_some_iff.mp there
  simp

end Steps

end Plugin

end OmniMemory
