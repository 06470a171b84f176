import OmniMemory.Runtime.Ownership

/-! The heartbeat tasks of the instances of one process. The guard of `publish_memory_introspection`
is one for all instances, and any of them resets it: in its `shutdown`, and after a failure of its
`wire_dispatchers`, which the guard itself may have caused. As long as none resets it while the
tasks of another run, and none leaves tasks of its own behind, the tasks that run are of one call,
and an instance will stop them. -/

namespace OmniMemory

open Sequential

namespace Plugin

/-- No heartbeat task runs, or is being started, that is of another instance. -/
def Process.Alone (s : Process) (i : Nat) : Prop :=
  (∀ r ∈ s.shared.opened, r.kind.isHeartbeat = true → r.plugin = i) ∧
    ∀ p ∈ s.plugins, p.pc.publishes = true → p.id = i

instance (s : Process) (i : Nat) : Decidable (s.Alone i) := inferInstanceAs (Decidable (_ ∧ _))

/-- A call leaves no heartbeat tasks behind, and resets the guard when no others run. -/
def KeepsGuard (s : Process) (event : Event) : Prop :=
  match event.act with
  | .ended e => ∀ p ∈ s.plugins[event.plugin]?, p.tends e = true ∧
    (p.pc.resets = true → e.isReturned = true → s.Alone event.plugin)
  | _ => True

instance (s : Process) : ∀ event, Decidable (KeepsGuard s event)
  | ⟨i, .ended e⟩ => inferInstanceAs (Decidable (∀ p ∈ s.plugins[i]?, p.tends e = true ∧
      (p.pc.resets = true → e.isReturned = true → s.Alone i)))
  | ⟨_, .wireDispatchers _⟩ | ⟨_, .startConsumers _⟩ | ⟨_, .shutdown⟩ =>
    inferInstanceAs (Decidable True)

/-- At most one call's heartbeat tasks run, and each of them will be stopped by its instance. -/
structure OneGeneration (s : Process) : Prop where
  single : ∀ r ∈ s.shared.opened, ∀ r' ∈ s.shared.opened, r.kind.isHeartbeat = true →
    r'.kind.isHeartbeat = true → r.plugin = r'.plugin ∧ r.call = r'.call
  owned : ∀ r ∈ s.shared.opened, r.kind.isHeartbeat = true →
    ∃ p, s.plugins[r.plugin]? = some p ∧ r ∈ p.heartbeats

section Quiet

variable {C : Contracts} {p : PluginMemory} {s : Shared} {env : Wiring} {l : List Resource}
  {n : Nat} {e : Ended}

@[simp] theorem leave_publishes {method : Method} {result : Result} :
    (p.leave s method result).2.1.pc.publishes = false := rfl

@[simp] theorem cleaned_publishes : (p.cleaned s).2.1.pc.publishes = false := rfl

@[simp] theorem cancelShutdown_publishes : (p.cancelShutdown s).2.1.pc.publishes = false := rfl

@[simp] theorem clean_publishes : (p.clean s l).2.1.pc.publishes = false := by cases l <;> rfl

@[simp] theorem failWiring_publishes : (p.failWiring s).2.1.pc.publishes = false := clean_publishes

@[simp] theorem wired_publishes : (p.wired s env l).2.1.pc.publishes = false := by
  cases reported : env.reported with
  | true => simp [PluginMemory.wired, reported, PluginMemory.leave, Pc.publishes]
  | false => simp [PluginMemory.wired, reported]

@[simp] theorem build_publishes : (p.build s env).2.1.pc.publishes = false := by
  unfold PluginMemory.build
  split
  · rfl
  · exact failWiring_publishes

@[simp] theorem connect_publishes : (p.connect s env).2.1.pc.publishes = false := by
  unfold PluginMemory.connect
  split
  · exact build_publishes
  · split
    · rfl
    · exact failWiring_publishes

theorem inWiring_publishes {next : Bool → Next}
    (returned : ∀ value, (next value).2.1.pc.publishes = false) :
    (p.inWiring s e next).2.1.pc.publishes = false := by
  cases e with
  | returned value => exact returned value
  | raised isOpen => exact failWiring_publishes
  | cancelled isOpen => rfl

@[simp] theorem subscribe_publishes : (p.subscribe C s n l).2.1.pc.publishes = false := by
  unfold PluginMemory.subscribe
  split <;> rfl

@[simp] theorem rollBack_publishes : (p.rollBack s l).2.1.pc.publishes = false := by
  cases l <;> rfl

@[simp] theorem unsubscribe_publishes {errors : Bool} :
    (p.unsubscribe s errors l).2.1.pc.publishes = false := by
  cases l <;> rfl

@[simp] theorem leaveNode_publishes : (p.leaveNode C s n).2.1.pc.publishes = false := by
  unfold PluginMemory.leaveNode
  split <;> rfl

@[simp] theorem stop_publishes : (p.stop C s l).2.1.pc.publishes = false := by
  cases l with
  | nil => exact leaveNode_publishes
  | cons r l => rfl

@[simp] theorem startConsumers_publishes {env : Consuming} :
    (p.startConsumers C s env).2.1.pc.publishes = false := by
  unfold PluginMemory.startConsumers
  split
  · rfl
  split
  · rfl
  split
  · rfl
  · exact subscribe_publishes

@[simp] theorem shutdown_publishes : (p.shutdown C s).2.1.pc.publishes = false := by
  rw [shutdown_eq]
  split
  · exact stop_publishes
  · exact unsubscribe_publishes

/-- A call comes into the loop of `publish_memory_introspection` by the guard, which it sets. -/
theorem resume_publishes (publishes : (p.resume C s e).2.1.pc.publishes = true) :
    p.pc.publishes = true ∨ s.published = false ∧ (p.after s e).published = true := by
  cases pc : p.pc with
  | publishing env node proxies => exact .inl rfl
  | starting env node proxies => exact .inl rfl
  | introspecting env =>
    simp only [PluginMemory.resume, pc] at publishes
    cases e with
    | returned value =>
      simp only [PluginMemory.inWiring, PluginMemory.introspect] at publishes
      split at publishes
      · simp at publishes
      · split at publishes
        · simp at publishes
        · simp_all [PluginMemory.after]
    | raised isOpen => simp [PluginMemory.inWiring] at publishes
    | cancelled isOpen => simp [PluginMemory.inWiring] at publishes
  | probing env =>
    have quiet (reachable : Bool) : (if reachable then p.await s (.graph env)
        else p.build s env).2.1.pc.publishes = false := by
      cases reachable
      · exact build_publishes
      · rfl
    simp only [PluginMemory.resume, pc] at publishes
    rw [inWiring_publishes quiet] at publishes
    contradiction
  | topics env =>
    simp only [PluginMemory.resume, pc] at publishes
    rw [inWiring_publishes fun _ => connect_publishes] at publishes
    contradiction
  | graph env =>
    simp only [PluginMemory.resume, pc] at publishes
    rw [inWiring_publishes fun _ => rfl] at publishes
    contradiction
  | intent env =>
    simp only [PluginMemory.resume, pc] at publishes
    rw [inWiring_publishes fun _ => build_publishes] at publishes
    contradiction
  | idle => simp [PluginMemory.resume, pc, Pc.publishes] at publishes
  | cleaning rest =>
    cases rest <;> cases e <;> simp_all [PluginMemory.resume, Ended.isCancelled]
  | cleanReset => cases e <;> simp_all [PluginMemory.resume]
  | subscribing topic callbacks => cases e <;> simp_all [PluginMemory.resume]
  | rollingBack rest =>
    cases rest <;> cases e <;> simp_all [PluginMemory.resume, Ended.isCancelled]
  | stopping rest =>
    cases rest <;> cases e <;> simp_all [PluginMemory.resume, Ended.isCancelled]
  | leaving node => cases e <;> simp_all [PluginMemory.resume, Ended.isCancelled]
  | shutdownReset => cases e <;> simp_all [PluginMemory.resume]
  | unsubscribing rest errors => cases rest <;> cases e <;> simp_all [PluginMemory.resume]

end Quiet

section Runs

variable {C : Contracts} {s : Process} {i j : Nat} {p q : PluginMemory} {next : Next}
  {r : Resource} {e : Ended}

/-- The guard is set as long as heartbeat tasks run or are being started, and both are of one
call. -/
structure Guards (s : Process) : Prop where
  id : ∀ i (p : PluginMemory), s.plugins[i]? = some p → p.id = i
  owns : ∀ p ∈ s.plugins, Owns p s.shared
  home : ∀ r ∈ s.shared.opened, r.plugin < s.plugins.length
  running : ∀ r ∈ s.shared.opened, r.kind.isHeartbeat = true → s.shared.published = true
  publishing : ∀ p ∈ s.plugins, p.pc.publishes = true → s.shared.published = true
  alone : ∀ p ∈ s.plugins, ∀ q ∈ s.plugins, p.pc.publishes = true → q.pc.publishes = true →
    p.id = q.id
  current : ∀ p ∈ s.plugins, p.pc.publishes = true → ∀ r ∈ s.shared.opened,
    r.kind.isHeartbeat = true → r.plugin = p.id ∧ r.call = p.call
  single : ∀ r ∈ s.shared.opened, ∀ r' ∈ s.shared.opened, r.kind.isHeartbeat = true →
    r'.kind.isHeartbeat = true → r.plugin = r'.plugin ∧ r.call = r'.call

/-- What an event of the instance `p` does that keeps the guard. -/
structure Moves (s : Process) (p : PluginMemory) (next : Next) : Prop where
  id : next.2.1.id = p.id
  owns : Owns next.2.1 next.2.2
  opened : ∀ r ∈ next.2.2.opened, r ∈ s.shared.opened ∨ r.plugin = p.id ∧
    (r.kind.isHeartbeat = true → p.pc.publishes = true ∧ r.call = p.call)
  publishes : next.2.1.pc.publishes = true → next.2.1.call = p.call ∧
    (p.pc.publishes = true ∨ s.shared.published = false ∧ next.2.2.published = true)
  published : s.shared.published = true → next.2.2.published = true ∨
    s.Alone p.id ∧ next.2.1.pc.publishes = false ∧ next.2.1.heartbeats = []

/-- An instance of the process after an event: the one of the event, or one that it leaves as it
was. -/
theorem mem_plugins_put (here : s.plugins[i]? = some p) (there : q ∈ (s.put i next).2.plugins) :
    q = next.2.1 ∨ ∃ j, j ≠ i ∧ s.plugins[j]? = some q := by
  obtain ⟨j, found⟩ := List.mem_iff_getElem?.mp there
  rcases plugins_put here found with ⟨-, rfl⟩ | ⟨other, found⟩
  · exact .inl rfl
  · exact .inr ⟨j, other, found⟩

namespace Guards

variable (guards : Guards s) (here : s.plugins[i]? = some p) (moves : Moves s p next)

include guards here moves

/-- No heartbeat task runs after a reset of the guard. -/
theorem running_put (there : r ∈ next.2.2.opened) (heartbeat : r.kind.isHeartbeat = true) :
    next.2.2.published = true := by
  have published : s.shared.published = true := by
    rcases moves.opened r there with old | ⟨-, new⟩
    · exact guards.running r old heartbeat
    · exact guards.publishing p (List.mem_of_getElem? here) (new heartbeat).1
  rcases moves.published published with set | ⟨⟨all, -⟩, -, none⟩
  · exact set
  · have own : r.plugin = p.id := by
      rcases moves.opened r there with old | ⟨new, -⟩
      · exact all r old heartbeat
      · exact new
    have mem := moves.owns.running r there (own.trans moves.id.symm) heartbeat
    rw [none] at mem
    cases mem

theorem publishing_put {q : PluginMemory} (there : q ∈ (s.put i next).2.plugins)
    (publishes : q.pc.publishes = true) : next.2.2.published = true := by
  rcases mem_plugins_put here there with rfl | ⟨j, other, found⟩
  · obtain ⟨-, before | ⟨-, set⟩⟩ := moves.publishes publishes
    · have published := guards.publishing p (List.mem_of_getElem? here) before
      rcases moves.published published with set | ⟨-, quiet, -⟩
      · exact set
      · rw [quiet] at publishes
        contradiction
    · exact set
  · have mem := List.mem_of_getElem? found
    rcases moves.published (guards.publishing q mem publishes) with set | ⟨⟨-, all⟩, -, -⟩
    · exact set
    · have same : j = i := by
        rw [← guards.id j q found, all q mem publishes, guards.id i p here]
      exact absurd same other

/-- Of two instances of which one has just moved, at most one is in the loop of
`publish_memory_introspection`. -/
theorem alone_put {j : Nat} {q : PluginMemory} (found : s.plugins[j]? = some q) (other : j ≠ i)
    (moved : next.2.1.pc.publishes = true) : q.pc.publishes = false := by
  by_contra publishes
  have publishes : q.pc.publishes = true := by simpa using publishes
  have mem := List.mem_of_getElem? found
  obtain ⟨-, before | ⟨clear, -⟩⟩ := moves.publishes moved
  · have same := guards.alone q mem p (List.mem_of_getElem? here) publishes before
    rw [guards.id j q found, guards.id i p here] at same
    exact other same
  · have set := guards.publishing q mem publishes
    rw [clear] at set
    contradiction

theorem current_put {q : PluginMemory} (there : q ∈ (s.put i next).2.plugins)
    (publishes : q.pc.publishes = true) (opened : r ∈ next.2.2.opened)
    (heartbeat : r.kind.isHeartbeat = true) : r.plugin = q.id ∧ r.call = q.call := by
  have mem := List.mem_of_getElem? here
  rcases mem_plugins_put here there with rfl | ⟨j, other, found⟩
  · obtain ⟨call, entered⟩ := moves.publishes publishes
    rw [moves.id, call]
    rcases moves.opened r opened with old | ⟨own, new⟩
    · rcases entered with before | ⟨clear, -⟩
      · exact guards.current p mem before r old heartbeat
      · have set := guards.running r old heartbeat
        rw [clear] at set
        contradiction
    · exact ⟨own, (new heartbeat).2⟩
  · have mem' := List.mem_of_getElem? found
    rcases moves.opened r opened with old | ⟨-, new⟩
    · exact guards.current q mem' publishes r old heartbeat
    · have same := guards.alone q mem' p mem publishes (new heartbeat).1
      rw [guards.id j q found, guards.id i p here] at same
      exact absurd same other

theorem put : Guards (s.put i next).2 := by
  have mem := List.mem_of_getElem? here
  have moved := guards.id i p here
  refine ⟨?_, ?_, ?_, ?_, ?_, ?_, ?_, ?_⟩
  · intro j q found
    rcases plugins_put here found with ⟨rfl, rfl⟩ | ⟨-, found⟩
    · exact moves.id.trans moved
    · exact guards.id j q found
  · intro q there
    rcases mem_plugins_put here there with rfl | ⟨j, other, found⟩
    · exact moves.owns
    · refine (guards.owns q (List.mem_of_getElem? found)).frame fun r there own => ?_
      rcases moves.opened r there with old | ⟨new, -⟩
      · exact old
      · rw [new, moved, guards.id j q found] at own
        exact absurd own.symm other
  · intro r there
    rw [Process.put, List.length_set]
    rcases moves.opened r there with old | ⟨new, -⟩
    · exact guards.home r old
    · rw [new, moved]
      exact (List.getElem?_eq_some_iff.mp here).1
  · exact fun r there heartbeat => guards.running_put here moves there heartbeat
  · exact fun q there publishes => guards.publishing_put here moves there publishes
  · intro q there q' there' publishes publishes'
    rcases mem_plugins_put here there with rfl | ⟨j, other, found⟩
    · rcases mem_plugins_put here there' with rfl | ⟨j', other', found'⟩
      · rfl
      · rw [guards.alone_put here moves found' other' publishes] at publishes'
        contradiction
    · rcases mem_plugins_put here there' with rfl | ⟨j', other', found'⟩
      · rw [guards.alone_put here moves found other publishes'] at publishes
        contradiction
      · exact guards.alone q (List.mem_of_getElem? found) q' (List.mem_of_getElem? found')
          publishes publishes'
  · exact fun q there publishes r opened heartbeat =>
      guards.current_put here moves there publishes opened heartbeat
  · intro r there r' there' heartbeat heartbeat'
    have new_old {r r' : Resource} (own : r.plugin = p.id)
        (new : p.pc.publishes = true ∧ r.call = p.call) (old : r' ∈ s.shared.opened)
        (heartbeat : r'.kind.isHeartbeat = true) : r.plugin = r'.plugin ∧ r.call = r'.call := by
      obtain ⟨plugin, call⟩ := guards.current p mem new.1 r' old heartbeat
      exact ⟨own.trans plugin.symm, new.2.trans call.symm⟩
    rcases moves.opened r there with old | ⟨own, new⟩
    · rcases moves.opened r' there' with old' | ⟨own', new'⟩
      · exact guards.single r old r' old' heartbeat heartbeat'
      · obtain ⟨plugin, call⟩ := new_old own' (new' heartbeat') old heartbeat
        exact ⟨plugin.symm, call.symm⟩
    · rcases moves.opened r' there' with old' | ⟨own', new'⟩
      · exact new_old own (new heartbeat) old' heartbeat'
      · exact ⟨own.trans own'.symm, (new heartbeat).2.trans (new' heartbeat').2.symm⟩

end Guards

theorem moves_same (same : Same p.begin s.shared next) (owns : Owns next.2.1 s.shared)
    (quiet : next.2.1.pc.publishes = false) : Moves s p next where
  id := same.id
  owns := same.owns owns
  opened := by
    rw [same.shared]
    exact fun r there => .inl there
  publishes := by simp [quiet]
  published := by
    rw [same.shared]
    exact .inl

theorem resume_resets (resets : p.pc.resets = true) (returned : e.isReturned = true)
    (sh : Shared) : (p.resume C sh e).2.1.heartbeats = [] := by
  cases e with
  | returned value =>
    cases pc : p.pc with
    | cleanReset =>
      simp [PluginMemory.resume, pc, PluginMemory.cleaned, PluginMemory.leave,
        PluginMemory.heartbeats, PluginMemory.kept]
    | shutdownReset =>
      simp only [PluginMemory.resume, pc]
      cases p.unsubscribeCallbacks <;>
        simp [PluginMemory.unsubscribe, PluginMemory.closed, PluginMemory.leave,
          PluginMemory.await, PluginMemory.heartbeats, PluginMemory.kept]
    | _ => simp [pc, Pc.resets] at resets
  | _ => simp [Ended.isReturned] at returned

theorem moves_resume (guards : Guards s) (here : s.plugins[i]? = some p) (tends : p.tends e = true)
    (resets : p.pc.resets = true → e.isReturned = true → s.Alone i) :
    Moves s p (p.resume C s.shared e) := by
  have mem := List.mem_of_getElem? here
  obtain ⟨shared, id, call⟩ := resume_goes (C := C) (p := p) (s := s.shared) e
  refine ⟨id, owns_resume (guards.owns p mem) tends ?_, ?_, ?_, ?_⟩
  · intro env _ _ clear r there _ heartbeat
    have set := guards.running r there heartbeat
    rw [clear] at set
    contradiction
  · intro r there
    rw [shared] at there
    rcases mem_after there with old | ⟨kind, rfl, -, publishes⟩
    · exact .inl old
    · exact .inr ⟨rfl, fun heartbeat => ⟨publishes heartbeat, rfl⟩⟩
  · intro publishes
    rw [shared]
    exact ⟨call, resume_publishes publishes⟩
  · intro set
    by_cases reset : p.pc.resets = true ∧ e.isReturned = true
    · have alone := resets reset.1 reset.2
      rw [← guards.id i p here] at alone
      refine .inr ⟨alone, ?_, resume_resets reset.1 reset.2 _⟩
      by_contra publishes
      rcases resume_publishes (by simpa using publishes) with before | ⟨clear, -⟩
      · cases pc : p.pc <;> simp [pc, Pc.publishes, Pc.resets] at before reset
      · rw [set] at clear
        contradiction
    · rw [shared]
      refine .inl (after_published set fun resets => ?_)
      simpa using fun returned => reset ⟨resets, returned⟩

theorem guards_step {event : Event} (guards : Guards s) (keeps : KeepsGuard s event) :
    Guards ((automaton C).step s event).2 := by
  obtain ⟨i, a⟩ := event
  cases here : s.plugins[i]? with
  | none =>
    rw [step_absent here]
    exact guards
  | some p =>
    have owns := guards.owns p (List.mem_of_getElem? here)
    have steps : Steps C s i p a (act C s i p a) := act_steps i a
    rw [step_plugin here]
    generalize act C s i p a = next at steps
    cases steps with
    | ignored call => exact guards
    | skipped busy => exact guards
    | wireDispatchers idle env =>
      exact guards.put here
        (moves_same (await_same _) (owns_plain rfl (owns.begin idle)) rfl)
    | startConsumers idle env =>
      exact guards.put here (moves_same startConsumers_same
        (owns_startConsumers (owns.begin idle)) startConsumers_publishes)
    | shutdown idle =>
      exact guards.put here (moves_same shutdown_same
        (owns_shutdown (owns.begin idle)) shutdown_publishes)
    | ended e =>
      obtain ⟨tends, resets⟩ := keeps p here
      exact guards.put here (moves_resume guards here tends resets)

theorem guards_initial (instances : Nat) : Guards (Process.initial instances) := by
  have fresh : ∀ p ∈ (Process.initial instances).plugins, ∃ i, p = .new i := by
    intro p there
    obtain ⟨i, found⟩ := List.mem_iff_getElem?.mp there
    exact ⟨i, initial_plugins found⟩
  refine ⟨?_, ?_, ?_, ?_, ?_, ?_, ?_, ?_⟩
  · intro i p found
    rw [initial_plugins found]
    rfl
  · intro p there
    obtain ⟨i, rfl⟩ := fresh p there
    exact owns_plain rfl (by simp [Within, Process.initial])
  · simp [Process.initial]
  · simp [Process.initial]
  · intro p there publishes
    obtain ⟨i, rfl⟩ := fresh p there
    simp [PluginMemory.new, Pc.publishes] at publishes
  · intro p there q _ publishes
    obtain ⟨i, rfl⟩ := fresh p there
    simp [PluginMemory.new, Pc.publishes] at publishes
  · simp [Process.initial]
  · simp [Process.initial]

theorem guards_oneGeneration (guards : Guards s) : OneGeneration s := by
  refine ⟨guards.single, fun r there heartbeat => ?_⟩
  have bound := guards.home r there
  refine ⟨s.plugins[r.plugin], List.getElem?_eq_getElem bound, ?_⟩
  have found : s.plugins[r.plugin]? = some s.plugins[r.plugin] := List.getElem?_eq_getElem bound
  have id := guards.id r.plugin _ found
  exact (guards.owns _ (List.mem_of_getElem? found)).running r there id.symm heartbeat

end Runs

/-- In the runs in which no call leaves heartbeat tasks behind, and the guard is reset only when
those of no other instance run, the tasks that run are of one call, and an instance will stop
them. -/
theorem one_generation_of_keeps (C : Contracts) (instances : Nat) (es : List Event)
    (keeps : (automaton C).Meets KeepsGuard (.initial instances) es) :
    OneGeneration ((automaton C).run (.initial instances) es) :=
  guards_oneGeneration
    (Automaton.invariant (guards_initial instances) (fun _ _ => guards_step) keeps)

/-- An effect and a compute node, and one topic. -/
def Contracts.sample : Contracts := ⟨[.effect, .compute], 1⟩

/-- A call that finds an event bus and no Memgraph. -/
def Wiring.sample : Wiring := ⟨true, false, false, true, true⟩

/-- A call whose next `awaits` awaits return. -/
def Act.events (act : Act) (i awaits : Nat) : List Event :=
  ⟨i, act⟩ :: List.replicate awaits ⟨i, .ended (.returned true)⟩

/-- One instance is shut down before another is wired. -/
theorem one_generation_of_keeps_two :
    let es : List Event := (Act.wireDispatchers .sample).events 0 5 ++ Act.shutdown.events 0 4 ++
      (Act.wireDispatchers .sample).events 1 5
    OneGeneration ((automaton .sample).run (.initial 2) es) ∧
      ((automaton .sample).run (.initial 2) es).shared.opened = [⟨1, 1, .heartbeat 0⟩] :=
  ⟨one_generation_of_keeps .sample 2 _ (by decide +kernel), by decide +kernel⟩

/-- An instance that is wired while the heartbeat task of another runs fails at the guard, and has
then reset it, so that it starts a task of its own when it is wired again. -/
theorem not_one_generation_retried : ¬ ∀ (C : Contracts) (instances : Nat) (es : List Event),
    OneGeneration ((automaton C).run (.initial instances) es) := by
  intro all
  have single := (all .sample 2 ((Act.wireDispatchers .sample).events 0 5 ++
    (Act.wireDispatchers .sample).events 1 3 ++ (Act.wireDispatchers .sample).events 1 5)).single
    ⟨0, 1, .heartbeat 0⟩ (by decide +kernel) ⟨1, 2, .heartbeat 0⟩ (by decide +kernel) rfl rfl
  exact absurd single.1 (by decide)

end Plugin

end OmniMemory
