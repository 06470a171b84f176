import OmniMemory.Lib.Machine
import OmniMemory.Lifecycle.Tick

/-! Ticks that overlap. A tick waits in its two questions, and meanwhile other ticks run, the
projection takes in the events of those that have ended, and its rows change. The markers of the
projection are set only when an event is taken in, so that a memory is announced twice exactly if a
tick looks at it in between; a tick never announces what the projection had taken in. -/

namespace OmniMemory

open Interleave

namespace Tick

/-- An event that a tick emits, with the tick's position among the tasks and the events that the
projection had taken in when the reader looked. -/
structure Emission where
  event : LifecycleEvent
  task : Nat
  known : List LifecycleEvent

/-- What the reader has found for a question, and the events that the projection had taken in. -/
structure Look where
  projections : List ModelMemoryLifecycleProjection
  known : List LifecycleEvent

/-- A tick before its first check, in a question, at its end or after an exception, or the writer of
the projection. -/
inductive Task where
  | starting (tick : ModelRuntimeTick)
  | asking (tick : ModelRuntimeTick) (kind : Kind) (events : List Emission) (look : Option Look)
  | ended (events : List Emission)
  | raised
  | projection

inductive Start where
  | tick (tick : ModelRuntimeTick)
  | projection

structure Shared where
  handler : HandlerMemoryTick
  projections : Projections
  emitted : List Emission
  taken : List LifecycleEvent

/-- What goes on: a tick begins, at the times of its checks; the reader looks for a tick, and then
returns or fails; the projection takes in an event, or its rows change. -/
inductive Choice where
  | begin (at_ : Kind → ℚ)
  | look (projections : List ModelMemoryLifecycleProjection)
  | returns (now : ℚ) (at_ : Kind → ℚ)
  | fails (reply : Reply) (now : ℚ) (at_ : Kind → ℚ)
  | takeIn (event : LifecycleEvent)
  | change (projections : Projections)

def Shared.finish (events : List Emission) (sh : Shared) : Task × Shared :=
  (.ended events, { sh with emitted := sh.emitted ++ events })

/-- A tick comes to its second check: it asks the reader, or ends. -/
def Shared.checkArchive (tick : ModelRuntimeTick) (at_ : Kind → ℚ) (events : List Emission)
    (sh : Shared) : Task × Shared :=
  match sh.handler.asksReader (at_ .archive) with
  | (true, handler) => (.asking tick .archive events none, { sh with handler })
  | (false, handler) => { sh with handler }.finish events

/-- A tick comes to its first check: it asks the reader, or goes on to the second. -/
def Shared.checkExpiration (tick : ModelRuntimeTick) (at_ : Kind → ℚ) (sh : Shared) :
    Task × Shared :=
  match sh.handler.asksReader (at_ .expiration) with
  | (true, handler) => (.asking tick .expiration [] none, { sh with handler })
  | (false, handler) => { sh with handler }.checkArchive tick at_ []

/-- The answer of the reader has come, or its failure. -/
def Shared.answered (i : Nat) (tick : ModelRuntimeTick) (kind : Kind) (events : List Emission)
    (known : List LifecycleEvent) (reply : Reply) (now : ℚ) (at_ : Kind → ℚ) (sh : Shared) :
    Task × Shared :=
  match sh.handler.settle now reply with
  | (.cancelled, handler) => (.raised, { sh with handler })
  | (.found projections, handler) =>
    match eventsOf tick projections kind with
    | .error _ => (.raised, { sh with handler })
    | .ok found =>
      let events := events ++ found.map fun event => ⟨event, i, known⟩
      match kind with
      | .expiration => { sh with handler }.checkArchive tick at_ events
      | .archive => { sh with handler }.finish events

/-- The tasks. An event is taken in when its memory has a row, whose marker is set. -/
def machine : Machine Shared Task Start Choice where
  enter _
    | .tick tick => .starting tick
    | .projection => .projection
  resume i ch task sh :=
    match task, ch with
    | .starting tick, .begin at_ => some (sh.checkExpiration tick at_)
    | .asking tick kind events none, .look projections =>
      some (.asking tick kind events (some ⟨projections, sh.taken⟩), sh)
    | .asking tick kind events (some look), .returns now at_ =>
      some (sh.answered i tick kind events look.known (.returned look.projections) now at_)
    | .asking _ _ _ _, .fails (.returned _) _ _ => none
    | .asking tick kind events _, .fails reply now at_ =>
      some (sh.answered i tick kind events [] reply now at_)
    | .projection, .takeIn event =>
      if event ∈ sh.emitted.map Emission.event then
        (sh.projections event.entityId).map fun p =>
          (.projection, { sh with
            projections := Function.update sh.projections event.entityId
              (some (event.kind.mark event.emittedAt p))
            taken := event :: sh.taken })
      else none
    | .projection, .change projections => some (.projection, { sh with projections })
    | _, _ => none

/-- What is relied on of the reader and of the projection. -/
def Documented (s : System Shared Task) : Machine.Act Start Choice → Prop
  | .resume _ (.look found) => Finds s.shared.projections found
  | .resume _ (.change rows) => Keeps s.shared.projections rows
  | _ => True

/-- A handler at work, before any event. -/
def Fresh (sh : Shared) : Prop := sh.emitted = [] ∧ sh.taken = []

/-- The event reports a memory that needed it by the time of its tick, and nothing that the projection
had taken in announced the same. -/
structure Emission.Sound (m : Emission) : Prop where
  reports : ∃ tick p, m.event.kind.Needs tick.now p ∧ m.event.Reports tick p
  unknown : ∀ e ∈ m.known, ¬ e.Same m.event

/-- The emissions of the task at a position, which announce nothing twice. -/
structure Batch (i : Nat) (ms : List Emission) : Prop where
  sound : ∀ m ∈ ms, m.Sound ∧ m.task = i
  apart : ms.Pairwise fun m m' => ¬ m.event.Same m'.event

/-- A look found rows whose markers know what the projection had taken in. -/
structure Look.Fine (look : Look) : Prop where
  once : (look.projections.map (·.entityId)).Nodup
  marked : ∀ p ∈ look.projections, ∀ e ∈ look.known, e.entityId = p.entityId → e.kind.Marked p

/-- What a task has so far: in its first question a tick has emitted nothing, and in its second only
expirations. -/
def Task.Fine (i : Nat) : Task → Prop
  | .asking _ kind events look =>
    Batch i events ∧ (∀ m ∈ events, m.event.kind = .expiration) ∧ (kind = .expiration → events = []) ∧
      ∀ l ∈ look, l.Fine
  | _ => True

/-- What holds in every interleaving. -/
structure Coherent (s : System Shared Task) : Prop where
  tasks : ∀ i (t : Task), s.tasks[i]? = some t → t.Fine i
  marked : ∀ e ∈ s.shared.taken, ∃ p, s.shared.projections e.entityId = some p ∧ e.kind.Marked p
  sound : ∀ m ∈ s.shared.emitted, m.Sound ∧ ∃ events, s.tasks[m.task]? = some (.ended events)
  apart : s.shared.emitted.Pairwise fun m m' => m.event.Same m'.event → m.task ≠ m'.task

section Steps

variable {s : System Shared Task} {sh sh' : Shared} {i : Nat} {t t' : Task} {tick : ModelRuntimeTick}
  {kind : Kind} {at_ : Kind → ℚ} {events : List Emission} {look : Look}

theorem Batch.nil : Batch i [] := ⟨fun _ mem => absurd mem List.not_mem_nil, .nil⟩

/-- What a step of a tick does: it goes on or raises, or ends and emits what it has. -/
structure Moves (i : Nat) (sh : Shared) (out : Task × Shared) : Prop where
  projections : out.2.projections = sh.projections
  taken : out.2.taken = sh.taken
  emitted : out.1.Fine i ∧ out.2.emitted = sh.emitted ∨
    ∃ events, Batch i events ∧ out.1 = .ended events ∧ out.2.emitted = sh.emitted ++ events

theorem Moves.of_handler {handler : HandlerMemoryTick} {out : Task × Shared}
    (moves : Moves i { sh with handler } out) : Moves i sh out :=
  ⟨moves.projections, moves.taken, moves.emitted⟩

theorem Shared.checkArchive_moves (batch : Batch i events)
    (expirations : ∀ m ∈ events, m.event.kind = .expiration) :
    Moves i sh (sh.checkArchive tick at_ events) := by
  simp only [checkArchive]
  rcases sh.handler.asksReader (at_ .archive) with ⟨_ | _, handler⟩
  · exact ⟨rfl, rfl, .inr ⟨events, batch, rfl, rfl⟩⟩
  · exact ⟨rfl, rfl, .inl ⟨⟨batch, expirations, by simp, by simp⟩, rfl⟩⟩

theorem Shared.checkExpiration_moves : Moves i sh (sh.checkExpiration tick at_) := by
  simp only [checkExpiration]
  rcases sh.handler.asksReader (at_ .expiration) with ⟨_ | _, handler⟩
  · exact (checkArchive_moves .nil (by simp)).of_handler
  · exact ⟨rfl, rfl, .inl ⟨⟨.nil, by simp, by simp, by simp⟩, rfl⟩⟩

/-- The events of a check are sound, since no row that was marked needs one, and they announce
nothing twice, since no row comes twice. -/
theorem Look.Fine.batch (fine : look.Fine) {found : List LifecycleEvent}
    (loop : eventsOf tick look.projections kind = .ok found) :
    Batch i (found.map fun event => ⟨event, i, look.known⟩) ∧ ∀ event ∈ found, event.kind = kind := by
  refine ⟨⟨?_, ?_⟩, fun event mem => (exists_of_mem_eventsOf loop mem).1⟩
  · intro m mem
    obtain ⟨event, one, rfl⟩ := List.mem_map.mp mem
    obtain ⟨rfl, p, found, needs, reports⟩ := exists_of_mem_eventsOf loop one
    refine ⟨⟨⟨tick, p, needs, reports⟩, fun e known same => ?_⟩, rfl⟩
    have marked := fine.marked p found e known (same.2.trans reports.entityId_eq)
    exact needs.unmarked (same.1 ▸ marked)
  · have once : (found.map LifecycleEvent.entityId).Nodup := by
      rw [eventsOf_entityIds loop]
      exact fine.once.sublist (List.filter_sublist.map _)
    rw [List.pairwise_map]
    exact (List.pairwise_map.mp once).imp fun apart same => apart same.2

theorem Shared.answered_moves (look : Look) {reply : Reply} {now : ℚ}
    (fine : (Task.asking tick kind events none).Fine i)
    (found : ∀ projections handler, sh.handler.settle now reply = (.found projections, handler) →
      Look.Fine ⟨projections, look.known⟩) :
    Moves i sh (sh.answered i tick kind events look.known reply now at_) := by
  obtain ⟨batch, expirations, first, -⟩ := fine
  simp only [answered]
  cases settled : sh.handler.settle now reply with
  | mk candidates handler =>
    cases candidates with
    | cancelled => exact ⟨rfl, rfl, .inl ⟨trivial, rfl⟩⟩
    | found projections =>
      cases loop : eventsOf tick projections kind with
      | error e => simpa [loop] using ⟨rfl, rfl, .inl ⟨trivial, rfl⟩⟩
      | ok events' =>
        obtain ⟨batch', kinds⟩ := (found projections handler settled).batch (i := i) loop
        cases kind with
        | expiration =>
          obtain rfl := first rfl
          simp only [loop, List.nil_append]
          exact (checkArchive_moves batch' (by simpa using kinds)).of_handler
        | archive =>
          simp only [loop]
          refine ⟨rfl, rfl, .inr ⟨_, ⟨?_, ?_⟩, rfl, rfl⟩⟩
          · intro m mem
            rcases List.mem_append.mp mem with mem | mem
            · exact batch.sound m mem
            · exact batch'.sound m mem
          · refine List.pairwise_append.mpr ⟨batch.apart, batch'.apart, ?_⟩
            intro m mem m' mem' same
            obtain ⟨event, one, rfl⟩ := List.mem_map.mp mem'
            have := same.1
            rw [expirations m mem, kinds event one] at this
            cases this

theorem Coherent.put (coherent : Coherent s) (task : s.tasks[i]? = some t)
    (going : ∀ events, t ≠ .ended events) (out : Task × Shared) (moves : Moves i s.shared out) :
    Coherent (s.put i out.1 out.2) := by
  have later : ∀ m ∈ s.shared.emitted, m.task ≠ i := by
    rintro m mem rfl
    obtain ⟨events, ended⟩ := (coherent.sound m mem).2
    rw [task] at ended
    exact going events (Option.some.inj ended)
  have before : ∀ m ∈ s.shared.emitted, m.Sound ∧
      ∃ events, (s.put i out.1 out.2).tasks[m.task]? = some (.ended events) := by
    intro m mem
    rw [System.getElem?_put task, if_neg (later m mem).symm]
    exact coherent.sound m mem
  constructor
  · intro j u at_
    rw [System.getElem?_put task] at at_
    split at at_
    · subst i
      obtain rfl := Option.some.inj at_
      rcases moves.emitted with ⟨fine, -⟩ | ⟨events, -, ended, -⟩
      · exact fine
      · rw [ended]
        trivial
    · exact coherent.tasks j u at_
  · rw [System.shared_put, moves.projections, moves.taken]
    exact coherent.marked
  · rw [System.shared_put]
    rcases moves.emitted with ⟨-, same⟩ | ⟨events, batch, ended, more⟩
    · rw [same]
      exact before
    · intro m mem
      rw [more] at mem
      rcases List.mem_append.mp mem with mem | mem
      · exact before m mem
      · obtain ⟨sound, rfl⟩ := batch.sound m mem
        refine ⟨sound, events, ?_⟩
        rw [System.getElem?_put task, if_pos rfl, ended]
  · rw [System.shared_put]
    rcases moves.emitted with ⟨-, same⟩ | ⟨events, batch, ended, more⟩
    · rw [same]
      exact coherent.apart
    · rw [more]
      refine List.pairwise_append.mpr ⟨coherent.apart, batch.apart.imp fun apart same => ?_, ?_⟩
      · exact absurd same apart
      · intro m mem m' mem' _
        rw [(batch.sound m' mem').2]
        exact later m mem

theorem Coherent.put_projection (coherent : Coherent s) (task : s.tasks[i]? = some .projection)
    (emitted : sh.emitted = s.shared.emitted)
    (marked : ∀ e ∈ sh.taken, ∃ p, sh.projections e.entityId = some p ∧ e.kind.Marked p) :
    Coherent (s.put i .projection sh) := by
  have same : (s.put i .projection sh).tasks = s.tasks := by
    obtain ⟨bound, here⟩ := List.getElem?_eq_some_iff.mp task
    show s.tasks.set i .projection = s.tasks
    rw [← here, List.set_getElem_self]
  constructor
  · rw [same]
    exact coherent.tasks
  · exact marked
  · rw [same, System.shared_put, emitted]
    exact coherent.sound
  · rw [System.shared_put, emitted]
    exact coherent.apart

theorem Kind.Marked.mark {p : ModelMemoryLifecycleProjection} {kind' : Kind} {now : Timestamp}
    (marked : kind.Marked p) : kind.Marked (kind'.mark now p) := by
  cases kind <;> cases kind' <;> first | exact marked | rfl

theorem Kind.marked_mark {p : ModelMemoryLifecycleProjection} {now : Timestamp} :
    kind.Marked (kind.mark now p) := by
  cases kind <;> rfl

theorem Coherent.takeIn (coherent : Coherent s) (task : s.tasks[i]? = some .projection)
    {event : LifecycleEvent} {p : ModelMemoryLifecycleProjection}
    (row : s.shared.projections event.entityId = some p) :
    Coherent (s.put i .projection { s.shared with
      projections := Function.update s.shared.projections event.entityId
        (some (event.kind.mark event.emittedAt p))
      taken := event :: s.shared.taken }) := by
  refine coherent.put_projection task rfl fun e mem => ?_
  rcases List.mem_cons.mp mem with rfl | mem
  · exact ⟨_, Function.update_self .., Kind.marked_mark⟩
  · obtain ⟨q, row', marked⟩ := coherent.marked e mem
    by_cases same : e.entityId = event.entityId
    · rw [same, row] at row'
      obtain rfl := Option.some.inj row'
      exact ⟨_, by rw [same]; exact Function.update_self .., marked.mark⟩
    · exact ⟨q, by rw [← row']; exact Function.update_of_ne same .., marked⟩

theorem HandlerMemoryTick.settle_failed {self handler : HandlerMemoryTick} {now : ℚ} {reply : Reply}
    {projections : List ModelMemoryLifecycleProjection} (failed : ∀ found, reply ≠ .returned found)
    (settled : self.settle now reply = (.found projections, handler)) : projections = [] := by
  cases reply with
  | returned found => exact absurd rfl (failed found)
  | cancelled => cases settled
  | _ => cases settled; rfl

theorem machine_fails {reply : Reply} {now : ℚ} {look : Option Look} {out : Task × Shared}
    (ran : machine.resume i (.fails reply now at_) (.asking tick kind events look) sh = some out) :
    (∀ found, reply ≠ .returned found) ∧ sh.answered i tick kind events [] reply now at_ = out := by
  cases reply with
  | returned found => cases look <;> contradiction
  | _ => cases look <;> exact ⟨by simp, Option.some.inj ran⟩

theorem Coherent.resume (coherent : Coherent s) {ch : Choice} (met : Documented s (.resume i ch))
    (task : s.tasks[i]? = some t) (ran : machine.resume i ch t s.shared = some (t', sh')) :
    Coherent (s.put i t' sh') := by
  have fine := coherent.tasks i t task
  cases t with
  | ended events => cases ch <;> contradiction
  | raised => cases ch <;> contradiction
  | starting tick =>
    cases ch with
    | begin at_ =>
      have out := Option.some.inj ran
      exact coherent.put task (by simp) (t', sh') (out ▸ Shared.checkExpiration_moves)
    | _ => contradiction
  | projection =>
    cases ch with
    | takeIn event =>
      unfold machine at ran
      dsimp only at ran
      split at ran
      · obtain ⟨p, row, rfl, rfl⟩ := by simpa using ran
        exact coherent.takeIn task row
      · contradiction
    | change rows =>
      cases ran
      refine coherent.put_projection task rfl fun e mem => ?_
      obtain ⟨p, row, marked⟩ := coherent.marked e mem
      obtain ⟨p', row', keeps⟩ := met _ p row
      exact ⟨p', row', keeps _ marked⟩
    | _ => contradiction
  | asking tick kind events look =>
    have fine' : (Task.asking tick kind events none).Fine i :=
      ⟨fine.1, fine.2.1, fine.2.2.1, by simp⟩
    cases ch with
    | look found =>
      cases look with
      | some look => contradiction
      | none =>
        cases ran
        refine coherent.put task (by simp) (_, s.shared) ⟨rfl, rfl, .inl ⟨?_, rfl⟩⟩
        refine ⟨fine.1, fine.2.1, fine.2.2.1, fun l mem => ?_⟩
        obtain rfl := Option.mem_some_iff.mp mem
        refine ⟨met.once, fun p mem e known same => ?_⟩
        obtain ⟨q, row, marked⟩ := coherent.marked e known
        rw [same, met.row p mem] at row
        exact Option.some.inj row ▸ marked
    | returns now at_ =>
      cases look with
      | none => contradiction
      | some look =>
        have out := Option.some.inj ran
        refine coherent.put task (by simp) (t', sh') (out ▸ Shared.answered_moves look fine' ?_)
        intro projections handler settled
        cases settled
        exact fine.2.2.2 look rfl
    | fails reply now at_ =>
      obtain ⟨failed, out⟩ := machine_fails ran
      refine coherent.put task (by simp) (t', sh') (out ▸ Shared.answered_moves ⟨[], []⟩ fine' ?_)
      intro projections handler settled
      rw [HandlerMemoryTick.settle_failed failed settled]
      exact ⟨List.nodup_nil, by simp⟩
    | _ => cases look <;> contradiction

/-- In every interleaving of ticks with each other and with the projection, what is announced is of a
memory that needed it, nothing is announced that the projection had taken in when the reader looked,
and no tick announces anything twice. -/
theorem ticks_coherent (reach : machine.Reach Fresh Documented s) : Coherent s := by
  refine reach.invariant (fun sh fresh => ?_) (fun s a coherent _ => ?_)
    fun s i ch t t' sh coherent met task ran => coherent.resume met task ran
  · constructor
    · intro i t task
      simp at task
    · simp [fresh.2]
    · simp [fresh.1]
    · simp [fresh.1]
  · have old : ∀ j t, s.tasks[j]? = some t → (s.add (machine.enter s.tasks.length a)).tasks[j]? = some t :=
      fun j t task => System.getElem?_add_of_some task
    constructor
    · intro j t task
      rcases System.getElem?_add task with ⟨-, rfl⟩ | task
      · cases a <;> trivial
      · exact coherent.tasks j t task
    · exact coherent.marked
    · intro m mem
      obtain ⟨sound, events, ended⟩ := coherent.sound m mem
      exact ⟨sound, events, old _ _ ended⟩
    · exact coherent.apart

/-- The system after steps of the task at `i` alone. -/
inductive Alone (i : Nat) (s : System Shared Task) : System Shared Task → Prop where
  | refl : Alone i s s
  | step {s' s'' : System Shared Task} {ch : Choice} (alone : Alone i s s')
      (next : machine.next s' (.resume i ch) = some s'') : Alone i s s''

theorem Alone.trans {s' s'' : System Shared Task} (first : Alone i s s') (second : Alone i s' s'') :
    Alone i s s'' := by
  induction second with
  | refl => exact first
  | step _ next ih => exact .step ih next

theorem Alone.cast {s' s'' : System Shared Task} (alone : Alone i s s') (same : s' = s'') :
    Alone i s s'' := same ▸ alone

theorem Alone.one (out : Task × Shared) (ch : Choice) (task : s.tasks[i]? = some t)
    (ran : machine.resume i ch t s.shared = some out) : Alone i s (s.put i out.1 out.2) :=
  .step .refl (Machine.next_resume.mpr ⟨t, out.1, out.2, task, ran, rfl⟩)

/-- A question that is answered while only this tick goes on. -/
theorem answered_alone (task : s.tasks[i]? = some (.asking tick kind events none)) (reply : Reply)
    (now : ℚ) (at_ : Kind → ℚ) : ∃ known,
      Alone i s (s.put i (s.shared.answered i tick kind events known reply now at_).1
        (s.shared.answered i tick kind events known reply now at_).2) := by
  cases reply with
  | returned found =>
    let look : Look := ⟨found, s.shared.taken⟩
    have looked := Alone.one (.asking tick kind events (some look), s.shared) (.look found) task rfl
    have task' : (s.put i (.asking tick kind events (some look)) s.shared).tasks[i]? =
        some (.asking tick kind events (some look)) := by
      rw [System.getElem?_put task, if_pos rfl]
    have returned := Alone.one
      (s.shared.answered i tick kind events look.known (.returned found) now at_) (.returns now at_) task' rfl
    exact ⟨look.known, (looked.trans returned).cast (by simp [System.put])⟩
  | timeoutError => exact ⟨[], .one _ (.fails .timeoutError now at_) task rfl⟩
  | circuitBreakerOpenError => exact ⟨[], .one _ (.fails .circuitBreakerOpenError now at_) task rfl⟩
  | raised => exact ⟨[], .one _ (.fails .raised now at_) task rfl⟩
  | cancelled => exact ⟨[], .one _ (.fails .cancelled now at_) task rfl⟩

/-- How a tick is left at its end, with what it returned or raised. -/
inductive Left (i : Nat) (before : List Emission) (s' : System Shared Task) :
    Except PyError (List LifecycleEvent) → Prop where
  | ended {ms : List Emission} {found : List LifecycleEvent} (task : s'.tasks[i]? = some (.ended ms))
    (emitted : s'.shared.emitted = before ++ ms) (events : ms.map Emission.event = found) :
    Left i before s' (.ok found)
  | raised {e : PyError} (task : s'.tasks[i]? = some .raised)
    (emitted : s'.shared.emitted = before) : Left i before s' (.error e)

theorem put_put : (s.put i t sh).put i t' sh' = s.put i t' sh' := by simp [System.put]

theorem getElem?_put_self (task : s.tasks[i]? = some t) : (s.put i t' sh').tasks[i]? = some t' := by
  rw [System.getElem?_put task, if_pos rfl]

/-- From the second check on, as `_check_archive_candidates` goes. -/
theorem archive_alone (asked : Asked) (at_archive : at_ .archive = asked.admittedAt)
    (task : s.tasks[i]? = some t) {out : Task × Shared} (first : Alone i s (s.put i out.1 out.2))
    (here : out = sh.checkArchive tick at_ events) :
    ∃ s', Alone i s s' ∧ s'.shared.handler = (sh.handler.checkArchiveCandidates tick asked).2 ∧
      Left i sh.emitted s' ((sh.handler.checkArchiveCandidates tick asked).1.map fun archived =>
        events.map Emission.event ++ archived.map .archiveInitiated) := by
  subst here
  have here : (s.put i (sh.checkArchive tick at_ events).1 (sh.checkArchive tick at_ events).2).tasks[i]? =
      some (sh.checkArchive tick at_ events).1 := getElem?_put_self task
  revert first here
  simp only [Shared.checkArchive, HandlerMemoryTick.checkArchiveCandidates,
    HandlerMemoryTick.candidates, at_archive]
  rcases sh.handler.asksReader asked.admittedAt with ⟨_ | _, handler⟩
  · intro first here
    exact ⟨_, first, rfl, .ended here rfl (by simp [HandlerMemoryTick.archiveEvents])⟩
  · intro first here
    obtain ⟨known, second⟩ := answered_alone here asked.reply asked.endedAt at_
    refine ⟨_, first.trans second, ?_⟩
    simp only [System.shared_put, Shared.answered]
    cases settled : handler.settle asked.endedAt asked.reply with
    | mk candidates handler' =>
      cases candidates with
      | cancelled => exact ⟨rfl, .raised (getElem?_put_self here) rfl⟩
      | found projections =>
        refine ⟨rfl, .ended (getElem?_put_self here) rfl ?_⟩
        simp [Function.comp_def]

/-- From the first check on, whose events are `found`. -/
theorem expired_alone (sh : Shared) {self : HandlerMemoryTick} (ask : Query → Asked)
    {found : List ModelMemoryExpiredEvent} (events_eq : events.map Emission.event = found.map .expired)
    (at_archive : at_ .archive =
      (ask (.getArchiveCandidates tick.now sh.handler.batchSize)).admittedAt)
    (first_check : self.checkMemoryExpirations tick
      (ask (.getExpiredCandidates tick.now self.batchSize)) = (.ok found, sh.handler))
    (task : s.tasks[i]? = some t) {out : Task × Shared} (first : Alone i s (s.put i out.1 out.2))
    (here : out = sh.checkArchive tick at_ events) :
    ∃ s', Alone i s s' ∧ s'.shared.handler = (self.handle tick ask).2 ∧
      Left i sh.emitted s' ((self.handle tick ask).1.map (·.events)) := by
  obtain ⟨s', alone, handler, left⟩ := archive_alone _ at_archive task first here
  refine ⟨s', alone, ?_⟩
  simp only [HandlerMemoryTick.handle, first_check]
  rw [events_eq] at left
  cases second : sh.handler.checkArchiveCandidates tick
      (ask (.getArchiveCandidates tick.now sh.handler.batchSize)) with
  | mk answer handler' =>
    rw [second] at handler left
    cases answer with
    | error e => exact ⟨handler, left⟩
    | ok archived => exact ⟨handler, left⟩

/-- A tick that nothing overlaps goes as `handle`, and emits what it returns. -/
theorem handle_alone (task : s.tasks[i]? = some (.starting tick)) (ask : Query → Asked) :
    ∃ s', Alone i s s' ∧ s'.shared.handler = (s.shared.handler.handle tick ask).2 ∧
      Left i s.shared.emitted s' ((s.shared.handler.handle tick ask).1.map (·.events)) := by
  let asked (kind : Kind) := ask (kind.query tick.now s.shared.handler.batchSize)
  let at_ (kind : Kind) := (asked kind).admittedAt
  have first := Alone.one (s.shared.checkExpiration tick at_) (.begin at_) task rfl
  have batch := s.shared.handler.asksReader_batchSize (asked .expiration).admittedAt
  have check := HandlerMemoryTick.checkMemoryExpirations.eq_def tick (asked .expiration) s.shared.handler
  have whole := HandlerMemoryTick.handle.eq_def tick ask s.shared.handler
  have question : ask (.getExpiredCandidates tick.now s.shared.handler.batchSize) = asked .expiration := rfl
  simp only [HandlerMemoryTick.candidates] at check
  cases admitted : s.shared.handler.asksReader (asked .expiration).admittedAt with
  | mk allowed handler =>
    simp only [admitted] at check batch
    cases allowed with
    | false =>
      have begun : s.shared.checkExpiration tick at_ =
          Shared.checkArchive tick at_ [] { s.shared with handler } := by
        simp only [Shared.checkExpiration, at_, admitted]
      exact expired_alone { s.shared with handler } ask rfl (by simp only [batch]; rfl) check task
        first begun
    | true =>
      have begun : s.shared.checkExpiration tick at_ =
          (.asking tick .expiration [] none, { s.shared with handler }) := by
        simp only [Shared.checkExpiration, at_, admitted]
      rw [begun] at first
      obtain ⟨known, second⟩ := answered_alone (getElem?_put_self task) (asked .expiration).reply
        (asked .expiration).endedAt at_
      have answered := first.trans second
      rw [put_put] at answered
      simp only [System.shared_put, Shared.answered] at answered
      have batch' := handler.settle_batchSize (asked .expiration).endedAt (asked .expiration).reply
      cases settled : handler.settle (asked .expiration).endedAt (asked .expiration).reply with
      | mk candidates handler' =>
        simp only [settled] at check answered batch'
        cases candidates with
        | cancelled =>
          rw [whole, question, check]
          exact ⟨_, answered, rfl, .raised (getElem?_put_self task) rfl⟩
        | found projections =>
          cases loop : HandlerMemoryTick.expirationEvents tick projections with
          | error e =>
            simp only [eventsOf, loop] at check answered
            rw [whole, question, check]
            exact ⟨_, answered, rfl, .raised (getElem?_put_self task) rfl⟩
          | ok found =>
            simp only [eventsOf, loop] at check answered
            exact expired_alone { s.shared with handler := handler' } ask
              (by simp [Function.comp_def]) (by simp only [batch', batch]; rfl) check task answered rfl

end Steps

/-- The looks of a schedule find rows as they are, and nothing else changes the rows. -/
def Looks (s : System Shared Task) : Machine.Act Start Choice → Bool
  | .resume _ (.look found) =>
    (∀ p ∈ found, s.shared.projections p.entityId = some p) ∧ (found.map (·.entityId)).Nodup
  | .resume _ (.change _) => false
  | _ => true

theorem documented_of_looks {s : System Shared Task} {a : Machine.Act Start Choice}
    (looks : Looks s a = true) : Documented s a := by
  cases a with
  | start a => trivial
  | resume i ch =>
    cases ch with
    | look found =>
      obtain ⟨row, once⟩ := of_decide_eq_true looks
      exact ⟨row, once⟩
    | change rows => cases looks
    | _ => trivial

end Tick

end OmniMemory
