import Mathlib.Data.List.Forall2
import OmniMemory.Concurrency.CircuitBreaker
import OmniMemory.Lifecycle.State

/-! `HandlerMemoryTick`: on each tick of the runtime it asks a reader for the memories whose time
has run out and for those that wait to be archived, and emits an event for each of them. A circuit
breaker stands before the reader. -/

namespace OmniMemory

namespace Tick

/-- A `datetime`, by its microseconds; a naive one has no time zone. -/
structure Timestamp where
  aware : Bool
  microseconds : Int
deriving DecidableEq

/-- `a <= b`, which raises for a naive and an aware time. -/
def Timestamp.le (a b : Timestamp) : Except PyError Bool :=
  if a.aware = b.aware then .ok (a.microseconds ≤ b.microseconds)
  else .error (.other "can't compare offset-naive and offset-aware datetimes")

/-- The values of a field `lifecycle_revision`. -/
abbrev Revision : Type := { n : Nat // 1 ≤ n }

theorem Revision.one_le : 1 ≤ 1 := Nat.le_refl 1

def Revision.first : Revision := ⟨1, Revision.one_le⟩

structure ModelMemoryLifecycleProjection where
  entityId : UUID
  lifecycleState : String
  expiresAt : Option Timestamp
  expiredAt : Option Timestamp
  archivedAt : Option Timestamp
  lifecycleRevision : Revision
  expirationEmittedAt : Option Timestamp
  archiveInitiatedAt : Option Timestamp
deriving DecidableEq

namespace ModelMemoryLifecycleProjection

def needsExpirationEvent (now : Timestamp) (p : ModelMemoryLifecycleProjection) :
    Except PyError Bool :=
  if p.lifecycleState ≠ EnumLifecycleState.active.value then .ok false
  else
    match p.expiresAt with
    | none => .ok false
    | some expiresAt => (expiresAt.le now).map fun past => past && p.expirationEmittedAt.isNone

def needsArchiveEvent (_now : Timestamp) (p : ModelMemoryLifecycleProjection) : Bool :=
  decide (p.lifecycleState = EnumLifecycleState.expired.value) && p.archivedAt.isNone &&
    p.archiveInitiatedAt.isNone

end ModelMemoryLifecycleProjection

structure ModelMemoryExpiredEvent where
  entityId : UUID
  memoryId : UUID
  correlationId : UUID
  causationId : UUID
  emittedAt : Timestamp
  expiresAt : Timestamp
  lifecycleRevision : Revision
deriving DecidableEq

structure ModelMemoryArchiveInitiated where
  entityId : UUID
  memoryId : UUID
  correlationId : UUID
  causationId : UUID
  emittedAt : Timestamp
  expiredAt : Option Timestamp
  lifecycleRevision : Revision
deriving DecidableEq

inductive LifecycleEvent where
  | expired (event : ModelMemoryExpiredEvent)
  | archiveInitiated (event : ModelMemoryArchiveInitiated)
deriving DecidableEq

/-- `ModelRuntimeTick`, with the correlation id of its envelope or the one made for it. -/
structure ModelRuntimeTick where
  tickId : UUID
  sequenceNumber : Nat
  now : Timestamp
  correlationId : UUID

/-- A question to the projection reader; its domain is always `memory`. -/
inductive Query where
  | getExpiredCandidates (now : Timestamp) (limit : Nat)
  | getArchiveCandidates (now : Timestamp) (limit : Nat)

/-- How a question to the projection reader ends, with its timeout. -/
inductive Reply where
  | returned (projections : List ModelMemoryLifecycleProjection)
  | timeoutError
  | circuitBreakerOpenError
  | raised
  | cancelled

/-- A question to the reader: the time at which the breaker is asked, how it ends if it is let on,
and the time of that. -/
structure Asked where
  admittedAt : ℚ
  reply : Reply
  endedAt : ℚ

/-- `ModelHandlerOutput`, with the two counts among its metrics. -/
structure Output where
  events : List LifecycleEvent
  expiredCount : Nat
  archiveInitiatedCount : Nat

/-- A handler that is initialized. -/
structure HandlerMemoryTick where
  hasReader : Bool
  batchSize : Nat
  circuitBreaker : CircuitBreaker

/-- What is known of the candidates after a question: those to look at, which are none when the
question was refused or failed, or that the task was cancelled. -/
inductive Candidates where
  | found (projections : List ModelMemoryLifecycleProjection)
  | cancelled

namespace HandlerMemoryTick

/-- Whether the reader is asked: there is one, and the breaker lets the question on. -/
def asksReader (now : ℚ) (self : HandlerMemoryTick) : Bool × HandlerMemoryTick :=
  if self.hasReader then
    match self.circuitBreaker.shouldAllowRequest now with
    | (allowed, breaker) => (allowed, { self with circuitBreaker := breaker })
  else (false, self)

/-- The `try` around the question, once it ends. -/
def settle (now : ℚ) (self : HandlerMemoryTick) : Reply → Candidates × HandlerMemoryTick
  | .returned projections =>
    (.found projections, { self with circuitBreaker := self.circuitBreaker.recordSuccess })
  | .timeoutError =>
    (.found [], { self with circuitBreaker := self.circuitBreaker.recordTimeout now })
  | .circuitBreakerOpenError => (.found [], self)
  | .raised => (.found [], { self with circuitBreaker := self.circuitBreaker.recordFailure now })
  | .cancelled => (.cancelled, self)

/-- What both checks do up to their loop. -/
def candidates (asked : Asked) (self : HandlerMemoryTick) : Candidates × HandlerMemoryTick :=
  match self.asksReader asked.admittedAt with
  | (false, self) => (.found [], self)
  | (true, self) => self.settle asked.endedAt asked.reply

/-- The loop of `_check_memory_expirations`. -/
def expirationEvents (tick : ModelRuntimeTick) :
    List ModelMemoryLifecycleProjection → Except PyError (List ModelMemoryExpiredEvent)
  | [] => .ok []
  | p :: rest =>
    match p.needsExpirationEvent tick.now with
    | .error e => .error e
    | .ok false => expirationEvents tick rest
    | .ok true =>
      match p.expiresAt with
      | none => expirationEvents tick rest
      | some expiresAt =>
        (expirationEvents tick rest).map fun events =>
          ⟨p.entityId, p.entityId, tick.correlationId, tick.tickId, tick.now, expiresAt,
            p.lifecycleRevision⟩ :: events

/-- The loop of `_check_archive_candidates`. -/
def archiveEvents (tick : ModelRuntimeTick) :
    List ModelMemoryLifecycleProjection → List ModelMemoryArchiveInitiated
  | [] => []
  | p :: rest =>
    if p.needsArchiveEvent tick.now then
      ⟨p.entityId, p.entityId, tick.correlationId, tick.tickId, tick.now, p.expiredAt,
        p.lifecycleRevision⟩ :: archiveEvents tick rest
    else archiveEvents tick rest

def checkMemoryExpirations (tick : ModelRuntimeTick) (asked : Asked) (self : HandlerMemoryTick) :
    Except PyError (List ModelMemoryExpiredEvent) × HandlerMemoryTick :=
  match self.candidates asked with
  | (.cancelled, self) => (.error (.other "CancelledError"), self)
  | (.found projections, self) => (expirationEvents tick projections, self)

def checkArchiveCandidates (tick : ModelRuntimeTick) (asked : Asked) (self : HandlerMemoryTick) :
    Except PyError (List ModelMemoryArchiveInitiated) × HandlerMemoryTick :=
  match self.candidates asked with
  | (.cancelled, self) => (.error (.other "CancelledError"), self)
  | (.found projections, self) => (.ok (archiveEvents tick projections), self)

/-- `handle`, when the reader is asked as `ask` says. -/
def handle (tick : ModelRuntimeTick) (ask : Query → Asked) (self : HandlerMemoryTick) :
    Except PyError Output × HandlerMemoryTick :=
  match self.checkMemoryExpirations tick (ask (.getExpiredCandidates tick.now self.batchSize)) with
  | (.error e, self) => (.error e, self)
  | (.ok expired, self) =>
    match self.checkArchiveCandidates tick (ask (.getArchiveCandidates tick.now self.batchSize)) with
    | (.error e, self) => (.error e, self)
    | (.ok archived, self) =>
      (.ok ⟨expired.map .expired ++ archived.map .archiveInitiated, expired.length,
        archived.length⟩, self)

end HandlerMemoryTick

/-! What a tick emits. The two kinds of events are told apart by the question that finds their
memories. -/

inductive Kind where
  | expiration
  | archive
deriving DecidableEq

namespace Kind

def pick {α : Type} (forExpiration forArchive : α) : Kind → α
  | expiration => forExpiration
  | archive => forArchive


def query (now : Timestamp) (limit : Nat) : Kind → Query
  | expiration => .getExpiredCandidates now limit
  | archive => .getArchiveCandidates now limit

/-- The memory needs an event of this kind. -/
def Needs (now : Timestamp) (p : ModelMemoryLifecycleProjection) : Kind → Prop
  | expiration => p.needsExpirationEvent now = .ok true
  | archive => p.needsArchiveEvent now = true

instance (now : Timestamp) (p : ModelMemoryLifecycleProjection) :
    ∀ kind : Kind, Decidable (kind.Needs now p)
  | expiration => inferInstanceAs (Decidable (p.needsExpirationEvent now = .ok true))
  | archive => inferInstanceAs (Decidable (p.needsArchiveEvent now = true))

/-- The projection with the marker that an event of this kind was emitted. -/
def mark (now : Timestamp) (p : ModelMemoryLifecycleProjection) :
    Kind → ModelMemoryLifecycleProjection
  | expiration => { p with expirationEmittedAt := some now }
  | archive => { p with archiveInitiatedAt := some now }

/-- The marker is set. -/
def Marked (p : ModelMemoryLifecycleProjection) : Kind → Prop
  | expiration => p.expirationEmittedAt.isSome = true
  | archive => p.archiveInitiatedAt.isSome = true

end Kind

namespace LifecycleEvent

def kind : LifecycleEvent → Kind
  | expired _ => .expiration
  | archiveInitiated _ => .archive

def entityId : LifecycleEvent → UUID
  | expired event => event.entityId
  | archiveInitiated event => event.entityId

def emittedAt : LifecycleEvent → Timestamp
  | expired event => event.emittedAt
  | archiveInitiated event => event.emittedAt

/-- The event says of the memory what its projection says, and names the tick as its cause. -/
def Reports (tick : ModelRuntimeTick) (p : ModelMemoryLifecycleProjection) : LifecycleEvent → Prop
  | expired event => event.entityId = p.entityId ∧ event.memoryId = p.entityId ∧
      event.correlationId = tick.correlationId ∧ event.causationId = tick.tickId ∧
      event.emittedAt = tick.now ∧ some event.expiresAt = p.expiresAt ∧
      event.lifecycleRevision = p.lifecycleRevision
  | archiveInitiated event => event.entityId = p.entityId ∧ event.memoryId = p.entityId ∧
      event.correlationId = tick.correlationId ∧ event.causationId = tick.tickId ∧
      event.emittedAt = tick.now ∧ event.expiredAt = p.expiredAt ∧
      event.lifecycleRevision = p.lifecycleRevision

end LifecycleEvent

/-- The two events announce the same. -/
def LifecycleEvent.Same (e e' : LifecycleEvent) : Prop := e.kind = e'.kind ∧ e.entityId = e'.entityId

instance (e e' : LifecycleEvent) : Decidable (e.Same e') :=
  inferInstanceAs (Decidable (_ ∧ _))

/-- The rows of the projection by the memory. -/
abbrev Projections := UUID → Option ModelMemoryLifecycleProjection

/-- The rows that a question finds: each is a row of the projection, and none comes twice. -/
structure Finds (rows : Projections) (found : List ModelMemoryLifecycleProjection) : Prop where
  row : ∀ p ∈ found, rows p.entityId = some p
  once : (found.map (·.entityId)).Nodup

/-- Rows may come and change, but none goes, and no marker of a row is taken back. -/
def Keeps (rows rows' : Projections) : Prop :=
  ∀ id p, rows id = some p → ∃ p', rows' id = some p' ∧ ∀ kind : Kind, kind.Marked p → kind.Marked p'

/-- The loop of the check that looks for this kind of events. -/
def eventsOf (tick : ModelRuntimeTick) (projections : List ModelMemoryLifecycleProjection) :
    Kind → Except PyError (List LifecycleEvent)
  | .expiration => (HandlerMemoryTick.expirationEvents tick projections).map (·.map .expired)
  | .archive => .ok ((HandlerMemoryTick.archiveEvents tick projections).map .archiveInitiated)

section Loops

variable {tick : ModelRuntimeTick} {now : Timestamp} {p : ModelMemoryLifecycleProjection}
  {projections : List ModelMemoryLifecycleProjection} {kind : Kind} {events : List LifecycleEvent}
  {e : PyError}

/-- A memory that needs an event is not marked. -/
theorem Kind.Needs.unmarked (needs : kind.Needs now p) : ¬ kind.Marked p := by
  cases kind with
  | archive =>
    simp only [Needs, ModelMemoryLifecycleProjection.needsArchiveEvent, Bool.and_eq_true] at needs
    simp [Marked, Option.isNone_iff_eq_none.mp needs.2]
  | expiration =>
    simp only [Needs, ModelMemoryLifecycleProjection.needsExpirationEvent] at needs
    split at needs
    · cases needs
    · cases ends : p.expiresAt with
      | none => simp [ends] at needs
      | some expiresAt =>
        cases past : expiresAt.le now with
        | error e => simp [ends, past, Except.map] at needs
        | ok past' =>
          simp only [ends, past, Except.map, Except.ok.injEq, Bool.and_eq_true] at needs
          simp [Marked, Option.isNone_iff_eq_none.mp needs.2]

/-- A memory that needs an expiration event has a deadline, which has passed. -/
theorem Kind.Needs.expiresAt (needs : Kind.expiration.Needs now p) :
    ∃ expiresAt, p.expiresAt = some expiresAt ∧ expiresAt.le now = .ok true := by
  simp only [Needs, ModelMemoryLifecycleProjection.needsExpirationEvent] at needs
  split at needs
  · cases needs
  · cases ends : p.expiresAt with
    | none => simp [ends] at needs
    | some expiresAt =>
      cases past : expiresAt.le now with
      | error e => simp [ends, past, Except.map] at needs
      | ok past' =>
        simp only [ends, past, Except.map, Except.ok.injEq, Bool.and_eq_true] at needs
        exact ⟨expiresAt, rfl, by rw [past, needs.1]⟩

/-- The loop over the expired memories gives one event for each that needs it, in their order. -/
theorem expirationEvents_forall₂ {events : List ModelMemoryExpiredEvent}
    (loop : HandlerMemoryTick.expirationEvents tick projections = .ok events) :
    List.Forall₂ (fun p event => (LifecycleEvent.expired event).Reports tick p)
      (projections.filter (Kind.expiration.Needs tick.now ·)) events := by
  induction projections generalizing events with
  | nil =>
    cases loop
    exact .nil
  | cons p rest ih =>
    simp only [HandlerMemoryTick.expirationEvents] at loop
    cases needs : p.needsExpirationEvent tick.now with
    | error e => simp [needs] at loop
    | ok answer =>
      have out : (Kind.expiration.Needs tick.now p) ↔ answer = true := by
        rw [Kind.Needs, needs, Except.ok.injEq]
      cases answer with
      | false =>
        simp only [needs] at loop
        rw [List.filter_cons_of_neg (by simp [out])]
        exact ih loop
      | true =>
        obtain ⟨expiresAt, ends, -⟩ := (out.mpr rfl).expiresAt
        simp only [needs, ends] at loop
        cases rest' : HandlerMemoryTick.expirationEvents tick rest with
        | error e => simp [rest', Except.map] at loop
        | ok events' =>
          simp only [rest', Except.map, Except.ok.injEq] at loop
          subst loop
          rw [List.filter_cons_of_pos (by simp [out])]
          exact .cons ⟨rfl, rfl, rfl, rfl, rfl, ends.symm, rfl⟩ (ih rest')

theorem archiveEvents_forall₂ :
    List.Forall₂ (fun p event => (LifecycleEvent.archiveInitiated event).Reports tick p)
      (projections.filter (Kind.archive.Needs tick.now ·))
      (HandlerMemoryTick.archiveEvents tick projections) := by
  induction projections with
  | nil => exact .nil
  | cons p rest ih =>
    simp only [HandlerMemoryTick.archiveEvents]
    by_cases needs : Kind.archive.Needs tick.now p
    · rw [if_pos (show p.needsArchiveEvent tick.now = true from needs),
        List.filter_cons_of_pos (by simp [needs])]
      exact .cons ⟨rfl, rfl, rfl, rfl, rfl, rfl, rfl⟩ ih
    · rw [if_neg (show ¬ p.needsArchiveEvent tick.now = true from needs),
        List.filter_cons_of_neg (by simp [needs])]
      exact ih

/-- A check gives one event for each memory that needs it, in the order of the answer. -/
theorem eventsOf_forall₂ (loop : eventsOf tick projections kind = .ok events) :
    List.Forall₂ (fun p event => event.kind = kind ∧ event.Reports tick p)
      (projections.filter (kind.Needs tick.now ·)) events := by
  cases kind with
  | archive =>
    obtain rfl := Except.ok.inj loop
    rw [List.forall₂_map_right_iff]
    exact archiveEvents_forall₂.imp fun _ _ reports => ⟨rfl, reports⟩
  | expiration =>
    simp only [eventsOf] at loop
    cases ran : HandlerMemoryTick.expirationEvents tick projections with
    | error e => simp [ran, Except.map] at loop
    | ok events' =>
      obtain rfl := Except.ok.inj (ran ▸ loop : Except.ok (events'.map .expired) = .ok events)
      rw [List.forall₂_map_right_iff]
      exact (expirationEvents_forall₂ ran).imp fun _ _ reports => ⟨rfl, reports⟩

theorem LifecycleEvent.Reports.entityId_eq {event : LifecycleEvent}
    (reports : event.Reports tick p) : event.entityId = p.entityId := by
  cases event <;> exact reports.1

theorem eventsOf_entityIds (loop : eventsOf tick projections kind = .ok events) :
    events.map LifecycleEvent.entityId =
      (projections.filter (kind.Needs tick.now ·)).map (·.entityId) := by
  have pairs := eventsOf_forall₂ loop
  clear loop
  generalize projections.filter _ = needing at pairs ⊢
  induction pairs with
  | nil => rfl
  | cons head _ ih => rw [List.map_cons, List.map_cons, head.2.entityId_eq, ih]

theorem exists_of_mem_eventsOf {event : LifecycleEvent}
    (loop : eventsOf tick projections kind = .ok events) (mem : event ∈ events) :
    event.kind = kind ∧ ∃ p ∈ projections, kind.Needs tick.now p ∧ event.Reports tick p := by
  have pairs := eventsOf_forall₂ loop
  obtain ⟨i, bound, rfl⟩ := List.getElem_of_mem mem
  obtain ⟨kind_eq, reports⟩ := pairs.get (by rw [pairs.length_eq]; exact bound) bound
  obtain ⟨mem, needs⟩ := List.mem_filter.mp (List.get_mem _ _)
  exact ⟨kind_eq, _, mem, of_decide_eq_true needs, reports⟩

/-- The comparison with the tick's time raises. -/
theorem needsExpirationEvent_error : (∃ e, p.needsExpirationEvent now = .error e) ↔
    p.lifecycleState = EnumLifecycleState.active.value ∧
      ∃ expiresAt, p.expiresAt = some expiresAt ∧ expiresAt.aware ≠ now.aware := by
  simp only [ModelMemoryLifecycleProjection.needsExpirationEvent]
  by_cases active : p.lifecycleState = EnumLifecycleState.active.value
  · cases ends : p.expiresAt with
    | none => simp [active]
    | some expiresAt =>
      by_cases sort : expiresAt.aware = now.aware
      · simp [active, Timestamp.le, sort, Except.map]
      · simp [active, Timestamp.le, sort, Except.map]
  · simp [active]

/-- One deadline of the other sort of times loses the events of the whole check. -/
theorem expirationEvents_error : (∃ e, HandlerMemoryTick.expirationEvents tick projections = .error e) ↔
    ∃ p ∈ projections, p.lifecycleState = EnumLifecycleState.active.value ∧
      ∃ expiresAt, p.expiresAt = some expiresAt ∧ expiresAt.aware ≠ tick.now.aware := by
  simp only [← needsExpirationEvent_error]
  induction projections with
  | nil => simp [HandlerMemoryTick.expirationEvents]
  | cons p rest ih =>
    simp only [HandlerMemoryTick.expirationEvents, List.exists_mem_cons_iff, ← ih]
    cases needs : p.needsExpirationEvent tick.now with
    | error e => simp
    | ok answer =>
      cases answer with
      | false => simp
      | true =>
        obtain ⟨expiresAt, ends, -⟩ := Kind.Needs.expiresAt needs
        cases later : HandlerMemoryTick.expirationEvents tick rest <;> simp [ends, Except.map]

end Loops

/-- What a check got from its question: rows that the reader returned, or none. -/
def Heard (asked : Asked) (found : List ModelMemoryLifecycleProjection) : Prop :=
  found = [] ∨ asked.reply = .returned found

namespace HandlerMemoryTick

variable {self handler : HandlerMemoryTick} {asked : Asked}
  {found : List ModelMemoryLifecycleProjection}

theorem asksReader_batchSize (self : HandlerMemoryTick) (now : ℚ) :
    (self.asksReader now).2.batchSize = self.batchSize := by
  simp only [asksReader]
  split <;> rfl

theorem settle_batchSize (self : HandlerMemoryTick) (now : ℚ) (reply : Reply) :
    (self.settle now reply).2.batchSize = self.batchSize := by
  cases reply <;> rfl

theorem candidates_batchSize (self : HandlerMemoryTick) (asked : Asked) :
    (self.candidates asked).2.batchSize = self.batchSize := by
  have admitted := asksReader_batchSize self asked.admittedAt
  simp only [candidates]
  cases asks : self.asksReader asked.admittedAt with
  | mk allowed self' =>
    rw [asks] at admitted
    cases allowed with
    | false => exact admitted
    | true => exact (settle_batchSize self' _ _).trans admitted

theorem candidates_heard (candidates : self.candidates asked = (.found found, handler)) :
    Heard asked found := by
  simp only [HandlerMemoryTick.candidates] at candidates
  cases asks : self.asksReader asked.admittedAt with
  | mk allowed self' =>
    rw [asks] at candidates
    cases allowed with
    | false =>
      cases candidates
      exact .inl rfl
    | true =>
      cases reply : asked.reply with
      | returned projections =>
        simp only [reply, settle] at candidates
        cases candidates
        exact .inr reply
      | cancelled => simp [reply, settle] at candidates
      | _ =>
        simp only [reply, settle] at candidates
        cases candidates
        exact .inl rfl

end HandlerMemoryTick

end Tick

end OmniMemory
