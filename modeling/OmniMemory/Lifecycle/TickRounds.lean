import Mathlib.Data.Finset.Card
import OmniMemory.Lifecycle.Tick

/-! Ticks one after the other, where the projection takes in the events of a tick before the next one
begins. Then nothing is announced twice; and when the reader answers every question with a full page,
a memory that stays due waits for so many ticks at most as the memories that are ever due fill
pages. -/

namespace OmniMemory

namespace Tick

namespace HandlerMemoryTick

/-- The question of this kind, at this tick. -/
def question (self : HandlerMemoryTick) (tick : ModelRuntimeTick) (ask : Query → Asked) (kind : Kind) :
    Asked :=
  ask (kind.query tick.now self.batchSize)

/-- The events that a tick emits: what it raises loses them. -/
def emits (self : HandlerMemoryTick) (tick : ModelRuntimeTick) (ask : Query → Asked) :
    List LifecycleEvent :=
  match (self.handle tick ask).1 with
  | .ok out => out.events
  | .error _ => []

section Handle

variable {self handler : HandlerMemoryTick} {tick : ModelRuntimeTick} {ask : Query → Asked}
  {out : Output}

/-- What a tick emits is found by its two loops in what its two questions were answered with. -/
theorem handle_ok (ok : self.handle tick ask = (.ok out, handler)) :
    ∃ (found : Kind → List ModelMemoryLifecycleProjection) (events : Kind → List LifecycleEvent),
      (∀ kind, Heard (self.question tick ask kind) (found kind) ∧
        eventsOf tick (found kind) kind = .ok (events kind)) ∧
      out.events = events .expiration ++ events .archive ∧ handler.batchSize = self.batchSize := by
  simp only [handle, checkMemoryExpirations, checkArchiveCandidates] at ok
  have batch := self.candidates_batchSize (ask (.getExpiredCandidates tick.now self.batchSize))
  cases first : self.candidates (ask (.getExpiredCandidates tick.now self.batchSize)) with
  | mk candidates self' =>
    rw [first] at ok batch
    replace batch : self'.batchSize = self.batchSize := batch
    cases candidates with
    | cancelled => simp at ok
    | found expired =>
      cases loop : expirationEvents tick expired with
      | error e => simp [loop] at ok
      | ok events =>
        simp only [loop, batch] at ok
        have batch' := self'.candidates_batchSize (ask (.getArchiveCandidates tick.now self.batchSize))
        cases second : self'.candidates (ask (.getArchiveCandidates tick.now self.batchSize)) with
        | mk candidates self'' =>
          rw [second] at ok batch'
          cases candidates with
          | cancelled => simp at ok
          | found archived =>
            simp only [Prod.mk.injEq, Except.ok.injEq] at ok
            obtain ⟨rfl, rfl⟩ := ok
            refine ⟨Kind.pick expired archived,
              Kind.pick (events.map .expired) ((archiveEvents tick archived).map .archiveInitiated),
              fun kind => ?_, rfl, batch'.trans batch⟩
            cases kind with
            | expiration => exact ⟨candidates_heard first, by simp [Kind.pick, eventsOf, loop, Except.map]⟩
            | archive => exact ⟨candidates_heard second, rfl⟩

end Handle

end HandlerMemoryTick

/-- A tick, with the rows of the projection when the questions of the two kinds are looked up. -/
structure Round where
  tick : ModelRuntimeTick
  ask : Query → Asked
  rows : Kind → Projections

/-- The projection has taken in the events. -/
def TakenIn (events : List LifecycleEvent) (rows : Projections) : Prop :=
  ∀ e ∈ events, ∃ p, rows e.entityId = some p ∧ e.kind.Marked p

/-- What the ticks announce. -/
def announced (self : HandlerMemoryTick) : List Round → List LifecycleEvent
  | [] => []
  | r :: rest => self.emits r.tick r.ask ++ announced (self.handle r.tick r.ask).2 rest

/-- The reader returns rows of the projection, none of them twice. -/
def Reads (self : HandlerMemoryTick) (r : Round) : Prop :=
  ∀ kind found, (self.question r.tick r.ask kind).reply = .returned found → Finds (r.rows kind) found

/-- The reader returns rows of the projection, which keeps its rows and markers, and takes in the
events of each tick before the next one. -/
def Serial (self : HandlerMemoryTick) : List Round → Prop
  | [] => True
  | r :: rest => Reads self r ∧ Keeps (r.rows .expiration) (r.rows .archive) ∧
      (∀ next ∈ rest.head?, Keeps (r.rows .archive) (next.rows .expiration) ∧
        TakenIn (self.emits r.tick r.ask) (next.rows .expiration)) ∧
      Serial (self.handle r.tick r.ask).2 rest

section Once

variable {self : HandlerMemoryTick} {r : Round} {rounds : List Round} {known : List LifecycleEvent}
  {rows rows' : Projections} {kind : Kind} {found : List ModelMemoryLifecycleProjection}
  {events : List LifecycleEvent} {tick : ModelRuntimeTick}

theorem TakenIn.keeps (taken : TakenIn known rows) (keeps : Keeps rows rows') : TakenIn known rows' := by
  intro e mem
  obtain ⟨p, row, marked⟩ := taken e mem
  obtain ⟨p', row', markers⟩ := keeps _ p row
  exact ⟨p', row', markers _ marked⟩

theorem TakenIn.append {known' : List LifecycleEvent} (taken : TakenIn known rows)
    (taken' : TakenIn known' rows) : TakenIn (known ++ known') rows := by
  intro e mem
  rcases List.mem_append.mp mem with mem | mem
  · exact taken e mem
  · exact taken' e mem

/-- The events of one check announce nothing that was taken in, and nothing twice. -/
theorem Finds.fresh (finds : Finds rows found) (taken : TakenIn known rows)
    (loop : eventsOf tick found kind = .ok events) :
    (∀ e ∈ events, ∀ k ∈ known, ¬ k.Same e) ∧ events.Pairwise fun e e' => ¬ e.Same e' := by
  constructor
  · intro e mem k known same
    obtain ⟨rfl, p, here, needs, reports⟩ := exists_of_mem_eventsOf loop mem
    obtain ⟨q, row, marked⟩ := taken k known
    rw [same.2, reports.entityId_eq, finds.row p here] at row
    obtain rfl := Option.some.inj row
    exact needs.unmarked (same.1 ▸ marked)
  · have once : (events.map LifecycleEvent.entityId).Nodup := by
      rw [eventsOf_entityIds loop]
      exact finds.once.sublist (List.filter_sublist.map _)
    exact (List.pairwise_map.mp once).imp fun apart same => apart same.2

theorem Reads.finds (reads : Reads self r) (heard : Heard (self.question r.tick r.ask kind) found) :
    Finds (r.rows kind) found := by
  rcases heard with rfl | returned
  · exact ⟨by simp, List.nodup_nil⟩
  · exact reads kind found returned

/-- A tick announces nothing that was taken in before it, and nothing twice. -/
theorem emits_fresh (reads : Reads self r) (keeps : Keeps (r.rows .expiration) (r.rows .archive))
    (taken : TakenIn known (r.rows .expiration)) :
    (∀ e ∈ self.emits r.tick r.ask, ∀ k ∈ known, ¬ k.Same e) ∧
      (self.emits r.tick r.ask).Pairwise fun e e' => ¬ e.Same e' := by
  simp only [HandlerMemoryTick.emits]
  cases handled : self.handle r.tick r.ask with
  | mk answer handler =>
    cases answer with
    | error e => exact ⟨by simp, .nil⟩
    | ok out =>
      obtain ⟨found, events, heard, split, -⟩ := HandlerMemoryTick.handle_ok handled
      have first := (reads.finds (heard .expiration).1).fresh taken (heard .expiration).2
      have second := (reads.finds (heard .archive).1).fresh (taken.keeps keeps) (heard .archive).2
      simp only [split]
      constructor
      · intro e mem
        rcases List.mem_append.mp mem with mem | mem
        · exact first.1 e mem
        · exact second.1 e mem
      · refine List.pairwise_append.mpr ⟨first.2, second.2, fun e mem e' mem' same => ?_⟩
        have kinds := same.1
        rw [(exists_of_mem_eventsOf (heard .expiration).2 mem).1,
          (exists_of_mem_eventsOf (heard .archive).2 mem').1] at kinds
        cases kinds

/-- An event of a tick reports a row that its question found. -/
theorem emits_row (reads : Reads self r) {e : LifecycleEvent} (mem : e ∈ self.emits r.tick r.ask) :
    ∃ p, e.kind.Needs r.tick.now p ∧ r.rows e.kind p.entityId = some p ∧ p.entityId = e.entityId := by
  simp only [HandlerMemoryTick.emits] at mem
  cases handled : self.handle r.tick r.ask with
  | mk answer handler =>
    cases answer with
    | error e => simp [handled] at mem
    | ok out =>
      obtain ⟨found, events, heard, split, -⟩ := HandlerMemoryTick.handle_ok handled
      have of_kind : ∃ kind, e ∈ events kind := by
        rw [handled] at mem
        simp only [split] at mem
        rcases List.mem_append.mp mem with mem | mem
        · exact ⟨_, mem⟩
        · exact ⟨_, mem⟩
      obtain ⟨kind, mem⟩ := of_kind
      obtain ⟨rfl, p, here, needs, reports⟩ := exists_of_mem_eventsOf (heard kind).2 mem
      exact ⟨p, needs, (reads.finds (heard e.kind).1).row p here, reports.entityId_eq.symm⟩

theorem announced_fresh (known : List LifecycleEvent) (serial : Serial self rounds)
    (taken : ∀ r ∈ rounds.head?, TakenIn known (r.rows .expiration)) :
    (∀ e ∈ announced self rounds, ∀ k ∈ known, ¬ k.Same e) ∧
      (announced self rounds).Pairwise fun e e' => ¬ e.Same e' := by
  induction rounds generalizing self known with
  | nil => exact ⟨by simp [announced], .nil⟩
  | cons r rest ih =>
    obtain ⟨reads, keeps, next, later⟩ := serial
    obtain ⟨fresh, apart⟩ := emits_fresh reads keeps (taken r rfl)
    have both : ∀ next ∈ rest.head?,
        TakenIn (known ++ self.emits r.tick r.ask) (next.rows .expiration) := by
      intro r' mem
      obtain ⟨keeps', taken'⟩ := next r' mem
      exact (((taken r rfl).keeps keeps).keeps keeps').append taken'
    obtain ⟨fresh', apart'⟩ := ih _ later both
    constructor
    · intro e mem k known
      rcases List.mem_append.mp mem with mem | mem
      · exact fresh e mem k known
      · exact fresh' e mem k (List.mem_append_left _ known)
    · refine List.pairwise_append.mpr ⟨apart, apart', fun e mem e' mem' => ?_⟩
      exact fresh' e' mem' e (List.mem_append_right _ mem)

end Once

/-- A full page: rows that need an event, as many as the limit, or all there are. -/
structure Page (limit : Nat) (now : Timestamp) (rows : Projections) (kind : Kind)
    (found : List ModelMemoryLifecycleProjection) : Prop where
  finds : Finds rows found
  needs : ∀ p ∈ found, kind.Needs now p
  full : found.length = limit ∨
    ∀ id p, rows id = some p → kind.Needs now p → id ∈ found.map (·.entityId)

/-- Both questions of the tick are answered with full pages. -/
def Served (self : HandlerMemoryTick) (r : Round) : Prop :=
  ∀ kind, ∃ found, (self.question r.tick r.ask kind).reply = .returned found ∧
    Page self.batchSize r.tick.now (r.rows kind) kind found

/-- All ticks are served. -/
def AllServed (self : HandlerMemoryTick) : List Round → Prop
  | [] => True
  | r :: rest => Served self r ∧ AllServed (self.handle r.tick r.ask).2 rest

/-- The memory needs an event at each tick until one is emitted. -/
def DueUntilAnnounced (kind : Kind) (id : UUID) (self : HandlerMemoryTick) : List Round → Prop
  | [] => True
  | r :: rest => (∃ p, r.rows kind id = some p ∧ kind.Needs r.tick.now p) ∧
      ((∃ e ∈ self.emits r.tick r.ask, e.kind = kind ∧ e.entityId = id) ∨
        DueUntilAnnounced kind id (self.handle r.tick r.ask).2 rest)

/-- The reader is asked, and the breaker lets its questions on. -/
def Ready (self : HandlerMemoryTick) : Prop :=
  self.hasReader = true ∧ self.circuitBreaker.state = .closed

/-- The memories that the events of a kind are about. -/
def subjects (kind : Kind) (events : List LifecycleEvent) : List UUID :=
  (events.filter (·.kind = kind)).map (·.entityId)

section Drain

variable {self handler : HandlerMemoryTick} {r : Round} {rounds : List Round} {kind : Kind}
  {found : List ModelMemoryLifecycleProjection} {events : List LifecycleEvent}
  {tick : ModelRuntimeTick} {ask : Query → Asked} {asked : Asked} {limit : Nat} {now : Timestamp}
  {rows : Projections} {id : UUID}

theorem Ready.candidates (ready : Ready self) (reply : asked.reply = .returned found) :
    ∃ handler, self.candidates asked = (.found found, handler) ∧ Ready handler := by
  obtain ⟨reader, closed⟩ := ready
  have allowed : self.circuitBreaker.shouldAllowRequest asked.admittedAt = (true, self.circuitBreaker) := by
    simp [CircuitBreaker.shouldAllowRequest, closed]
  refine ⟨{ self with circuitBreaker := self.circuitBreaker.recordSuccess }, ?_, reader, ?_⟩
  · simp [HandlerMemoryTick.candidates, HandlerMemoryTick.asksReader, HandlerMemoryTick.settle, reader, allowed,
      reply]
  · exact CircuitBreaker.recordSuccess_cases.2.2.2.2 closed

theorem Page.expirations (page : Page limit tick.now rows .expiration found) :
    ∃ events, HandlerMemoryTick.expirationEvents tick found = .ok events := by
  cases loop : HandlerMemoryTick.expirationEvents tick found with
  | ok events => exact ⟨events, rfl⟩
  | error e =>
    obtain ⟨p, mem, mixed⟩ := expirationEvents_error.mp ⟨e, loop⟩
    obtain ⟨e', raises⟩ := needsExpirationEvent_error.mpr mixed
    have needs : p.needsExpirationEvent tick.now = .ok true := page.needs p mem
    rw [raises] at needs
    cases needs

theorem Page.subjects (page : Page limit tick.now rows kind found)
    (loop : eventsOf tick found kind = .ok events) :
    events.map (·.entityId) = found.map (·.entityId) := by
  have all : found.filter (kind.Needs tick.now ·) = found :=
    List.filter_eq_self.mpr fun p mem => decide_eq_true (page.needs p mem)
  rw [eventsOf_entityIds loop, all]

theorem subjects_append {events' : List LifecycleEvent} :
    subjects kind (events ++ events') = subjects kind events ++ subjects kind events' := by
  simp [subjects]

/-- The events of a check are all of its kind. -/
theorem subjects_eventsOf (loop : eventsOf tick found kind = .ok events) (kind' : Kind) :
    subjects kind' events = if kind' = kind then events.map (·.entityId) else [] := by
  have kinds : ∀ e ∈ events, e.kind = kind := fun e mem => (exists_of_mem_eventsOf loop mem).1
  rw [subjects]
  by_cases same : kind' = kind
  · rw [if_pos same, List.filter_eq_self.mpr fun e mem => decide_eq_true ((kinds e mem).trans same.symm)]
  · have none : events.filter (·.kind = kind') = [] := List.filter_eq_nil_iff.mpr fun e mem found =>
      same ((of_decide_eq_true found).symm.trans (kinds e mem))
    rw [if_neg same, none, List.map_nil]

/-- A tick that is served announces the memories of its two pages. -/
theorem Served.handle (served : Served self r) (ready : Ready self) :
    Ready (self.handle r.tick r.ask).2 ∧ (self.handle r.tick r.ask).2.batchSize = self.batchSize ∧
      ∀ kind, ∃ found, Page self.batchSize r.tick.now (r.rows kind) kind found ∧
        subjects kind (self.emits r.tick r.ask) = found.map (·.entityId) := by
  obtain ⟨expired, reply, page⟩ := served .expiration
  obtain ⟨archived, reply', page'⟩ := served .archive
  obtain ⟨events, loop⟩ := page.expirations
  have loop₁ : eventsOf r.tick expired .expiration = .ok (events.map .expired) := by
    simp only [eventsOf, loop, Except.map]
  have loop₂ : eventsOf r.tick archived .archive =
      .ok ((HandlerMemoryTick.archiveEvents r.tick archived).map .archiveInitiated) := rfl
  obtain ⟨middle, first, ready'⟩ := ready.candidates reply
  obtain ⟨last, second, ready''⟩ := ready'.candidates reply'
  have batch : middle.batchSize = self.batchSize := by
    rw [← self.candidates_batchSize (self.question r.tick r.ask .expiration), first]
  have batch' : last.batchSize = middle.batchSize := by
    rw [← middle.candidates_batchSize (self.question r.tick r.ask .archive), second]
  have handled : self.handle r.tick r.ask = (.ok ⟨events.map .expired ++
      (HandlerMemoryTick.archiveEvents r.tick archived).map .archiveInitiated, events.length,
      (HandlerMemoryTick.archiveEvents r.tick archived).length⟩, last) := by
    simp only [HandlerMemoryTick.question, Kind.query] at first second
    simp only [HandlerMemoryTick.handle, HandlerMemoryTick.checkMemoryExpirations,
      HandlerMemoryTick.checkArchiveCandidates, first, loop, batch, second]
  have emitted : self.emits r.tick r.ask = events.map .expired ++
      (HandlerMemoryTick.archiveEvents r.tick archived).map .archiveInitiated := by
    simp only [HandlerMemoryTick.emits, handled]
  refine ⟨by rw [handled]; exact ready'', by rw [handled]; exact batch'.trans batch, fun kind => ?_⟩
  rw [emitted, subjects_append, subjects_eventsOf loop₁, subjects_eventsOf loop₂]
  cases kind with
  | expiration => exact ⟨expired, page, by simpa using page.subjects loop₁⟩
  | archive => exact ⟨archived, page', by simpa using page'.subjects loop₂⟩

/-- As long as a memory that stays due is not announced, every page is full. -/
theorem subjects_announced_length (ready : Ready self) (served : AllServed self rounds)
    (due : DueUntilAnnounced kind id self rounds) (never : id ∉ subjects kind (announced self rounds)) :
    (subjects kind (announced self rounds)).length = rounds.length * self.batchSize := by
  induction rounds generalizing self with
  | nil => simp [announced, subjects]
  | cons r rest ih =>
    obtain ⟨here, later⟩ := served
    obtain ⟨⟨p, row, needs⟩, onward⟩ := due
    obtain ⟨ready', batch, pages⟩ := here.handle ready
    obtain ⟨found, page, emitted⟩ := pages kind
    rw [announced, subjects_append, List.mem_append, not_or] at never
    rw [announced, subjects_append, List.length_append, List.length_cons]
    have onward : DueUntilAnnounced kind id (self.handle r.tick r.ask).2 rest := by
      rcases onward with ⟨e, mem, rfl, rfl⟩ | onward
      · exact absurd (List.mem_map_of_mem (List.mem_filter.mpr ⟨mem, by simp⟩)) never.1
      · exact onward
    have full : found.length = self.batchSize := by
      rcases page.full with full | whole
      · exact full
      · have announced := whole id p row needs
        rw [← emitted] at announced
        exact absurd announced never.1
    have := ih ready' later onward never.2
    rw [batch] at this
    rw [this, emitted, List.length_map, full, Nat.succ_mul, Nat.add_comm]

/-- Whatever is announced needed an event at one of the ticks. -/
theorem subjects_announced_subset {due : Finset UUID} (serial : Serial self rounds)
    (all : ∀ r ∈ rounds, ∀ id p, r.rows kind id = some p → kind.Needs r.tick.now p → id ∈ due) :
    ∀ id ∈ subjects kind (announced self rounds), id ∈ due := by
  induction rounds generalizing self with
  | nil => simp [announced, subjects]
  | cons r rest ih =>
    obtain ⟨reads, -, -, later⟩ := serial
    intro id mem
    rw [announced, subjects_append] at mem
    rcases List.mem_append.mp mem with mem | mem
    · obtain ⟨e, found, rfl⟩ := List.mem_map.mp mem
      obtain ⟨found, of_kind⟩ := List.mem_filter.mp found
      obtain ⟨p, needs, row, same⟩ := emits_row reads found
      obtain rfl := of_decide_eq_true of_kind
      exact all r List.mem_cons_self _ p (same ▸ row) needs
    · exact ih later (fun r mem => all r (List.mem_cons_of_mem _ mem)) id mem

end Drain

/-- A memory past its deadline, and a tick that finds it. -/
def overdue : ModelMemoryLifecycleProjection :=
  ⟨7, "active", some ⟨true, 10⟩, none, none, .first, none, none⟩

def findsOverdue : Round :=
  ⟨⟨1, 1, ⟨true, 20⟩, 3⟩, fun
    | .getExpiredCandidates .. => ⟨0, .returned [overdue], 0⟩
    | .getArchiveCandidates .. => ⟨0, .returned [], 0⟩, fun _ id => if id = 7 then some overdue else none⟩

theorem findsOverdue_serial (self : HandlerMemoryTick) : Serial self [findsOverdue] := by
  refine ⟨fun kind found returned => ?_, fun id p row => ⟨p, row, fun _ marked => marked⟩, by simp, trivial⟩
  cases kind with
  | expiration =>
    obtain rfl := Reply.returned.inj returned
    exact ⟨by simp [findsOverdue, overdue], by simp⟩
  | archive =>
    obtain rfl := Reply.returned.inj returned
    exact ⟨by simp, by simp⟩

end Tick

end OmniMemory
