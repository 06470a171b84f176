import OmniMemory.Lifecycle.Handlers

/-! Completeness of orphan reports. Once the archive file of a command is in place, the database
step can end in many ways: with a row, with no row, with an exception of the acquisition, of the
UPDATE or of the release, or with a command tag that is not understood. The result says which of
them leave a file that no row refers to and that nobody is told of. -/

namespace OmniMemory

open Interleave

/-- An exception for which `handle` has a clause around the state update. -/
def PyError.isReported : PyError → Bool
  | postgresError _ | clientError _ | timeoutError _ => true
  | _ => false

/-- The memory is in state ARCHIVED and refers to the path. -/
def Memories.StoredAt (t : Memories) (id : UUID) (path : PurePath) : Prop :=
  ∃ row, t id = some row ∧ row.lifecycleState = .archived ∧ row.archivePath = some path

namespace Lifecycle

/-- What the surroundings do with a call, where the UPDATE of `_mark_archived` may also answer with
a command tag of another form, whether it took effect or not. -/
inductive TagChoice where
  | plain (ch : Choice)
  | tag (text : String) (applied : Bool)

def execTag (X : External) : (op : Op) → TagChoice → State → Option (Res op × State)
  | op, .plain ch, s => exec X op ch s
  | .updateArchived id revision at_ path, .tag text applied, s =>
    some (.ok (.unexpected text), if applied then s.archive id revision at_ path else s)
  | _, .tag .., _ => none

/-- The world of the handlers with every command tag. -/
def tagWorld (X : External) :
    World Op Res (Except PyError Result) Command TagChoice Empty State where
  code := code X
  exec := execTag X
  move := fun m => nomatch m

/-- The exception with which the acquisition, the UPDATE or the release answered. -/
def stepError : (op : Op) → Res op → Option PyError
  | .acquire, .error e | .release, .error e => some e
  | .updateArchived .., .error e => some e
  | _, _ => none

/-- The UPDATE answered with a command tag that is not of the form `UPDATE n`. -/
def oddTag : (op : Op) → Res op → Bool
  | .updateArchived .., .ok (.unexpected _) => true
  | _, _ => false

/-- The last of the exceptions, which `async with` puts in the place of an earlier one. -/
def lastError (calls : List CallEvent) : Option PyError :=
  (calls.filterMap fun e => stepError e.op e.answer).getLast?

/-- The answers of the database are such that `handle` gets to a report: an exception that has a
clause, or no exception and a tag of the form `UPDATE n`. -/
def reportable (calls : List CallEvent) : Bool :=
  match lastError calls with
  | some e => e.isReported
  | none => calls.all fun e => !oddTag e.op e.answer

def Op.tells (id : UUID) (path : PurePath) : Op → Bool
  | trackOrphan id' path' _ => decide (id' = id ∧ path' = path)
  | _ => false

/-- A call of the tracker with the memory and the path returned. -/
def trackerTook (id : UUID) (path : PurePath) (calls : List CallEvent) : Bool :=
  calls.any fun e => e.op.tells id path && !raised e.op e.answer

/-- An UPDATE of the archive handler put the memory into state ARCHIVED at the path. -/
def ArchivesAt (id : UUID) (path : PurePath) (e : CallEvent) : Prop :=
  (∃ revision time, e.op = .updateArchived id revision time path) ∧
    e.after.memories ≠ e.before.memories

/-- The file of a command that wrote an archive at `path` is accounted for: the row refers to it, or
the command returned `orphaned` with the path and a configured tracker took it. -/
def Accounted (self : HandlerMemoryArchive) (id : UUID) (path : PurePath) (s : State)
    (out : Except PyError Result) (calls : List CallEvent) : Prop :=
  s.memories.StoredAt id path ∨ (∃ result, out = .ok result ∧ result.orphanedAt = some path) ∧
    (self.orphanTracker = true → trackerTook id path calls = true)

/-- Every file that a command put in place before it returned is accounted for. -/
def OrphanComplete (p : LifecyclePool) : Prop :=
  ∀ t ∈ p.tasks, ∀ self now command out content path, t.cmd = .archive self now command →
    t.result? = some out → Renamed t.calls content path →
    Accounted self command.memoryId path p.shared out t.calls

/-- An UPDATE archived the memory at the path, or the database answered in a way that `handle` gets
to a report, and a configured tracker takes the report. -/
def Handled (self : HandlerMemoryArchive) (id : UUID) (path : PurePath) (p : LifecyclePool)
    (calls : List CallEvent) : Prop :=
  (∃ u ∈ p.tasks, ∃ e ∈ u.calls, ArchivesAt id path e) ∨
    reportable calls = true ∧ (self.orphanTracker = true → trackerTook id path calls = true)

variable {X : External}

/-- A tag of another form goes with a state that a failed UPDATE also leads to. -/
theorem calls_of_tag {e : CallEvent} (call : (tagWorld X).Calls e) :
    ∃ answer, (world X).Calls ⟨e.op, e.before, answer, e.after⟩ := by
  obtain ⟨op, before, answer, after⟩ := e
  obtain ⟨ch | ⟨text, applied⟩, call⟩ := call
  · exact ⟨answer, ch, call⟩
  cases op <;> try contradiction
  case updateArchived id revision time path =>
    cases applied with
    | true =>
      have applied : before.archive id revision time path = after :=
        congrArg Prod.snd (Option.some.inj call)
      subst applied
      exact ⟨.error (.other text), .lost (.other text), rfl⟩
    | false =>
      have same : before = after := congrArg Prod.snd (Option.some.inj call)
      subst same
      exact ⟨.error (.other text), .fail (.other text), rfl⟩

theorem selectMemory_tag {id : UUID} {before after : State}
    {answer : Except PyError (Option MemoryRow)}
    (call : (tagWorld X).Calls ⟨.selectMemory id, before, answer, after⟩) :
    answer = .ok (before.memories id) ∨ ∃ e, answer = .error e := by
  obtain ⟨ch | _, call⟩ := call
  · exact (selectMemory_cases (X := X) ⟨ch, call⟩).2
  · contradiction

/-- An UPDATE that counts a row has set it to state ARCHIVED. -/
theorem archivesAt_of_count {id : UUID} {revision rows : Nat} {time : DateTime} {path : PurePath}
    {before after : State} (call : (tagWorld X).Calls
      ⟨.updateArchived id revision time path, before, .ok (.update rows), after⟩)
    (counted : 0 < rows) : ArchivesAt id path
      ⟨.updateArchived id revision time path, before, .ok (.update rows), after⟩ := by
  refine ⟨⟨revision, time, rfl⟩, ?_⟩
  obtain ⟨ch | ⟨text, applied⟩, call⟩ := call
  swap
  · cases call
  rcases updateArchived_cases (X := X) ⟨ch, call⟩ with ⟨same, rfl⟩ | ⟨⟨e, failed⟩, -⟩
  swap
  · cases failed
  cases same
  cases guard : before.memories.guarded id revision .expired with
  | none => simp [archiveCount, guard] at counted
  | some row =>
    have changed : (before.archive id revision time path).memories =
        Function.update before.memories id (some (row.archive time path)) :=
      Memories.updateWhere_some guard
    intro same
    have here := congrFun (changed.symm.trans same) id
    rw [Function.update_self, (Memories.guarded_eq_some.mp guard).1] at here
    have revised := congrArg MemoryRow.lifecycleRevision (Option.some.inj here)
    exact absurd revised (Nat.succ_ne_self _)

/-! ### What counts of the calls -/

section Calls

variable {h h' : List CallEvent} {e : CallEvent} {id : UUID} {path : PurePath}

/-- The calls that the condition looks at, and the renames. -/
def Op.isStep : Op → Bool
  | acquire | release | updateArchived .. | trackOrphan .. | rename .. => true
  | _ => false

/-- Nothing so far failed in the database, answered with an odd tag, or reported an orphan. -/
def Smooth (calls : List CallEvent) : Prop :=
  ∀ e ∈ calls, stepError e.op e.answer = none ∧ oddTag e.op e.answer = false ∧ e.op.isTrack = false

def Unwritten (calls : List CallEvent) : Prop := ∀ content path, ¬ Renamed calls content path

def OnlyTo (path : PurePath) (calls : List CallEvent) : Prop :=
  ∀ content target, Renamed calls content target → target = path

theorem stepError_other (other : e.op.isStep = false) : stepError e.op e.answer = none := by
  obtain ⟨op, before, answer, after⟩ := e
  cases op <;> first | rfl | contradiction

theorem oddTag_other (other : e.op.isStep = false) : oddTag e.op e.answer = false := by
  obtain ⟨op, before, answer, after⟩ := e
  cases op <;> first | rfl | contradiction

theorem isTrack_other (other : e.op.isStep = false) : e.op.isTrack = false := by
  obtain ⟨op, before, answer, after⟩ := e
  cases op <;> first | rfl | contradiction

theorem isRename_other (other : e.op.isStep = false) : e.op.isRename = false := by
  obtain ⟨op, before, answer, after⟩ := e
  cases op <;> first | rfl | contradiction

theorem Smooth.nil : Smooth [] := by simp [Smooth]

theorem Smooth.snoc (smooth : Smooth h) (calm : stepError e.op e.answer = none)
    (even : oddTag e.op e.answer = false) (noTrack : e.op.isTrack = false) : Smooth (h ++ [e]) := by
  intro f hf
  rcases List.mem_append.mp hf with hf | hf
  · exact smooth f hf
  · obtain rfl := List.mem_singleton.mp hf
    exact ⟨calm, even, noTrack⟩

theorem Smooth.other (smooth : Smooth h) (other : e.op.isStep = false) : Smooth (h ++ [e]) :=
  smooth.snoc (stepError_other other) (oddTag_other other) (isTrack_other other)

theorem not_renamed {content : Bytes} (other : e.op.isRename = false) :
    ¬ Renamed [e] content path := by
  rintro ⟨temp, before, after, mem⟩
  obtain rfl := List.mem_singleton.mp mem
  contradiction

theorem Unwritten.nil : Unwritten [] := by
  rintro content path ⟨temp, before, after, mem⟩
  exact absurd mem List.not_mem_nil

theorem Unwritten.snoc (unwritten : Unwritten h) (other : e.op.isRename = false) :
    Unwritten (h ++ [e]) := by
  intro content path renamed
  rcases renamed.of_snoc with renamed | renamed
  · exact unwritten content path renamed
  · exact not_renamed other renamed

theorem OnlyTo.snoc (only : OnlyTo path h) (other : e.op.isRename = false) :
    OnlyTo path (h ++ [e]) := by
  intro content target renamed
  rcases renamed.of_snoc with renamed | renamed
  · exact only content target renamed
  · exact absurd renamed (not_renamed other)

theorem Smooth.lastError (smooth : Smooth h) : lastError h = none := by
  have none : (h.filterMap fun e => stepError e.op e.answer) = [] :=
    List.filterMap_eq_nil_iff.mpr fun e he => (smooth e he).1
  rw [Lifecycle.lastError, none]
  rfl

theorem Smooth.reportable (smooth : Smooth h) : reportable h = true := by
  rw [Lifecycle.reportable, smooth.lastError]
  exact List.all_eq_true.mpr fun e he => by simp [(smooth e he).2.1]

theorem lastError_snoc (calm : stepError e.op e.answer = none) :
    lastError (h ++ [e]) = lastError h := by
  simp [lastError, calm]

theorem lastError_raised {error : PyError} (raised : stepError e.op e.answer = some error) :
    lastError (h ++ [e]) = some error := by
  simp [lastError, raised]

theorem reportable_snoc (calm : stepError e.op e.answer = none)
    (even : oddTag e.op e.answer = false) : reportable (h ++ [e]) = reportable h := by
  simp [reportable, lastError_snoc calm, even]

theorem reportable_raised {error : PyError} (raised : stepError e.op e.answer = some error) :
    reportable (h ++ [e]) = error.isReported := by
  simp [reportable, lastError_raised raised]

theorem reportable_odd (smooth : Smooth h) (calm : stepError e.op e.answer = none)
    (odd : oddTag e.op e.answer = true) : reportable (h ++ [e]) = false := by
  simp [reportable, lastError_snoc calm, smooth.lastError, odd]

theorem trackerTook_append : trackerTook id path (h ++ [e]) =
    (trackerTook id path h || e.op.tells id path && !raised e.op e.answer) := by
  simp [trackerTook]

theorem trackerTook_snoc (other : e.op.isTrack = false) :
    trackerTook id path (h ++ [e]) = trackerTook id path h := by
  have silent : e.op.tells id path = false := by
    obtain ⟨op, before, answer, after⟩ := e
    cases op <;> first | rfl | contradiction
  rw [trackerTook_append, silent, Bool.false_and, Bool.or_false]

theorem Smooth.trackerTook (smooth : Smooth h) : trackerTook id path h = false := by
  refine List.any_eq_false.mpr fun e he => ?_
  have noTrack := (smooth e he).2.2
  obtain ⟨op, before, answer, after⟩ := e
  cases op <;> first | (simp [Op.tells]; done) | contradiction

end Calls

/-! ### What the handler shows of its calls -/

section Shows

variable {c : Command} {h : List CallEvent} {s : State} {α : Type}

/-- A property of the calls that the others keep is kept by a program that makes no step. -/
theorem shows_others {p : LifecycleProg α} {P : List CallEvent → Prop}
    (uses : p.Uses (·.isStep = false))
    (stays : ∀ h (e : CallEvent), e.op.isStep = false → P h → P (h ++ [e])) (now : P h) :
    Contract.anything.Keeps (tagWorld X) c (fun _ h _ => P h) p h s :=
  .of_uses uses (fun h e other _ _ _ old => ⟨⟨trivial, trivial, trivial⟩, stays h e other old⟩) now

/-- A row in this state was there at one of the calls. -/
def FoundIn (id : UUID) (state : EnumLifecycleState) (calls : List CallEvent) : Prop :=
  ∃ e ∈ calls, ∃ row, e.before.memories id = some row ∧ row.lifecycleState = state

theorem FoundIn.mono {id : UUID} {state : EnumLifecycleState} {calls calls' : List CallEvent}
    (found : FoundIn id state calls) (grown : calls <+: calls') : FoundIn id state calls' := by
  obtain ⟨e, mem, row⟩ := found
  exact ⟨e, grown.subset mem, row⟩

/-- A read that gives a memory was free of failures. -/
def ReadsWell (self : HandlerMemoryArchive) (id : UUID)
    (out : Except PyError (Option ModelMemoryRow)) (calls : List CallEvent) : Prop :=
  Unwritten calls ∧ ∀ memory, out = .ok (some memory) →
    self.dbPool = true ∧ Smooth calls ∧ FoundIn id memory.lifecycleState calls

theorem readMemory_shows (self : HandlerMemoryArchive) (id : UUID) (revision : Nat)
    (smooth : Smooth h) (unwritten : Unwritten h) :
    Contract.anything.Keeps (tagWorld X) c (fun out h _ => ReadsWell self id out h)
      (self.readMemory X id revision) h s := by
  unfold HandlerMemoryArchive.readMemory
  split
  · exact ⟨unwritten, by simp⟩
  rename_i configured
  have configured : self.dbPool = true := by simpa using configured
  refine Contract.anything_op fun acquiring answer acquired _ => ?_
  have unwritten := unwritten.snoc (e := ⟨.acquire, acquiring, answer, acquired⟩) rfl
  rcases answer with error | _
  · exact ⟨unwritten, by simp⟩
  have smooth := smooth.snoc (e := ⟨.acquire, acquiring, .ok (), acquired⟩) rfl rfl rfl
  refine Contract.Keeps.seq (Q := fun out h _ => ReadsWell self id out h) ?_ ?_
  · refine Contract.anything_op fun before found after call => ?_
    have unwritten := unwritten.snoc (e := ⟨.selectMemory id, before, found, after⟩) rfl
    have smooth := smooth.other (e := ⟨.selectMemory id, before, found, after⟩) rfl
    rcases found with error | _ | row
    · exact ⟨unwritten, by simp⟩
    · exact ⟨unwritten, by simp⟩
    have here : before.memories id = some row := by
      rcases selectMemory_tag call with answer | ⟨_, answer⟩
      · exact (Except.ok.inj answer).symm
      · cases answer
    have last := List.mem_append_right (h ++ [⟨.acquire, acquiring, .ok (), acquired⟩])
      (List.mem_singleton_self (⟨.selectMemory id, before, .ok (some row), after⟩ : CallEvent))
    have read : ∀ memory : ModelMemoryRow, memory.lifecycleState = row.lifecycleState →
        ReadsWell self id (.ok (some memory)) (h ++ [⟨.acquire, acquiring, .ok (), acquired⟩] ++
          [⟨.selectMemory id, before, .ok (some row), after⟩]) := by
      intro memory state
      refine ⟨unwritten, fun memory' same => ⟨configured, smooth, ?_⟩⟩
      cases same
      exact ⟨_, last, row, here, state.symm⟩
    dsimp only
    split
    · exact ⟨unwritten, by simp⟩
    split
    · exact read _ rfl
    · split
      · exact ⟨unwritten, by simp⟩
      · exact read _ rfl
  · rintro outcome h s ⟨unwritten, read⟩
    refine Contract.anything_op fun before released after _ => ?_
    have unwritten := unwritten.snoc (e := ⟨.release, before, released, after⟩) rfl
    rcases released with error | _
    · exact ⟨unwritten, by simp⟩
    refine ⟨unwritten, fun memory same => ?_⟩
    obtain ⟨configured, smooth, found⟩ := read memory same
    exact ⟨configured, smooth.snoc rfl rfl rfl, found.mono (List.prefix_append _ _)⟩

/-- After a write no file was put in place, or one at the path. -/
structure WritesTo (path : PurePath) (out : Except PyError Nat) (calls : List CallEvent) :
    Prop where
  smooth : Smooth calls
  failed : ∀ e, out = .error e → Unwritten calls
  only : OnlyTo path calls

theorem writesTo_of_unwritten {path : PurePath} {out : Except PyError Nat} (smooth : Smooth h)
    (unwritten : Unwritten h) : WritesTo path out h :=
  ⟨smooth, fun _ _ => unwritten, fun content target renamed =>
    absurd renamed (unwritten content target)⟩

theorem cleanUpTemp_shows (path : PurePath) (temp : TempFile) (opened : Bool) (e : PyError)
    (smooth : Smooth h) (unwritten : Unwritten h) :
    Contract.anything.Keeps (tagWorld X) c (fun out h _ => WritesTo path out h)
      (HandlerMemoryArchive.cleanUpTemp temp opened e) h s :=
  (shows_others (P := fun h => Smooth h ∧ Unwritten h)
    (HandlerMemoryArchive.cleanUpTemp_uses opened e rfl rfl rfl)
    (fun _ _ other old => ⟨old.1.other other, old.2.snoc (isRename_other other)⟩)
    ⟨smooth, unwritten⟩).imp fun _ _ _ kept => writesTo_of_unwritten kept.1 kept.2

/-- A call that is no step, before the archive is in place. -/
theorem shows_other {Q : α → List CallEvent → State → Prop} {op : Op}
    {rest : Res op → LifecycleProg α} (other : op.isStep = false) (smooth : Smooth h)
    (unwritten : Unwritten h)
    (next : ∀ answer h s, Smooth h → Unwritten h →
      Contract.anything.Keeps (tagWorld X) c Q (rest answer) h s) :
    Contract.anything.Keeps (tagWorld X) c Q (Prog.perform op >>= rest) h s :=
  Contract.anything_op fun before answer after _ =>
    next answer _ after (smooth.other (e := ⟨op, before, answer, after⟩) other)
      (unwritten.snoc (isRename_other (e := ⟨op, before, answer, after⟩) other))

theorem writeArchiveSync_shows (path : PurePath) (bytes : Bytes) (smooth : Smooth h)
    (unwritten : Unwritten h) :
    Contract.anything.Keeps (tagWorld X) c (fun out h _ => WritesTo path out h)
      (HandlerMemoryArchive.writeArchiveSync path bytes) h s := by
  unfold HandlerMemoryArchive.writeArchiveSync
  refine shows_other rfl smooth unwritten fun made h s smooth unwritten => ?_
  rcases made with e | _
  · exact writesTo_of_unwritten smooth unwritten
  refine shows_other rfl smooth unwritten fun opened h s smooth unwritten => ?_
  rcases opened with e | temp
  · exact writesTo_of_unwritten smooth unwritten
  refine shows_other rfl smooth unwritten fun wrote h s smooth unwritten => ?_
  rcases wrote with e | stored
  · exact cleanUpTemp_shows path temp true e smooth unwritten
  refine shows_other rfl smooth unwritten fun synced h s smooth unwritten => ?_
  rcases synced with e | _
  · exact cleanUpTemp_shows path temp true e smooth unwritten
  refine shows_other rfl smooth unwritten fun closed h s smooth unwritten => ?_
  rcases closed with e | _
  · exact cleanUpTemp_shows path temp true e smooth unwritten
  refine Contract.anything_op fun before answer after _ => ?_
  have smooth := smooth.snoc
    (e := ⟨.rename temp (bytes.take stored) path, before, answer, after⟩) rfl rfl rfl
  rcases answer with e | _
  · refine cleanUpTemp_shows path temp false e smooth fun content target renamed => ?_
    rcases renamed.of_snoc with renamed | ⟨temp', before', after', mem⟩
    · exact unwritten content target renamed
    · cases List.mem_singleton.mp mem
  · refine ⟨smooth, by simp, fun content target renamed => ?_⟩
    rcases renamed.of_snoc with renamed | ⟨temp', before', after', mem⟩
    · exact absurd renamed (unwritten content target)
    · cases List.mem_singleton.mp mem
      rfl

/-- How the database step ended, by the calls so far. -/
structure Ended (id : UUID) (path : PurePath) (out : Except PyError Bool)
    (calls : List CallEvent) : Prop where
  only : OnlyTo path calls
  untold : trackerTook id path calls = false
  failed : ∀ e, out = .error e → reportable calls = e.isReported
  answered : ∀ updated, out = .ok updated → reportable calls = true
  archived : out = .ok true → ∃ e ∈ calls, ArchivesAt id path e

theorem Ended.snoc {id : UUID} {path : PurePath} {out : Except PyError Bool} {e : CallEvent}
    (ended : Ended id path out h) (calm : stepError e.op e.answer = none)
    (even : oddTag e.op e.answer = false) (noTrack : e.op.isTrack = false)
    (noRename : e.op.isRename = false) : Ended id path out (h ++ [e]) where
  only := ended.only.snoc noRename
  untold := (trackerTook_snoc noTrack).trans ended.untold
  failed error same := (reportable_snoc calm even).trans (ended.failed error same)
  answered updated same := (reportable_snoc calm even).trans (ended.answered updated same)
  archived same := by
    obtain ⟨u, mem, archives⟩ := ended.archived same
    exact ⟨u, List.mem_append_left _ mem, archives⟩

/-- An exception ends the step, whatever was before it. -/
theorem ended_error {id : UUID} {path : PurePath} {e : CallEvent} {error : PyError}
    (only : OnlyTo path h) (untold : trackerTook id path h = false)
    (raised : stepError e.op e.answer = some error) (noTrack : e.op.isTrack = false)
    (noRename : e.op.isRename = false) : Ended id path (.error error) (h ++ [e]) where
  only := only.snoc noRename
  untold := (trackerTook_snoc noTrack).trans untold
  failed error' same := by
    cases same
    exact reportable_raised raised
  answered updated same := by cases same
  archived same := by cases same

theorem markArchived_shows (self : HandlerMemoryArchive) (id : UUID) (revision : Nat)
    (time : DateTime) (path : PurePath) (configured : self.dbPool = true) (smooth : Smooth h)
    (only : OnlyTo path h) :
    Contract.anything.Keeps (tagWorld X) c (fun out h _ => Ended id path out h)
      (self.markArchived id revision time path) h s := by
  unfold HandlerMemoryArchive.markArchived
  rw [configured]
  refine Contract.anything_op fun before acquired after _ => ?_
  rcases acquired with error | _
  · exact ended_error only smooth.trackerTook rfl rfl rfl
  have smooth := smooth.snoc (e := ⟨.acquire, before, .ok (), after⟩) rfl rfl rfl
  have only := only.snoc (e := ⟨.acquire, before, .ok (), after⟩) rfl
  refine Contract.Keeps.seq (Q := fun out h _ => Ended id path out h) ?_ ?_
  · refine Contract.anything_op fun before answer after call => ?_
    rcases answer with error | rows | text
    · exact ended_error only smooth.trackerTook rfl rfl rfl
    · have smooth := smooth.snoc (e := ⟨.updateArchived id revision time path, before,
        .ok (.update rows), after⟩) rfl rfl rfl
      refine ⟨only.snoc rfl, smooth.trackerTook, by simp, fun _ _ => smooth.reportable,
        fun same => ⟨_, List.mem_append_right _ (List.mem_singleton_self _), ?_⟩⟩
      exact archivesAt_of_count call (of_decide_eq_true (Except.ok.inj same))
    · refine ⟨only.snoc rfl, (trackerTook_snoc rfl).trans smooth.trackerTook, fun error same => ?_,
        by simp, by simp⟩
      cases same
      exact reportable_odd smooth rfl rfl
  · intro outcome h s ended
    refine Contract.anything_op fun before released after _ => ?_
    rcases released with error | _
    · exact ended_error ended.only ended.untold rfl rfl rfl
    · exact ended.snoc rfl rfl rfl rfl

/-- What the tracker's call, if one is configured, leaves of the calls `h` before it. -/
structure Tracks (handler : HandlerMemoryArchive) (id : UUID) (path : PurePath) (h : List CallEvent)
    (out : Except PyError Unit) (calls : List CallEvent) : Prop where
  only : ∀ target, OnlyTo target h → OnlyTo target calls
  same : reportable calls = reportable h
  failed : ∀ e, out = .error e →
    handler.orphanTracker = true ∧ trackerTook id path calls = trackerTook id path h

theorem trackIfConfigured_shows (self : HandlerMemoryArchive) (id : UUID) (path : PurePath)
    (reason : String) :
    Contract.anything.Keeps (tagWorld X) c (fun out h' _ => Tracks self id path h out h')
      (self.trackIfConfigured id path reason) h s := by
  unfold HandlerMemoryArchive.trackIfConfigured
  split
  · rename_i configured
    rw [← Prog.bind_ret (trackOrphan id path reason)]
    refine Contract.anything_op fun before answer after _ => ?_
    refine ⟨fun _ only => only.snoc rfl, reportable_snoc rfl rfl, ?_⟩
    rintro e rfl
    refine ⟨configured, ?_⟩
    rw [trackerTook_append, Op.tells, decide_eq_true ⟨rfl, rfl⟩]
    exact Bool.or_false _
  · exact ⟨fun _ only => only, rfl, by simp⟩

/-- How the `try` block around the state update ended. -/
structure Updates (handler : HandlerMemoryArchive) (id : UUID) (path : PurePath)
    (out : Except PyError (Option ModelMemoryArchiveResult)) (calls : List CallEvent) : Prop where
  only : OnlyTo path calls
  archived : out = .ok none → ∃ e ∈ calls, ArchivesAt id path e
  conflict : ∀ result, out = .ok (some result) →
    (result.orphaned = true ∧ result.archivePath = some path) ∧ reportable calls = true
  failed : ∀ e, out = .error e → trackerTook id path calls = false ∧
    (e.isReported = true → reportable calls = true) ∧
    (e.isReported = false → reportable calls = true → handler.orphanTracker = true)

theorem updateState_shows (self : HandlerMemoryArchive) (now : DateTime)
    (command : ModelArchiveMemoryCommand) (path : PurePath) (bytesWritten : Nat)
    (configured : self.dbPool = true) (smooth : Smooth h) (only : OnlyTo path h) :
    Contract.anything.Keeps (tagWorld X) c
      (fun out h _ => Updates self command.memoryId path out h)
      (self.updateState now command path bytesWritten) h s := by
  unfold HandlerMemoryArchive.updateState
  refine (markArchived_shows self _ _ now path configured smooth only).seq fun out h s ended => ?_
  rcases out with error | updated
  · refine ⟨ended.only, by simp, by simp, fun e same => ?_⟩
    cases same
    have same := ended.failed error rfl
    refine ⟨ended.untold, fun reported => same.trans reported, fun unreported reached => ?_⟩
    rw [same, unreported] at reached
    contradiction
  refine Contract.anything_op fun before answer after _ => ?_
  have ended := ended.snoc (e := ⟨.recordSuccess, before, answer, after⟩) rfl rfl rfl rfl
  have reached := ended.answered updated rfl
  cases updated with
  | true => exact ⟨ended.only, fun _ => ended.archived rfl, by simp, by simp⟩
  | false =>
    refine (trackIfConfigured_shows self _ path _).seq fun tracked h s tracks => ?_
    have reached := tracks.same.trans reached
    rcases tracked with error | _
    · refine ⟨tracks.only path ended.only, by simp, by simp, fun e same => ?_⟩
      obtain ⟨configured, untold⟩ := tracks.failed error rfl
      exact ⟨untold.trans ended.untold, fun _ => reached, fun _ _ => configured⟩
    · refine ⟨tracks.only path ended.only, by simp, fun result same => ?_, by simp⟩
      cases same
      exact ⟨⟨rfl, rfl⟩, reached⟩

/-- The result reports the path as orphaned. -/
def ReportsOrphan (path : PurePath) (out : Except PyError ModelMemoryArchiveResult) : Prop :=
  ∃ result, out = .ok result ∧ result.orphaned = true ∧ result.archivePath = some path

/-- What the answer of `handle` goes with, once the archive is in place. -/
structure Finishes (handler : HandlerMemoryArchive) (id : UUID) (path : PurePath)
    (out : Except PyError ModelMemoryArchiveResult) (calls : List CallEvent) : Prop where
  only : OnlyTo path calls
  reports : reportable calls = true →
    (handler.orphanTracker = true → trackerTook id path calls = true) →
    ReportsOrphan path out ∨ ∃ e ∈ calls, ArchivesAt id path e
  reported : ReportsOrphan path out → reportable calls = true

theorem reportOrphan_shows (self : HandlerMemoryArchive) {record : LifecycleProg Unit}
    (command : ModelArchiveMemoryCommand) (path : PurePath) (bytesWritten : Nat)
    (reason message : String) (others : record.Uses (·.isStep = false)) (only : OnlyTo path h)
    (untold : trackerTook command.memoryId path h = false) (reached : reportable h = true) :
    Contract.anything.Keeps (tagWorld X) c
      (fun out h _ => Finishes self command.memoryId path out h)
      (self.reportOrphan record command path bytesWritten reason message) h s := by
  unfold HandlerMemoryArchive.reportOrphan
  refine (shows_others (P := fun h => OnlyTo path h ∧
    trackerTook command.memoryId path h = false ∧ reportable h = true) others ?_
    ⟨only, untold, reached⟩).seq ?_
  · rintro h e other ⟨only, untold, reached⟩
    exact ⟨only.snoc (isRename_other other), (trackerTook_snoc (isTrack_other other)).trans untold,
      (reportable_snoc (stepError_other other) (oddTag_other other)).trans reached⟩
  rintro - h s ⟨only, untold, reached⟩
  refine (trackIfConfigured_shows self _ path _).seq fun tracked h' s tracks => ?_
  have reached := tracks.same.trans reached
  rcases tracked with error | _
  · refine ⟨tracks.only path only, fun _ told => ?_, fun _ => reached⟩
    obtain ⟨configured, same⟩ := tracks.failed error rfl
    rw [same, untold] at told
    exact absurd (told configured) Bool.false_ne_true
  · exact ⟨tracks.only path only, fun _ _ => .inl ⟨_, rfl, rfl, rfl⟩, fun _ => reached⟩

theorem finishArchive_shows (self : HandlerMemoryArchive) (now : DateTime)
    (command : ModelArchiveMemoryCommand) (path : PurePath) (bytesWritten : Nat)
    (configured : self.dbPool = true) (smooth : Smooth h) (only : OnlyTo path h) :
    Contract.anything.Keeps (tagWorld X) c
      (fun out h _ => Finishes self command.memoryId path out h)
      (self.finishArchive now command path bytesWritten) h s := by
  unfold HandlerMemoryArchive.finishArchive
  refine (updateState_shows self now command path bytesWritten configured smooth only).seq
    fun out h s updates => ?_
  have failed : ∀ e, out = .error e → e.isReported = true → reportable h = true :=
    fun e same => (updates.failed e same).2.1
  split
  · rename_i result
    obtain ⟨orphaned, reached⟩ := updates.conflict result rfl
    exact ⟨updates.only, fun _ _ => .inl ⟨result, rfl, orphaned⟩, fun _ => reached⟩
  · refine ⟨updates.only, fun _ _ => .inr (updates.archived rfl), ?_⟩
    rintro ⟨result, same, orphaned, -⟩
    cases same
    contradiction
  · exact reportOrphan_shows self command path bytesWritten _ _ (Prog.uses_perform.mpr rfl)
      updates.only (updates.failed _ rfl).1 (failed _ rfl rfl)
  · exact reportOrphan_shows self command path bytesWritten _ _ (Prog.uses_perform.mpr rfl)
      updates.only (updates.failed _ rfl).1 (failed _ rfl rfl)
  · exact reportOrphan_shows self command path bytesWritten _ _ (Prog.uses_perform.mpr rfl)
      updates.only (updates.failed _ rfl).1 (failed _ rfl rfl)
  · rename_i e notPostgres notClient notTimeout
    obtain ⟨untold, -, unreported⟩ := updates.failed e rfl
    have unreported : reportable h = true → self.orphanTracker = true := by
      refine unreported ?_
      cases e <;> first | rfl | exact absurd rfl (notPostgres _) | exact absurd rfl (notClient _) |
        exact absurd rfl (notTimeout _)
    refine ⟨updates.only, fun reached told => ?_, ?_⟩
    · rw [untold] at told
      exact absurd (told (unreported reached)) Bool.false_ne_true
    · rintro ⟨result, same, -⟩
      cases same

/-- What `handle` shows for every path onto which it renamed. -/
def Shown (handler : HandlerMemoryArchive) (id : UUID)
    (out : Except PyError ModelMemoryArchiveResult) (calls : List CallEvent) : Prop :=
  ∀ content path, Renamed calls content path →
    Finishes handler id path out calls ∧ FoundIn id .expired calls

theorem shown_of_unwritten {self : HandlerMemoryArchive} {id : UUID}
    {out : Except PyError ModelMemoryArchiveResult} (unwritten : Unwritten h) :
    Shown self id out h := fun content path renamed => absurd renamed (unwritten content path)

theorem writeAndUpdate_shows (self : HandlerMemoryArchive) (now : DateTime)
    (command : ModelArchiveMemoryCommand) (path : PurePath) (bytes : Bytes)
    (configured : self.dbPool = true) (smooth : Smooth h) (unwritten : Unwritten h)
    (found : FoundIn command.memoryId .expired h) :
    Contract.anything.Keeps (tagWorld X) c (fun out h _ => Shown self command.memoryId out h)
      (self.writeAndUpdate X now command path bytes) h s := by
  unfold HandlerMemoryArchive.writeAndUpdate
  dsimp only
  split
  · exact shown_of_unwritten unwritten
  refine (writeArchiveSync_shows path bytes smooth unwritten).grows.seq ?_
  rintro written h s ⟨writes, grown⟩
  split
  · refine (finishArchive_shows self now command path _ configured writes.smooth
      writes.only).grows.imp ?_
    rintro out h s ⟨finishes, grown'⟩ content target renamed
    obtain rfl := finishes.only content target renamed
    exact ⟨finishes, (found.mono grown).mono grown'⟩
  · rename_i e
    split
    · exact shown_of_unwritten (writes.failed e rfl)
    · exact shown_of_unwritten (writes.failed e rfl)

theorem archiveMemory_shows (self : HandlerMemoryArchive) (now : DateTime)
    (command : ModelArchiveMemoryCommand) (memory : ModelMemoryRow)
    (configured : self.dbPool = true) (smooth : Smooth h) (unwritten : Unwritten h)
    (found : FoundIn command.memoryId memory.lifecycleState h) :
    Contract.anything.Keeps (tagWorld X) c (fun out h _ => Shown self command.memoryId out h)
      (self.archiveMemory X now command memory) h s := by
  unfold HandlerMemoryArchive.archiveMemory
  dsimp only
  split
  · exact shown_of_unwritten unwritten
  rename_i expired
  rw [not_not.mp expired] at found
  split
  · exact writeAndUpdate_shows self now command _ _ configured smooth unwritten found
  · exact writeAndUpdate_shows self now command _ _ configured smooth unwritten found
  · exact shown_of_unwritten unwritten

theorem handle_shows (self : HandlerMemoryArchive) (now : DateTime)
    (command : ModelArchiveMemoryCommand) :
    Contract.anything.Keeps (tagWorld X) c (fun out h _ => Shown self command.memoryId out h)
      (self.handle X now command) [] s := by
  unfold HandlerMemoryArchive.handle
  dsimp only
  split
  · exact shown_of_unwritten .nil
  split
  · exact shown_of_unwritten .nil
  refine shows_other rfl .nil .nil fun allowed h s smooth unwritten => ?_
  split
  · exact shown_of_unwritten unwritten
  refine (readMemory_shows self _ _ smooth unwritten).seq ?_
  rintro outcome h s ⟨unwritten, read⟩
  have recorded : ∀ (op : Op) (result : ModelMemoryArchiveResult), op.isStep = false →
      Contract.anything.Keeps (tagWorld X) c (fun out h _ => Shown self command.memoryId out h)
        (Prog.perform op >>= fun _ => .ret (.ok result)) h s := fun op result other =>
    Contract.anything_op fun before answer after _ => shown_of_unwritten
      (unwritten.snoc (isRename_other (e := ⟨op, before, answer, after⟩) other))
  split
  · exact shown_of_unwritten unwritten
  · exact recorded .recordFailure _ rfl
  · exact recorded .recordFailure _ rfl
  · exact recorded .recordTimeout _ rfl
  · exact shown_of_unwritten unwritten
  · exact shown_of_unwritten unwritten
  · rename_i memory
    obtain ⟨configured, smooth, found⟩ := read memory rfl
    refine Contract.anything_op fun before answer after _ => ?_
    exact archiveMemory_shows self now command memory configured (smooth.other rfl)
      (unwritten.snoc rfl) (found.mono (List.prefix_append _ _))

end Shows

/-! ### Archived rows over runs -/

section Reach

variable {id : UUID} {path : PurePath} {e : CallEvent}

/-- Rows in state ARCHIVED stay as they are. -/
def KeepsArchived (s s' : State) : Prop :=
  ∀ id row, s.memories id = some row → row.lifecycleState = .archived → s'.memories id = some row

theorem keepsArchived_updateWhere {t : Memories} {id' : UUID} {revision : Nat}
    {state : EnumLifecycleState} {set : MemoryRow → MemoryRow} {row : MemoryRow}
    (other : state ≠ .archived) (here : t id = some row)
    (archived : row.lifecycleState = .archived) :
    t.updateWhere id' revision state set id = some row := by
  rcases t.updateWhere_cases id' revision state set id with kept | ⟨rfl, old, guard, -⟩
  · exact kept.trans here
  · obtain ⟨there, -, was⟩ := Memories.guarded_eq_some.mp guard
    cases here.symm.trans there
    exact absurd (was.symm.trans archived) other

theorem keepsArchived_of_call (call : (world X).Calls e) : KeepsArchived e.before e.after := by
  intro id row here archived
  by_cases quiet : e.op.writesTable = false
  · rwa [memories_eq call quiet]
  obtain ⟨op, before, answer, after⟩ := e
  cases op <;> try exact absurd rfl quiet
  case updateExpired id' revision time =>
    rcases updateExpired_cases call with ⟨-, rfl⟩ | ⟨-, rfl | rfl⟩
    · exact keepsArchived_updateWhere (by decide) here archived
    · exact here
    · exact keepsArchived_updateWhere (by decide) here archived
  case updateArchived id' revision time path =>
    rcases updateArchived_cases call with ⟨-, rfl⟩ | ⟨-, rfl | rfl⟩
    · exact keepsArchived_updateWhere (by decide) here archived
    · exact here
    · exact keepsArchived_updateWhere (by decide) here archived

theorem keepsArchived_of_tag (call : (tagWorld X).Calls e) : KeepsArchived e.before e.after := by
  obtain ⟨answer, call⟩ := calls_of_tag call
  exact keepsArchived_of_call (e := ⟨e.op, e.before, answer, e.after⟩) call

theorem storedAt_of_archivesAt (call : (world X).Calls e) (archives : ArchivesAt id path e) :
    e.after.memories.StoredAt id path := by
  obtain ⟨op, before, answer, after⟩ := e
  obtain ⟨⟨revision, time, rfl⟩, changed⟩ := archives
  have applied : after = before.archive id revision time path := by
    rcases updateArchived_cases call with ⟨-, rfl⟩ | ⟨-, rfl | rfl⟩
    · rfl
    · exact absurd rfl changed
    · rfl
  subst applied
  cases guard : before.memories.guarded id revision .expired with
  | none => exact absurd (Memories.updateWhere_none guard) changed
  | some row =>
    have set : (before.archive id revision time path).memories =
        Function.update before.memories id (some (row.archive time path)) :=
      Memories.updateWhere_some guard
    exact ⟨row.archive time path, by rw [set, Function.update_self], rfl, rfl⟩

theorem storedAt_before (call : (world X).Calls e) (stored : e.after.memories.StoredAt id path) :
    e.before.memories.StoredAt id path ∨ ArchivesAt id path e := by
  obtain ⟨row, here, archived, at_⟩ := stored
  rcases archived_before call here archived with old | ⟨revision, time, target, op, there, changed⟩
  · exact .inl ⟨row, old, archived, at_⟩
  · cases at_.symm.trans there
    exact .inr ⟨⟨revision, time, op⟩, changed⟩

variable {init : State → Prop}
  {ok : LifecyclePool → Label Op Res Command Empty State → Prop} {p : LifecyclePool}

theorem timeline_of_reach (reach : (tagWorld X).Reach init ok p)
    {t : Task Op Res (Except PyError Result) Command State} (task : t ∈ p.tasks)
    (mem : e ∈ t.calls) : (tagWorld X).Calls e ∧ KeepsArchived e.after p.shared := by
  have holds : (Contract.timeline (fun _ _ => True) KeepsArchived).Holds (tagWorld X) init ok
      fun _ _ _ _ => True :=
    Contract.timeline_holds (fun _ _ _ here _ => here)
      (fun _ _ _ first second id row here archived =>
        second id row (first id row here archived) archived)
      (fun _ _ _ _ _ => trivial) (fun _ _ call _ => keepsArchived_of_tag call)
      (fun _ m => m.elim)
  have kept := (holds.reach reach).2 t task
  exact ⟨(kept.made e mem).1, kept.past e mem⟩

/-- A row that is archived at the path was put there by an UPDATE of the run, or it was there at
every call. -/
theorem storedAt_cases (reach : (tagWorld X).Reach init ok p)
    (stored : p.shared.memories.StoredAt id path) :
    (∃ u ∈ p.tasks, ∃ e ∈ u.calls, ArchivesAt id path e) ∨
      ∀ u ∈ p.tasks, ∀ e ∈ u.calls, e.before.memories.StoredAt id path := by
  revert stored
  refine reach.invariant (P := fun p => p.shared.memories.StoredAt id path →
    (∃ u ∈ p.tasks, ∃ e ∈ u.calls, ArchivesAt id path e) ∨
      ∀ u ∈ p.tasks, ∀ e ∈ u.calls, e.before.memories.StoredAt id path) (by simp) ?_
  intro p l p' _ ih _ step stored
  cases step with
  | start c =>
    rcases ih stored with ⟨u, hu, e, he, archives⟩ | always
    · exact .inl ⟨u, List.mem_append_left _ hu, e, he, archives⟩
    · refine .inr fun u hu e he => ?_
      rcases List.mem_append.mp hu with hu | hu
      · exact always u hu e he
      · obtain rfl := List.mem_singleton.mp hu
        exact absurd he List.not_mem_nil
  | @call i t op rest answer after task here call =>
    obtain ⟨answer', effect⟩ := calls_of_tag call
    rcases storedAt_before effect stored with old | archives
    swap
    · exact .inl ⟨_, World.self_mem_set task, _,
        List.mem_append_right _ (List.mem_singleton_self _), archives⟩
    rcases ih old with ⟨u, hu, e, he, archives⟩ | always
    · obtain ⟨u', hu', grown⟩ := World.grown_of_mem task hu
      exact .inl ⟨u', hu', e, grown.subset he, archives⟩
    · refine .inr fun u hu e he => ?_
      rcases World.mem_tasks_set hu with rfl | hu
      · rcases List.mem_append.mp he with he | he
        · exact always t (List.mem_of_getElem? task) e he
        · obtain rfl := List.mem_singleton.mp he
          exact old
      · exact always u hu e he
  | @move m after moved => exact m.elim

/-- A command that renamed onto the path finds its memory there only by an UPDATE of the run. -/
theorem storedAt_iff (reach : (tagWorld X).Reach init ok p)
    {t : Task Op Res (Except PyError Result) Command State} (task : t ∈ p.tasks)
    (found : FoundIn id .expired t.calls) : p.shared.memories.StoredAt id path ↔
      ∃ u ∈ p.tasks, ∃ e ∈ u.calls, ArchivesAt id path e := by
  constructor
  · intro stored
    rcases storedAt_cases reach stored with archives | always
    · exact archives
    · obtain ⟨e, mem, row, here, expired⟩ := found
      obtain ⟨row', there, archived, -⟩ := always t task e mem
      cases here.symm.trans there
      cases expired.symm.trans archived
  · rintro ⟨u, hu, e, he, archives⟩
    obtain ⟨call, kept⟩ := timeline_of_reach reach hu he
    obtain ⟨answer, effect⟩ := calls_of_tag call
    obtain ⟨row, here, archived, at_⟩ := storedAt_of_archivesAt effect archives
    exact ⟨row, kept id row here archived, archived, at_⟩

theorem shown_of_reach (reach : (tagWorld X).Reach init ok p)
    {t : Task Op Res (Except PyError Result) Command State} (task : t ∈ p.tasks)
    {self : HandlerMemoryArchive} {now : DateTime} {command : ModelArchiveMemoryCommand}
    (archive : t.cmd = .archive self now command) {out : Except PyError Result}
    (returned : t.result? = some out) : ∃ answer : Except PyError ModelMemoryArchiveResult,
      out = answer.map .archive ∧ Shown self command.memoryId answer t.calls := by
  refine Contract.anything_of_reach (Q := fun cmd out h => ∀ self now command,
    cmd = .archive self now command → ∃ answer : Except PyError ModelMemoryArchiveResult,
      out = answer.map .archive ∧ Shown self command.memoryId answer h) ?_ reach task returned
    self now command archive
  intro cmd s
  cases cmd with
  | expire self now command =>
    refine (Contract.timeline_keeps (fun _ _ _ => trivial) _).imp fun _ _ _ _ => ?_
    intro _ _ _ other
    cases other
  | archive self now command =>
    refine (handle_shows self now command).seq fun answer h s shown => ?_
    rintro _ _ _ ⟨⟩
    exact ⟨answer, rfl, shown⟩

theorem orphanedAt_iff {answer : Except PyError ModelMemoryArchiveResult} :
    (∃ result, answer.map Result.archive = .ok result ∧ result.orphanedAt = some path) ↔
      ReportsOrphan path answer := by
  constructor
  · rintro ⟨result, same, reported⟩
    rcases answer with e | answer
    · cases same
    cases same
    unfold Result.orphanedAt at reported
    dsimp only at reported
    split at reported
    · exact ⟨answer, rfl, ‹_›, reported⟩
    · contradiction
  · rintro ⟨answer, rfl, orphaned, at_⟩
    exact ⟨.archive answer, rfl, by simp [Result.orphanedAt, orphaned, at_]⟩

/-- A rename onto the path succeeded. -/
def putsAt (path : PurePath) (calls : List CallEvent) : Bool :=
  calls.any fun e =>
    match e with
    | ⟨.rename _ _ target, _, answer, _⟩ => decide (target = path) && answer.toBool
    | _ => false

theorem renamed_of_putsAt {calls : List CallEvent} (puts : putsAt path calls = true) :
    ∃ content, Renamed calls content path := by
  obtain ⟨⟨op, before, answer, after⟩, mem, puts⟩ := List.any_eq_true.mp puts
  cases op <;> try contradiction
  case rename temp content target =>
    obtain ⟨same, succeeded⟩ := (Bool.and_eq_true _ _).mp puts
    obtain rfl := of_decide_eq_true same
    rcases answer with e | _
    · contradiction
    · exact ⟨content, temp, before, after, mem⟩

/-- A command writes its archive, and the calls after the rename are answered as given. -/
def archiveOne (answers : List Choice) : List (Act Command TagChoice Empty) :=
  .start (.archive plainArchive ⟨2025, 1, 3, 0⟩ ⟨1, 0, none⟩) ::
    (Choice.answer true :: List.replicate 10 .run ++ answers).map fun ch => .call 0 (.plain ch)

def plainPath : PurePath :=
  HandlerMemoryArchive.getArchivePath ⟨["/", "archive"]⟩ 1 ⟨2025, 1, 3, 0⟩

end Reach

end Lifecycle

end OmniMemory
