import OmniMemory.Lifecycle.World

/-! What the two handlers do, as one contract: how each UPDATE, rename and orphan report depends on
the calls before it, and what a result tells about the calls of its command. Every function of the
handlers has one lemma. The results about interleavings use the contract and not the programs. -/

namespace OmniMemory

open Interleave

/-- No row is lost, changes its content, or goes back to an earlier revision. -/
def Memories.Ahead (t t' : Memories) : Prop :=
  ∀ id row, t id = some row → ∃ row', t' id = some row' ∧ row'.content = row.content ∧
    row.lifecycleRevision ≤ row'.lifecycleRevision

theorem Memories.Ahead.refl (t : Memories) : t.Ahead t :=
  fun _ row h => ⟨row, h, rfl, Nat.le_refl _⟩

theorem Memories.Ahead.trans {t u v : Memories} (h1 : t.Ahead u) (h2 : u.Ahead v) : t.Ahead v := by
  intro id row here
  obtain ⟨row1, there, content1, le1⟩ := h1 id row here
  obtain ⟨row2, there, content2, le2⟩ := h2 id row1 there
  exact ⟨row2, there, content2.trans content1, Nat.le_trans le1 le2⟩

theorem Memories.ahead_updateWhere {t : Memories} {id : UUID} {revision : Nat}
    {state : EnumLifecycleState} {set : MemoryRow → MemoryRow}
    (content : ∀ row, (set row).content = row.content)
    (next : ∀ row, (set row).lifecycleRevision = row.lifecycleRevision + 1) :
    t.Ahead (t.updateWhere id revision state set) := by
  intro id' row here
  rcases t.updateWhere_cases id revision state set id' with kept | ⟨rfl, old, guard, updated⟩
  · exact ⟨row, kept.trans here, rfl, Nat.le_refl _⟩
  · obtain ⟨hold, -, -⟩ := guarded_eq_some.mp guard
    obtain rfl := Option.some.inj (here.symm.trans hold)
    refine ⟨set row, updated, content row, ?_⟩
    rw [next]
    omega

namespace Lifecycle

variable {X : External}

theorem calls_ahead {e : CallEvent} (call : (world X).Calls e) :
    e.before.memories.Ahead e.after.memories := by
  by_cases quiet : e.op.writesTable = false
  · rw [memories_eq call quiet]
    exact .refl _
  obtain ⟨op, before, answer, after⟩ := e
  cases op <;> try exact absurd rfl quiet
  case updateExpired id revision time =>
    have changed : before.memories.Ahead (before.expire id revision time).memories :=
      Memories.ahead_updateWhere (fun _ => rfl) fun _ => rfl
    rcases updateExpired_cases call with ⟨-, rfl⟩ | ⟨-, rfl | rfl⟩
    · exact changed
    · exact .refl _
    · exact changed
  case updateArchived id revision time path =>
    have changed : before.memories.Ahead (before.archive id revision time path).memories :=
      Memories.ahead_updateWhere (fun _ => rfl) fun _ => rfl
    rcases updateArchived_cases call with ⟨-, rfl⟩ | ⟨-, rfl | rfl⟩
    · exact changed
    · exact .refl _
    · exact changed

/-! ### What the calls of a command tell -/

def Quiet (calls : List CallEvent) : Prop := ∀ e ∈ calls, e.after.memories = e.before.memories

/-- No call so far was an UPDATE or reported an orphan. -/
def Fresh (calls : List CallEvent) : Prop :=
  Quiet calls ∧ ∀ e ∈ calls, e.op.writesTable = false ∧ e.op.isTrack = false

/-- The call moved the row of the command from its source to its target state, and raised the
revision by one from the expected one. -/
def Advances (c : Command) (e : CallEvent) : Prop :=
  ∃ row row', e.before.memories c.memoryId = some row ∧
    row.lifecycleRevision = c.expectedRevision ∧ row.lifecycleState = c.source ∧
    e.after.memories = Function.update e.before.memories c.memoryId (some row') ∧
    row'.lifecycleRevision = row.lifecycleRevision + 1 ∧ row'.lifecycleState = c.target

/-- One UPDATE advanced the row, and the other calls left the table as it was. -/
def Applied (c : Command) (calls : List CallEvent) : Prop :=
  ∃ pre e post, calls = pre ++ e :: post ∧ Quiet pre ∧ Quiet post ∧ e.op.writesTable = true ∧
    Advances c e

def UpdateRaised (calls : List CallEvent) : Prop :=
  ∃ e ∈ calls, e.op.writesTable = true ∧ Raised e

/-- Only the UPDATE can have changed the table, and it or a release after it raised. -/
def Interrupted (calls : List CallEvent) : Prop :=
  ∃ pre e post, calls = pre ++ e :: post ∧ Quiet pre ∧ Quiet post ∧ e.op.writesTable = true ∧
    (Raised e ∨ ∃ f ∈ post, f.op = .release ∧ Raised f)

def Unapplied (calls : List CallEvent) : Prop := Quiet calls ∨ Interrupted calls

/-- A rename that succeeded put `content` at `path`. -/
def Renamed (calls : List CallEvent) (content : Bytes) (path : PurePath) : Prop :=
  ∃ temp before after, (⟨.rename temp content path, before, .ok (), after⟩ : CallEvent) ∈ calls

theorem Quiet.nil : Quiet [] := by simp [Quiet]

theorem Quiet.snoc {calls : List CallEvent} {e : CallEvent} (old : Quiet calls)
    (same : e.after.memories = e.before.memories) : Quiet (calls ++ [e]) := by
  intro f hf
  rcases List.mem_append.mp hf with hf | hf
  · exact old f hf
  · obtain rfl := List.mem_singleton.mp hf
    exact same

theorem Fresh.nil : Fresh [] := ⟨.nil, by simp⟩

theorem Fresh.snoc {calls : List CallEvent} {e : CallEvent} (old : Fresh calls)
    (same : e.after.memories = e.before.memories) (noUpdate : e.op.writesTable = false)
    (noTrack : e.op.isTrack = false) : Fresh (calls ++ [e]) := by
  refine ⟨old.1.snoc same, fun f hf => ?_⟩
  rcases List.mem_append.mp hf with hf | hf
  · exact old.2 f hf
  · obtain rfl := List.mem_singleton.mp hf
    exact ⟨noUpdate, noTrack⟩

theorem Fresh.unapplied {calls : List CallEvent} (fresh : Fresh calls) : Unapplied calls :=
  .inl fresh.1

theorem Applied.snoc {c : Command} {calls : List CallEvent} {e : CallEvent}
    (old : Applied c calls) (same : e.after.memories = e.before.memories) :
    Applied c (calls ++ [e]) := by
  obtain ⟨pre, u, post, rfl, hpre, hpost, advances⟩ := old
  exact ⟨pre, u, post ++ [e], by simp, hpre, hpost.snoc same, advances⟩

theorem Interrupted.snoc {calls : List CallEvent} {e : CallEvent} (old : Interrupted calls)
    (same : e.after.memories = e.before.memories) : Interrupted (calls ++ [e]) := by
  obtain ⟨pre, u, post, rfl, hpre, hpost, update, raised⟩ := old
  refine ⟨pre, u, post ++ [e], by simp, hpre, hpost.snoc same, update, ?_⟩
  rcases raised with raised | ⟨f, hf, release, raised⟩
  · exact .inl raised
  · exact .inr ⟨f, List.mem_append_left _ hf, release, raised⟩

theorem Unapplied.snoc {calls : List CallEvent} {e : CallEvent} (old : Unapplied calls)
    (same : e.after.memories = e.before.memories) : Unapplied (calls ++ [e]) := by
  rcases old with quiet | interrupted
  · exact .inl (quiet.snoc same)
  · exact .inr (interrupted.snoc same)

/-- The release of the connection raised after an UPDATE that applied. -/
theorem Applied.unapplied_release {c : Command} {calls : List CallEvent} {e : CallEvent}
    (applied : Applied c calls) (same : e.after.memories = e.before.memories)
    (release : e.op = .release) (raised : Raised e) : Unapplied (calls ++ [e]) := by
  obtain ⟨pre, u, post, rfl, hpre, hpost, update, -⟩ := applied
  exact .inr ⟨pre, u, post ++ [e], by simp, hpre, hpost.snoc same, update,
    .inr ⟨e, by simp, release, raised⟩⟩

theorem Renamed.mono {calls calls' : List CallEvent} {content : Bytes} {path : PurePath}
    (renamed : Renamed calls content path) (grown : calls <+: calls') :
    Renamed calls' content path := by
  obtain ⟨temp, before, after, mem⟩ := renamed
  exact ⟨temp, before, after, grown.subset mem⟩

theorem Renamed.of_snoc {calls : List CallEvent} {e : CallEvent} {content : Bytes}
    {path : PurePath} (renamed : Renamed (calls ++ [e]) content path) :
    Renamed calls content path ∨ Renamed [e] content path := by
  obtain ⟨temp, before, after, mem⟩ := renamed
  rcases List.mem_append.mp mem with mem | mem
  · exact .inl ⟨temp, before, after, mem⟩
  · exact .inr ⟨temp, before, after, mem⟩

/-- Some call renames onto the path. -/
def renamesTo (path : PurePath) (calls : List CallEvent) : Bool :=
  calls.any fun e =>
    match e.op with
    | .rename _ _ target => decide (target = path)
    | _ => false

theorem Renamed.renamesTo {calls : List CallEvent} {content : Bytes} {path : PurePath}
    (renamed : Renamed calls content path) : renamesTo path calls = true := by
  obtain ⟨temp, before, after, mem⟩ := renamed
  exact List.any_eq_true.mpr ⟨_, mem, decide_eq_true rfl⟩

/-- `bytes` is an archive of the memory of `c`, with the content of a row that was read. -/
def Archives (X : External) (c : Command) (calls : List CallEvent) (bytes : Bytes) : Prop :=
  ∃ record, X.decode bytes = some record ∧ record.memoryId = c.memoryId ∧
    ∃ e ∈ calls, ∃ row, e.after.memories c.memoryId = some row ∧ row.content = record.content

/-- `content` is what a write stored of an archive of the memory of `c`. -/
def Serialized (X : External) (c : Command) (calls : List CallEvent) (content : Bytes) : Prop :=
  ∃ bytes stored, Archives X c calls bytes ∧
    (∃ temp before after,
      (⟨.write temp bytes, before, .ok stored, after⟩ : CallEvent) ∈ calls) ∧
    content = bytes.take stored

theorem Archives.mono {c : Command} {calls calls' : List CallEvent} {bytes : Bytes}
    (archives : Archives X c calls bytes) (grown : calls <+: calls') :
    Archives X c calls' bytes := by
  obtain ⟨record, decoded, id, e, mem, row⟩ := archives
  exact ⟨record, decoded, id, e, grown.subset mem, row⟩

theorem Serialized.mono {c : Command} {calls calls' : List CallEvent} {content : Bytes}
    (serialized : Serialized X c calls content) (grown : calls <+: calls') :
    Serialized X c calls' content := by
  obtain ⟨bytes, stored, archives, ⟨temp, before, after, mem⟩, same⟩ := serialized
  exact ⟨bytes, stored, archives.mono grown, ⟨temp, before, after, grown.subset mem⟩, same⟩

/-! ### The contract -/

/-- What a call of a command depends on. -/
def Guarantee (X : External) (c : Command) (calls : List CallEvent) (e : CallEvent) : Prop :=
  match e.op with
  | .updateExpired id revision _ =>
    Fresh calls ∧ c.target = .expired ∧ id = c.memoryId ∧ revision = c.expectedRevision
  | .updateArchived id revision _ path =>
    Fresh calls ∧ c.target = .archived ∧ id = c.memoryId ∧ revision = c.expectedRevision ∧
      ∃ content, Renamed calls content path
  | .rename _ content _ => Fresh calls ∧ Serialized X c calls content
  | .trackOrphan _ path _ => Unapplied calls ∧ ∃ content, Renamed calls content path
  | _ => True

/-- The contract of both handlers: rows go ahead, and calls meet the guarantee. -/
def handlers (X : External) : Contract Op Res Command State where
  inv _ := True
  rely s s' := s.memories.Ahead s'.memories
  can _ _ := True
  guar := Guarantee X

/-- The answer is a value of which `f` holds. -/
def told {α : Type} (f : α → Bool) : Except PyError α → Bool
  | .ok a => f a
  | .error _ => false

/-- What an answer tells about the calls: whether the row was advanced. -/
def Tells {α : Type} (c : Command) (f : α → Bool) (out : Except PyError α)
    (calls : List CallEvent) : Prop :=
  if told f out = true then Applied c calls else Unapplied calls

theorem Tells.snoc {α : Type} {c : Command} {f : α → Bool} {out : Except PyError α}
    {calls : List CallEvent} {e : CallEvent} (old : Tells c f out calls)
    (same : e.after.memories = e.before.memories) : Tells c f out (calls ++ [e]) := by
  by_cases advanced : told f out = true
  · rw [Tells, if_pos advanced] at *
    exact old.snoc same
  · rw [Tells, if_neg advanced] at *
    exact old.snoc same

section Keeps

variable {c : Command} {h : List CallEvent} {s : State} {α β : Type}
  {Q : α → List CallEvent → State → Prop}

theorem keeps_op {op : Op} {next : Res op → LifecycleProg α}
    (guar : ∀ before answer after, Guarantee X c h ⟨op, before, answer, after⟩)
    (rest : ∀ before answer after, (world X).Calls ⟨op, before, answer, after⟩ →
      (handlers X).Keeps (world X) c Q (next answer) (h ++ [⟨op, before, answer, after⟩]) after) :
    (handlers X).Keeps (world X) c Q (Prog.perform op >>= next) h s := by
  intro before _ _ answer after call _
  exact ⟨⟨trivial, calls_ahead call, guar before answer after⟩, rest before answer after call⟩

theorem guarantee_plain {op : Op} (plain : op.isPlain = true) (before : State) (answer : Res op)
    (after : State) : Guarantee X c h ⟨op, before, answer, after⟩ := by
  cases op <;> trivial

theorem isPlain_iff {op : Op} : op.isPlain = true ↔
    op.writesTable = false ∧ op.isRename = false ∧ op.isTrack = false := by
  simp [Op.isPlain, and_assoc]

theorem keeps_plain {op : Op} {next : Res op → LifecycleProg α} (plain : op.isPlain = true)
    (rest : ∀ e : CallEvent, e.op = op → ∀ answer s, e.after.memories = e.before.memories →
      (handlers X).Keeps (world X) c Q (next answer) (h ++ [e]) s) :
    (handlers X).Keeps (world X) c Q (Prog.perform op >>= next) h s :=
  keeps_op (guarantee_plain plain) fun before answer after call =>
    rest ⟨op, before, answer, after⟩ rfl answer after
      (memories_eq call (isPlain_iff.mp plain).1)

theorem keeps_uses {p : LifecycleProg α} {φ : List CallEvent → Prop}
    (uses : p.Uses (·.isPlain = true))
    (stays : ∀ h (e : CallEvent), e.op.isPlain = true → e.after.memories = e.before.memories →
      φ h → φ (h ++ [e]))
    (now : φ h) : (handlers X).Keeps (world X) c (fun _ h _ => φ h) p h s := by
  refine .of_uses uses (fun h e plain call _ _ old => ?_) now
  obtain ⟨op, before, answer, after⟩ := e
  exact ⟨⟨trivial, calls_ahead call, guarantee_plain plain before answer after⟩,
    stays h _ plain (memories_eq call (isPlain_iff.mp plain).1) old⟩

theorem Fresh.plain {h : List CallEvent} {e : CallEvent} (plain : e.op.isPlain = true)
    (same : e.after.memories = e.before.memories) (fresh : Fresh h) : Fresh (h ++ [e]) := by
  obtain ⟨noUpdate, -, noTrack⟩ := isPlain_iff.mp plain
  exact fresh.snoc same noUpdate noTrack

/-- `async with`: the release may raise after the block has told its answer. -/
theorem withConnection_keeps {body : LifecycleProg (Except PyError α)} {f : α → Bool}
    (fresh : Fresh h)
    (block : ∀ h' s, h <+: h' → Fresh h' → (handlers X).Keeps (world X) c
      (fun out h _ => Tells c f out h) body h' s) :
    (handlers X).Keeps (world X) c (fun out h _ => Tells c f out h) (withConnection body) h s := by
  refine keeps_plain rfl fun e he answer s same => ?_
  rcases answer with error | _
  · exact (fresh.plain (he ▸ rfl) same).unapplied
  refine (block _ s (List.prefix_append _ _) (fresh.plain (he ▸ rfl) same)).seq ?_
  intro outcome h s tells
  refine keeps_op (guarantee_plain rfl) fun before answer after call => ?_
  have same := memories_eq call rfl
  rcases answer with error | _
  · change Unapplied _
    unfold Tells at tells
    split at tells
    · exact tells.unapplied_release same rfl rfl
    · exact tells.snoc same
  · exact tells.snoc same

/-! ### The expire handler -/

theorem readCurrentState_uses (self : HandlerMemoryExpire) (id : UUID) :
    (self.readCurrentState id).Uses (·.isPlain = true) := by
  unfold HandlerMemoryExpire.readCurrentState
  split
  · trivial
  split
  · trivial
  split
  · trivial
  refine .bind (Prog.uses_perform.mpr rfl) fun allowed => ?_
  split
  · trivial
  refine .bind ?_ fun outcome => ?_
  · refine withConnection_uses rfl rfl (.bind (Prog.uses_perform.mpr rfl) fun found => ?_)
    rcases found with e | _ | ⟨state, revision⟩
    · trivial
    · exact .bind (Prog.uses_perform.mpr rfl) fun _ => trivial
    · exact .bind (Prog.uses_perform.mpr rfl) fun _ => trivial
  · split
    · exact .bind (Prog.uses_perform.mpr rfl) fun _ => trivial
    · exact .bind (Prog.uses_perform.mpr rfl) fun _ => trivial
    · exact .bind (Prog.uses_perform.mpr rfl) fun _ => trivial
    · trivial

theorem explainMiss_keeps (self : HandlerMemoryExpire) (command : ModelExpireMemoryCommand)
    (quiet : Unapplied h) : (handlers X).Keeps (world X) c
      (fun out h _ => Tells c (·.success) out h) (self.explainMiss command) h s := by
  unfold HandlerMemoryExpire.explainMiss
  refine (keeps_uses (readCurrentState_uses self _) (fun _ _ _ same old => old.snoc same)
    quiet).seq fun outcome h s quiet => ?_
  have recorded : ∀ result : ModelMemoryExpireResult, result.success = false →
      (handlers X).Keeps (world X) c (fun out h _ => Tells c (·.success) out h)
        (recordSuccess >>= fun _ => .ret (.ok result)) h s := by
    intro result failed
    refine keeps_plain rfl fun e _ _ s same => ?_
    rw [Contract.keeps_ret, Tells, told, failed]
    exact quiet.snoc same
  split
  · exact quiet
  · exact quiet
  · exact quiet
  · exact quiet
  · exact quiet
  · exact recorded _ rfl
  · refine keeps_plain rfl fun e _ _ s same => ?_
    split
    · exact quiet.snoc same
    · exact quiet.snoc same

theorem expireBlock_keeps (self : HandlerMemoryExpire) (now : DateTime)
    (command : ModelExpireMemoryCommand) (fresh : Fresh h) :
    (handlers X).Keeps (world X) (.expire self now command)
      (fun out h _ => Tells (.expire self now command) (·.success) out h)
      (self.expireBlock now command) h s := by
  unfold HandlerMemoryExpire.expireBlock
  refine keeps_op (fun _ _ _ => ⟨fresh, rfl, rfl, rfl⟩) fun before answer after call => ?_
  cases guard : before.memories.guarded command.memoryId command.expectedRevision .active with
  | none =>
    have same : after.memories = before.memories := by
      have unchanged : (before.expire command.memoryId command.expectedRevision
          (command.expiredAt.getD now)).memories = before.memories :=
        Memories.updateWhere_none guard
      rcases updateExpired_cases call with ⟨-, rfl⟩ | ⟨-, rfl | rfl⟩
      · exact unchanged
      · rfl
      · exact unchanged
    have quiet : Unapplied (h ++ [⟨_, before, answer, after⟩]) := fresh.unapplied.snoc same
    rcases updateExpired_cases call with ⟨rfl, -⟩ | ⟨⟨e, rfl⟩, -⟩
    · simp only [expireAnswer, guard, Option.map_none]
      exact explainMiss_keeps self command (by simpa [expireAnswer, guard] using quiet)
    · exact quiet
  | some row =>
    obtain ⟨here, revision, state⟩ := Memories.guarded_eq_some.mp guard
    rcases updateExpired_cases call with ⟨rfl, rfl⟩ | ⟨⟨e, rfl⟩, -⟩
    · rw [expireAnswer, guard]
      have applied : Applied (.expire self now command)
          (h ++ [⟨.updateExpired command.memoryId command.expectedRevision
            (command.expiredAt.getD now), before, .ok (some (row.lifecycleRevision + 1)),
            before.expire command.memoryId command.expectedRevision
              (command.expiredAt.getD now)⟩]) :=
        ⟨h, _, [], rfl, fresh.1, .nil, rfl, row, row.expire (command.expiredAt.getD now), here,
          revision, state, Memories.updateWhere_some guard, rfl, rfl⟩
      refine keeps_plain rfl fun e _ _ s same => ?_
      exact applied.snoc same
    · exact .inr ⟨h, _, [], rfl, fresh.1, .nil, rfl, .inl rfl⟩

theorem expire_keeps (self : HandlerMemoryExpire) (now : DateTime)
    (command : ModelExpireMemoryCommand) (fresh : Fresh h) :
    (handlers X).Keeps (world X) (.expire self now command)
      (fun out h _ => Tells (.expire self now command) (·.success) out h)
      (self.handle now command) h s := by
  unfold HandlerMemoryExpire.handle
  dsimp only
  split
  · exact fresh.unapplied
  split
  · exact fresh.unapplied
  split
  · exact fresh.unapplied
  refine keeps_plain rfl fun e he allowed s same => ?_
  have fresh := fresh.plain (he ▸ rfl) same
  split
  · exact fresh.unapplied
  refine (withConnection_keeps fresh fun h' s _ fresh =>
    expireBlock_keeps self now command fresh).seq fun outcome h s tells => ?_
  split
  · exact keeps_plain rfl fun e _ _ s same => Unapplied.snoc tells same
  · exact keeps_plain rfl fun e _ _ s same => Unapplied.snoc tells same
  · exact keeps_plain rfl fun e _ _ s same => Unapplied.snoc tells same
  · exact tells

/-! ### The archive handler -/

/-- The row that was read for the command, with the content of `memory`. -/
def Selected (id : UUID) (calls : List CallEvent) (memory : ModelMemoryRow) : Prop :=
  memory.id = id ∧
    ∃ e ∈ calls, ∃ row, e.after.memories id = some row ∧ row.content = memory.content

theorem Selected.mono {id : UUID} {calls calls' : List CallEvent} {memory : ModelMemoryRow}
    (selected : Selected id calls memory) (grown : calls <+: calls') :
    Selected id calls' memory := by
  obtain ⟨same, e, mem, row⟩ := selected
  exact ⟨same, e, grown.subset mem, row⟩

theorem readMemory_keeps (self : HandlerMemoryArchive) (id : UUID) (revision : Nat)
    (fresh : Fresh h) : (handlers X).Keeps (world X) c
      (fun out h _ => Fresh h ∧ ∀ memory, out = .ok (some memory) → Selected id h memory)
      (self.readMemory X id revision) h s := by
  unfold HandlerMemoryArchive.readMemory
  split
  · exact ⟨fresh, by simp⟩
  refine keeps_plain rfl fun e he acquired s same => ?_
  have fresh := fresh.plain (he ▸ rfl) same
  rcases acquired with error | _
  · exact ⟨fresh, by simp⟩
  refine Contract.Keeps.seq (Q := fun out h _ =>
    Fresh h ∧ ∀ memory, out = .ok (some memory) → Selected id h memory) ?_ ?_
  · refine keeps_op (fun _ _ _ => trivial) fun before found after call => ?_
    obtain ⟨rfl, answer⟩ := selectMemory_cases call
    have fresh := fresh.snoc (e := ⟨.selectMemory id, after, found, after⟩) rfl rfl rfl
    rcases found with error | _ | row
    · exact ⟨fresh, by simp⟩
    · exact ⟨fresh, by simp⟩
    have here : after.memories id = some row := by
      rcases answer with answer | ⟨_, answer⟩
      · exact (Except.ok.inj answer).symm
      · cases answer
    have selected : ∀ metadata : Option String, Selected id
        (h ++ [e] ++ [⟨.selectMemory id, after, .ok (some row), after⟩])
        ⟨id, row.content, row.contentType, row.createdAt, row.expiredAt, row.lifecycleState,
          row.lifecycleRevision, metadata⟩ :=
      fun metadata => ⟨rfl, _, List.mem_append_right _ (List.mem_singleton_self _), row, here, rfl⟩
    dsimp only
    split
    · exact ⟨fresh, by simp⟩
    split
    · refine ⟨fresh, fun memory hm => ?_⟩
      cases hm
      exact selected none
    · split
      · exact ⟨fresh, by simp⟩
      · refine ⟨fresh, fun memory hm => ?_⟩
        cases hm
        exact selected _
  · rintro outcome h s ⟨fresh, selected⟩
    refine keeps_plain rfl fun e he released s same => ?_
    have fresh := fresh.plain (he ▸ rfl) same
    rcases released with error | _
    · exact ⟨fresh, by simp⟩
    · exact ⟨fresh, fun memory hm => (selected memory hm).mono (List.prefix_append _ _)⟩

theorem markArchived_keeps (self : HandlerMemoryArchive) (now : DateTime)
    (command : ModelArchiveMemoryCommand) (at_ : DateTime) (path : PurePath) (fresh : Fresh h)
    (renamed : ∃ content, Renamed h content path) :
    (handlers X).Keeps (world X) (.archive self now command)
      (fun out h _ => Tells (.archive self now command) id out h)
      (self.markArchived command.memoryId command.expectedRevision at_ path) h s := by
  unfold HandlerMemoryArchive.markArchived
  split
  · exact fresh.unapplied
  refine withConnection_keeps fresh fun h' s grown fresh => ?_
  obtain ⟨content, renamed⟩ := renamed
  refine keeps_op (fun _ _ _ => ⟨fresh, rfl, rfl, rfl, content, renamed.mono grown⟩)
    fun before answer after call => ?_
  cases guard : before.memories.guarded command.memoryId command.expectedRevision .expired with
  | none =>
    have same : after.memories = before.memories := by
      have unchanged : (before.archive command.memoryId command.expectedRevision at_
          path).memories = before.memories := Memories.updateWhere_none guard
      rcases updateArchived_cases call with ⟨-, rfl⟩ | ⟨-, rfl | rfl⟩
      · exact unchanged
      · rfl
      · exact unchanged
    have quiet : Unapplied (h' ++ [⟨_, before, answer, after⟩]) := fresh.unapplied.snoc same
    rcases updateArchived_cases call with ⟨rfl, -⟩ | ⟨⟨e, rfl⟩, -⟩
    · simpa [archiveCount, guard, Tells, told] using quiet
    · exact quiet
  | some row =>
    obtain ⟨here, revision, state⟩ := Memories.guarded_eq_some.mp guard
    rcases updateArchived_cases call with ⟨rfl, rfl⟩ | ⟨⟨e, rfl⟩, -⟩
    · have applied : Applied (.archive self now command) (h' ++ [⟨.updateArchived
          command.memoryId command.expectedRevision at_ path, before,
          .ok (.update (archiveCount before.memories command.memoryId command.expectedRevision)),
          before.archive command.memoryId command.expectedRevision at_ path⟩]) :=
        ⟨h', _, [], rfl, fresh.1, .nil, rfl, row, row.archive at_ path, here, revision, state,
          Memories.updateWhere_some guard, rfl, rfl⟩
      simpa [archiveCount, guard, Tells, told] using applied
    · exact .inr ⟨h', _, [], rfl, fresh.1, .nil, rfl, .inl rfl⟩

theorem trackIfConfigured_keeps (self : HandlerMemoryArchive) (id : UUID) (path : PurePath)
    (reason : String) (quiet : Unapplied h) (renamed : ∃ content, Renamed h content path) :
    (handlers X).Keeps (world X) c (fun _ h _ => Unapplied h)
      (self.trackIfConfigured id path reason) h s := by
  unfold HandlerMemoryArchive.trackIfConfigured
  split
  · rw [← Prog.bind_ret (trackOrphan id path reason)]
    exact keeps_op (fun _ _ _ => ⟨quiet, renamed⟩) fun before answer after call =>
      quiet.snoc (memories_eq call rfl)
  · exact quiet

theorem updateState_keeps (self : HandlerMemoryArchive) (now : DateTime)
    (command : ModelArchiveMemoryCommand) (path : PurePath) (bytesWritten : Nat) (fresh : Fresh h)
    (renamed : ∃ content, Renamed h content path) :
    (handlers X).Keeps (world X) (.archive self now command)
      (fun out h _ => Tells (.archive self now command) (·.isNone) out h ∧
        ∀ result, out = .ok (some result) → result.success = false ∧
          result.archivePath = some path)
      (self.updateState now command path bytesWritten) h s := by
  unfold HandlerMemoryArchive.updateState
  refine (markArchived_keeps self now command now path fresh renamed).grows.seq ?_
  rintro outcome h s ⟨tells, grown⟩
  obtain ⟨content, renamed⟩ := renamed
  rcases outcome with error | updated
  · exact ⟨tells, by simp⟩
  refine keeps_plain rfl fun e he _ s same => ?_
  cases updated with
  | true => exact ⟨Applied.snoc tells same, by simp⟩
  | false =>
    have quiet := Unapplied.snoc tells same
    refine (trackIfConfigured_keeps self _ path _ quiet ⟨content,
      (renamed.mono grown).mono (List.prefix_append _ _)⟩).seq fun tracked h s quiet => ?_
    rcases tracked with error | _
    · exact ⟨quiet, by simp⟩
    · refine ⟨quiet, fun result hr => ?_⟩
      cases hr
      exact ⟨rfl, rfl⟩

theorem removeTemp_keeps (temp : TempFile) (e : PyError) (fresh : Fresh h) :
    (handlers X).Keeps (world X) c (fun out h _ => Fresh h ∧ ∀ n, out ≠ .ok n)
      (HandlerMemoryArchive.removeTemp temp e) h s := by
  unfold HandlerMemoryArchive.removeTemp
  refine keeps_plain rfl fun found hf answer s same => ?_
  have fresh := fresh.plain (hf ▸ rfl) same
  rcases answer with e' | _ | _
  · dsimp only
    split <;> exact ⟨fresh, nofun⟩
  · exact ⟨fresh, nofun⟩
  refine keeps_plain rfl fun unlinked hu answer s same => ?_
  have fresh := fresh.plain (hu ▸ rfl) same
  rcases answer with e' | _
  · dsimp only
    split <;> exact ⟨fresh, nofun⟩
  · exact ⟨fresh, nofun⟩

theorem cleanUpTemp_keeps (temp : TempFile) (opened : Bool) (e : PyError) (fresh : Fresh h) :
    (handlers X).Keeps (world X) c (fun out h _ => Fresh h ∧ ∀ n, out ≠ .ok n)
      (HandlerMemoryArchive.cleanUpTemp temp opened e) h s := by
  unfold HandlerMemoryArchive.cleanUpTemp
  split
  · exact ⟨fresh, nofun⟩
  split
  · exact removeTemp_keeps temp e fresh
  refine keeps_plain rfl fun closed hc answer s same => ?_
  have fresh := fresh.plain (hc ▸ rfl) same
  rcases answer with e' | _
  · dsimp only
    split
    · exact removeTemp_keeps temp e fresh
    · exact ⟨fresh, nofun⟩
  · exact removeTemp_keeps temp e fresh

theorem writeArchiveSync_keeps (path : PurePath) (bytes : Bytes) (fresh : Fresh h)
    (archives : Archives X c h bytes) : (handlers X).Keeps (world X) c
      (fun out h _ => Fresh h ∧ ∀ n, out = .ok n → ∃ content, Renamed h content path)
      (HandlerMemoryArchive.writeArchiveSync path bytes) h s := by
  have failed : ∀ (temp : TempFile) (opened : Bool) (e : PyError) (h' : List CallEvent) (s : State),
      Fresh h' → (handlers X).Keeps (world X) c
        (fun out h _ => Fresh h ∧ ∀ n, out = .ok n → ∃ content, Renamed h content path)
        (HandlerMemoryArchive.cleanUpTemp temp opened e) h' s :=
    fun temp opened e h' s fresh => (cleanUpTemp_keeps temp opened e fresh).imp
      fun _ _ _ ⟨fresh, never⟩ => ⟨fresh, fun n hn => absurd hn (never n)⟩
  unfold HandlerMemoryArchive.writeArchiveSync
  refine keeps_plain rfl fun made hm answer s same => ?_
  have fresh := fresh.plain (hm ▸ rfl) same
  rcases answer with e | _
  · exact ⟨fresh, nofun⟩
  refine keeps_plain rfl fun opened ho answer s same => ?_
  have fresh := fresh.plain (ho ▸ rfl) same
  rcases answer with e | temp
  · exact ⟨fresh, nofun⟩
  refine keeps_op (fun _ _ _ => trivial) fun before answer after call => ?_
  have fresh := fresh.snoc (memories_eq call rfl) rfl rfl
  rcases answer with e | stored
  · exact failed _ _ _ _ _ fresh
  have serialized : Serialized X c (h ++ [made] ++ [opened] ++
      [⟨.write temp bytes, before, .ok stored, after⟩]) (bytes.take stored) := by
    refine ⟨bytes, stored, archives.mono ?_, ⟨temp, before, after, by simp⟩, rfl⟩
    simp only [List.append_assoc]
    exact List.prefix_append _ _
  refine keeps_plain rfl fun synced hs answer s same => ?_
  have fresh := fresh.plain (hs ▸ rfl) same
  rcases answer with e | _
  · exact failed _ _ _ _ _ fresh
  refine keeps_plain rfl fun closed hc answer s same => ?_
  have fresh := fresh.plain (hc ▸ rfl) same
  rcases answer with e | _
  · exact failed _ _ _ _ _ fresh
  refine keeps_op (fun _ _ _ => ⟨fresh, serialized.mono ?_⟩) fun before answer after call => ?_
  · exact (List.prefix_append _ _).trans (List.prefix_append _ _)
  have fresh := fresh.snoc (memories_eq call rfl) rfl rfl
  rcases answer with e | _
  · exact failed _ _ _ _ _ fresh
  · exact ⟨fresh, fun _ _ => ⟨bytes.take stored, temp, before, after,
      List.mem_append_right _ (List.mem_singleton_self _)⟩⟩

/-- What the archive handler tells with its answer. -/
def Answers (c : Command) (out : Except PyError ModelMemoryArchiveResult)
    (calls : List CallEvent) : Prop :=
  Tells c (·.success) out calls ∧ ∀ result path, out = .ok result → result.orphaned = true →
    result.archivePath = some path → result.success = false ∧ ∃ content, Renamed calls content path

theorem Answers.failed {out : Except PyError ModelMemoryArchiveResult}
    (failed : ∀ result, out = .ok result → result.success = false ∧ result.orphaned = false)
    (quiet : Unapplied h) : Answers c out h := by
  refine ⟨?_, fun result path here orphaned => ?_⟩
  · rcases out with e | result
    · exact quiet
    · rw [Tells, told, (failed result rfl).1]
      exact quiet
  · rw [(failed result here).2] at orphaned
    contradiction

theorem reportOrphan_keeps (self : HandlerMemoryArchive) {record : LifecycleProg Unit}
    (command : ModelArchiveMemoryCommand) (path : PurePath) (bytesWritten : Nat)
    (reason message : String) (plain : record.Uses (·.isPlain = true)) (quiet : Unapplied h)
    (renamed : ∃ content, Renamed h content path) :
    (handlers X).Keeps (world X) c (fun out h _ => Answers c out h)
      (self.reportOrphan record command path bytesWritten reason message) h s := by
  unfold HandlerMemoryArchive.reportOrphan
  obtain ⟨content, renamed⟩ := renamed
  refine (keeps_uses plain (fun _ _ _ same old => Unapplied.snoc old same) quiet).grows.seq ?_
  rintro - h s ⟨quiet, grown⟩
  have renamed := renamed.mono grown
  refine (trackIfConfigured_keeps self _ path _ quiet ⟨content, renamed⟩).grows.seq ?_
  rintro tracked h s ⟨quiet, grown⟩
  rcases tracked with e | _
  · exact .failed (by simp) quiet
  · refine ⟨quiet, fun result path here _ reported => ?_⟩
    cases here
    cases reported
    exact ⟨rfl, content, renamed.mono grown⟩

theorem finishArchive_keeps (self : HandlerMemoryArchive) (now : DateTime)
    (command : ModelArchiveMemoryCommand) (path : PurePath) (bytesWritten : Nat) (fresh : Fresh h)
    (renamed : ∃ content, Renamed h content path) :
    (handlers X).Keeps (world X) (.archive self now command)
      (fun out h _ => Answers (.archive self now command) out h)
      (self.finishArchive now command path bytesWritten) h s := by
  unfold HandlerMemoryArchive.finishArchive
  refine (updateState_keeps self now command path bytesWritten fresh renamed).grows.seq ?_
  obtain ⟨content, renamed⟩ := renamed
  rintro outcome h s ⟨⟨tells, conflict⟩, grown⟩
  have renamed : ∃ content, Renamed h content path := ⟨content, renamed.mono grown⟩
  split
  · rename_i result
    obtain ⟨failed, here⟩ := conflict result rfl
    refine ⟨?_, fun result' path' same _ reported => ?_⟩
    · rw [Tells, told, failed]
      exact tells
    · cases same
      cases here.symm.trans reported
      exact ⟨failed, renamed⟩
  · refine ⟨tells, fun result path' same orphaned => ?_⟩
    cases same
    contradiction
  · exact reportOrphan_keeps self command path bytesWritten _ _ (by simp; rfl) tells renamed
  · exact reportOrphan_keeps self command path bytesWritten _ _ (by simp; rfl) tells renamed
  · exact reportOrphan_keeps self command path bytesWritten _ _ (by simp; rfl) tells renamed
  · exact .failed (by simp) tells

theorem writeAndUpdate_keeps (self : HandlerMemoryArchive) (now : DateTime)
    (command : ModelArchiveMemoryCommand) (path : PurePath) (bytes : Bytes) (fresh : Fresh h)
    (archives : Archives X (.archive self now command) h bytes) :
    (handlers X).Keeps (world X) (.archive self now command)
      (fun out h _ => Answers (.archive self now command) out h)
      (self.writeAndUpdate X now command path bytes) h s := by
  unfold HandlerMemoryArchive.writeAndUpdate
  dsimp only
  split
  · exact .failed (by simp) fresh.unapplied
  refine (writeArchiveSync_keeps path bytes fresh archives).seq ?_
  rintro written h s ⟨fresh, renamed⟩
  split
  · exact finishArchive_keeps self now command path _ fresh (renamed _ rfl)
  · split
    · exact .failed (by simp) fresh.unapplied
    · exact .failed (by simp) fresh.unapplied

theorem archiveMemory_keeps (self : HandlerMemoryArchive) (now : DateTime)
    (command : ModelArchiveMemoryCommand) (memory : ModelMemoryRow) (fresh : Fresh h)
    (selected : Selected command.memoryId h memory) :
    (handlers X).Keeps (world X) (.archive self now command)
      (fun out h _ => Answers (.archive self now command) out h)
      (self.archiveMemory X now command memory) h s := by
  unfold HandlerMemoryArchive.archiveMemory
  dsimp only
  split
  · exact .failed (by simp) fresh.unapplied
  have archives : Archives X (.archive self now command) h
      (self.serializeForArchiveSync X (HandlerMemoryArchive.archiveRecord now memory)) :=
    ⟨_, X.decode_compress _ _, selected.1, selected.2⟩
  split
  · exact writeAndUpdate_keeps self now command _ _ fresh archives
  · exact writeAndUpdate_keeps self now command _ _ fresh archives
  · exact .failed (by simp) fresh.unapplied

theorem archive_keeps (self : HandlerMemoryArchive) (now : DateTime)
    (command : ModelArchiveMemoryCommand) (fresh : Fresh h) :
    (handlers X).Keeps (world X) (.archive self now command)
      (fun out h _ => Answers (.archive self now command) out h)
      (self.handle X now command) h s := by
  unfold HandlerMemoryArchive.handle
  dsimp only
  split
  · exact .failed (by simp) fresh.unapplied
  split
  · exact .failed (by simp) fresh.unapplied
  refine keeps_plain rfl fun e he allowed s same => ?_
  have fresh := fresh.plain (he ▸ rfl) same
  split
  · exact .failed (by simp) fresh.unapplied
  refine (readMemory_keeps self _ _ fresh).seq ?_
  rintro outcome h s ⟨fresh, selected⟩
  split
  · exact .failed (by simp) fresh.unapplied
  · exact keeps_plain rfl fun e _ _ s same => .failed (by simp) (fresh.unapplied.snoc same)
  · exact keeps_plain rfl fun e _ _ s same => .failed (by simp) (fresh.unapplied.snoc same)
  · exact keeps_plain rfl fun e _ _ s same => .failed (by simp) (fresh.unapplied.snoc same)
  · exact .failed (by simp) fresh.unapplied
  · exact .failed (by simp) fresh.unapplied
  · rename_i memory
    refine keeps_plain rfl fun e he _ s same => ?_
    exact archiveMemory_keeps self now command memory (fresh.plain (he ▸ rfl) same)
      ((selected memory rfl).mono (List.prefix_append _ _))

end Keeps

/-- The path that a result reports as orphaned. -/
def Result.orphanedAt : Result → Option PurePath
  | expire _ => none
  | archive result => if result.orphaned then result.archivePath else none

/-- What the result of a command tells about its calls. -/
def Reports (c : Command) (out : Except PyError Result) (calls : List CallEvent) : Prop :=
  Tells c (·.success) out calls ∧ ∀ result path, out = .ok result →
    result.orphanedAt = some path → result.success = false ∧
      ∃ content, Renamed calls content path

theorem code_keeps (c : Command) (s : State) :
    (handlers X).Keeps (world X) c (fun out h _ => Reports c out h) (code X c) [] s := by
  cases c with
  | expire self now command =>
    refine (expire_keeps self now command .nil).seq fun out h s tells => ?_
    rcases out with e | result
    · refine ⟨tells, fun _ _ here => ?_⟩
      cases here
    · refine ⟨tells, fun result' path here reported => ?_⟩
      cases here
      contradiction
  | archive self now command =>
    refine (archive_keeps self now command .nil).seq fun out h s answers => ?_
    rcases out with e | result
    · refine ⟨answers.1, fun _ _ here => ?_⟩
      cases here
    · refine ⟨answers.1, fun result' path here reported => ?_⟩
      cases here
      unfold Result.orphanedAt at reported
      dsimp only at reported
      split at reported
      · exact answers.2 result path rfl ‹_› reported
      · contradiction

/-- In every run of any number of commands, every task keeps the contract. -/
theorem handlers_hold (init : State → Prop)
    (ok : Pool Op Res (Except PyError Result) Command State → Label Op Res Command Empty State →
      Prop) :
    (handlers X).Holds (world X) init ok fun c out h _ => Reports c out h where
  refl s := .refl s.memories
  trans _ _ _ := .trans
  init _ _ := trivial
  move _ m := nomatch m
  call _ _ _ _ _ := trivial
  code c s _ := code_keeps c s
  stable _ _ _ _ _ _ reports := reports

section Reach

variable {init : State → Prop}
  {ok : LifecyclePool → Label Op Res Command Empty State → Prop} {p : LifecyclePool}
  {t : Task Op Res (Except PyError Result) Command State}

theorem guarantee_of_reach (reach : (world X).Reach init ok p) (task : t ∈ p.tasks) :
    Each (Guarantee X t.cmd) t.calls :=
  (((handlers_hold init ok).reach reach).2 t task).obeyed

theorem calls_of_reach (reach : (world X).Reach init ok p) (task : t ∈ p.tasks) :
    ∀ e ∈ t.calls, (world X).Calls e := fun e he =>
  ((((handlers_hold init ok).reach reach).2 t task).made e he).1

theorem reports_of_reach (reach : (world X).Reach init ok p) (task : t ∈ p.tasks)
    {out : Except PyError Result} (returned : t.result? = some out) :
    Reports t.cmd out t.calls := by
  have keeps := (((handlers_hold (X := X) init ok).reach reach).2 t task).keeps
  rw [Task.result?_eq_some.mp returned] at keeps
  exact keeps

end Reach

end Lifecycle

end OmniMemory
