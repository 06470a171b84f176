import OmniMemory.Lifecycle.Handlers

/-! Archive files. An archived row should find its own content at its path. A rename replaces
whatever is at its target, so two memories that share a path break this, and `os.write` may store
fewer bytes than it is given. Without these every archived row of every run keeps its archive. -/

namespace OmniMemory

open Interleave

namespace Lifecycle

/-- The file at the path is an archive of the memory `id` with this content. -/
def State.HasArchive (X : External) (s : State) (path : PurePath) (id : UUID)
    (content : String) : Prop :=
  ∃ bytes record, s.files (X.entry path) = some bytes ∧ X.decode bytes = some record ∧
    record.memoryId = id ∧ record.content = content

/-- Every archived row has its archive at its path. -/
def State.Intact (X : External) (s : State) : Prop :=
  ∀ id row path, s.memories id = some row → row.lifecycleState = .archived →
    row.archivePath = some path → s.HasArchive X path id row.content

/-- If the call is a write that succeeds, it stored all the bytes. -/
def FullWrite (e : CallEvent) : Prop :=
  ∀ temp bytes before stored after, e = ⟨.write temp bytes, before, .ok stored, after⟩ →
    stored = bytes.length

/-- The command has sent no UPDATE yet. -/
def Unsent (calls : List CallEvent) : Prop := ∀ e ∈ calls, e.op.writesTable = false

/-- If the call of a command for `id` renames onto a directory entry, then the archived rows and
the other commands that use the entry are of the same memory. -/
def OwnEntry (X : External) (p : LifecyclePool) (i : Nat) (id : UUID) (e : CallEvent) : Prop :=
  ∀ content path, Renamed [e] content path →
    (∀ id' row path', p.shared.memories id' = some row → row.lifecycleState = .archived →
      row.archivePath = some path' → X.entry path' = X.entry path → id' = id) ∧
    ∀ j u content' path', j ≠ i → p.tasks[j]? = some u → Renamed u.calls content' path' →
      Unsent u.calls → X.entry path' = X.entry path → u.cmd.memoryId = id

/-- The steps that keep archives intact. -/
def KeepsArchives (X : External) (p : LifecyclePool) : Label Op Res Command Empty State → Prop
  | .call i c e => FullWrite e ∧ OwnEntry X p i c.memoryId e
  | _ => True

variable {X : External}

theorem hasArchive_after {e : CallEvent} {path : PurePath} {id : UUID} {content : String}
    (call : (world X).Calls e) (archive : e.before.HasArchive X path id content)
    (replaced : ∀ bytes path', Renamed [e] bytes path' → X.entry path' = X.entry path →
      e.after.HasArchive X path id content) : e.after.HasArchive X path id content := by
  have kept : e.after.files = e.before.files → e.after.HasArchive X path id content := by
    intro same
    unfold State.HasArchive
    rw [same]
    exact archive
  obtain ⟨op, before, answer, after⟩ := e
  cases rename : op.isRename with
  | false => exact kept (files_eq call rename)
  | true =>
    cases op <;> try contradiction
    case rename temp bytes path' =>
      rcases rename_cases call with ⟨rfl, rfl⟩ | ⟨-, rfl⟩
      · by_cases same : X.entry path' = X.entry path
        · exact replaced bytes path' ⟨temp, _, _, List.mem_singleton_self _⟩ same
        · obtain ⟨old, record, here, decoded⟩ := archive
          refine ⟨old, record, ?_, decoded⟩
          dsimp only
          rwa [Function.update_of_ne (Ne.symm same)]
      · exact kept rfl

theorem State.HasArchive.of_entry {s : State} {path path' : PurePath} {id : UUID}
    {content : String} (archive : s.HasArchive X path id content)
    (same : X.entry path = X.entry path') : s.HasArchive X path' id content := by
  unfold State.HasArchive
  rw [← same]
  exact archive

/-- What the steps keep: archived rows have their archives, and so have the commands that have
renamed and not yet sent their UPDATE. -/
structure ArchivesKept (X : External) (p : LifecyclePool) : Prop where
  intact : p.shared.Intact X
  pending : ∀ t ∈ p.tasks, ∀ content path, Renamed t.calls content path → Unsent t.calls →
    ∃ row, p.shared.memories t.cmd.memoryId = some row ∧
      p.shared.HasArchive X path t.cmd.memoryId row.content
  full : ∀ t ∈ p.tasks, ∀ e ∈ t.calls, FullWrite e

section Step

variable {init : State → Prop}
  {ok : LifecyclePool → Label Op Res Command Empty State → Prop} {p : LifecyclePool}
  {t : Task Op Res (Except PyError Result) Command State} {i : Nat}

theorem hasArchive_of_rename (reach : (world X).Reach init ok p) (ht : t ∈ p.tasks)
    (full : ∀ e ∈ t.calls, FullWrite e) {e : CallEvent} (call : (world X).Calls e)
    (before : e.before = p.shared) (guarantee : Guarantee X t.cmd t.calls e) {content : Bytes}
    {path : PurePath} (renamed : Renamed [e] content path) :
    ∃ row, p.shared.memories t.cmd.memoryId = some row ∧
      e.after.HasArchive X path t.cmd.memoryId row.content := by
  obtain ⟨temp, before', after, mem⟩ := renamed
  obtain rfl := List.mem_singleton.mp mem
  obtain ⟨-, bytes, stored, ⟨record, decoded, id, f, hf, row, read, same⟩, write, rfl⟩ := guarantee
  obtain ⟨temp', before'', after'', hw⟩ := write
  have all : stored = bytes.length := full _ hw _ _ _ _ _ rfl
  obtain ⟨row', now, content, -⟩ :=
    (((handlers_hold init ok).reach reach).2 t ht).past f hf _ _ read
  refine ⟨row', now, bytes, record, ?_, decoded, id, by rw [content, same]⟩
  rcases rename_cases call with ⟨-, rfl⟩ | ⟨⟨_, failed⟩, -⟩
  · simp [all]
  · cases failed

theorem archivesKept_call (reach : (world X).Reach init ok p) (kept : ArchivesKept X p)
    (task : p.tasks[i]? = some t) {e : CallEvent} (call : (world X).Calls e)
    (before : e.before = p.shared) (guarantee : Guarantee X t.cmd t.calls e) (full : FullWrite e)
    (own : OwnEntry X p i t.cmd.memoryId e) {rest : LifecycleProg (Except PyError Result)} :
    ArchivesKept X ⟨e.after, p.tasks.set i (t.advance e rest)⟩ := by
  have ht := List.mem_of_getElem? task
  -- If the call replaces the file of an archive of its own memory, the new file is one as well.
  have again : ∀ id row path, p.shared.memories id = some row → id = t.cmd.memoryId →
      ∀ bytes path', Renamed [e] bytes path' → X.entry path' = X.entry path →
        e.after.HasArchive X path id row.content := by
    rintro id row path now rfl bytes path' renamed same
    obtain ⟨row', now', archive⟩ :=
      hasArchive_of_rename reach ht (kept.full t ht) call before guarantee renamed
    obtain rfl := Option.some.inj (now.symm.trans now')
    exact archive.of_entry same
  have held : ∀ {path id content}, p.shared.HasArchive X path id content →
      e.before.HasArchive X path id content := fun archive => before ▸ archive
  refine ⟨?_, ?_, ?_⟩
  · intro id row path now archived at_
    rcases archived_before call now archived with old | ⟨revision, time, target, op, there, -⟩
    · rw [before] at old
      refine hasArchive_after call (held (kept.intact id row path old archived at_)) ?_
      intro bytes path' renamed same
      have mine := (own bytes path' renamed).1 id row path old archived at_ same.symm
      exact again id row path old mine bytes path' renamed same
    · cases at_.symm.trans there
      rw [Guarantee, op] at guarantee
      obtain ⟨fresh, -, rfl, -, content, renamed⟩ := guarantee
      obtain ⟨old, here, archive⟩ :=
        kept.pending t ht content path renamed fun f hf => (fresh.2 f hf).1
      obtain ⟨row', now', same, -⟩ := calls_ahead call _ _ (before ▸ here)
      obtain rfl := Option.some.inj (now.symm.trans now')
      rw [same]
      refine hasArchive_after call (held archive) ?_
      rintro bytes path' ⟨temp, b, a, mem⟩
      obtain rfl := List.mem_singleton.mp mem
      contradiction
  · intro u hu content path renamed unsent
    rcases World.other_of_mem_set hu with rfl | ⟨j, other, hu⟩
    · have same : e.after.memories = p.shared.memories :=
        before ▸ memories_eq call (unsent e (List.mem_append_right _ (List.mem_singleton_self _)))
      rcases renamed.of_snoc with renamed | renamed
      · obtain ⟨row, here, archive⟩ := kept.pending t ht content path renamed
          fun f hf => unsent f (List.mem_append_left _ hf)
        exact ⟨row, same ▸ here,
          hasArchive_after call (held archive) (again _ row path here rfl)⟩
      · obtain ⟨row, here, archive⟩ :=
          hasArchive_of_rename reach ht (kept.full t ht) call before guarantee renamed
        exact ⟨row, same ▸ here, archive⟩
    · obtain ⟨row, here, archive⟩ :=
        kept.pending u (List.mem_of_getElem? hu) content path renamed unsent
      obtain ⟨row', now, same, -⟩ := calls_ahead call _ _ (before ▸ here)
      refine ⟨row', now, ?_⟩
      rw [same]
      refine hasArchive_after call (held archive) fun bytes path' renamed' entry => ?_
      have mine := (own bytes path' renamed').2 j u content path other hu renamed unsent entry.symm
      exact again _ row path here mine bytes path' renamed' entry
  · intro u hu f hf
    rcases World.mem_tasks_set hu with rfl | hu
    · rcases List.mem_append.mp hf with hf | hf
      · exact kept.full t ht f hf
      · obtain rfl := List.mem_singleton.mp hf
        exact full
    · exact kept.full u hu f hf

end Step

theorem archivesKept_of_reach {p : LifecyclePool}
    (reach : (world X).Reach (·.Intact X) (KeepsArchives X) p) : ArchivesKept X p := by
  refine reach.invariant ?_ ?_
  · intro s intact
    exact ⟨intact, by simp, by simp⟩
  rintro p l p' reach kept keeps step
  have reach' := World.Reach.step reach keeps step
  cases step with
  | start c =>
    refine ⟨kept.intact, fun t ht => ?_, fun t ht => ?_⟩
    · rcases List.mem_append.mp ht with ht | ht
      · exact kept.pending t ht
      · obtain rfl := List.mem_singleton.mp ht
        simp [Renamed]
    · rcases List.mem_append.mp ht with ht | ht
      · exact kept.full t ht
      · obtain rfl := List.mem_singleton.mp ht
        simp
  | @call i t op rest answer after task here call =>
    obtain ⟨full, own⟩ := keeps
    have guarantee := guarantee_of_reach reach' (World.self_mem_set task) t.calls _ [] rfl
    exact archivesKept_call reach kept task call rfl guarantee full own
  | @move m after moved => exact m.elim

theorem intact_of_reach {p : LifecyclePool}
    (reach : (world X).Reach (·.Intact X) (KeepsArchives X) p) : p.shared.Intact X :=
  (archivesKept_of_reach reach).intact

/-- A check of `KeepsArchives` for pools whose rows are those of `ids`, without links. -/
def checkArchives (ids : List UUID) (p : LifecyclePool) : Label Op Res Command Empty State → Bool
  | .call _ _ ⟨.write _ bytes, _, .ok stored, _⟩ => stored == bytes.length
  | .call i c ⟨.rename _ _ path, _, _, _⟩ =>
    (ids.all fun id => (p.shared.memories id).all fun row =>
      !decide (row.lifecycleState = .archived ∧ row.archivePath = some path) ||
        id == c.memoryId) &&
    (List.range p.tasks.length).all fun j => j == i || (p.tasks[j]?).all fun u =>
      !renamesTo path u.calls || u.cmd.memoryId == c.memoryId
  | _ => true

theorem keepsArchives_of_check {known : List ModelArchiveRecord} {ids : List UUID}
    {start : EnumLifecycleState} {p : LifecyclePool} {l : Label Op Res Command Empty State}
    (reach : (world (.plain known)).Reach (· = plainState ids start)
      (KeepsArchives (.plain known)) p)
    (check : checkArchives ids p l = true) : KeepsArchives (.plain known) p l := by
  rcases l with c | ⟨i, c, e⟩ | m
  · trivial
  · refine ⟨?_, ?_⟩
    · rintro temp bytes before stored after rfl
      simpa [checkArchives] using check
    · rintro content path ⟨temp, before, after, mem⟩
      obtain rfl := List.mem_singleton.mp mem
      simp only [checkArchives, Bool.and_eq_true] at check
      obtain ⟨rows, tasks⟩ := check
      refine ⟨fun id row path' here archived at_ same => ?_,
        fun j u content' path' other hu renamed _ same => ?_⟩
      · by_cases known : id ∈ ids
        · have own := List.all_eq_true.mp rows id known
          rw [here] at own
          obtain rfl : path' = path := same
          simpa [archived, at_] using own
        · rw [absent_of_reach reach known] at here
          contradiction
      · have hj : j ∈ List.range p.tasks.length :=
          List.mem_range.mpr (List.getElem?_eq_some_iff.mp hu).1
        have own := List.all_eq_true.mp tasks j hj
        rw [hu] at own
        obtain rfl : path' = path := same
        simpa [other, renamed.renamesTo] using own
  · trivial

/-- Two memories are archived one after the other, the second one at `path` if it is given. -/
def archiveTwo (path path' : Option PurePath) : List (Act Command Choice Empty) :=
  [.start (.archive plainArchive ⟨2025, 1, 3, 0⟩ ⟨1, 0, path⟩), .call 0 (.answer true),
    .call 0 .run, .call 0 .run, .call 0 .run, .call 0 .run, .call 0 .run, .call 0 .run,
    .call 0 .run, .call 0 .run, .call 0 .run, .call 0 .run, .call 0 .run, .call 0 .run,
    .call 0 .run, .call 0 .run,
    .start (.archive plainArchive ⟨2025, 1, 3, 0⟩ ⟨2, 0, path'⟩), .call 1 (.answer true),
    .call 1 .run, .call 1 .run, .call 1 .run, .call 1 .run, .call 1 .run, .call 1 .run,
    .call 1 .run, .call 1 .run, .call 1 .run, .call 1 .run, .call 1 .run, .call 1 .run,
    .call 1 .run, .call 1 .run]

/-- The records that `archiveTwo` writes. -/
def plainRecords : List ModelArchiveRecord :=
  [1, 2].map fun id =>
    { memoryId := id
      content := "text"
      contentType := "text/plain"
      createdAt := ⟨2025, 1, 1, 0⟩
      expiredAt := ⟨2025, 1, 3, 0⟩
      archivedAt := ⟨2025, 1, 3, 0⟩
      lifecycleRevision := 0
      metadata := none }

/-- The states of the memories and the ids in their archive files. -/
def archivedIds (p : LifecyclePool) : List (Option (EnumLifecycleState × Option UUID)) :=
  [1, 2].map fun id => (p.shared.memories id).map fun row => (row.lifecycleState, do
    let path ← row.archivePath
    let file ← p.shared.files path
    let record ← (External.plain plainRecords).decode file
    return record.memoryId)

theorem plainState_intact (ids : List UUID) : (plainState ids .expired).Intact X := by
  intro id row path here archived
  dsimp only [plainState] at here
  split at here
  · cases here
    contradiction
  · contradiction

theorem intact_archiveTwo : ∃ p : LifecyclePool,
    archivedIds p = [some (.archived, some 1), some (.archived, some 2)] ∧
      p.shared.Intact (.plain plainRecords) := by
  obtain ⟨p, reach, both⟩ : ∃ p : LifecyclePool,
      (world (.plain plainRecords)).Reach (· = plainState [1, 2] .expired)
        (KeepsArchives (.plain plainRecords)) p ∧
      decide (archivedIds p = [some (.archived, some 1), some (.archived, some 2)]) = true :=
    World.Reach.of_run (checkArchives [1, 2]) _ (archiveTwo none none)
      (fun _ _ => keepsArchives_of_check) (by decide +kernel)
  refine ⟨p, of_decide_eq_true both, intact_of_reach (reach.mono ?_ fun _ _ met => met)⟩
  rintro s rfl
  exact plainState_intact _

/-- Two memories archived at one path: the row of the first finds the archive of the second. -/
theorem not_intact_free :
    ¬ ∀ (X : External) (p : LifecyclePool),
      (world X).Reach (·.Intact X) World.Free p → p.shared.Intact X := by
  intro all
  obtain ⟨p, reach, wrong⟩ : ∃ p : LifecyclePool,
      (world (.plain plainRecords)).Reach (· = plainState [1, 2] .expired) World.Free p ∧
        decide (archivedIds p = [some (.archived, some 2), some (.archived, some 2)]) = true :=
    World.Reach.of_run (fun _ _ => true) _ (archiveTwo (some ⟨["/", "archive", "shared"]⟩)
      (some ⟨["/", "archive", "shared"]⟩)) (fun _ _ _ _ => trivial) (by decide +kernel)
  have intact := all (.plain plainRecords) p
    (reach.mono (by rintro s rfl; exact plainState_intact _) fun _ _ met => met)
  obtain ⟨first, -⟩ := List.cons_eq_cons.mp (of_decide_eq_true wrong)
  obtain ⟨row, here, facts⟩ := Option.map_eq_some_iff.mp first
  obtain ⟨archived, file⟩ := Prod.mk.inj facts
  obtain ⟨path, at_, file⟩ := Option.bind_eq_some_iff.mp file
  obtain ⟨bytes, there, file⟩ := Option.bind_eq_some_iff.mp file
  obtain ⟨record, decoded, file⟩ := Option.bind_eq_some_iff.mp file
  obtain ⟨bytes', record', there', decoded', id, -⟩ := intact 1 row path here archived at_
  obtain rfl := Option.some.inj (there.symm.trans there')
  obtain rfl := Option.some.inj (decoded.symm.trans decoded')
  cases id.symm.trans (Option.some.inj file)

end Lifecycle

end OmniMemory
