import OmniMemory.Lifecycle.Handlers

/-! Orphan reports of the archive handler. A reported path may be deleted by whoever reads the
report, so no archived row should refer to it. Two commands that share an archive path break this,
and so does an UPDATE that commits without the handler learning of it. Without these no archived
row ever refers to a reported path. -/

namespace OmniMemory

open Interleave

/-- A row in state ARCHIVED refers to the path. -/
def Memories.ArchivedAt (t : Memories) (path : PurePath) : Prop :=
  ∃ id row, t id = some row ∧ row.lifecycleState = .archived ∧ row.archivePath = some path

namespace Lifecycle

/-- A command returned `orphaned` for the path, or called the tracker with it. -/
def Reported (p : LifecyclePool) (path : PurePath) : Prop :=
  (∃ t ∈ p.tasks, ∃ result, t.result? = some (.ok result) ∧ result.orphanedAt = some path) ∨
    ∃ o ∈ p.shared.tracked, o.path = path

/-- No archived row refers to a reported path. -/
def OrphanSafe (p : LifecyclePool) : Prop :=
  ∀ path, Reported p path → ¬ p.shared.memories.ArchivedAt path

/-- The exception, if any, hides no UPDATE that took effect. -/
def Acknowledged (calls : List CallEvent) (e : CallEvent) : Prop :=
  Raised e → (e.op.writesTable = true → e.after.memories = e.before.memories) ∧
    (e.op = .release → Quiet calls)

/-- The call of the task at position `i` shares its path with no other use: an UPDATE archives at
a path only if every other command that renamed onto it has changed its row, and a rename is onto a
path that no archived row refers to. -/
def Unshared (p : LifecyclePool) (i : Nat) (e : CallEvent) : Prop :=
  (∀ id revision time path, e.op = .updateArchived id revision time path →
    e.after.memories ≠ e.before.memories →
    ∀ j u content, j ≠ i → p.tasks[j]? = some u → Renamed u.calls content path → ¬ Quiet u.calls) ∧
  ∀ content path, Renamed [e] content path → ¬ p.shared.memories.ArchivedAt path

def Separate (p : LifecyclePool) : Label Op Res Command Empty State → Prop
  | .call i _ e => (∀ t, p.tasks[i]? = some t → Acknowledged t.calls e) ∧ Unshared p i e
  | _ => True

variable {X : External}

/-- Only the UPDATE of the archive handler makes a row refer to a path as archived. -/
theorem archivedAt_before {e : CallEvent} {path : PurePath} (call : (world X).Calls e)
    (now : e.after.memories.ArchivedAt path) : e.before.memories.ArchivedAt path ∨
      ∃ id revision time, e.op = .updateArchived id revision time path ∧
        e.after.memories ≠ e.before.memories := by
  obtain ⟨id, row, here, archived, at_⟩ := now
  rcases archived_before call here archived with old | ⟨revision, time, target, op, there, changed⟩
  · exact .inl ⟨id, row, old, archived, at_⟩
  · cases at_.symm.trans there
    exact .inr ⟨id, revision, time, op, changed⟩

theorem Unapplied.quiet {calls : List CallEvent} (unapplied : Unapplied calls)
    (acknowledged : Each Acknowledged calls) : Quiet calls := by
  rcases unapplied with quiet | ⟨pre, e, post, rfl, hpre, hpost, update, raised⟩
  · exact quiet
  have same : e.after.memories = e.before.memories := by
    rcases raised with raised | ⟨f, hf, release, raised⟩
    · exact (acknowledged pre e post rfl raised).1 update
    · obtain ⟨mid, last, rfl⟩ := List.append_of_mem hf
      have quiet := (acknowledged (pre ++ e :: mid) f last (by simp) raised).2 release
      exact quiet e (by simp)
  intro f hf
  rcases List.mem_append.mp hf with hf | hf
  · exact hpre f hf
  · rcases List.mem_cons.mp hf with rfl | hf
    · exact same
    · exact hpost f hf

structure PathsApart (p : LifecyclePool) : Prop where
  paths : ∀ t ∈ p.tasks, ∀ content path, Renamed t.calls content path → Quiet t.calls →
    ¬ p.shared.memories.ArchivedAt path
  acknowledged : ∀ t ∈ p.tasks, Each Acknowledged t.calls
  tracked : ∀ o ∈ p.shared.tracked, ∃ t ∈ p.tasks, ∃ e ∈ t.calls,
    e.op = .trackOrphan o.memoryId o.path o.reason

theorem pathsApart_of_reach {p : LifecyclePool}
    (reach : (world X).Reach (fun s => s.tracked = []) Separate p) : PathsApart p := by
  refine reach.invariant ?_ ?_
  · intro s untracked
    exact ⟨by simp, by simp, by simp [untracked]⟩
  rintro p l p' - apart separate step
  cases step with
  | start c =>
    refine ⟨fun t ht => ?_, fun t ht => ?_, fun o ho => ?_⟩
    · rcases List.mem_append.mp ht with ht | ht
      · exact apart.paths t ht
      · obtain rfl := List.mem_singleton.mp ht
        simp [Renamed]
    · rcases List.mem_append.mp ht with ht | ht
      · exact apart.acknowledged t ht
      · obtain rfl := List.mem_singleton.mp ht
        exact .nil
    · obtain ⟨t, ht, e⟩ := apart.tracked o ho
      exact ⟨t, List.mem_append_left _ ht, e⟩
  | @call i t op rest answer after task here call =>
    obtain ⟨acknowledged, archives, renames⟩ := separate
    have ht := List.mem_of_getElem? task
    refine ⟨fun u hu content path renamed quiet now => ?_, fun u hu => ?_, fun o ho => ?_⟩
    · rcases World.other_of_mem_set hu with rfl | ⟨j, other, hu⟩
      · -- The caller itself: its calls, the new one included, left the table as it was.
        have same : after.memories = p.shared.memories :=
          quiet _ (List.mem_append_right _ (List.mem_singleton_self _))
        rw [same] at now
        rcases renamed.of_snoc with renamed | renamed
        · exact apart.paths t ht content path renamed
            (fun e he => quiet e (List.mem_append_left _ he)) now
        · exact renames content path renamed now
      · rcases archivedAt_before call now with old | ⟨id, revision, time, update, changed⟩
        · exact apart.paths u (List.mem_of_getElem? hu) content path renamed quiet old
        · exact archives id revision time path update changed j u content other hu renamed quiet
    · rcases World.mem_tasks_set hu with rfl | hu
      · exact (apart.acknowledged t ht).snoc (acknowledged t task)
      · exact apart.acknowledged u hu
    · by_cases old : o ∈ p.shared.tracked
      · obtain ⟨u, hu, e, he, reported⟩ := apart.tracked o old
        obtain ⟨u', hu', grown⟩ := World.grown_of_mem task hu
        exact ⟨u', hu', e, grown.subset he, reported⟩
      refine ⟨_, World.self_mem_set task, _, List.mem_append_right _ (List.mem_singleton_self _), ?_⟩
      cases tracks : op.isTrack with
      | false => exact absurd (tracked_eq call tracks ▸ ho) old
      | true =>
        cases op <;> try contradiction
        case trackOrphan id path reason =>
          rcases trackOrphan_cases call with rfl | rfl
          · rcases List.mem_append.mp ho with ho | ho
            · exact absurd ho old
            · obtain rfl := List.mem_singleton.mp ho
              rfl
          · exact absurd ho old
  | @move m after moved => exact m.elim

/-- A command that reported an orphan renamed onto its path and left the table as it was. -/
theorem quiet_of_track {p : LifecyclePool} {init : State → Prop}
    {ok : LifecyclePool → Label Op Res Command Empty State → Prop}
    (reach : (world X).Reach init ok p) {t : Task Op Res (Except PyError Result) Command State}
    (ht : t ∈ p.tasks) (acknowledged : Each Acknowledged t.calls) {e : CallEvent}
    (he : e ∈ t.calls) {id : UUID} {path : PurePath} {reason : String}
    (track : e.op = .trackOrphan id path reason) :
    Quiet t.calls ∧ ∃ content, Renamed t.calls content path := by
  have guarantee := guarantee_of_reach reach ht
  have calls := calls_of_reach reach ht
  obtain ⟨pre, post, split⟩ := List.append_of_mem he
  have here := guarantee pre e post split
  rw [Guarantee, track] at here
  obtain ⟨unapplied, content, renamed⟩ := here
  have quiet : Quiet pre := by
    refine unapplied.quiet fun a f b hab => acknowledged a f (b ++ e :: post) ?_
    rw [split, hab, List.append_assoc, List.cons_append]
  refine ⟨fun f hf => ?_, content, renamed.mono (split ▸ List.prefix_append _ _)⟩
  -- After the report the command sends no UPDATE.
  have noUpdate : f ∈ pre ∨ f.op.writesTable = false := by
    rw [split] at hf
    rcases List.mem_append.mp hf with hf | hf
    · exact .inl hf
    right
    rcases List.mem_cons.mp hf with rfl | hf
    · rw [track]
      rfl
    obtain ⟨mid, last, rfl⟩ := List.append_of_mem hf
    have later := guarantee (pre ++ e :: mid) f last (by simp [split])
    have stale : ¬ Fresh (pre ++ e :: mid) := by
      intro fresh
      have := (fresh.2 e (by simp)).2
      rw [track] at this
      contradiction
    revert later
    unfold Guarantee
    cases f.op <;> first | (intro _; rfl) | exact fun later => absurd later.1 stale
  rcases noUpdate with hf | noUpdate
  · exact quiet f hf
  · exact memories_eq (calls f hf) noUpdate

theorem orphanSafe_of_reach {p : LifecyclePool}
    (reach : (world X).Reach (fun s => s.tracked = []) Separate p) : OrphanSafe p := by
  have apart := pathsApart_of_reach reach
  rintro path (⟨t, ht, result, returned, reported⟩ | ⟨o, ho, rfl⟩)
  · obtain ⟨tells, renamed⟩ := reports_of_reach reach ht returned
    obtain ⟨failed, content, renamed⟩ := renamed result path rfl reported
    rw [Tells, told, failed] at tells
    exact apart.paths t ht content path renamed (tells.quiet (apart.acknowledged t ht))
  · obtain ⟨t, ht, e, he, track⟩ := apart.tracked o ho
    obtain ⟨quiet, content, renamed⟩ := quiet_of_track reach ht (apart.acknowledged t ht) he track
    exact apart.paths t ht content o.path renamed quiet

/-- A check of `Separate` for pools whose rows are those of `ids`. -/
def checkSeparate (ids : List UUID) (p : LifecyclePool) : Label Op Res Command Empty State → Bool
  | .call i _ e => !raised e.op e.answer &&
      match e.op with
      | .updateArchived _ _ _ path => (List.range p.tasks.length).all fun j =>
          j == i || (p.tasks[j]?).all fun u => !renamesTo path u.calls
      | .rename _ _ path => ids.all fun id => (p.shared.memories id).all fun row =>
          !decide (row.lifecycleState = .archived ∧ row.archivePath = some path)
      | _ => true
  | _ => true

theorem separate_of_check {ids : List UUID} {start : EnumLifecycleState} {p : LifecyclePool}
    {l : Label Op Res Command Empty State}
    (reach : (world X).Reach (· = plainState ids start) Separate p)
    (check : checkSeparate ids p l = true) : Separate p l := by
  rcases l with c | ⟨i, c, e⟩ | m
  · trivial
  · simp only [checkSeparate, Bool.and_eq_true, Bool.not_eq_true'] at check
    obtain ⟨calm, apart⟩ := check
    refine ⟨fun _ _ raised => ?_, fun id revision time path update _ j u content other hu => ?_, ?_⟩
    · rw [Raised, calm] at raised
      contradiction
    · rw [update] at apart
      have hj : j ∈ List.range p.tasks.length :=
        List.mem_range.mpr (List.getElem?_eq_some_iff.mp hu).1
      have alone := List.all_eq_true.mp apart j hj
      rw [hu] at alone
      intro renamed
      simp [other, renamed.renamesTo] at alone
    · rintro content path ⟨temp, before, after, mem⟩ ⟨id, row, here, archived, at_⟩
      obtain rfl := List.mem_singleton.mp mem
      by_cases known : id ∈ ids
      · have free := List.all_eq_true.mp apart id known
        rw [here] at free
        simp [archived, at_] at free
      · rw [absent_of_reach reach known] at here
        contradiction
  · trivial

/-- Two commands archive one memory on one day, the second one at `path` if it is given. Both
rename, the first archives the memory, and the second finds a revision conflict. -/
def bothRename (path : Option PurePath) : List (Act Command Choice Empty) :=
  [.start (.archive plainArchive ⟨2025, 1, 3, 0⟩ ⟨1, 0, none⟩),
    .start (.archive plainArchive ⟨2025, 1, 3, 1⟩ ⟨1, 0, path⟩),
    .call 0 (.answer true), .call 0 .run, .call 0 .run, .call 0 .run, .call 0 .run,
    .call 0 .run, .call 0 .run, .call 0 .run, .call 0 .run, .call 0 .run, .call 0 .run,
    .call 1 (.answer true), .call 1 .run, .call 1 .run, .call 1 .run, .call 1 .run,
    .call 1 .run, .call 1 .run, .call 1 .run, .call 1 .run, .call 1 .run, .call 1 .run,
    .call 0 .run, .call 0 .run, .call 0 .run, .call 0 .run,
    .call 1 .run, .call 1 .run, .call 1 .run, .call 1 .run, .call 1 .run]

/-- With paths of their own, the second command reports its file and the row keeps the other. -/
theorem orphanSafe_bothRename : ∃ p : LifecyclePool,
    p.shared.tracked.map (·.path) = [⟨["/", "archive", "second"]⟩] ∧ OrphanSafe p := by
  obtain ⟨p, reach, tracked⟩ : ∃ p : LifecyclePool,
      (world (.plain [])).Reach (· = plainState [1] .expired) Separate p ∧
        decide (p.shared.tracked.map (·.path) = [⟨["/", "archive", "second"]⟩]) = true :=
    World.Reach.of_run (checkSeparate [1]) _ (bothRename (some ⟨["/", "archive", "second"]⟩))
      (fun _ _ => separate_of_check) (by decide +kernel)
  refine ⟨p, of_decide_eq_true tracked, orphanSafe_of_reach (reach.mono ?_ fun _ _ met => met)⟩
  rintro s rfl
  rfl

/-- A task reports as orphaned the path that the row of the memory refers to as archived. -/
def reportsArchived (p : LifecyclePool) : Bool :=
  p.tasks.any fun t => t.result?.any fun
    | .ok result => result.orphanedAt.any fun path => (p.shared.memories t.cmd.memoryId).any
        fun row => decide (row.lifecycleState = .archived ∧ row.archivePath = some path)
    | .error _ => false

/-- A reported path may hold the only copy of an archived memory. -/
theorem not_orphanSafe_free :
    ¬ ∀ (X : External) (p : LifecyclePool),
      (world X).Reach (fun s => s.tracked = []) World.Free p → OrphanSafe p := by
  intro all
  obtain ⟨p, reach, wrong⟩ : ∃ p : LifecyclePool,
      (world (.plain [])).Reach (· = plainState [1] .expired) World.Free p ∧
        reportsArchived p = true :=
    World.Reach.of_run (fun _ _ => true) _ (bothRename none) (fun _ _ _ _ => trivial)
      (by decide +kernel)
  have reach : (world (.plain [])).Reach (fun s => s.tracked = []) World.Free p :=
    reach.mono (by rintro s rfl; rfl) fun _ _ met => met
  obtain ⟨t, ht, wrong⟩ := List.any_eq_true.mp wrong
  obtain ⟨out, returned, wrong⟩ := (Option.any_eq_true _ _).mp wrong
  rcases out with e | result
  · contradiction
  obtain ⟨path, reported, wrong⟩ := (Option.any_eq_true _ _).mp wrong
  obtain ⟨row, here, archived⟩ := (Option.any_eq_true _ _).mp wrong
  exact all (.plain []) p reach path (.inl ⟨t, ht, result, returned, reported⟩)
    ⟨_, row, here, of_decide_eq_true archived⟩

end Lifecycle

end OmniMemory
