import OmniMemory.Navigation.Containment

/-! Attempts for a session one after the other. The row that an attempt inserted makes every later
one skip, so an attempt that inserts the row and then fails to write the point leaves its session
without a point for good. -/

namespace OmniMemory

open Interleave Prog

namespace Navigation

/-- An attempt starts when every earlier one has returned. -/
def Sequential (p : NavigationPool) : NavigationLabel → Prop
  | .start _ => p.Idle
  | _ => True

/-- The table has one row of the session, and the collection has its point. -/
def Converged (s : Store) (sessionId : UUID) : Prop :=
  (∃ row, ∀ r, r ∈ s.sessions ∧ r.sessionId = UUID.str sessionId ↔ r = row) ∧
    ∃ point ∈ s.paths, point.id = UUID.str sessionId

/-- The attempt for a failed session, or with a failing call other than an upsert that Qdrant
executed. -/
def BreaksOff (t : NavigationTask) : Prop :=
  t.cmd.isSuccessful = false ∨
    ∃ e ∈ t.calls, Raised e ∧ ¬ StoresPoint (UUID.str t.cmd.sessionId) e

section Pools

variable {init : Store → Prop}
  {ok : NavigationPool → NavigationLabel → Prop} {p : NavigationPool}

/-- A task inserts only the row of its session. -/
theorem inserted_of_reach (reach : world.Reach init ok p) {t : NavigationTask} (task : t ∈ p.tasks)
    {e : NavigationEvent} (mem : e ∈ t.calls) {key : String} (stores : StoresRow key e) :
    key = UUID.str t.cmd.sessionId := by
  have kept := kept_of_reach reach task
  obtain ⟨pre, post, split⟩ := List.append_of_mem mem
  obtain ⟨here, -⟩ := kept.obeyed pre e post split
  obtain ⟨row, op, rfl⟩ := stores.insert (kept.made e mem).1
  rw [here row op]
  rfl

/-- Every row was inserted by a task of the pool. -/
theorem inserted_of_hasRow (reach : world.Reach (fun s => s.sessions = .empty) ok p) {key : String}
    (present : p.shared.hasRow key = true) : ∃ t ∈ p.tasks, ∃ e ∈ t.calls, StoresRow key e := by
  refine reach.invariant (P := fun p => p.shared.hasRow key = true → ∃ t ∈ p.tasks,
    ∃ e ∈ t.calls, StoresRow key e) ?_ ?_ present
  · rintro s start present
    rw [Store.hasRow, start] at present
    contradiction
  rintro p l p' - ih - step present
  cases step with
  | start c =>
    obtain ⟨t, task, e⟩ := ih present
    exact ⟨t, List.mem_append_left _ task, e⟩
  | @call i t op rest answer after task here call =>
    cases old : p.shared.hasRow key with
    | true =>
      obtain ⟨u, hu, e, he, stores⟩ := ih old
      obtain ⟨u', hu', grown⟩ := World.grown_of_mem task hu
      exact ⟨u', hu', e, grown.subset he, stores⟩
    | false =>
      exact ⟨_, World.self_mem_set task, _, List.mem_append_right _ (List.mem_singleton_self _),
        old, present⟩
  | @move m after moved =>
    cases m <;> cases moved <;> exact ih present

/-- At most one task inserts the row of a session. -/
theorem inserter_unique (reach : world.Reach init ok p) {i j : Nat} {t u : NavigationTask}
    (ht : p.tasks[i]? = some t) (hu : p.tasks[j]? = some u) {key : String}
    {e f : NavigationEvent} (he : e ∈ t.calls) (hf : f ∈ u.calls) (first : StoresRow key e)
    (second : StoresRow key f) : i = j := by
  by_contra ne
  rcases writes_holds.ordered reach i j t u ht hu ne e he f hf with order | order
  · exact absurd (order.rows key first.2) (by simp [second.1])
  · exact absurd (order.rows key second.2) (by simp [first.1])

/-- In a sequence, all attempts but the last have returned, and the calls of an attempt come after
those of the earlier ones. -/
structure InOrder (p : NavigationPool) : Prop where
  returned : ∀ (i : Nat) (t : NavigationTask), p.tasks[i]? = some t → i + 1 < p.tasks.length →
    t.result? ≠ none
  calls : ∀ (i j : Nat) (t u : NavigationTask), p.tasks[i]? = some t → p.tasks[j]? = some u →
    i < j → ∀ e ∈ t.calls, ∀ f ∈ u.calls, Grows e.after f.before

theorem inOrder_of_reach (reach : world.Reach init Sequential p) : InOrder p := by
  refine reach.invariant ?_ ?_
  · exact fun s _ => ⟨by simp, by simp⟩
  rintro p l p' reach order met step
  cases step with
  | start c =>
    have old : ∀ (i : Nat) (t : NavigationTask),
        (p.tasks ++ [(⟨c, world.code c, []⟩ : NavigationTask)])[i]? = some t →
        p.tasks[i]? = some t ∨ i = p.tasks.length ∧ t.calls = [] := by
      intro i t ht
      rw [List.getElem?_append] at ht
      split at ht
      · exact .inl ht
      · obtain ⟨bound, rfl⟩ := List.getElem?_eq_some_iff.mp ht
        simp only [List.length_singleton] at bound
        exact .inr ⟨by omega, by simp⟩
    refine ⟨fun i t ht bound => ?_, fun i j t u ht hu less e he f hf => ?_⟩
    · rcases old i t ht with ht | ⟨rfl, -⟩
      · exact met t (List.mem_of_getElem? ht)
      · simp at bound
    · rcases old i t ht with ht | ⟨-, none⟩
      · rcases old j u hu with hu | ⟨-, none⟩
        · exact order.calls i j t u ht hu less e he f hf
        · simp [none] at hf
      · simp [none] at he
  | @call k v op rest answer after task here call =>
    -- Only the last task has a call to make.
    have last : ¬ k + 1 < p.tasks.length := by
      intro bound
      exact order.returned k v task bound (by simp [Task.result?, here])
    have bound := (List.getElem?_eq_some_iff.mp task).1
    have other : ∀ (i : Nat) (t : NavigationTask), i ≠ k →
        (p.tasks.set k (v.advance ⟨op, p.shared, answer, after⟩ (rest answer)))[i]? = some t →
        p.tasks[i]? = some t := by
      intro i t ne ht
      rwa [List.getElem?_set_ne (Ne.symm ne)] at ht
    refine ⟨fun i t ht below => ?_, fun i j t u ht hu less e he f hf => ?_⟩
    · rw [List.length_set] at below
      exact order.returned i t (other i t (by omega) ht) below
    · have hj : j < p.tasks.length := by
        simpa using (List.getElem?_eq_some_iff.mp hu).1
      have earlier := other i t (by omega) ht
      by_cases same : j = k
      · subst same
        rw [List.getElem?_set_self bound] at hu
        cases hu
        rcases List.mem_append.mp hf with hf | hf
        · exact order.calls i j t v earlier task less e he f hf
        · obtain rfl := List.mem_singleton.mp hf
          exact (kept_of_reach reach (List.mem_of_getElem? earlier)).past e he
      · exact order.calls i j t u earlier (other j u same hu) less e he f hf
  | @move m after moved =>
    exact ⟨order.returned, order.calls⟩

theorem converged_of_hasRow {s : Store} {sessionId : UUID}
    (present : s.hasRow (UUID.str sessionId) = true) :
    Converged s sessionId ↔ s.hasPoint (UUID.str sessionId) = true := by
  obtain ⟨row, mem, same⟩ := Table.isSome_find?.mp present
  have unique : ∀ r, r ∈ s.sessions ∧ r.sessionId = UUID.str sessionId ↔ r = row := by
    refine fun r => ⟨fun ⟨mem', same'⟩ => Table.eq_of_key mem' mem (same'.trans same.symm), ?_⟩
    rintro rfl
    exact ⟨mem, same⟩
  rw [Store.hasPoint, Table.isSome_find?]
  exact ⟨And.right, fun point => ⟨⟨row, unique⟩, point⟩⟩

theorem not_breaksOff_iff {t : NavigationTask} (recorded : Recorded t.cmd t.calls)
    (inserted : Inserted t.cmd t.calls) : ¬ BreaksOff t ↔ Upserted t.cmd t.calls := by
  rw [recorded.upserted inserted, BreaksOff, not_or, Bool.not_eq_false]
  refine and_congr_right fun _ => ⟨fun none e mem failed => ?_, fun all => ?_⟩
  · by_contra unstored
    exact none ⟨e, mem, failed, unstored⟩
  · rintro ⟨e, mem, failed, unstored⟩
    exact unstored (all e mem failed)

/-- An attempt for a successful session without a failing call leaves one row and its point exactly
if no earlier attempt for the session id inserted the row and broke off. -/
theorem converged_iff
    (reach : world.Reach (fun s => s.sessions = .empty ∧ s.paths = .empty) Sequential p) {k : Nat}
    {t : NavigationTask} (task : p.tasks[k]? = some t) (returned : t.result?.isSome = true)
    (successful : t.cmd.isSuccessful = true) (clean : Clean t.calls) :
    Converged p.shared t.cmd.sessionId ↔ ∀ i < k, ∀ u, p.tasks[i]? = some u →
      u.cmd.sessionId = t.cmd.sessionId → Inserted u.cmd u.calls → ¬ BreaksOff u := by
  have order := inOrder_of_reach reach
  have rows : world.Reach (fun s => s.sessions = .empty) Sequential p :=
    reach.mono (fun _ start => start.1) fun _ _ met => met
  have points : world.Reach (fun s => s.paths = .empty) Sequential p :=
    reach.mono (fun _ start => start.2) fun _ _ met => met
  have ht := List.mem_of_getElem? task
  obtain ⟨e, he, seen⟩ := (recorded_of_reach reach ht returned).present clean
  have present := ((kept_of_reach reach ht).past e he).rows _ seen
  have recorded : ∀ (i : Nat) (u : NavigationTask), p.tasks[i]? = some u → i < k →
      Recorded u.cmd u.calls := by
    intro i u hu less
    have bound := (List.getElem?_eq_some_iff.mp task).1
    exact recorded_of_reach reach (List.mem_of_getElem? hu)
      (Option.isSome_iff_ne_none.mpr (order.returned i u hu (by omega)))
  rw [converged_of_hasRow present]
  constructor
  · intro point i less u hu same inserted
    obtain ⟨point, mem, id⟩ := Table.isSome_find?.mp point
    obtain ⟨v, hv, f, hf, upsert, stored⟩ := upsert_of_mem points mem
    obtain ⟨⟨goal, startState, rfl⟩, -, g, hg, first⟩ := upsert_of_reach reach hv hf upsert
    obtain ⟨j, hj⟩ := List.mem_iff_getElem?.mp hv
    have own : v.cmd.sessionId = u.cmd.sessionId := (UUID.str_inj id).trans same.symm
    obtain ⟨g', hg', second⟩ := inserted
    -- The attempt that wrote the point is the one that inserted the row.
    obtain rfl := inserter_unique reach hj hu hg hg' first (own ▸ second)
    obtain rfl : v = u := Option.some.inj (hj.symm.trans hu)
    exact (not_breaksOff_iff (recorded j v hj less) ⟨g, hg, first⟩).mpr
      ⟨f, hf, navigationPoint v.cmd goal startState, upsert, rfl, stored⟩
  · intro unbroken
    obtain ⟨v, hv, f, hf, stores⟩ := inserted_of_hasRow rows present
    obtain ⟨j, hj⟩ := List.mem_iff_getElem?.mp hv
    have own : v.cmd.sessionId = t.cmd.sessionId :=
      UUID.str_inj (inserted_of_reach reach hv hf stores).symm
    have inserted : Inserted v.cmd v.calls := ⟨f, hf, own ▸ stores⟩
    have upserted : Upserted v.cmd v.calls := by
      rcases Nat.lt_trichotomy j k with less | rfl | more
      · exact (not_breaksOff_iff (recorded j v hj less) inserted).mp
          (unbroken j less v hj own inserted)
      · obtain rfl : v = t := Option.some.inj (hj.symm.trans task)
        refine ((recorded_of_reach reach ht returned).upserted inserted).mpr ⟨successful, ?_⟩
        exact fun e mem failed => absurd failed (clean e mem)
      · -- A later attempt finds the row.
        have there := (order.calls k j t v task hj more e he f hf).rows _ seen
        exact absurd there (by simp [stores.1])
    obtain ⟨g, hg, point⟩ := upserted
    rw [← own]
    exact ((kept_of_reach reach hv).past g hg).points _ point.hasPoint

end Pools

def checkSequential (p : NavigationPool) : NavigationLabel → Bool
  | .start _ => p.tasks.all fun t => t.result?.isSome
  | _ => true

theorem sequential_of_check {p : NavigationPool}
    {l : NavigationLabel} (check : checkSequential p l = true) :
    Sequential p l := by
  cases l with
  | start c =>
    exact fun t task => Option.isSome_iff_ne_none.mp (List.all_eq_true.mp check t task)
  | call i c e => trivial
  | move m => trivial

/-- The task is an attempt for a successful session that returned with no call failing. -/
def checkClean (t : NavigationTask) : Bool :=
  t.result?.isSome && t.cmd.isSuccessful && t.calls.all fun e => !raised e.op e.answer

theorem clean_of_check {t : NavigationTask} (check : checkClean t = true) :
    t.result?.isSome = true ∧ t.cmd.isSuccessful = true ∧ Clean t.calls := by
  simp only [checkClean, Bool.and_eq_true, List.all_eq_true, Bool.not_eq_true'] at check
  obtain ⟨⟨returned, successful⟩, clean⟩ := check
  refine ⟨returned, successful, fun e mem failed => ?_⟩
  rw [Raised, clean e mem] at failed
  contradiction

/-- An attempt that gets no connection, and then one that succeeds. -/
theorem converged_retry : ∃ (p : NavigationPool) (t : NavigationTask), p.tasks[1]? = some t ∧
    Converged p.shared t.cmd.sessionId := by
  let session := plainSession 1 (.success "end")
  obtain ⟨p, reach, last⟩ : ∃ p : NavigationPool, world.Reach (· = Store.empty) Sequential p ∧
      (p.tasks[1]?.any checkClean && p.tasks[0]?.all fun u => u.calls.all fun e =>
        !e.after.hasRow (UUID.str u.cmd.sessionId)) = true :=
    World.Reach.of_run checkSequential .empty
      [.start session, .call 0 .run, .call 0 .run, .call 0 (.fail (.osError "refused")),
        .start session, .call 1 .run, .call 1 .run, .call 1 .run, .call 1 .run, .call 1 .run,
        .call 1 .run, .call 1 (.vector []), .call 1 (.vector []), .call 1 .run]
      (fun _ _ _ => sequential_of_check) (by decide +kernel)
  rw [Bool.and_eq_true, Option.any_eq_true] at last
  obtain ⟨⟨t, task, check⟩, first⟩ := last
  obtain ⟨returned, successful, clean⟩ := clean_of_check check
  refine ⟨p, t, task, (converged_iff (reach.mono ?_ fun _ _ met => met) task returned successful
    clean).mpr fun i less u hu same inserted => ?_⟩
  · rintro s rfl
    exact ⟨rfl, rfl⟩
  · obtain rfl : i = 0 := by omega
    obtain ⟨e, mem, -, stored⟩ := inserted
    rw [hu] at first
    have absent := List.all_eq_true.mp first e mem
    simp [stored] at absent

/-- An attempt whose embedding fails leaves the row, and the next one skips. -/
theorem not_converged_skip :
    ¬ ∀ p : NavigationPool,
      world.Reach (fun s => s.sessions = .empty ∧ s.paths = .empty) Sequential p →
      ∀ t ∈ p.tasks, t.result?.isSome = true → t.cmd.isSuccessful = true → Clean t.calls →
        Converged p.shared t.cmd.sessionId := by
  intro all
  let session := plainSession 1 (.success "end")
  obtain ⟨p, reach, last⟩ : ∃ p : NavigationPool, world.Reach (· = Store.empty) Sequential p ∧
      (p.tasks.any fun t => checkClean t && !p.shared.hasPoint (UUID.str t.cmd.sessionId)) = true :=
    World.Reach.of_run checkSequential .empty
      [.start session, .call 0 .run, .call 0 .run, .call 0 .run, .call 0 .run, .call 0 .run,
        .call 0 .run, .call 0 .run, .call 0 (.fail (.timeoutError "read timeout")),
        .start session, .call 1 .run, .call 1 .run, .call 1 .run, .call 1 .run]
      (fun _ _ _ => sequential_of_check) (by decide +kernel)
  obtain ⟨t, task, last⟩ := List.any_eq_true.mp last
  rw [Bool.and_eq_true, Bool.not_eq_true'] at last
  obtain ⟨check, absent⟩ := last
  obtain ⟨returned, successful, clean⟩ := clean_of_check check
  obtain ⟨-, point⟩ := all p (reach.mono (by rintro s rfl; exact ⟨rfl, rfl⟩) fun _ _ met => met) t
    task returned successful clean
  rw [Store.hasPoint, Table.isSome_find?.mpr point] at absent
  contradiction

end Navigation

end OmniMemory
