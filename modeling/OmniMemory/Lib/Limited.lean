import Mathlib.Algebra.BigOperators.Group.List.Basic
import Mathlib.Algebra.GroupWithZero.Nat
import Mathlib.Data.List.Induction
import OmniMemory.Asyncio
import OmniMemory.Lib.Machine

/-! Jobs that each run one section inside `async with semaphore:`, gathered by `asyncio.gather`. A
section is what a job does with common data from one suspension to the next. However the jobs
interleave: no more of them are inside their sections than the semaphore has permits, a job that has
not ended keeps some job able to go on, and each job goes on only so often. -/

namespace OmniMemory.Asyncio.Semaphore

variable {s s' : Semaphore} {i n value : Nat} {ws : List (Nat × Bool)}

/-- A task that waits although there is a permit to give waits for a task before it. -/
def Fair (s : Semaphore) : Prop := s.value = 0 ∨ s.waiters = [] ∨ ∃ i, (i, true) ∈ s.waiters

theorem giveNext_none (none : giveNext ws = none) : ∀ w ∈ ws, w.2 = true := by
  induction ws with
  | nil => simp
  | cons w ws ih =>
    obtain ⟨i, has⟩ := w
    cases has with
    | true => simpa using ih (Option.map_eq_none_iff.mp none)
    | false => cases none

theorem fair_of_given (given : ∀ w ∈ s.waiters, w.2 = true) : s.Fair := by
  cases there : s.waiters with
  | nil => exact .inr (.inl there)
  | cons w ws =>
    have mem : w ∈ s.waiters := by simp [there]
    exact .inr (.inr ⟨w.1, given w mem ▸ mem⟩)

theorem wakeAll_fair (enough : s.value ≤ n) : (wakeAll n s).Fair := by
  induction n generalizing s with
  | zero => exact .inl (Nat.le_zero.mp enough)
  | succ n ih =>
    simp only [wakeAll]
    split
    · rename_i none
      simp only [wakeUpNext] at none
      split at none
      · exact .inl ‹_›
      · exact fair_of_given (giveNext_none (Option.map_eq_none_iff.mp none))
    · rename_i woken
      simp only [wakeUpNext] at woken
      split at woken
      · cases woken
      · obtain ⟨waiters, -, rfl⟩ := Option.map_eq_some_iff.mp woken
        refine ih ?_
        show s.value - 1 ≤ n
        omega

theorem leave_fair : (s.leave i value).Fair := wakeAll_fair (Nat.le_refl _)

theorem giveNext_mem {ws' : List (Nat × Bool)} (given : giveNext ws = some ws') :
    ∃ i, (i, true) ∈ ws' := by
  induction ws generalizing ws' with
  | nil => cases given
  | cons w ws ih =>
    obtain ⟨i, has⟩ := w
    cases has with
    | true =>
      obtain ⟨rest, -, rfl⟩ := Option.map_eq_some_iff.mp given
      exact ⟨i, List.mem_cons_self⟩
    | false =>
      cases given
      exact ⟨i, List.mem_cons_self⟩

theorem release_fair : s.release.Fair := by
  simp only [release, wakeUpNext, if_neg (Nat.succ_ne_zero s.value)]
  cases given : giveNext s.waiters with
  | none => exact fair_of_given (giveNext_none given)
  | some ws => exact .inr (.inr (giveNext_mem given))

theorem tryAcquire_fair (taken : s.tryAcquire = some s') : s'.Fair := by
  obtain ⟨-, eq⟩ := Option.ite_none_right_eq_some.mp taken
  cases eq
  exact .inr (.inl rfl)

theorem park_fair (fair : s.Fair) (full : s.tryAcquire = none) : (s.park i).Fair := by
  rcases fair with zero | empty | ⟨j, given⟩
  · exact .inl zero
  · have zero : s.value = 0 := by
      by_contra some
      simp [tryAcquire, some, empty] at full
    exact .inl zero
  · exact .inr (.inr ⟨j, List.mem_append_left _ given⟩)

theorem wake_fair (woken : s.wake i = some s') : s'.Fair := by
  obtain ⟨-, eq⟩ := Option.ite_none_right_eq_some.mp woken
  cases eq
  exact leave_fair

/-- A waiter leaves the permits as they are, also one that has been given one. -/
theorem abandon_permits (unique : s.ids.Nodup) :
    (s.abandon i).permits = s.permits ∧ (s.abandon i).ids = s.ids.filter (· != i) := by
  refine ⟨?_, leave_ids⟩
  rw [abandon, leave, wakeAll_permits.1]
  simp only [permits]
  split
  · have := countP_filter_of_mem unique ‹_›
    omega
  · rw [countP_filter_of_not_mem ‹_›]

end OmniMemory.Asyncio.Semaphore

namespace Interleave

open OmniMemory.Asyncio

/-- A task that can go on is a step of the system. -/
theorem Machine.exists_next {Shared Local Arg Choice : Type} {M : Machine Shared Local Arg Choice}
    {s : System Shared Local} {i : Nat} {t : Local} {ch : Choice} (task : s.tasks[i]? = some t)
    (goes : (M.resume i ch t s.shared).isSome) : ∃ s', M.next s (.resume i ch) = some s' := by
  obtain ⟨⟨t', shared⟩, ran⟩ := Option.isSome_iff_exists.mp goes
  exact ⟨s.put i t' shared, Machine.next_resume.mpr ⟨t, t', shared, task, ran, rfl⟩⟩

namespace Machine.Reach

variable {Shared Local Arg Choice : Type} {M : Machine Shared Local Arg Choice}
  {init : Shared → Prop} {ok : System Shared Local → Act Arg Choice → Prop}
  {s : System Shared Local}

/-- What holds of each task: `New` of one that has not started, `P` from its start on. Its own steps
keep it, and so do those of other tasks. -/
theorem each (New : Nat → Shared → Prop) (P : Nat → Local → Shared → Prop) (h : M.Reach init ok s)
    (base : ∀ i sh, init sh → New i sh)
    (start : ∀ s i a, New i s.shared → ok s (.start a) → P i (M.enter i a) s.shared)
    (own : ∀ s i ch t t' sh, P i t s.shared → ok s (.resume i ch) →
      M.resume i ch t s.shared = some (t', sh) → P i t' sh)
    (frame : ∀ s i j ch t t' sh, i ≠ j → ok s (.resume j ch) →
      M.resume j ch t s.shared = some (t', sh) →
        (New i s.shared → New i sh) ∧ ∀ u, P i u s.shared → P i u sh) :
    (∀ i, s.tasks.length ≤ i → New i s.shared) ∧
      ∀ i t, s.tasks[i]? = some t → P i t s.shared := by
  refine h.invariant
    (P := fun s => (∀ i, s.tasks.length ≤ i → New i s.shared) ∧
      ∀ i t, s.tasks[i]? = some t → P i t s.shared) ?_ ?_ ?_
  · intro sh first
    exact ⟨fun i _ => base i sh first, by simp⟩
  · rintro s a ⟨fresh, here⟩ met
    refine ⟨fun i beyond => fresh i ?_, fun i t task => ?_⟩
    · rw [System.add, List.length_append] at beyond
      omega
    · rcases System.getElem?_add task with ⟨rfl, rfl⟩ | old
      · exact start s _ a (fresh _ (Nat.le_refl _)) met
      · exact here i t old
  · rintro s j ch t t' sh ⟨fresh, here⟩ met task ran
    obtain ⟨bound, -⟩ := List.getElem?_eq_some_iff.mp task
    refine ⟨fun i beyond => ?_, fun i u task' => ?_⟩
    · rw [System.put, List.length_set] at beyond
      exact (frame s i j ch t t' sh (by omega) met ran).1 (fresh i beyond)
    · rw [System.getElem?_put task] at task'
      split at task'
      · obtain rfl := Option.some.inj task'
        obtain rfl := ‹j = i›
        exact own s j ch t t' sh (here j t task) met ran
      · exact (frame s i j ch t t' sh (by omega) met ran).2 u (here i u task')

end Machine.Reach

variable {Data Arg Local Value Error Choice Change : Type}

/-- What jobs do inside the section, from the acquisition of the permit to the first suspension and
from one suspension to the next; what a job raises that is cancelled before; and what other tasks do
to the data meanwhile. -/
structure Section (Data Arg Local Value Error Choice Change : Type) where
  enter : Nat → Arg → Data → (Local ⊕ Except Error Value) × Data
  resume : Nat → Choice → Arg → Local → Data → Option ((Local ⊕ Except Error Value) × Data)
  cancelled : Error
  change : Change → Data → Data

inductive Job (Arg Local Value Error : Type) where
  | ready (arg : Arg)
  /-- in `semaphore.acquire` -/
  | waiting (arg : Arg)
  | inside (arg : Arg) (l : Local)
  | left (arg : Arg) (out : Except Error Value)

/-- The semaphore, the data, and the jobs that have ended, in the order in which they ended. -/
structure Limited (Data Value Error : Type) where
  semaphore : Semaphore
  data : Data
  ended : List (Nat × Except Error Value)

inductive Move (Choice Change : Type) where
  | go
  | cancel
  | inner (ch : Choice)
  | change (c : Change)

namespace Job

def isInside : Job Arg Local Value Error → Bool
  | inside _ _ => true
  | _ => false

def arg : Job Arg Local Value Error → Arg
  | ready a | waiting a | inside a _ | left a _ => a

def isWaiting : Job Arg Local Value Error → Bool
  | waiting _ => true
  | _ => false

def out? : Job Arg Local Value Error → Option (Except Error Value)
  | left _ out => some out
  | _ => none

def value? (t : Job Arg Local Value Error) : Option Value := t.out?.bind Except.toOption

end Job

/-- What a job raised, if it did. -/
def errorOf : Nat × Except Error Value → Option Error
  | (_, .error e) => some e
  | (_, .ok _) => none

namespace Section

variable (body : Section Data Arg Local Value Error Choice Change)

/-- The end of the section: the permit is given back. -/
def settle (i : Nat) (arg : Arg) (sh : Limited Data Value Error) :
    (Local ⊕ Except Error Value) × Data → Job Arg Local Value Error × Limited Data Value Error
  | (.inl l, data) => (.inside arg l, { sh with data })
  | (.inr out, data) => (.left arg out, ⟨sh.semaphore.release, data, sh.ended ++ [(i, out)]⟩)

/-- With a permit. -/
def begin (i : Nat) (arg : Arg) (semaphore : Semaphore) (sh : Limited Data Value Error) :
    Job Arg Local Value Error × Limited Data Value Error :=
  settle i arg { sh with semaphore } (body.enter i arg sh.data)

def limited : Machine (Limited Data Value Error) (Job Arg Local Value Error) Arg
    (Move Choice Change) where
  enter _ arg := .ready arg
  resume i move job sh :=
    match move, job with
    | .change c, job => some (job, { sh with data := body.change c sh.data })
    | .go, .ready arg =>
      match sh.semaphore.tryAcquire with
      | some semaphore => some (body.begin i arg semaphore sh)
      | none => some (.waiting arg, { sh with semaphore := sh.semaphore.park i })
    | .go, .waiting arg => (sh.semaphore.wake i).map fun semaphore => body.begin i arg semaphore sh
    | .inner ch, .inside arg l => (body.resume i ch arg l sh.data).map (settle i arg sh)
    | .cancel, .ready arg => some (.left arg (.error body.cancelled),
        { sh with ended := sh.ended ++ [(i, .error body.cancelled)] })
    | .cancel, .waiting arg => some (.left arg (.error body.cancelled),
        { sh with semaphore := sh.semaphore.abandon i,
                  ended := sh.ended ++ [(i, .error body.cancelled)] })
    | _, _ => none

end Section

/-- What `asyncio.gather` has: the first exception, or the results when all are there. -/
def gathered (s : System (Limited Data Value Error) (Job Arg Local Value Error)) :
    Option (Except Error (List Value)) :=
  match s.shared.ended.findSome? errorOf with
  | some e => some (.error e)
  | none => (s.tasks.mapM Job.value?).map .ok

section Runs

variable {body : Section Data Arg Local Value Error Choice Change} {limit i : Nat} {arg : Arg}
  {t t' : Job Arg Local Value Error} {sh sh' : Limited Data Value Error} {move : Move Choice Change}
  {s s' : System (Limited Data Value Error) (Job Arg Local Value Error)}

/-- The steps of `limited`, with what each needs and what it leads to. -/
inductive Section.Steps (body : Section Data Arg Local Value Error Choice Change) (i : Nat)
    (sh : Limited Data Value Error) : Move Choice Change → Job Arg Local Value Error →
      Job Arg Local Value Error → Limited Data Value Error → Prop where
  | change (c : Change) (t : Job Arg Local Value Error) :
      Steps body i sh (.change c) t t { sh with data := body.change c sh.data }
  | acquire {arg : Arg} {semaphore : Semaphore} {t' : Job Arg Local Value Error}
      {sh' : Limited Data Value Error} (taken : sh.semaphore.tryAcquire = some semaphore)
      (began : body.begin i arg semaphore sh = (t', sh')) : Steps body i sh .go (.ready arg) t' sh'
  | park {arg : Arg} (full : sh.semaphore.tryAcquire = none) :
      Steps body i sh .go (.ready arg) (.waiting arg) { sh with semaphore := sh.semaphore.park i }
  | wake {arg : Arg} {semaphore : Semaphore} {t' : Job Arg Local Value Error}
      {sh' : Limited Data Value Error} (woken : sh.semaphore.wake i = some semaphore)
      (began : body.begin i arg semaphore sh = (t', sh')) : Steps body i sh .go (.waiting arg) t' sh'
  | goOn {ch : Choice} {arg : Arg} {l l' : Local} {data : Data}
      (resumed : body.resume i ch arg l sh.data = some (.inl l', data)) :
      Steps body i sh (.inner ch) (.inside arg l) (.inside arg l') { sh with data }
  | leave {ch : Choice} {arg : Arg} {l : Local} {out : Except Error Value} {data : Data}
      (resumed : body.resume i ch arg l sh.data = some (.inr out, data)) :
      Steps body i sh (.inner ch) (.inside arg l) (.left arg out)
        ⟨sh.semaphore.release, data, sh.ended ++ [(i, out)]⟩
  | cancel (arg : Arg) : Steps body i sh .cancel (.ready arg) (.left arg (.error body.cancelled))
      { sh with ended := sh.ended ++ [(i, .error body.cancelled)] }
  | abandon (arg : Arg) : Steps body i sh .cancel (.waiting arg) (.left arg (.error body.cancelled))
      { sh with semaphore := sh.semaphore.abandon i,
                ended := sh.ended ++ [(i, .error body.cancelled)] }

theorem Section.steps (ran : body.limited.resume i move t sh = some (t', sh')) :
    body.Steps i sh move t t' sh' := by
  cases move with
  | change c =>
    cases ran
    exact .change c t
  | go =>
    cases t with
    | ready arg =>
      unfold limited at ran
      dsimp only at ran
      cases taken : sh.semaphore.tryAcquire with
      | some semaphore =>
        rw [taken] at ran
        exact .acquire taken (Option.some.inj ran)
      | none =>
        rw [taken] at ran
        cases ran
        exact .park taken
    | waiting arg =>
      obtain ⟨semaphore, woken, began⟩ := Option.map_eq_some_iff.mp ran
      exact .wake woken began
    | inside arg l => cases ran
    | left arg out => cases ran
  | cancel =>
    cases t with
    | ready arg =>
      cases ran
      exact .cancel arg
    | waiting arg =>
      cases ran
      exact .abandon arg
    | inside arg l => cases ran
    | left arg out => cases ran
  | inner ch =>
    cases t with
    | inside arg l =>
      obtain ⟨⟨step, data⟩, resumed, settled⟩ := Option.map_eq_some_iff.mp ran
      cases step with
      | inl l' =>
        cases settled
        exact .goOn resumed
      | inr out =>
        cases settled
        exact .leave resumed
    | _ => cases ran

/-- The semaphore and the ended jobs between steps. -/
structure Balanced (limit : Nat) (s : System (Limited Data Value Error) (Job Arg Local Value Error)) :
    Prop where
  permits : s.shared.semaphore.permits + s.count Job.isInside = limit
  nodup : s.shared.semaphore.ids.Nodup
  ids : ∀ j, j ∈ s.shared.semaphore.ids ↔ ∃ t, s.tasks[j]? = some t ∧ t.isWaiting = true
  fair : s.shared.semaphore.Fair
  ended : ∀ j out, (j, out) ∈ s.shared.ended ↔ ∃ t, s.tasks[j]? = some t ∧ t.out? = some out

/-- A step of a job. -/
structure Moves (i : Nat) (t : Job Arg Local Value Error) (sh : Limited Data Value Error)
    (t' : Job Arg Local Value Error) (sh' : Limited Data Value Error) : Prop where
  arg : t'.arg = t.arg
  permits : sh'.semaphore.permits + (if t'.isInside then 1 else 0) =
    sh.semaphore.permits + (if t.isInside then 1 else 0)
  nodup : sh'.semaphore.ids.Nodup
  ids : ∀ j, j ∈ sh'.semaphore.ids ↔ if j = i then t'.isWaiting = true else j ∈ sh.semaphore.ids
  fair : sh'.semaphore.Fair
  ended : (t'.out? = t.out? ∧ sh'.ended = sh.ended) ∨
    ∃ out, t.out? = none ∧ t'.out? = some out ∧ sh'.ended = sh.ended ++ [(i, out)]

/-- From the permit on: a semaphore that `i` does not wait for has one permit less. -/
theorem begin_moves {semaphore : Semaphore} (outside : t.isInside = false) (going : t.out? = none)
    (count : semaphore.permits + 1 = sh.semaphore.permits) (nodup : semaphore.ids.Nodup)
    (ids : ∀ j, j ∈ semaphore.ids ↔ j ≠ i ∧ j ∈ sh.semaphore.ids) (fair : semaphore.Fair)
    (began : body.begin i t.arg semaphore sh = (t', sh')) : Moves i t sh t' sh' := by
  have apart : ∀ j, j ∈ semaphore.ids ↔ if j = i then false = true else j ∈ sh.semaphore.ids := by
    intro j
    rw [ids]
    by_cases same : j = i <;> simp [same]
  rw [Section.begin] at began
  generalize body.enter i t.arg sh.data = step at began
  obtain ⟨step, data⟩ := step
  cases step with
  | inl l =>
    cases began
    refine ⟨rfl, ?_, nodup, apart, fair, .inl ⟨going.symm, rfl⟩⟩
    rw [outside]
    exact count
  | inr out =>
    cases began
    obtain ⟨more, same⟩ := Semaphore.release_permits (s := semaphore)
    refine ⟨rfl, ?_, same ▸ nodup, fun j => ?_, Semaphore.release_fair, .inr ⟨out, going, rfl, rfl⟩⟩
    · rw [outside]
      exact more.trans count
    · show j ∈ semaphore.release.ids ↔ _
      rw [same]
      exact apart j

theorem Section.Steps.moves (steps : body.Steps i sh move t t' sh') (nodup : sh.semaphore.ids.Nodup)
    (waits : i ∈ sh.semaphore.ids ↔ t.isWaiting = true) (fair : sh.semaphore.Fair) :
    Moves i t sh t' sh' := by
  have same : ∀ j, j ∈ sh.semaphore.ids ↔ if j = i then t.isWaiting = true else j ∈ sh.semaphore.ids := by
    intro j
    by_cases here : j = i
    · rw [if_pos here, here, waits]
    · rw [if_neg here]
  cases steps with
  | change c => exact ⟨rfl, rfl, nodup, same, fair, .inl ⟨rfl, rfl⟩⟩
  | acquire taken began =>
    obtain ⟨count, none⟩ := Semaphore.tryAcquire_permits taken
    have empty : sh.semaphore.waiters = [] := (Option.ite_none_right_eq_some.mp taken).1.2
    refine begin_moves rfl rfl count (by simp [none]) (fun j => ?_) (Semaphore.tryAcquire_fair taken) began
    have nobody : sh.semaphore.ids = [] := by simp [Semaphore.ids, empty]
    simp [none, nobody]
  | park full =>
    have absent : i ∉ sh.semaphore.ids := by simpa [Job.isWaiting] using waits
    obtain ⟨count, more⟩ := Semaphore.park_permits (s := sh.semaphore) (i := i)
    refine ⟨rfl, by simpa [Job.isInside] using count, ?_, fun j => ?_, Semaphore.park_fair fair full,
      .inl ⟨rfl, rfl⟩⟩
    · rw [more]
      exact List.nodup_append.mpr ⟨nodup, by simp, by
        rintro a mem b here rfl
        exact absent (List.mem_singleton.mp here ▸ mem)⟩
    · rw [more, List.mem_append, List.mem_singleton]
      by_cases here : j = i <;> simp [here, Job.isWaiting]
  | wake woken began =>
    obtain ⟨count, rest⟩ := Semaphore.wake_permits nodup woken
    refine begin_moves rfl rfl count (rest ▸ nodup.filter _) (fun j => ?_) (Semaphore.wake_fair woken) began
    rw [rest, List.mem_filter, bne_iff_ne, and_comm]
  | goOn resumed => exact ⟨rfl, rfl, nodup, same, fair, .inl ⟨rfl, rfl⟩⟩
  | leave resumed =>
    obtain ⟨more, ids⟩ := Semaphore.release_permits (s := sh.semaphore)
    refine ⟨rfl, ?_, ids ▸ nodup, fun j => ?_, Semaphore.release_fair, .inr ⟨_, rfl, rfl, rfl⟩⟩
    · simpa [Job.isInside] using more
    · show j ∈ sh.semaphore.release.ids ↔ _
      rw [ids]
      exact same j
  | cancel arg => exact ⟨rfl, rfl, nodup, same, fair, .inr ⟨_, rfl, rfl, rfl⟩⟩
  | abandon arg =>
    obtain ⟨count, rest⟩ := Semaphore.abandon_permits (i := i) nodup
    refine ⟨rfl, by simpa [Job.isInside] using count, ?_, fun j => ?_, Semaphore.leave_fair,
      .inr ⟨_, rfl, rfl, rfl⟩⟩
    · rw [rest]
      exact nodup.filter _
    · rw [rest, List.mem_filter, bne_iff_ne]
      by_cases here : j = i <;> simp [here, Job.isWaiting]

/-- The permits of a system that is reached from a new semaphore, and who waits for them. -/
theorem balanced_of_reach {init : Limited Data Value Error → Prop}
    {ok : System (Limited Data Value Error) (Job Arg Local Value Error) → Machine.Act Arg _ → Prop}
    (fresh : ∀ sh, init sh → sh.semaphore = ⟨limit, []⟩ ∧ sh.ended = [])
    (reach : body.limited.Reach init ok s) : Balanced limit s := by
  refine reach.invariant (fun sh first => ?_) (fun s arg balanced _ => ?_) ?_
  · obtain ⟨semaphore, ended⟩ := fresh sh first
    constructor
    · simp [semaphore, Semaphore.permits]
    · simp [semaphore, Semaphore.ids]
    · simp [semaphore, Semaphore.ids]
    · exact .inr (.inl (by rw [semaphore]))
    · simp [ended]
  · obtain ⟨permits, nodup, ids, fair, ended⟩ := balanced
    have new : ∀ {j : Nat} {p : Job Arg Local Value Error → Prop}, ¬ p (.ready arg) →
        ((∃ t, (s.add (.ready arg)).tasks[j]? = some t ∧ p t) ↔
          ∃ t, s.tasks[j]? = some t ∧ p t) := by
      intro j p off
      constructor
      · rintro ⟨t, task, holds⟩
        rcases System.getElem?_add task with ⟨-, rfl⟩ | old
        · exact absurd holds off
        · exact ⟨t, old, holds⟩
      · rintro ⟨t, task, holds⟩
        exact ⟨t, System.getElem?_add_of_some task, holds⟩
    constructor
    · rw [System.count_add]
      exact permits
    · exact nodup
    · intro j
      exact (ids j).trans (new (p := fun t => t.isWaiting = true) (by simp [Job.isWaiting])).symm
    · exact fair
    · intro j out
      exact (ended j out).trans (new (p := fun t => t.out? = some out) (by simp [Job.out?])).symm
  · rintro s i move t t' sh ⟨permits, nodup, ids, fair, ended⟩ - task ran
    have waits : i ∈ s.shared.semaphore.ids ↔ t.isWaiting = true := by
      rw [ids]
      simp [task]
    have moves := (Section.steps ran).moves nodup waits fair
    constructor
    · have := moves.permits
      have : (s.put i t' sh).count Job.isInside + (if t.isInside then 1 else 0) =
          s.count Job.isInside + (if t'.isInside then 1 else 0) := System.count_put task
      rw [System.shared_put]
      omega
    · exact moves.nodup
    · intro j
      rw [System.shared_put, moves.ids, System.getElem?_put task]
      by_cases here : j = i
      · simp [here]
      · rw [if_neg here, if_neg (Ne.symm here), ids]
    · exact moves.fair
    · intro j out
      rw [System.shared_put, System.getElem?_put task]
      by_cases here : j = i
      · subst here
        rw [if_pos rfl]
        rcases moves.ended with ⟨same, all⟩ | ⟨out', none, some, all⟩
        · rw [all, ended]
          simp [task, same]
        · have before : (j, out) ∉ s.shared.ended := by
            rw [ended]
            simp [task, none]
          simp [all, before, some, eq_comm]
      · rw [if_neg (Ne.symm here), ← ended]
        rcases moves.ended with ⟨-, all⟩ | ⟨out', -, -, all⟩
        · rw [all]
        · simp [all, here]

/-- While a job has not ended, some job is inside or can go on. -/
theorem Balanced.exists_go (balanced : Balanced limit s) (pos : 0 < limit)
    (going : ∃ t ∈ s.tasks, t.out? = none) :
    0 < s.count Job.isInside ∨ ∃ i s', body.limited.next s (.resume i .go) = some s' := by
  by_cases inside : 0 < s.count Job.isInside
  · exact .inl inside
  · refine .inr ?_
    have woken : ∀ i, (i, true) ∈ s.shared.semaphore.waiters →
        ∃ i s', body.limited.next s (.resume i .go) = some s' := by
      intro i given
      have mem : i ∈ s.shared.semaphore.ids := List.mem_map.mpr ⟨_, given, rfl⟩
      obtain ⟨t, task, waiting⟩ := (balanced.ids i).mp mem
      cases t with
      | waiting arg =>
        have woken : (s.shared.semaphore.wake i).isSome := by simp [Semaphore.wake, given]
        exact ⟨i, Machine.exists_next task (Option.isSome_map.trans woken)⟩
      | _ => cases waiting
    have permits := balanced.permits
    rcases balanced.fair with zero | empty | ⟨i, given⟩
    · have given : 0 < s.shared.semaphore.waiters.countP (·.2) := by
        rw [Semaphore.permits] at permits
        omega
      obtain ⟨⟨i, has⟩, mem, given⟩ := List.countP_pos_iff.mp given
      obtain rfl : has = true := given
      exact woken i mem
    · obtain ⟨t, mem, going⟩ := going
      obtain ⟨i, task⟩ := List.mem_iff_getElem?.mp mem
      cases t with
      | ready arg =>
        have some : s.shared.semaphore.value ≠ 0 := by
          simp only [Semaphore.permits, empty, List.countP_nil] at permits
          omega
        obtain ⟨semaphore, taken⟩ : ∃ semaphore, s.shared.semaphore.tryAcquire = .some semaphore := by
          simp [Semaphore.tryAcquire, empty, some]
        refine ⟨i, Machine.exists_next task ?_⟩
        unfold Section.limited
        dsimp only
        rw [taken]
        rfl
      | waiting arg =>
        have mem : i ∈ s.shared.semaphore.ids := (balanced.ids i).mpr ⟨_, task, rfl⟩
        simp [Semaphore.ids, empty] at mem
      | inside arg l => exact absurd (System.count_pos_of_task task rfl) inside
      | left arg out => cases going
    · exact woken i given

/-- Without permits no job is ever inside, and only the surroundings change the data. -/
theorem Balanced.idle (balanced : Balanced 0 s) (task : s.tasks[i]? = some t)
    (steps : body.Steps i s.shared move t t' sh') :
    sh'.data = s.shared.data ∨ ∃ c, sh'.data = body.change c s.shared.data := by
  have permits := balanced.permits
  have none : s.shared.semaphore.value = 0 := by
    rw [Semaphore.permits] at permits
    omega
  have ungiven : (i, true) ∉ s.shared.semaphore.waiters := by
    intro given
    have : 0 < s.shared.semaphore.waiters.countP (·.2) := List.countP_pos_iff.mpr ⟨_, given, rfl⟩
    rw [Semaphore.permits] at permits
    omega
  have outside {arg : Arg} {l : Local} : s.tasks[i]? ≠ some (.inside arg l) := by
    intro task
    have := System.count_pos_of_task (p := Job.isInside) task rfl
    omega
  cases steps with
  | change c => exact .inr ⟨c, rfl⟩
  | acquire taken => simp [Semaphore.tryAcquire, none] at taken
  | wake woken => simp [Semaphore.wake, ungiven] at woken
  | goOn | leave => exact absurd task outside
  | _ => exact .inl rfl

/-- How much a section goes on at most: `rank` of where it is suspended falls, from below `bound`. -/
structure Section.Ranked (body : Section Data Arg Local Value Error Choice Change) (rank : Local → Nat)
    (bound : Nat) : Prop where
  enter : ∀ {i arg data l data'}, body.enter i arg data = (.inl l, data') → rank l < bound
  resume : ∀ {i ch arg l data l' data'}, body.resume i ch arg l data = some (.inl l', data') →
    rank l' < rank l

/-- How often a job goes on at most. -/
def Job.weight (rank : Local → Nat) (bound : Nat) : Job Arg Local Value Error → Nat
  | ready _ => bound + 2
  | waiting _ => bound + 1
  | inside _ l => rank l + 1
  | left _ _ => 0

def weight (rank : Local → Nat) (bound : Nat)
    (s : System (Limited Data Value Error) (Job Arg Local Value Error)) : Nat :=
  (s.tasks.map (Job.weight rank bound)).sum

/-- The jobs of `s` go on `n` times, and end up as `s'`; what the surroundings do to the data is not
counted. -/
inductive Goes (body : Section Data Arg Local Value Error Choice Change)
    (s : System (Limited Data Value Error) (Job Arg Local Value Error)) :
    Nat → System (Limited Data Value Error) (Job Arg Local Value Error) → Prop where
  | refl : Goes body s 0 s
  | go {n : Nat} {s' s'' : System (Limited Data Value Error) (Job Arg Local Value Error)} {i : Nat}
      {move : Move Choice Change} (goes : Goes body s n s') (moves : ∀ c, move ≠ .change c)
      (next : body.limited.next s' (.resume i move) = some s'') : Goes body s (n + 1) s''
  | change {n : Nat} {s' s'' : System (Limited Data Value Error) (Job Arg Local Value Error)}
      {i : Nat} {c : Change} (goes : Goes body s n s')
      (next : body.limited.next s' (.resume i (.change c)) = some s'') : Goes body s n s''

/-- The system after moves of the jobs at the positions, if they apply. -/
def Section.play (body : Section Data Arg Local Value Error Choice Change)
    (s : System (Limited Data Value Error) (Job Arg Local Value Error)) :
    List (Nat × Move Choice Change) → Option (System (Limited Data Value Error) (Job Arg Local Value Error))
  | [] => some s
  | (i, move) :: rest => (body.limited.next s (.resume i move)).bind (body.play · rest)

theorem Goes.play {n : Nat} {s₀ : System (Limited Data Value Error) (Job Arg Local Value Error)}
    {moves : List (Nat × Move Choice Change)} (goes : Goes body s₀ n s)
    (played : body.play s moves = some s') : ∃ n, Goes body s₀ n s' := by
  induction moves generalizing s n with
  | nil =>
    cases played
    exact ⟨n, goes⟩
  | cons move rest ih =>
    obtain ⟨i, move⟩ := move
    obtain ⟨s₁, next, later⟩ := Option.bind_eq_some_iff.mp played
    cases move with
    | change c => exact ih (.change goes next) later
    | go => exact ih (.go goes (by simp) next) later
    | cancel => exact ih (.go goes (by simp) next) later
    | inner ch => exact ih (.go goes (by simp) next) later

variable {rank : Local → Nat} {bound n : Nat}

theorem begin_weight {semaphore : Semaphore} (ranked : body.Ranked rank bound)
    (began : body.begin i arg semaphore sh = (t', sh')) : t'.weight rank bound ≤ bound := by
  simp only [Section.begin] at began
  cases entered : body.enter i arg sh.data with
  | mk step data =>
    rw [entered] at began
    cases step with
    | inl l =>
      cases began
      exact ranked.enter entered
    | inr out =>
      cases began
      exact Nat.zero_le _

theorem Section.Steps.weight (steps : body.Steps i sh move t t' sh') (ranked : body.Ranked rank bound)
    (moves : ∀ c, move ≠ .change c) :
    t'.weight rank bound < t.weight rank bound := by
  cases steps with
  | change c => exact absurd rfl (moves c)
  | acquire taken began => exact Nat.lt_succ_of_le (Nat.le_succ_of_le (begin_weight ranked began))
  | wake woken began => exact Nat.lt_succ_of_le (begin_weight ranked began)
  | goOn resumed => exact Nat.succ_lt_succ (ranked.resume resumed)
  | _ => simp [Job.weight]

theorem weight_put (f : Job Arg Local Value Error → Nat) (t' : Job Arg Local Value Error)
    (sh : Limited Data Value Error) (task : s.tasks[i]? = some t) :
    ((s.put i t' sh).tasks.map f).sum + f t = (s.tasks.map f).sum + f t' := by
  obtain ⟨bound, here⟩ := List.getElem?_eq_some_iff.mp task
  have split : s.tasks = s.tasks.take i ++ t :: s.tasks.drop (i + 1) := by
    rw [← here, List.getElem_cons_drop, List.take_append_drop]
  have all : (s.tasks.map f).sum =
      ((s.tasks.take i).map f).sum + (f t + ((s.tasks.drop (i + 1)).map f).sum) := by
    conv => lhs; rw [split]
    simp
  rw [all, System.put, List.set_eq_take_append_cons_drop, if_pos bound]
  simp only [List.map_append, List.map_cons, List.sum_append, List.sum_cons]
  omega

/-- Jobs whose sections end go on only so often. -/
theorem Goes.le (ranked : body.Ranked rank bound) (goes : Goes body s n s') :
    weight rank bound s' + n ≤ weight rank bound s := by
  induction goes with
  | refl => exact Nat.le_refl _
  | go _ moves next ih =>
    obtain ⟨t, t', sh, task, ran, rfl⟩ := Machine.next_resume.mp next
    have less := (Section.steps ran).weight ranked moves
    have total := weight_put (Job.weight rank bound) t' sh task
    simp only [weight] at *
    omega
  | @change n s' s'' i c _ next ih =>
    obtain ⟨t, t', sh, task, ran, rfl⟩ := Machine.next_resume.mp next
    cases ran
    have total := weight_put (Job.weight rank bound) t
      { s'.shared with data := body.change c s'.shared.data } task
    simp only [weight] at *
    omega

/-- The data that a job at `j`, or the surroundings, leave. -/
inductive Section.Leaves (body : Section Data Arg Local Value Error Choice Change) (j : Nat)
    (data : Data) : Data → Prop where
  | enter (arg : Arg) : Leaves body j data (body.enter j arg data).2
  | resume {ch : Choice} {arg : Arg} {l : Local} {step : Local ⊕ Except Error Value} {data' : Data}
      (resumed : body.resume j ch arg l data = some (step, data')) : Leaves body j data data'

/-- What holds of the data and of each job: `New` until the job is inside its section, `P` from then
on. Its own steps keep it, and so do those of other jobs and of the surroundings. -/
structure Section.Keeps (body : Section Data Arg Local Value Error Choice Change)
    (New : Nat → Data → Prop) (P : Nat → Arg → Local ⊕ Except Error Value → Data → Prop) : Prop where
  enter : ∀ {i arg data}, New i data → P i arg (body.enter i arg data).1 (body.enter i arg data).2
  resume : ∀ {i ch arg l data step data'}, P i arg (.inl l) data →
    body.resume i ch arg l data = some (step, data') → P i arg step data'
  cancelled : ∀ {i arg data}, New i data → P i arg (.inr (.error body.cancelled)) data
  others : ∀ {i j data data'}, i ≠ j → body.Leaves j data data' →
    (New i data → New i data') ∧ ∀ arg step, P i arg step data → P i arg step data'
  change : ∀ {i c data}, (New i data → New i (body.change c data)) ∧
    ∀ arg step, P i arg step data → P i arg step (body.change c data)

/-- What `New` and `P` say of a job. -/
def Job.Fine (New : Nat → Data → Prop) (P : Nat → Arg → Local ⊕ Except Error Value → Data → Prop)
    (i : Nat) (t : Job Arg Local Value Error) (data : Data) : Prop :=
  match t with
  | ready _ | waiting _ => New i data
  | inside arg l => P i arg (.inl l) data
  | left arg out => P i arg (.inr out) data

section Keeps

variable {New : Nat → Data → Prop} {P : Nat → Arg → Local ⊕ Except Error Value → Data → Prop}

theorem settle_fine {step : (Local ⊕ Except Error Value) × Data} (after : P i arg step.1 step.2)
    (settled : Section.settle i arg sh step = (t', sh')) : t'.Fine New P i sh'.data := by
  obtain ⟨step, data⟩ := step
  cases step with
  | inl l => cases settled; exact after
  | inr out => cases settled; exact after

theorem begin_leaves {semaphore : Semaphore} (began : body.begin i arg semaphore sh = (t', sh')) :
    body.Leaves i sh.data sh'.data := by
  have entered : sh'.data = (body.enter i arg sh.data).2 := by
    rw [Section.begin] at began
    generalize body.enter i arg sh.data = step at began ⊢
    obtain ⟨_ | _, data⟩ := step <;> cases began <;> rfl
  exact entered ▸ .enter arg

/-- The data after a step of a job. -/
theorem Section.Steps.leaves (steps : body.Steps i sh move t t' sh') :
    sh'.data = sh.data ∨ body.Leaves i sh.data sh'.data ∨ ∃ c, sh'.data = body.change c sh.data := by
  cases steps with
  | change c => exact .inr (.inr ⟨c, rfl⟩)
  | acquire taken began | wake woken began => exact .inr (.inl (begin_leaves began))
  | goOn resumed | leave resumed => exact .inr (.inl (.resume resumed))
  | _ => exact .inl rfl

theorem Section.Keeps.own (keeps : body.Keeps New P) (fine : t.Fine New P i sh.data)
    (steps : body.Steps i sh move t t' sh') : t'.Fine New P i sh'.data := by
  cases steps with
  | change c =>
    obtain ⟨new, inside⟩ : (New i sh.data → New i (body.change c sh.data)) ∧ _ := keeps.change
    cases t with
    | ready arg => exact new fine
    | waiting arg => exact new fine
    | inside arg l => exact inside arg _ fine
    | left arg out => exact inside arg _ fine
  | acquire taken began => exact settle_fine (keeps.enter fine) began
  | park full => exact fine
  | wake woken began => exact settle_fine (keeps.enter fine) began
  | goOn resumed => exact keeps.resume fine resumed
  | leave resumed => exact keeps.resume fine resumed
  | cancel arg => exact keeps.cancelled fine
  | abandon arg => exact keeps.cancelled fine

/-- The rule for what holds of each job of a system that is reached. -/
theorem Section.Keeps.of_reach {init : Limited Data Value Error → Prop}
    {ok : System (Limited Data Value Error) (Job Arg Local Value Error) → Machine.Act Arg _ → Prop}
    (keeps : body.Keeps New P) (new : ∀ sh, init sh → ∀ i, New i sh.data)
    (reach : body.limited.Reach init ok s) (task : s.tasks[i]? = some t) :
    t.Fine New P i s.shared.data := by
  have all := Machine.Reach.each (fun i sh => New i sh.data) (fun i t sh => t.Fine New P i sh.data) reach
    (fun i sh first => new sh first i) (fun s i arg new _ => new)
    (fun s i move t t' sh fine _ ran => keeps.own fine (Section.steps ran)) ?_
  · exact all.2 i t task
  · intro s i j move t t' sh apart _ ran
    have frame : (New i s.shared.data → New i sh.data) ∧
        ∀ arg step, P i arg step s.shared.data → P i arg step sh.data := by
      rcases (Section.steps ran).leaves with same | leaves | ⟨c, changed⟩
      · rw [same]
        exact ⟨id, fun _ _ => id⟩
      · exact keeps.others apart leaves
      · rw [changed]
        exact keeps.change
    refine ⟨frame.1, fun u fine => ?_⟩
    cases u with
    | ready arg => exact frame.1 fine
    | waiting arg => exact frame.1 fine
    | inside arg l => exact frame.2 arg _ fine
    | left arg out => exact frame.2 arg _ fine

end Keeps

/-- Jobs that are all there from the start. -/
def gathers (sh : Limited Data Value Error) (args : List Arg) :
    System (Limited Data Value Error) (Job Arg Local Value Error) := ⟨sh, args.map .ready⟩

theorem reach_gathers {init : Limited Data Value Error → Prop} (first : init sh) (args : List Arg) :
    body.limited.Reach init (fun _ _ => True) (gathers sh args) := by
  induction args using List.reverseRecOn with
  | nil => exact .init first
  | append_singleton args arg ih =>
    have next : body.limited.next (gathers sh args) (.start arg) = some (gathers sh (args ++ [arg])) := by
      simp only [Machine.next, gathers, System.add, List.map_append]
      rfl
    exact .step ih trivial next

/-- Whatever gathered jobs come to is reached. -/
theorem Goes.reach {init : Limited Data Value Error → Prop} {args : List Arg} (first : init sh)
    (goes : Goes body (gathers sh args) n s) : body.limited.Reach init (fun _ _ => True) s := by
  induction goes with
  | refl => exact reach_gathers first args
  | go _ _ next ih => exact .step ih trivial next
  | change _ next ih => exact .step ih trivial next

theorem begin_arg {semaphore : Semaphore} (began : body.begin i arg semaphore sh = (t', sh')) :
    t'.arg = arg := by
  rw [Section.begin] at began
  generalize body.enter i arg sh.data = step at began
  obtain ⟨_ | _, data⟩ := step <;> cases began <;> rfl

theorem Section.Steps.arg_eq (steps : body.Steps i sh move t t' sh') : t'.arg = t.arg := by
  cases steps with
  | acquire taken began => exact begin_arg began
  | wake woken began => exact begin_arg began
  | _ => rfl

theorem args_put (task : s.tasks[i]? = some t) (same : t'.arg = t.arg) :
    (s.put i t' sh).tasks.map Job.arg = s.tasks.map Job.arg := by
  obtain ⟨bound, here⟩ := List.getElem?_eq_some_iff.mp task
  have mapped : i < (s.tasks.map Job.arg).length := by rwa [List.length_map]
  have there : (s.tasks.map Job.arg)[i] = t.arg := by rw [List.getElem_map, here]
  rw [System.put, List.map_set, same, ← there, List.set_getElem_self]

/-- The jobs keep their arguments. -/
theorem Goes.args {args : List Arg} (goes : Goes body (gathers sh args) n s) :
    s.tasks.map Job.arg = args := by
  induction goes with
  | refl => simp [gathers, Function.comp_def, Job.arg]
  | go _ _ next ih =>
    obtain ⟨t, t', sh, task, ran, rfl⟩ := Machine.next_resume.mp next
    rw [args_put task ((Section.steps ran).arg_eq), ih]
  | change _ next ih =>
    obtain ⟨t, t', sh, task, ran, rfl⟩ := Machine.next_resume.mp next
    rw [args_put task ((Section.steps ran).arg_eq), ih]

theorem value?_eq_some {v : Value} : t.value? = some v ↔ t.out? = some (.ok v) := by
  simp only [Job.value?, Option.bind_eq_some_iff]
  constructor
  · rintro ⟨out, there, value⟩
    cases out with
    | error e => cases value
    | ok v' => exact Option.some.inj value ▸ there
  · exact fun there => ⟨.ok v, there, rfl⟩

theorem mapM_value? {ts : List (Job Arg Local Value Error)} {vs : List Value} :
    ts.mapM Job.value? = some vs ↔ List.Forall₂ (fun t v => t.out? = some (.ok v)) ts vs := by
  induction ts generalizing vs with
  | nil =>
    constructor
    · intro all
      cases all
      exact .nil
    · intro all
      cases all
      rfl
  | cons t ts ih =>
    rw [List.mapM_cons]
    constructor
    · intro all
      obtain ⟨v, value, all⟩ := Option.bind_eq_some_iff.mp all
      obtain ⟨rest, values, all⟩ := Option.bind_eq_some_iff.mp all
      cases all
      exact .cons (value?_eq_some.mp value) (ih.mp values)
    · intro all
      cases all with
      | cons value values =>
        rw [value?_eq_some.mpr value, ih.mpr values]
        rfl

/-- What `gather` has: the exception of a job that has raised it, or the values of all jobs. -/
theorem Balanced.gathered (balanced : Balanced limit s) :
    (∀ e, gathered s = some (.error e) → ∃ t ∈ s.tasks, t.out? = some (.error e)) ∧
      ∀ vs, gathered s = some (.ok vs) →
        List.Forall₂ (fun t v => t.out? = some (.ok v)) s.tasks vs := by
  simp only [Interleave.gathered]
  cases first : s.shared.ended.findSome? errorOf with
  | some e =>
    refine ⟨?_, by simp⟩
    rintro _ ⟨⟩
    obtain ⟨⟨i, out⟩, mem, raised⟩ := List.exists_of_findSome?_eq_some first
    cases out with
    | ok v => cases raised
    | error e' =>
      cases raised
      obtain ⟨t, task, out⟩ := (balanced.ended i _).mp mem
      exact ⟨t, List.mem_of_getElem? task, out⟩
  | none =>
    refine ⟨by simp, fun vs all => mapM_value?.mp ?_⟩
    simpa using all

/-- What holds of each job at its end holds of what `gather` has: of the results in the order of the
arguments, or of the exception. -/
theorem Balanced.gathered_fine (balanced : Balanced limit s) {args : List Arg}
    {New : Nat → Data → Prop} {P : Nat → Arg → Local ⊕ Except Error Value → Data → Prop}
    (args_eq : s.tasks.map Job.arg = args)
    (fine : ∀ (i : Nat) (t : Job Arg Local Value Error), s.tasks[i]? = some t →
      t.Fine New P i s.shared.data) :
    (∀ rows, Interleave.gathered s = some (.ok rows) → rows.length = args.length ∧
      ∀ i row, rows[i]? = some row → ∃ arg, args[i]? = some arg ∧ P i arg (.inr (.ok row)) s.shared.data) ∧
    ∀ e, Interleave.gathered s = some (.error e) →
      ∃ i arg, args[i]? = some arg ∧ P i arg (.inr (.error e)) s.shared.data := by
  obtain ⟨raised, all⟩ := balanced.gathered
  have left {i : Nat} {t : Job Arg Local Value Error} {out : Except Error Value}
      (task : s.tasks[i]? = some t) (ended : t.out? = some out) :
      ∃ arg, args[i]? = some arg ∧ P i arg (.inr out) s.shared.data := by
    have fine := fine i t task
    cases t with
    | left arg out' =>
      obtain rfl := Option.some.inj ended
      refine ⟨arg, ?_, fine⟩
      rw [← args_eq, List.getElem?_map, task]
      rfl
    | _ => cases ended
  refine ⟨fun rows rows_eq => ?_, fun e e_eq => ?_⟩
  · have values := all rows rows_eq
    have lengths := values.length_eq
    refine ⟨?_, fun i row here => ?_⟩
    · rw [← lengths, ← args_eq, List.length_map]
    · obtain ⟨bound, rfl⟩ := List.getElem?_eq_some_iff.mp here
      have bound' : i < s.tasks.length := by omega
      exact left (List.getElem?_eq_getElem bound') (values.get bound' bound)
  · obtain ⟨t, mem, out⟩ := raised e e_eq
    obtain ⟨i, task⟩ := List.mem_iff_getElem?.mp mem
    exact ⟨i, left task out⟩

/-- No more jobs are inside their sections than there are permits. -/
theorem Balanced.count_le (balanced : Balanced limit s) {p : Job Arg Local Value Error → Bool}
    (inside : ∀ t, p t = true → t.isInside = true) : s.count p ≤ limit := by
  have few : s.count p ≤ s.count Job.isInside := List.countP_mono_left fun t _ => inside t
  have := balanced.permits
  omega

/-- `gather` ends when all jobs have. -/
theorem gathered_of_ended (ended : ∀ t ∈ s.tasks, t.out?.isSome)
    (balanced : Balanced limit s) : (gathered s).isSome := by
  simp only [Interleave.gathered]
  cases first : s.shared.ended.findSome? errorOf with
  | some e => rfl
  | none =>
    have values : ∀ t ∈ s.tasks, ∃ v, t.out? = some (.ok v) := by
      intro t mem
      obtain ⟨out, left⟩ := Option.isSome_iff_exists.mp (ended t mem)
      obtain ⟨i, task⟩ := List.mem_iff_getElem?.mp mem
      have fine := List.findSome?_eq_none_iff.mp first _ ((balanced.ended i out).mpr ⟨t, task, left⟩)
      cases out with
      | ok v => exact ⟨v, left⟩
      | error e => cases fine
    have all : ∃ vs, List.Forall₂ (fun t v => t.out? = some (.ok v)) s.tasks vs := by
      generalize s.tasks = ts at values
      induction ts with
      | nil => exact ⟨[], .nil⟩
      | cons t ts ih =>
        obtain ⟨v, value⟩ := values t List.mem_cons_self
        obtain ⟨vs, rest⟩ := ih fun t mem => values t (List.mem_cons_of_mem _ mem)
        exact ⟨v :: vs, .cons value rest⟩
    obtain ⟨vs, all⟩ := all
    simp [mapM_value?.mpr all]

end Runs

end Interleave
