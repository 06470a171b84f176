import OmniMemory.Lib.Contract

/-! Tasks that take turns. Where a command starts only when no other runs, it has the shared state
to itself, up to the moves of the surroundings. `World.Leads` is a Hoare logic for such tasks: it
says what a program leads to when the state drifts between its calls. `World.Turns.reach` turns an
invariant that every command keeps from its start to its end into one of all runs. -/

namespace Interleave

variable {Op : Type} {Res : Op → Type} {Out Cmd Choice Move State α β γ : Type}

namespace World

variable (W : World Op Res Out Cmd Choice Move State) (drift : State → State → Prop)
  (can : Event Op Res State → Prop)

/-- From state `s` and after the calls `h`, the program returns with `Q` for its result, its calls,
and the state after the last of them, if the state drifts between the calls and these meet `can`. -/
def Leads (Q : α → List (Event Op Res State) → State → Prop) :
    Prog Op Res α → List (Event Op Res State) → State → Prop
  | .ret a, h, s => Q a h s
  | .call op rest, h, s => ∀ before, drift s before →
      ∀ answer after, W.Calls ⟨op, before, answer, after⟩ → can ⟨op, before, answer, after⟩ →
        Leads Q (rest answer) (h ++ [⟨op, before, answer, after⟩]) after

variable {W drift can} {Q Q' : α → List (Event Op Res State) → State → Prop}
  {R : β → List (Event Op Res State) → State → Prop} {h : List (Event Op Res State)} {s s' : State}

theorem Leads.imp {p : Prog Op Res α} (k : W.Leads drift can Q p h s)
    (weaker : ∀ a h s, Q a h s → Q' a h s) : W.Leads drift can Q' p h s := by
  induction p generalizing h s with
  | ret a => exact weaker _ _ _ k
  | call op rest ih =>
    intro before moved answer after call allowed
    exact ih answer (k before moved answer after call allowed)

theorem Leads.seq {p : Prog Op Res α} {next : α → Prog Op Res β}
    (first : W.Leads drift can Q p h s)
    (rest : ∀ a h s, Q a h s → W.Leads drift can R (next a) h s) :
    W.Leads drift can R (p >>= next) h s := by
  induction p generalizing h s with
  | ret a => exact rest _ _ _ first
  | call op k ih =>
    intro before moved answer after call allowed
    exact ih answer (first before moved answer after call allowed)

/-- A drift before the next call changes nothing for a program that has one to make. -/
theorem Leads.drifted {p : Prog Op Res α} (k : W.Leads drift can Q p h s) (moved : drift s s')
    (trans : ∀ a b c, drift a b → drift b c → drift a c) (running : ∀ a, p ≠ .ret a) :
    W.Leads drift can Q p h s' := by
  cases p with
  | ret a => exact absurd rfl (running a)
  | call op rest => exact fun before moved' => k before (trans _ _ _ moved moved')

theorem Leads.grows {p : Prog Op Res α} (k : W.Leads drift can Q p h s) :
    W.Leads drift can (fun a h' s' => Q a h' s' ∧ h <+: h') p h s := by
  induction p generalizing h s with
  | ret a => exact ⟨k, List.prefix_rfl⟩
  | call op rest ih =>
    intro before moved answer after call allowed
    refine (ih answer (k before moved answer after call allowed)).imp ?_
    rintro a h' s' ⟨q, grown⟩
    exact ⟨q, (List.prefix_append _ _).trans grown⟩

theorem Leads.called {p : Prog Op Res α} (k : W.Leads drift can Q p h s)
    (running : ∀ a, p ≠ .ret a) :
    W.Leads drift can (fun a h' s' => Q a h' s' ∧ h' ≠ []) p h s := by
  cases p with
  | ret a => exact absurd rfl (running a)
  | call op rest =>
    intro before moved answer after call allowed
    refine (k before moved answer after call allowed).grows.imp ?_
    rintro a _ s' ⟨q, post, rfl⟩
    exact ⟨q, by simp⟩

/-- A part of the state that neither the calls of a program nor the drift changes. -/
theorem Leads.steady {P : Op → Prop} {part : State → γ} {p : Prog Op Res α}
    (k : W.Leads drift can Q p h s) (uses : p.Uses P)
    (same : ∀ e, P e.op → W.Calls e → part e.after = part e.before)
    (still : ∀ s s', drift s s' → part s' = part s) :
    W.Leads drift can (fun a h' s' => Q a h' s' ∧ part s' = part s ∧
      ∀ e ∈ h', e ∈ h ∨ part e.before = part s) p h s := by
  induction p generalizing h s with
  | ret a => exact ⟨k, rfl, fun _ mem => .inl mem⟩
  | call op rest ih =>
    intro before moved answer after call allowed
    have there : part after = part s := (same _ uses.1 call).trans (still _ _ moved)
    refine (ih answer (k before moved answer after call allowed) (uses.2 answer)).imp ?_
    rintro a h' s' ⟨q, last, earlier⟩
    refine ⟨q, last.trans there, fun e mem => ?_⟩
    rcases earlier e mem with old | new
    · rcases List.mem_append.mp old with old | here
      · exact .inl old
      · rw [List.mem_singleton.mp here]
        exact .inr (still _ _ moved)
    · exact .inr (new.trans there)

variable (W drift can)

/-- What the rule for turns needs: commands start when no task runs, and every command leads from
`rest` to `rest`, which the drift keeps, with `Q` for its result and its calls. -/
structure Turns (rest : State → Prop) (init : State → Prop)
    (ok : Pool Op Res Out Cmd State → Label Op Res Cmd Move State → Prop)
    (Q : Cmd → Out → List (Event Op Res State) → Prop) : Prop where
  refl : ∀ s, drift s s
  trans : ∀ a b c, drift a b → drift b c → drift a c
  init : ∀ s, init s → rest s
  start : ∀ p c, ok p (.start c) → p.Idle
  call : ∀ p i c e, ok p (.call i c e) → can e
  move : ∀ p m after, ok p (.move m) → W.move m p.shared = some after → drift p.shared after
  keep : ∀ s s', drift s s' → rest s → rest s'
  code : ∀ c s, rest s → W.Leads drift can (fun a h s' => Q c a h ∧ rest s') (W.code c) [] s

/-- What is known of a pool whose tasks take turns. -/
structure Turn (rest : State → Prop) (Q : Cmd → Out → List (Event Op Res State) → Prop)
    (p : Pool Op Res Out Cmd State) : Prop where
  returned : ∀ t ∈ p.tasks, ∀ a, t.result? = some a → Q t.cmd a t.calls
  idle : p.Idle → rest p.shared
  running : ∀ (i : Nat) (t : Task Op Res Out Cmd State), p.tasks[i]? = some t → t.result? = none →
    W.Leads drift can (fun a h s' => Q t.cmd a h ∧ rest s') t.rest t.calls p.shared ∧
      ∀ (j : Nat) (u : Task Op Res Out Cmd State), p.tasks[j]? = some u → j ≠ i → u.result? ≠ none

variable {W drift can} {rest : State → Prop} {init : State → Prop}
  {ok : Pool Op Res Out Cmd State → Label Op Res Cmd Move State → Prop}
  {q : Cmd → Out → List (Event Op Res State) → Prop} {p : Pool Op Res Out Cmd State}

/-- A task that has something left to do, or has returned with what it led to. -/
theorem result_of_leads {t : Task Op Res Out Cmd State}
    (leads : W.Leads drift can (fun a h s' => q t.cmd a h ∧ rest s') t.rest t.calls s) {a : Out}
    (result : t.result? = some a) : q t.cmd a t.calls ∧ rest s := by
  rwa [Task.result?_eq_some.mp result] at leads

/-- The pool after a step of one task `t` at position `i`, the others having returned. -/
theorem Turn.of_one {i : Nat} {t : Task Op Res Out Cmd State} (task : p.tasks[i]? = some t)
    (leads : W.Leads drift can (fun a h s' => q t.cmd a h ∧ rest s') t.rest t.calls p.shared)
    (others : ∀ (j : Nat) (u : Task Op Res Out Cmd State), p.tasks[j]? = some u → j ≠ i →
      u.result? ≠ none)
    (old : ∀ (j : Nat) (u : Task Op Res Out Cmd State), p.tasks[j]? = some u → j ≠ i →
      ∀ a, u.result? = some a → q u.cmd a u.calls) :
    Turn W drift can rest q p where
  returned u mem a result := by
    obtain ⟨j, here⟩ := List.mem_iff_getElem?.mp mem
    by_cases same : j = i
    · subst same
      obtain rfl : u = t := Option.some.inj (here.symm.trans task)
      exact (result_of_leads leads result).1
    · exact old j u here same a result
  idle all := by
    obtain ⟨a, result⟩ := Option.ne_none_iff_exists'.mp (all t (List.mem_of_getElem? task))
    exact (result_of_leads leads result).2
  running j u here unfinished := by
    by_cases same : j = i
    · subst same
      obtain rfl : u = t := Option.some.inj (here.symm.trans task)
      exact ⟨leads, others⟩
    · exact absurd unfinished (others j u here same)

/-- In every run in which tasks take turns, a task that has returned did what its command leads to,
and the invariant holds when no task runs. -/
theorem Turns.reach (T : W.Turns drift can rest init ok q) (reach : W.Reach init ok p) :
    Turn W drift can rest q p := by
  refine reach.invariant (P := Turn W drift can rest q) ?_ ?_
  · intro s start
    exact ⟨by simp, fun _ => T.init s start, by simp⟩
  rintro p l p' - turn met step
  cases step with
  | start c =>
    have idle := T.start p c met
    have before : ∀ (j : Nat) (u : Task Op Res Out Cmd State),
        (p.tasks ++ [⟨c, W.code c, []⟩])[j]? = some u → j ≠ p.tasks.length → u ∈ p.tasks := by
      intro j u here other
      rw [List.getElem?_append] at here
      split at here
      · exact List.mem_of_getElem? here
      · have := (List.getElem?_eq_some_iff.mp here).1
        simp only [List.length_singleton] at this
        omega
    refine Turn.of_one (List.getElem?_concat_length) (T.code c _ (turn.idle idle)) ?_ ?_
    · exact fun j u here other => idle u (before j u here other)
    · exact fun j u here other => turn.returned u (before j u here other)
  | @call i t op next answer after task here call =>
    have unfinished : t.result? = none := by simp [Task.result?, here]
    obtain ⟨leads, others⟩ := turn.running i t task unfinished
    rw [here] at leads
    have unchanged : ∀ (j : Nat) (u u' : Task Op Res Out Cmd State),
        (p.tasks.set i u')[j]? = some u → j ≠ i → p.tasks[j]? = some u := by
      intro j u u' there other
      rwa [List.getElem?_set_ne (Ne.symm other)] at there
    refine Turn.of_one (List.getElem?_set_self (List.getElem?_eq_some_iff.mp task).1)
      (leads _ (T.refl _) answer after call (T.call _ _ _ _ met)) ?_ ?_
    · exact fun j u there other => others j u (unchanged j u _ there other) other
    · exact fun j u there other =>
        turn.returned u (List.mem_of_getElem? (unchanged j u _ there other))
  | move moved =>
    have drifted := T.move _ _ _ met moved
    refine ⟨turn.returned, fun idle => T.keep _ _ drifted (turn.idle idle), ?_⟩
    intro i t task unfinished
    obtain ⟨leads, others⟩ := turn.running i t task unfinished
    refine ⟨leads.drifted drifted T.trans fun a done => ?_, others⟩
    rw [Task.result?_eq_some.mpr done] at unfinished
    contradiction

end World

end Interleave
