import OmniMemory.Lib.Pool
import Mathlib.Data.List.Basic

/-! Rely-guarantee reasoning about pools. A `Contract` names what every task may rely on: an
invariant of the shared state, and the changes that others make between two of its calls.
`Contract.Keeps` says that a program keeps the contract and returns with a postcondition; it
follows the program, so a function of the source has one lemma about it. `Contract.Holds.reach`
composes the tasks of a pool. -/

namespace Interleave

variable {Op : Type} {Res : Op → Type} {Out Cmd Choice Move State α β : Type}

/-- Every element is related to the ones before it. -/
def Each (P : List α → α → Prop) (l : List α) : Prop :=
  ∀ pre a post, l = pre ++ a :: post → P pre a

theorem Each.nil {P : List α → α → Prop} : Each P [] := by
  intro pre a post h
  simp at h

theorem Each.snoc {P : List α → α → Prop} {l : List α} {a : α} (old : Each P l) (new : P l a) :
    Each P (l ++ [a]) := by
  intro pre b post h
  rcases List.eq_nil_or_concat post with rfl | ⟨post', c, rfl⟩
  · obtain ⟨hpre, hlast⟩ := List.append_inj' h rfl
    obtain rfl := List.singleton_inj.mp hlast
    exact hpre ▸ new
  · rw [List.concat_eq_append, ← List.cons_append, ← List.append_assoc] at h
    exact old _ _ _ (List.append_inj' h rfl).1

/-- What tasks are verified against: `inv` holds of every shared state, `rely` relates a state to
those that others lead to, `can` is the condition that calls meet, and `guar` is what a call
does, given the calls its task made before. -/
structure Contract (Op : Type) (Res : Op → Type) (Cmd State : Type) where
  inv : State → Prop
  rely : State → State → Prop
  can : Cmd → Event Op Res State → Prop
  guar : Cmd → List (Event Op Res State) → Event Op Res State → Prop

namespace Contract

variable (C : Contract Op Res Cmd State) (W : World Op Res Out Cmd Choice Move State)

/-- From state `s` and after the calls `h`, the program keeps the contract, and it returns with
`Q` for its result, its calls, and the state after the last of them. -/
def Keeps (c : Cmd) (Q : α → List (Event Op Res State) → State → Prop) :
    Prog Op Res α → List (Event Op Res State) → State → Prop
  | .ret a, h, s => Q a h s
  | .call op rest, h, s => ∀ before, C.rely s before → C.inv before →
      ∀ answer after, W.Calls ⟨op, before, answer, after⟩ → C.can c ⟨op, before, answer, after⟩ →
        (C.inv after ∧ C.rely before after ∧ C.guar c h ⟨op, before, answer, after⟩) ∧
          Keeps c Q (rest answer) (h ++ [⟨op, before, answer, after⟩]) after

variable {C W} {c : Cmd} {Q Q' : α → List (Event Op Res State) → State → Prop}
  {R : β → List (Event Op Res State) → State → Prop} {h : List (Event Op Res State)} {s s' : State}

@[simp] theorem keeps_ret {a : α} : C.Keeps W c Q (.ret a) h s ↔ Q a h s := Iff.rfl

theorem Keeps.imp {p : Prog Op Res α} (k : C.Keeps W c Q p h s)
    (weaker : ∀ a h s, Q a h s → Q' a h s) : C.Keeps W c Q' p h s := by
  induction p generalizing h s with
  | ret a => exact weaker _ _ _ k
  | call op rest ih =>
    intro before hr hi answer after hc hcan
    obtain ⟨facts, k⟩ := k before hr hi answer after hc hcan
    exact ⟨facts, ih answer k⟩

/-- A program in sequence: the second starts where the first returns. -/
theorem Keeps.bind {p : Prog Op Res α} {next : α → Prog Op Res β}
    (k : C.Keeps W c (fun a h s => C.Keeps W c R (next a) h s) p h s) :
    C.Keeps W c R (p >>= next) h s := by
  induction p generalizing h s with
  | ret a => exact k
  | call op rest ih =>
    intro before hr hi answer after hc hcan
    obtain ⟨facts, k⟩ := k before hr hi answer after hc hcan
    exact ⟨facts, ih answer k⟩

/-- A program in sequence, from what was shown of the first. -/
theorem Keeps.seq {p : Prog Op Res α} {next : α → Prog Op Res β} (first : C.Keeps W c Q p h s)
    (rest : ∀ a h s, Q a h s → C.Keeps W c R (next a) h s) : C.Keeps W c R (p >>= next) h s :=
  .bind (first.imp rest)

/-- The calls made before stay in the history. -/
theorem Keeps.grows {p : Prog Op Res α} (k : C.Keeps W c Q p h s) :
    C.Keeps W c (fun a h' s' => Q a h' s' ∧ h <+: h') p h s := by
  induction p generalizing h s with
  | ret a => exact ⟨k, List.prefix_rfl⟩
  | call op rest ih =>
    intro before hr hi answer after hc hcan
    obtain ⟨facts, k⟩ := k before hr hi answer after hc hcan
    refine ⟨facts, (ih answer k).imp ?_⟩
    rintro a h' s' ⟨q, grown⟩
    exact ⟨q, (List.prefix_append _ _).trans grown⟩

/-- What others do between two calls keeps what was shown of the rest. -/
theorem Keeps.rely {p : Prog Op Res α} (k : C.Keeps W c Q p h s) (move : C.rely s s')
    (trans : ∀ a b c, C.rely a b → C.rely b c → C.rely a c)
    (stable : ∀ a, Q a h s → Q a h s') : C.Keeps W c Q p h s' := by
  cases p with
  | ret a => exact stable a k
  | call op rest => exact fun before hr => k before (trans _ _ _ move hr)

/-- A program whose calls are all of operations in `P` keeps the contract, and what each such call
keeps of the calls made so far holds when it returns. -/
theorem Keeps.of_uses {P : Op → Prop} {φ : List (Event Op Res State) → Prop} {p : Prog Op Res α}
    (uses : p.Uses P)
    (safe : ∀ h e, P e.op → W.Calls e → C.inv e.before → C.can c e → φ h →
      (C.inv e.after ∧ C.rely e.before e.after ∧ C.guar c h e) ∧ φ (h ++ [e]))
    (now : φ h) : C.Keeps W c (fun _ h _ => φ h) p h s := by
  induction p generalizing h s with
  | ret a => exact now
  | call op rest ih =>
    intro before _ inv answer after call can
    obtain ⟨facts, now⟩ := safe h ⟨op, before, answer, after⟩ uses.1 call inv can now
    exact ⟨facts, ih answer (uses.2 answer) now⟩

variable (C W)

/-- The calls of a task obey the guarantee, each after the ones before it. -/
def Obeyed (c : Cmd) (calls : List (Event Op Res State)) : Prop := Each (C.guar c) calls

/-- Each call is one of the world, made in a state of the invariant under the condition. -/
def Made (c : Cmd) (calls : List (Event Op Res State)) : Prop :=
  ∀ e ∈ calls, W.Calls e ∧ C.inv e.before ∧ C.can c e

/-- What the rules below need of a contract: the rely is a preorder that the moves of the
surroundings and the passing of time keep, and every command keeps the contract. -/
structure Holds (init : State → Prop)
    (ok : Pool Op Res Out Cmd State → Label Op Res Cmd Move State → Prop)
    (Q : Cmd → Out → List (Event Op Res State) → State → Prop) : Prop where
  refl : ∀ s, C.rely s s
  trans : ∀ a b c, C.rely a b → C.rely b c → C.rely a c
  init : ∀ s, init s → C.inv s
  move : ∀ p m after, ok p (.move m) → C.inv p.shared → W.move m p.shared = some after →
    C.inv after ∧ C.rely p.shared after
  call : ∀ p i c e, ok p (.call i c e) → C.can c e
  code : ∀ c s, C.inv s → C.Keeps W c (Q c) (W.code c) [] s
  stable : ∀ c a h s s', C.rely s s' → Q c a h s → Q c a h s'

/-- What is known of a task of a pool with shared state `s`. -/
structure Kept (Q : Cmd → Out → List (Event Op Res State) → State → Prop) (s : State)
    (t : Task Op Res Out Cmd State) : Prop where
  keeps : C.Keeps W t.cmd (Q t.cmd) t.rest t.calls s
  obeyed : C.Obeyed t.cmd t.calls
  made : C.Made W t.cmd t.calls
  past : ∀ e ∈ t.calls, C.rely e.after s
  order : t.calls.Pairwise fun e f => C.rely e.after f.before

variable {C W} {init : State → Prop}
  {ok : Pool Op Res Out Cmd State → Label Op Res Cmd Move State → Prop}
  {Q : Cmd → Out → List (Event Op Res State) → State → Prop}
  {p : Pool Op Res Out Cmd State}

theorem Kept.rely (H : C.Holds W init ok Q) {t : Task Op Res Out Cmd State} (k : C.Kept W Q s t)
    (move : C.rely s s') : C.Kept W Q s' t where
  keeps := k.keeps.rely move H.trans fun a => H.stable _ a _ _ _ move
  obeyed := k.obeyed
  made := k.made
  past e he := H.trans _ _ _ (k.past e he) move
  order := k.order

/-- A task that keeps the contract does so after its next call, which also keeps the invariant
and the rely of the others. -/
theorem Kept.advance (H : C.Holds W init ok Q) {t : Task Op Res Out Cmd State} {op : Op}
    {rest : Res op → Prog Op Res Out} {answer : Res op} {after : State} (k : C.Kept W Q s t)
    (inv : C.inv s) (here : t.rest = .call op rest) (call : W.Calls ⟨op, s, answer, after⟩)
    (can : C.can t.cmd ⟨op, s, answer, after⟩) :
    (C.inv after ∧ C.rely s after) ∧
      C.Kept W Q after (t.advance ⟨op, s, answer, after⟩ (rest answer)) := by
  have keeps := k.keeps
  rw [here] at keeps
  obtain ⟨⟨hinv, hrely, hguar⟩, keeps⟩ := keeps s (H.refl s) inv answer after call can
  refine ⟨⟨hinv, hrely⟩, keeps, Each.snoc k.obeyed hguar, ?_, ?_, ?_⟩
  · intro e he
    rcases List.mem_append.mp he with he | he
    · exact k.made e he
    · obtain rfl := List.mem_singleton.mp he
      exact ⟨call, inv, can⟩
  · intro e he
    rcases List.mem_append.mp he with he | he
    · exact H.trans _ _ _ (k.past e he) hrely
    · obtain rfl := List.mem_singleton.mp he
      exact H.refl _
  · refine List.pairwise_append.mpr ⟨k.order, List.pairwise_singleton _ _, ?_⟩
    intro e he f hf
    obtain rfl := List.mem_singleton.mp hf
    exact k.past e he

/-- Parallel composition: in every pool reached, the invariant holds and every task keeps the
contract. -/
theorem Holds.reach (H : C.Holds W init ok Q) (reach : W.Reach init ok p) :
    C.inv p.shared ∧ ∀ t ∈ p.tasks, C.Kept W Q p.shared t := by
  refine reach.invariant (P := fun p => C.inv p.shared ∧ ∀ t ∈ p.tasks, C.Kept W Q p.shared t)
    (fun s hs => ⟨H.init s hs, by simp⟩) ?_
  rintro p l p' - ⟨inv, kept⟩ met step
  cases step with
  | start c =>
    refine ⟨inv, fun t ht => ?_⟩
    rcases List.mem_append.mp ht with ht | ht
    · exact kept t ht
    · obtain rfl := List.mem_singleton.mp ht
      exact ⟨H.code c _ inv, Each.nil, by simp [Made], by simp, .nil⟩
  | call task here call =>
    have ht := List.mem_of_getElem? task
    obtain ⟨⟨hinv, hrely⟩, hkept⟩ := (kept _ ht).advance H inv here call (H.call _ _ _ _ met)
    refine ⟨hinv, fun u hu => ?_⟩
    rcases World.mem_tasks_set hu with rfl | hu
    · exact hkept
    · exact (kept u hu).rely H hrely
  | move moved =>
    obtain ⟨hinv, hrely⟩ := H.move _ _ _ met inv moved
    exact ⟨hinv, fun t ht => (kept t ht).rely H hrely⟩

/-- The contract that only says how the shared state evolves. -/
def timeline (can : Cmd → Event Op Res State → Prop) (R : State → State → Prop) :
    Contract Op Res Cmd State where
  inv _ := True
  rely := R
  can := can
  guar _ _ _ := True

theorem timeline_keeps {can : Cmd → Event Op Res State → Prop} {R : State → State → Prop}
    (call : ∀ e, W.Calls e → can c e → R e.before e.after) (p : Prog Op Res α) :
    (timeline can R).Keeps W c (fun _ _ _ => True) p h s := by
  induction p generalizing h s with
  | ret a => trivial
  | call op rest ih =>
    intro before _ _ answer after called allowed
    exact ⟨⟨trivial, call _ called allowed, trivial⟩, ih _⟩

theorem timeline_holds {can : Cmd → Event Op Res State → Prop} {R : State → State → Prop}
    (refl : ∀ s, R s s) (trans : ∀ a b c, R a b → R b c → R a c)
    (met : ∀ p i c e, ok p (.call i c e) → can c e)
    (call : ∀ c e, W.Calls e → can c e → R e.before e.after)
    (move : ∀ p m after, ok p (.move m) → W.move m p.shared = some after → R p.shared after) :
    (timeline can R).Holds W init ok fun _ _ _ _ => True where
  refl := refl
  trans := trans
  init _ _ := trivial
  move p m after met _ moved := ⟨trivial, move p m after met moved⟩
  call := met
  code c _ _ := timeline_keeps (call c) _
  stable _ _ _ _ _ _ _ := trivial

/-- The contract that asks for nothing: what a program shows under it holds whatever runs beside. -/
abbrev anything : Contract Op Res Cmd State := timeline (fun _ _ => True) fun _ _ => True

theorem anything_op {Q : β → List (Event Op Res State) → State → Prop} {op : Op}
    {rest : Res op → Prog Op Res β}
    (next : ∀ before answer after, W.Calls ⟨op, before, answer, after⟩ →
      anything.Keeps W c Q (rest answer) (h ++ [⟨op, before, answer, after⟩]) after) :
    anything.Keeps W c Q (Prog.perform op >>= rest) h s :=
  fun before _ _ answer after call _ =>
    ⟨⟨trivial, trivial, trivial⟩, next before answer after call⟩

/-- What a command shows of its result and its calls, whatever runs beside. -/
theorem anything_of_reach {Q : Cmd → Out → List (Event Op Res State) → Prop}
    (code : ∀ c s, anything.Keeps W c (fun a h _ => Q c a h) (W.code c) [] s)
    (reach : W.Reach init ok p) {t : Task Op Res Out Cmd State} (task : t ∈ p.tasks) {a : Out}
    (result : t.result? = some a) : Q t.cmd a t.calls := by
  have holds : anything.Holds W init ok fun c a h _ => Q c a h :=
    { refl := fun _ => trivial
      trans := fun _ _ _ _ _ => trivial
      init := fun _ _ => trivial
      move := fun _ _ _ _ _ _ => ⟨trivial, trivial⟩
      call := fun _ _ _ _ _ => trivial
      code := fun c s _ => code c s
      stable := fun _ _ _ _ _ _ shown => shown }
  have keeps := ((holds.reach reach).2 t task).keeps
  rwa [Task.result?_eq_some.mp result] at keeps

/-- Any two calls of different tasks come one after the other: what the first led to is in the
past of the second. -/
def Ordered (C : Contract Op Res Cmd State) (p : Pool Op Res Out Cmd State) : Prop :=
  ∀ (i j : Nat) (t u : Task Op Res Out Cmd State), p.tasks[i]? = some t → p.tasks[j]? = some u →
    i ≠ j → ∀ e ∈ t.calls, ∀ f ∈ u.calls, C.rely e.after f.before ∨ C.rely f.after e.before

theorem Holds.ordered (H : C.Holds W init ok Q) (reach : W.Reach init ok p) : C.Ordered p := by
  refine reach.invariant (P := C.Ordered) (fun s _ => by simp [Ordered]) ?_
  intro p l p' reach ih met step
  cases step with
  | start c =>
    -- A new task has made no call yet.
    have old : ∀ (k : Nat) (v : Task Op Res Out Cmd State), v.calls ≠ [] →
        (p.tasks ++ [⟨c, W.code c, []⟩])[k]? = some v → p.tasks[k]? = some v := by
      intro k v hv hk
      rw [List.getElem?_append] at hk
      split at hk
      · exact hk
      · obtain ⟨_, rfl⟩ := List.getElem?_eq_some_iff.mp hk
        simp at hv
    intro i j t u hi hj ne e he f hf
    exact ih i j t u (old i t (List.ne_nil_of_mem he) hi) (old j u (List.ne_nil_of_mem hf) hj) ne
      e he f hf
  | @call k v op rest answer after task here call =>
    have past : ∀ w ∈ p.tasks, ∀ e ∈ w.calls, C.rely e.after p.shared :=
      fun w hw e he => ((H.reach reach).2 w hw).past e he
    -- The call made now comes after every call of the other tasks.
    have split : ∀ (m : Nat) (w : Task Op Res Out Cmd State),
        (p.tasks.set k (v.advance ⟨op, p.shared, answer, after⟩ (rest answer)))[m]? = some w →
        (m = k ∧ w.calls = v.calls ++ [⟨op, p.shared, answer, after⟩]) ∨
          (m ≠ k ∧ p.tasks[m]? = some w) := by
      intro m w hw
      by_cases hm : m = k
      · subst hm
        rw [List.getElem?_set_self (List.getElem?_eq_some_iff.mp task).1] at hw
        cases hw
        exact .inl ⟨rfl, rfl⟩
      · exact .inr ⟨hm, by rwa [List.getElem?_set_ne (Ne.symm hm)] at hw⟩
    intro i j t u hi hj ne e he f hf
    rcases split i t hi with ⟨rfl, ht⟩ | ⟨hik, hi'⟩ <;>
      rcases split j u hj with ⟨rfl, hu⟩ | ⟨hjk, hj'⟩
    · exact absurd rfl ne
    · rw [ht] at he
      rcases List.mem_append.mp he with he | he
      · exact ih i j v u task hj' ne e he f hf
      · obtain rfl := List.mem_singleton.mp he
        exact .inr (past u (List.mem_of_getElem? hj') f hf)
    · rw [hu] at hf
      rcases List.mem_append.mp hf with hf | hf
      · exact ih i j t v hi' task ne e he f hf
      · obtain rfl := List.mem_singleton.mp hf
        exact .inl (past t (List.mem_of_getElem? hi') e he)
    · exact ih i j t u hi' hj' ne e he f hf
  | move moved => exact ih

end Contract

end Interleave
