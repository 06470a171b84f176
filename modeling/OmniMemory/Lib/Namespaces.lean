import Mathlib.Data.Finset.Image
import Mathlib.Logic.Function.Basic
import OmniMemory.Lib.Machine
import OmniMemory.Lib.Program

/-! A store of values under names that many clients share, each under a front that it puts before its
names. `Store.view` is what a client sees through its front. Clients whose fronts do not start with each
other never meet: each goes on as it would on a store of its own. -/

namespace Namespaces

open Interleave

variable {α V C R L : Type}

/-- The values under names, and the names that have one. -/
@[ext] structure Store (α V : Type) where
  value : List α → Option V
  names : Finset (List α)
  mem_names : ∀ name, name ∈ names ↔ (value name).isSome = true

/-- What a client asks of the store: commands on names, one after the other in one step, or the names
that a pattern finds. -/
inductive Call (α C : Type) where
  | each (commands : List (C × List α))
  | search (pattern : List α)

/-- A reply of the store, or that there is none. -/
inductive Reply (α R : Type) where
  | results (rs : List R)
  | names (names : Finset (List α))
  | failed

/-- Neither front starts with the other. -/
def Apart (p q : List α) : Prop := ¬ p <+: q ∧ ¬ q <+: p

namespace Store

theorem ext_value {st st' : Store α V} (same : st.value = st'.value) : st = st' := by
  refine Store.ext same (Finset.ext fun name => ?_)
  rw [st.mem_names, st'.mem_names, same]

theorem mem_no_names (name : List α) : name ∈ (∅ : Finset (List α)) ↔ (none : Option V).isSome = true := by
  simp

/-- The store without a value. -/
def empty : Store α V := ⟨fun _ => none, ∅, mem_no_names⟩

variable [DecidableEq α]

def put (st : Store α V) (name : List α) (v : Option V) : Store α V where
  value := Function.update st.value name v
  names := if v.isSome then insert name st.names else st.names.erase name
  mem_names other := by
    by_cases same : other = name
    · subst same
      cases v <;> simp
    · cases v <;> simp [same, st.mem_names]

/-- What is under the names that start with `front`, by the rest of the name. -/
def view (front : List α) (st : Store α V) : Store α V where
  value name := st.value (front ++ name)
  names := (st.names.filter (front <+: ·)).image (·.drop front.length)
  mem_names name := by
    simp only [Finset.mem_image, Finset.mem_filter, st.mem_names]
    constructor
    · rintro ⟨_, ⟨there, rest, rfl⟩, rfl⟩
      simpa using there
    · intro there
      exact ⟨front ++ name, ⟨there, List.prefix_append _ _⟩, by simp⟩

/-- What a command does to the value of a name. -/
def each (exec : C → Option V → R × Option V) : List (C × List α) → Store α V → List R × Store α V
  | [], st => ([], st)
  | (c, name) :: rest, st =>
    let (r, v) := exec c (st.value name)
    let (rs, st) := each exec rest (st.put name v)
    (r :: rs, st)

/-- A call of a client; `finds pattern name` says that the pattern finds the name. -/
def run (exec : C → Option V → R × Option V) (finds : List α → List α → Bool) (st : Store α V) :
    Call α C → Reply α R × Store α V
  | .each commands => (.results (each exec commands st).1, (each exec commands st).2)
  | .search pattern => (.names (st.names.filter fun name => finds pattern name = true), st)

end Store

/-- The call with the front before its names. -/
def Call.under (front : List α) : Call α C → Call α C
  | each commands => each (commands.map fun (c, name) => (c, front ++ name))
  | search pattern => search (front ++ pattern)

/-- The reply with as many symbols less before its names. -/
def Reply.under [DecidableEq α] (front : List α) : Reply α R → Reply α R
  | results rs => results rs
  | names ns => names (ns.image (·.drop front.length))
  | failed => failed

section Fronts

variable {p q name name' : List α} {st : Store α V} {v : Option V}

/-- A name below a front is not below one that is apart from it. -/
theorem Apart.outside (apart : Apart p q) : ¬ q <+: p ++ name := by
  intro second
  have first : p <+: p ++ name := List.prefix_append _ _
  rcases List.prefix_or_prefix_of_prefix first second with starts | starts
  · exact apart.1 starts
  · exact apart.2 starts

/-- Fronts that are not apart have a name in common. -/
theorem exists_common (touch : ¬ Apart p q) : ∃ name name', p ++ name = q ++ name' := by
  by_cases starts : p <+: q
  · obtain ⟨rest, rfl⟩ := starts
    exact ⟨rest, [], by simp⟩
  · by_cases starts' : q <+: p
    · obtain ⟨rest, rfl⟩ := starts'
      exact ⟨[], rest, by simp⟩
    · exact absurd ⟨starts, starts'⟩ touch

variable [DecidableEq α]

namespace Store

theorem view_put_own : (st.put (p ++ name) v).view p = (st.view p).put name v := by
  refine ext_value (funext fun other => ?_)
  simp only [view, put, Function.update_apply, List.append_cancel_left_eq]

theorem value_put_outside (outside : ¬ q <+: name') :
    (st.put (q ++ name) v).value name' = st.value name' := by
  have ne : name' ≠ q ++ name := by
    rintro rfl
    exact outside (List.prefix_append _ _)
  simp only [put, Function.update_apply, if_neg ne]

end Store

end Fronts

section Run

variable {exec : C → Option V → R × Option V} {finds : List α → List α → Bool} {p q : List α}
  {st : Store α V} {c : Call α C}

/-- In a pattern, the symbols of the front stand for themselves. -/
def Literal (finds : List α → List α → Bool) (front : List α) : Prop :=
  ∀ pattern name, finds (front ++ pattern) name = true ↔
    ∃ rest, name = front ++ rest ∧ finds pattern rest = true

variable [DecidableEq α]

namespace Store

variable (exec st) in
theorem each_own (commands : List (C × List α)) :
    (each exec (commands.map fun (c, name) => (c, p ++ name)) st).1 = (each exec commands (st.view p)).1 ∧
      (each exec (commands.map fun (c, name) => (c, p ++ name)) st).2.view p =
        (each exec commands (st.view p)).2 := by
  induction commands generalizing st with
  | nil => exact ⟨rfl, rfl⟩
  | cons command rest ih =>
    obtain ⟨c, name⟩ := command
    have here : (st.view p).value name = st.value (p ++ name) := rfl
    obtain ⟨replies, after⟩ := @ih (st.put (p ++ name) (exec c (st.value (p ++ name))).2)
    rw [view_put_own] at replies after
    simp only [List.map_cons, each, here]
    exact ⟨by rw [replies], after⟩

theorem each_outside {name : List α} (outside : ¬ q <+: name) (commands : List (C × List α)) :
    (each exec (commands.map fun (c, name) => (c, q ++ name)) st).2.value name = st.value name := by
  induction commands generalizing st with
  | nil => rfl
  | cons command rest ih =>
    obtain ⟨c, name'⟩ := command
    simp only [List.map_cons, each]
    rw [ih, value_put_outside outside]

variable (exec st) in
/-- A call through a front is the call on what is seen through it. -/
theorem run_own (literal : Literal finds p) (c : Call α C) :
    (st.run exec finds (c.under p)).1.under p = ((st.view p).run exec finds c).1 ∧
      (st.run exec finds (c.under p)).2.view p = ((st.view p).run exec finds c).2 := by
  cases c with
  | each commands =>
    obtain ⟨replies, after⟩ := each_own exec (p := p) st commands
    exact ⟨congrArg Reply.results replies, after⟩
  | search pattern =>
    refine ⟨congrArg Reply.names (Finset.ext fun name => ?_), rfl⟩
    simp only [view, Finset.mem_image, Finset.mem_filter, literal pattern]
    constructor
    · rintro ⟨_, ⟨there, rest, rfl, found⟩, rfl⟩
      simp only [List.drop_left, found, and_true]
      exact ⟨p ++ rest, ⟨there, List.prefix_append _ _⟩, List.drop_left⟩
    · rintro ⟨⟨_, ⟨there, rest, rfl⟩, rfl⟩, found⟩
      simp only [List.drop_left] at found ⊢
      exact ⟨p ++ rest, ⟨there, rest, rfl, found⟩, List.drop_left⟩

/-- A call through a front leaves the names that are not below it. -/
theorem run_outside {name : List α} (outside : ¬ q <+: name) (c : Call α C) :
    (st.run exec finds (c.under q)).2.value name = st.value name := by
  cases c with
  | each commands => exact each_outside outside commands
  | search pattern => rfl

/-- A call through another front is not seen. -/
theorem run_other (apart : Apart p q) (c : Call α C) :
    (st.run exec finds (c.under q)).2.view p = st.view p :=
  ext_value (funext fun _ => run_outside apart.outside c)

end Store

end Run

/-! ### Clients -/

/-- What a client does: it makes calls, one after the other, and has a result. -/
abbrev Session (α C R β : Type) := Prog (Call α C) (fun _ => Reply α R) β

/-- That a client makes its next call; that the call fails, and only `done` of its commands are executed;
that the value under a name goes. -/
inductive Move (α : Type) where
  | goes
  | fails (done : Nat)
  | expires (name : List α)

/-- The call without the commands from position `done` on. -/
def Call.cut (done : Nat) : Call α C → Call α C
  | each commands => each (commands.take done)
  | search pattern => search pattern

variable {A β : Type}

theorem under_cut (front : List α) (done : Nat) (c : Call α C) :
    (c.under front).cut done = (c.cut done).under front := by
  cases c with
  | each commands => simp [Call.under, Call.cut, List.map_take]
  | search pattern => rfl

theorem put_self {Shared Local : Type} {s : System Shared Local} {i : Nat} {t : Local}
    (task : s.tasks[i]? = some t) : s.put i t s.shared = s := by
  obtain ⟨bound, here⟩ := List.getElem?_eq_some_iff.mp task
  rw [System.put, ← here, List.set_getElem_self]

variable [DecidableEq α]

/-- The session through a front. -/
def Session.under (front : List α) : Session α C R β → Session α C R β
  | .ret b => .ret b
  | .call c rest => .call (c.under front) fun reply => Session.under front (rest (reply.under front))

section Alone

variable {exec : C → Option V → R × Option V} {finds : List α → List α → Bool} {p : List α} {st : Store α V}

/-- The session when no other client goes on before it has ended. -/
def Session.runOn (exec : C → Option V → R × Option V) (finds : List α → List α → Bool)
    (session : Session α C R β) (st : Store α V) : β × Store α V :=
  session.run (fun c st => st.run exec finds c) st

variable (exec st) in
theorem runOn_own (literal : Literal finds p) (session : Session α C R β) :
    (Session.runOn exec finds (session.under p) st).1 = (session.runOn exec finds (st.view p)).1 ∧
      (Session.runOn exec finds (session.under p) st).2.view p =
        (session.runOn exec finds (st.view p)).2 := by
  induction session generalizing st with
  | ret b => exact ⟨rfl, rfl⟩
  | call c rest ih =>
    obtain ⟨reply, after⟩ := Store.run_own exec st literal c
    have next := @ih ((st.run exec finds (c.under p)).1.under p) (st.run exec finds (c.under p)).2
    have goes : Session.runOn exec finds (.call c rest) (st.view p) =
        Session.runOn exec finds (rest ((st.run exec finds (c.under p)).1.under p))
          ((st.run exec finds (c.under p)).2.view p) := by
      rw [reply, after]
      rfl
    rw [goes]
    exact next

theorem runOn_outside {name : List α} (outside : ¬ p <+: name) (session : Session α C R β) :
    (Session.runOn exec finds (session.under p) st).2.value name = st.value name := by
  induction session generalizing st with
  | ret b => rfl
  | call c rest ih => exact (ih _).trans (Store.run_outside outside c)

end Alone

/-- A client that has been started, and what is left of its session. -/
structure Started (A S : Type) where
  client : A
  session : S

/-- Clients of a store, each with the session that `enter` gives. -/
def clients (enter : A → Session α C R β) (exec : C → Option V → R × Option V)
    (finds : List α → List α → Bool) :
    Machine (Store α V) (Started A (Session α C R β)) A (Move α) where
  enter _ a := ⟨a, enter a⟩
  resume _ move t st :=
    match move, t.session with
    | .expires name, _ => some (t, st.put name none)
    | _, .ret _ => none
    | .goes, .call c rest => some (⟨t.client, rest (st.run exec finds c).1⟩, (st.run exec finds c).2)
    | .fails done, .call c rest => some (⟨t.client, rest .failed⟩, (st.run exec finds (c.cut done)).2)

/-- Only what is as `P` says is started. -/
def Starts (P : A → Prop) (_ : System (Store α V) (Started A (Session α C R β))) :
    Machine.Act A (Move α) → Prop
  | .start a => P a
  | .resume _ _ => True

/-- What a client is when seen through `p`: one with the front `p` is the client without it, one with a
front that is apart from `p` is idle. -/
inductive Seen (p : List α) (front : A → List α) (bare : A → A) (idle : Started A (Session α C R β)) :
    Started A (Session α C R β) → Started A (Session α C R β) → Prop where
  | own {a : A} (same : front a = p) (session : Session α C R β) :
      Seen p front bare idle ⟨a, session.under p⟩ ⟨bare a, session⟩
  | other {a : A} (apart : Apart p (front a)) (session : Session α C R β) :
      Seen p front bare idle ⟨a, session.under (front a)⟩ idle

/-- What a system is when seen through `p`. -/
structure Sees (p : List α) (front : A → List α) (bare : A → A) (idle : Started A (Session α C R β))
    (s s' : System (Store α V) (Started A (Session α C R β))) : Prop where
  shared : s'.shared = s.shared.view p
  tasks : List.Forall₂ (Seen p front bare idle) s.tasks s'.tasks

section Sharing

variable {enter : A → Session α C R β} {exec : C → Option V → R × Option V} {finds : List α → List α → Bool}
  {p q : List α} {s s' : System (Store α V) (Started A (Session α C R β))} {a a' : A}
  {session : Session α C R β} {t t' idle : Started A (Session α C R β)} {front : A → List α} {bare : A → A}
  {init : Store α V → Prop} {st st' : Store α V} {b : β}

/-- A client with the front `p` that has ended has the result of the client without it. -/
theorem Seen.result (seen : Seen p front bare idle ⟨a, .ret b⟩ t') (same : front a = p) :
    t' = ⟨bare a, .ret b⟩ := by
  generalize ended : (⟨a, .ret b⟩ : Started A (Session α C R β)) = t at seen
  cases seen with
  | own _ session =>
    cases session with
    | ret b' =>
      cases ended
      rfl
    | call c rest => cases ended
  | other apart session =>
    obtain rfl := congrArg Started.client ended
    exact absurd (same ▸ List.prefix_refl p) apart.1

/-- A value that goes is one that is seen to go, or is not seen. -/
theorem view_expires (name : List α) (st : Store α V) :
    (∃ rest, (st.put name none).view p = (st.view p).put rest none) ∨
      (st.put name none).view p = st.view p := by
  by_cases inside : p <+: name
  · obtain ⟨rest, rfl⟩ := inside
    exact .inl ⟨rest, Store.view_put_own⟩
  · refine .inr (Store.ext_value (funext fun other => ?_))
    have ne : p ++ other ≠ name := by
      rintro rfl
      exact inside (List.prefix_append _ _)
    simp only [Store.view, Store.put, Function.update_apply, if_neg ne]

/-- A step of a session through `p` is one of the session without a front, on what is seen, or is not
seen. -/
theorem resume_own (literal : Literal finds p) {i : Nat} {move : Move α}
    (ran : (clients enter exec finds).resume i move ⟨a, session.under p⟩ st = some (t', st')) :
    ∃ next : Session α C R β, t' = ⟨a, next.under p⟩ ∧ ((next = session ∧ st'.view p = st.view p) ∨
      ∃ move', (clients enter exec finds).resume i move' ⟨a', session⟩ (st.view p) =
        some (⟨a', next⟩, st'.view p)) := by
  cases move with
  | expires name =>
    cases ran
    refine ⟨session, rfl, ?_⟩
    rcases view_expires (p := p) name st with ⟨rest, seen⟩ | unseen
    · exact .inr ⟨.expires rest, by rw [seen]; rfl⟩
    · exact .inl ⟨rfl, unseen⟩
  | goes =>
    cases session with
    | ret b => cases ran
    | call c rest =>
      cases ran
      obtain ⟨reply, seen⟩ := Store.run_own exec st literal c
      refine ⟨_, rfl, .inr ⟨.goes, ?_⟩⟩
      rw [seen, reply]
      rfl
  | fails done =>
    cases session with
    | ret b => cases ran
    | call c rest =>
      cases ran
      refine ⟨rest .failed, rfl, .inr ⟨.fails done, ?_⟩⟩
      rw [under_cut, (Store.run_own exec st literal (c.cut done)).2]
      rfl

/-- A step of a session through a front that is apart from `p` is not seen, but for a value that goes. -/
theorem resume_other (apart : Apart p q) {i : Nat} {move : Move α}
    (ran : (clients enter exec finds).resume i move ⟨a, session.under q⟩ st = some (t', st')) :
    ∃ next : Session α C R β, t' = ⟨a, next.under q⟩ ∧ (st'.view p = st.view p ∨
      ∃ move', (clients enter exec finds).resume i move' idle (st.view p) = some (idle, st'.view p)) := by
  cases move with
  | expires name =>
    cases ran
    refine ⟨session, rfl, ?_⟩
    rcases view_expires (p := p) name st with ⟨rest, seen⟩ | unseen
    · exact .inr ⟨.expires rest, by rw [seen]; rfl⟩
    · exact .inl unseen
  | goes =>
    cases session with
    | ret b => cases ran
    | call c rest =>
      cases ran
      exact ⟨_, rfl, .inl (Store.run_other apart c)⟩
  | fails done =>
    cases session with
    | ret b => cases ran
    | call c rest =>
      cases ran
      refine ⟨rest .failed, rfl, .inl ?_⟩
      rw [under_cut, Store.run_other apart]

theorem Sees.task (sees : Sees p front bare idle s s') {i : Nat} (task : s.tasks[i]? = some t) :
    ∃ t', s'.tasks[i]? = some t' ∧ Seen p front bare idle t t' := by
  obtain ⟨bound, rfl⟩ := List.getElem?_eq_some_iff.mp task
  have bound' : i < s'.tasks.length := sees.tasks.length_eq ▸ bound
  exact ⟨s'.tasks[i], List.getElem?_eq_getElem bound', sees.tasks.get bound bound'⟩

theorem Sees.put (sees : Sees p front bare idle s s') {i : Nat} (one : Seen p front bare idle t t') :
    Sees p front bare idle (s.put i t st) (s'.put i t' (st.view p)) where
  shared := rfl
  tasks := by
    refine List.forall₂_iff_get.mpr ⟨by simp [System.put, sees.tasks.length_eq], fun k bound bound' => ?_⟩
    simp only [System.put, List.get_eq_getElem, List.getElem_set]
    by_cases here : i = k
    · simpa only [here, if_true] using one
    · simp only [here, if_false]
      exact sees.tasks.get _ _

/-- However clients share a store, those with the front `p` go on as they do on a store of their own without
a front, if all other fronts are apart from it. -/
theorem sees_of_reach (literal : Literal finds p)
    (enter_under : ∀ a, enter a = (enter (bare a)).under (front a)) (rest : A)
    (reach : (clients enter exec finds).Reach init
      (Starts fun a => front a = p ∨ Apart p (front a)) s) :
    ∃ s', (clients enter exec finds).Reach (fun st => ∃ whole, init whole ∧ st = whole.view p)
      (Starts fun a => a = rest ∨ ∃ own, front own = p ∧ a = bare own) s' ∧
      Sees p front bare ⟨rest, enter rest⟩ s s' := by
  refine reach.invariant (P := fun s => ∃ s', (clients enter exec finds).Reach
    (fun st => ∃ whole, init whole ∧ st = whole.view p)
    (Starts fun a => a = rest ∨ ∃ own, front own = p ∧ a = bare own) s' ∧
    Sees p front bare ⟨rest, enter rest⟩ s s') ?_ ?_ ?_
  · exact fun st first => ⟨_, .init ⟨st, first, rfl⟩, rfl, .nil⟩
  · rintro s a ⟨s', reached, sees⟩ start
    rcases start with own | apart
    · refine ⟨s'.add ⟨bare a, enter (bare a)⟩, .step (a := .start (bare a)) reached (.inr ⟨a, own, rfl⟩) rfl,
        sees.shared, List.rel_append sees.tasks (.cons ?_ .nil)⟩
      show Seen p front bare ⟨rest, enter rest⟩ ⟨a, enter a⟩ _
      rw [enter_under a, own]
      exact .own own _
    · refine ⟨s'.add ⟨rest, enter rest⟩, .step (a := .start rest) reached (.inl rfl) rfl, sees.shared,
        List.rel_append sees.tasks (.cons ?_ .nil)⟩
      show Seen p front bare ⟨rest, enter rest⟩ ⟨a, enter a⟩ _
      rw [enter_under a]
      exact .other apart _
  · rintro s i move t t' st ⟨s', reached, sees⟩ - task ran
    obtain ⟨seen, there, one⟩ := sees.task task
    have moved : ∀ next, Seen p front bare ⟨rest, enter rest⟩ t' next →
        (∃ move', (clients enter exec finds).resume i move' seen s'.shared = some (next, st.view p)) →
        ∃ s', (clients enter exec finds).Reach (fun st => ∃ whole, init whole ∧ st = whole.view p)
          (Starts fun a => a = rest ∨ ∃ own, front own = p ∧ a = bare own) s' ∧
          Sees p front bare ⟨rest, enter rest⟩ (s.put i t' st) s' := by
      rintro next now ⟨move', goes⟩
      exact ⟨_, .step (a := .resume i move') reached trivial
        (Machine.next_resume.mpr ⟨_, _, _, there, goes, rfl⟩), sees.put now⟩
    have stayed : Seen p front bare ⟨rest, enter rest⟩ t' seen → st.view p = s.shared.view p →
        ∃ s', (clients enter exec finds).Reach (fun st => ∃ whole, init whole ∧ st = whole.view p)
          (Starts fun a => a = rest ∨ ∃ own, front own = p ∧ a = bare own) s' ∧
          Sees p front bare ⟨rest, enter rest⟩ (s.put i t' st) s' := by
      intro now same
      have kept : Sees p front bare ⟨rest, enter rest⟩ (s.put i t' st) (s'.put i seen (st.view p)) :=
        sees.put now
      rw [same, ← sees.shared, put_self there] at kept
      exact ⟨s', reached, kept⟩
    cases one with
    | own own session =>
      obtain ⟨next, rfl, ⟨rfl, same⟩ | goes⟩ := resume_own literal ran
      · exact stayed (.own own _) same
      · exact moved _ (.own own _) (sees.shared ▸ goes)
    | other apart session =>
      obtain ⟨next, rfl, same | goes⟩ := resume_other apart ran
      · exact stayed (.other apart _) same
      · exact moved _ (.other apart _) (sees.shared ▸ goes)

end Sharing

end Namespaces
