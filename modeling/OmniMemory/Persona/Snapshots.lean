import OmniMemory.Lib.Leading
import OmniMemory.Lib.Pages
import OmniMemory.Persona.Profile
import Mathlib.Data.String.Basic

/-! `AdapterPostgresPersona`: the table of persona snapshots, and which users `get_users_needing_rebuild`
selects. It looks at all snapshots of a user and not at the latest, so it selects as it should
exactly if the users that it takes for stale come too late to be among those that it returns. -/

namespace OmniMemory.Persona

open Interleave Pages

/-- The rows of `user_persona_snapshots`, whose user and version are unique. -/
abbrev Snapshots := Table fun p : ModelUserPersonaV1 => (p.userId, p.personaVersion)

namespace AdapterPostgresPersona

variable {κ : Type} [LinearOrder κ]

/-- `store`: whether the snapshot was inserted, and the table after it. -/
def store (table : Snapshots) (persona : ModelUserPersonaV1) : Bool × Snapshots :=
  ((table.find? (persona.userId, persona.personaVersion)).isNone, table.add persona)

/-- `get_latest`. -/
def getLatest (table : Snapshots) (userId : String) : Option ModelUserPersonaV1 :=
  ((table.rows.filter (·.userId = userId)).insertionSort
    fun p q => q.personaVersion ≤ p.personaVersion).head?

/-- `get_users_needing_rebuild`, in the database's order of the user ids. -/
def getUsersNeedingRebuild (collate : String ↪ κ) (table : Snapshots) (since : Option Instant) :
    List String :=
  (((table.rows.filter fun p => since.all (p.createdAt < ·)).map (·.userId)).dedup.insertionSort
    fun u v => collate u ≤ collate v).take 100

/-- The table after a history of stores. -/
def stored (history : List ModelUserPersonaV1) : Snapshots :=
  history.foldl (fun table persona => (store table persona).2) .empty

end AdapterPostgresPersona

open AdapterPostgresPersona

section Selection

variable {κ : Type} [LinearOrder κ] {collate : String ↪ κ} {table : Snapshots} {since : Instant}
  {userId : String} {p : ModelUserPersonaV1}

/-- The latest snapshot of the user was created before the time. -/
def Stale (table : Snapshots) (since : Instant) (userId : String) : Prop :=
  ∃ p, getLatest table userId = some p ∧ p.createdAt < since

instance : Decidable (Stale table since userId) :=
  decidable_of_iff ((getLatest table userId).any (·.createdAt < since) = true) (by
    simp [Stale, Option.any_eq_true])

/-- Some snapshot of the user was created before the time. -/
def HasOlder (table : Snapshots) (since : Instant) (userId : String) : Prop :=
  ∃ p ∈ table, p.userId = userId ∧ p.createdAt < since

/-- The versions of a user's snapshots increase with the times at which they were created. -/
def Ordered (table : Snapshots) : Prop :=
  ∀ p ∈ table.rows, ∀ q ∈ table.rows, p.userId = q.userId →
    (p.personaVersion < q.personaVersion ↔ p.createdAt < q.createdAt)

instance : Decidable (Ordered table) := inferInstanceAs (Decidable (∀ p ∈ _, ∀ q ∈ _, _ → _))

/-- The ids are the smallest of the chosen ones up to the limit, in order and each once. -/
structure Smallest (collate : String ↪ κ) (chosen : String → Prop) (limit : Nat)
    (ids : List String) : Prop where
  sorted : ids.Pairwise fun u v => collate u < collate v
  among : ∀ u ∈ ids, chosen u
  length : ids.length ≤ limit
  smallest : ∀ u, chosen u → u ∉ ids → ids.length = limit ∧ ∀ v ∈ ids, collate v < collate u

/-- The latest snapshot of a user is the one with the greatest version. -/
theorem getLatest_eq_some : getLatest table userId = some p ↔
    p ∈ table ∧ p.userId = userId ∧
      ∀ q ∈ table, q.userId = userId → q.personaVersion ≤ p.personaVersion := by
  have orders := orders_insertionSort (·.personaVersion) (table.rows.filter (·.userId = userId))
  have mem_iff : ∀ q, q ∈ table.rows.filter (·.userId = userId) ↔ q ∈ table ∧ q.userId = userId := by
    intro q
    rw [List.mem_filter, decide_eq_true_eq, Table.mem_def]
  have spec : ∀ q, getLatest table userId = some q → (q ∈ table ∧ q.userId = userId) ∧
      ∀ r ∈ table, r.userId = userId → r.personaVersion ≤ q.personaVersion := by
    intro q latest
    obtain ⟨mem, greatest⟩ := orders.of_head? latest
    exact ⟨(mem_iff q).mp mem, fun r here same => greatest r ((mem_iff r).mpr ⟨here, same⟩)⟩
  constructor
  · intro latest
    obtain ⟨⟨mem, user⟩, greatest⟩ := spec p latest
    exact ⟨mem, user, greatest⟩
  · intro ⟨here, same, most⟩
    cases latest : getLatest table userId with
    | none =>
      have empty := List.head?_eq_none_iff.mp latest
      have mem := orders.perm.mem_iff.mpr ((mem_iff p).mpr ⟨here, same⟩)
      rw [empty] at mem
      contradiction
    | some first =>
      obtain ⟨⟨mem, user⟩, greatest⟩ := spec first latest
      have version := le_antisymm (greatest p here same) (most first mem user)
      exact congrArg some (table.eq_of_key mem here (Prod.ext (user.trans same.symm) version.symm))

theorem Stale.hasOlder (stale : Stale table since userId) : HasOlder table since userId := by
  obtain ⟨p, latest, early⟩ := stale
  obtain ⟨mem, user, -⟩ := getLatest_eq_some.mp latest
  exact ⟨p, mem, user, early⟩

variable (collate table since) in
/-- All users with a snapshot from before the time, in order. -/
def olderUsers : List String :=
  ((table.rows.filter fun p => decide (p.createdAt < since)).map (·.userId)).dedup.insertionSort
    fun u v => collate u ≤ collate v

theorem mem_olderUsers : userId ∈ olderUsers collate table since ↔ HasOlder table since userId := by
  simp only [olderUsers, List.mem_insertionSort, List.mem_dedup, List.mem_map, List.mem_filter,
    decide_eq_true_eq, HasOlder, Table.mem_def]
  exact exists_congr fun p => by tauto

theorem olderUsers_sorted :
    (olderUsers collate table since).Pairwise fun u v => collate u < collate v := by
  have nodup : (olderUsers collate table since).Nodup :=
    (List.perm_insertionSort _ _).nodup_iff.mpr (List.nodup_dedup _)
  have sorted := List.pairwise_insertionSort (fun u v => collate u ≤ collate v)
    ((table.rows.filter fun p => decide (p.createdAt < since)).map (·.userId)).dedup
  exact sorted.imp₂ (fun u v le ne => lt_of_le_of_ne le (collate.injective.ne ne)) nodup

/-- The first users are the smallest of the stale ones exactly if they are stale. -/
theorem smallest_take_iff {l : List String} {chosen : String → Prop} {limit : Nat}
    (sorted : l.Pairwise fun u v => collate u < collate v) (inside : ∀ u, chosen u → u ∈ l) :
    Smallest collate chosen limit (l.take limit) ↔ ∀ u ∈ l.take limit, chosen u := by
  refine ⟨(·.among), fun all => ⟨sorted.sublist (List.take_sublist _ _), all, ?_, ?_⟩⟩
  · exact List.length_take_le _ _
  · intro u chosen absent
    have mem := inside u chosen
    rw [← List.take_append_drop limit l] at mem sorted
    have later := (List.mem_append.mp mem).resolve_left absent
    refine ⟨?_, fun v first => (List.pairwise_append.mp sorted).2.2 v first u later⟩
    have some := List.length_pos_of_mem later
    rw [List.length_drop] at some
    rw [List.length_take]
    omega

/-- The users selected are the smallest whose latest snapshot is older exactly if a hundred of them
come before every user who only has a former snapshot that is older. -/
theorem getUsersNeedingRebuild_smallest_iff (collate : String ↪ κ)
    (history : List ModelUserPersonaV1) (since : Instant) :
    Smallest collate (Stale (stored history) since) 100
        (getUsersNeedingRebuild collate (stored history) (some since)) ↔
      ∀ u, HasOlder (stored history) since u → ¬ Stale (stored history) since u →
        100 ≤ {v | Stale (stored history) since v ∧ collate v < collate u}.encard := by
  generalize stored history = table
  have sorted : (olderUsers collate table since).Pairwise fun u v => collate u < collate v :=
    olderUsers_sorted
  have nodup : (olderUsers collate table since).Nodup := sorted.imp fun less same => by
    rw [same] at less
    exact lt_irrefl _ less
  show Smallest collate _ 100 ((olderUsers collate table since).take 100) ↔ _
  rw [smallest_take_iff sorted fun u stale => mem_olderUsers.mpr stale.hasOlder]
  have kept : _ ↔ Leading.Precedes (fun u => decide (Stale table since u)) 100
      (olderUsers collate table since) := Leading.forall_mem_take_iff
  simp only [decide_eq_true_eq] at kept
  rw [kept, Leading.precedes_iff_of_sorted (fun u v less => lt_asymm less) sorted]
  refine forall_congr' fun u => ?_
  rw [mem_olderUsers, decide_eq_false_iff_not]
  refine imp_congr_right fun _ => imp_congr_right fun _ => ?_
  have count := Leading.countP_eq_encard nodup
    (p := fun v => decide (Stale table since v) && decide (collate v < collate u))
  have same : {v | v ∈ olderUsers collate table since ∧
      (decide (Stale table since v) && decide (collate v < collate u)) = true} =
      {v | Stale table since v ∧ collate v < collate u} := by
    ext v
    simp only [Set.mem_ofPred_eq, Bool.and_eq_true, decide_eq_true_eq, mem_olderUsers]
    exact ⟨fun h => h.2, fun h => ⟨h.1.hasOlder, h⟩⟩
  rw [← same, ← count]
  exact_mod_cast Iff.rfl

end Selection

/-- A user whose first snapshot is from before the time, and whose second is not. -/
theorem not_smallest_rebuilt : ¬ ∀ (history : List ModelUserPersonaV1) (since : Instant),
    Ordered (stored history) → Smallest (.refl String) (Stale (stored history) since) 100
      (getUsersNeedingRebuild (.refl String) (stored history) (some since)) := by
  intro all
  let history : List ModelUserPersonaV1 :=
    [{ userId := "a", createdAt := 0 }, { userId := "a", personaVersion := 2, createdAt := 10 }]
  have selected := all history 5 (by decide +kernel)
  have mem : "a" ∈ getUsersNeedingRebuild (.refl String) (stored history) (some 5) := by
    decide +kernel
  exact absurd (selected.among "a" mem) (by decide +kernel)

end OmniMemory.Persona
