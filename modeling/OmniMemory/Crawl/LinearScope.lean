import Mathlib.Data.List.Find

/-! `resolve_scope_for_linear`: the scan returns at the first mapping for the team and the project,
and remembers the last mapping for the team alone that it went past. For no project it returns at
the first of these. -/

namespace OmniMemory

structure ModelLinearScopeMapping where
  team : String
  project : Option String
  scopeRef : String
  minLength : team ≠ "" ∧ scopeRef ≠ ""

namespace Crawl

/-- The loop, with the fallback it has so far. -/
def scanLinear (team : String) (project : Option String) :
    List ModelLinearScopeMapping → Option String → Option String
  | [], fallback => fallback
  | mapping :: rest, fallback =>
    if mapping.team ≠ team then scanLinear team project rest fallback
    else if mapping.project = project then some mapping.scopeRef
    else if mapping.project = none then scanLinear team project rest (some mapping.scopeRef)
    else scanLinear team project rest fallback

/-- `ModelScopeMappingConfig.resolve_scope_for_linear`, of its `linear_mappings`. -/
def resolveScopeForLinear (linearMappings : List ModelLinearScopeMapping) (team : String)
    (project : Option String) : Option String :=
  scanLinear team project linearMappings none

section Scan

variable {ms ms' : List ModelLinearScopeMapping} {m : ModelLinearScopeMapping} {team : String}
  {project : Option String} {fallback : Option String}

/-- The mapping is for exactly this team and project. -/
def IsFor (team : String) (project : Option String) (m : ModelLinearScopeMapping) : Prop :=
  m.team = team ∧ m.project = project

instance (team : String) (project : Option String) : DecidablePred (IsFor team project) :=
  fun _ => inferInstanceAs (Decidable (_ ∧ _))

/-- The scope of the first mapping for exactly a team and a project. -/
def firstScope (ms : List ModelLinearScopeMapping) (team : String) (project : Option String) :
    Option String :=
  (ms.find? fun m => IsFor team project m).map (·.scopeRef)

def lastScope (ms : List ModelLinearScopeMapping) (team : String) (project : Option String) :
    Option String :=
  firstScope ms.reverse team project

theorem firstScope_cons_of_isFor (same : IsFor team project m) :
    firstScope (m :: ms) team project = some m.scopeRef := by
  rw [firstScope, List.find?_cons_of_pos (by simpa using same), Option.map_some]

theorem firstScope_cons_of_not (other : ¬ IsFor team project m) :
    firstScope (m :: ms) team project = firstScope ms team project := by
  rw [firstScope, List.find?_cons_of_neg (by simpa using other), firstScope]

theorem firstScope_append : firstScope (ms ++ ms') team project =
    (firstScope ms team project).or (firstScope ms' team project) := by
  rw [firstScope, List.find?_append, Option.map_or, firstScope, firstScope]

theorem lastScope_cons_of_isFor (same : IsFor team project m) :
    lastScope (m :: ms) team project = (lastScope ms team project).or (some m.scopeRef) := by
  rw [lastScope, List.reverse_cons, firstScope_append, firstScope_cons_of_isFor same, lastScope]

theorem lastScope_cons_of_not (other : ¬ IsFor team project m) :
    lastScope (m :: ms) team project = lastScope ms team project := by
  rw [lastScope, List.reverse_cons, firstScope_append, firstScope_cons_of_not other, lastScope]
  exact Option.or_none

/-- What the loop ends with: the first exact scope, or else the last of the team alone. -/
theorem scanLinear_eq : scanLinear team project ms fallback =
    (firstScope ms team project).or ((lastScope ms team none).or fallback) := by
  induction ms generalizing fallback with
  | nil => rfl
  | cons m ms ih =>
    unfold scanLinear
    split
    · rename_i elsewhere
      rw [ih, firstScope_cons_of_not fun same => elsewhere same.1,
        lastScope_cons_of_not fun same => elsewhere same.1]
    · rename_i here
      have here := not_not.mp here
      split
      · rename_i same
        rw [firstScope_cons_of_isFor ⟨here, same⟩, Option.some_or]
      · rename_i other
        rw [firstScope_cons_of_not fun same => other same.2]
        split
        · rename_i alone
          rw [ih, lastScope_cons_of_isFor ⟨here, alone⟩, Option.or_assoc, Option.some_or]
        · rename_i named
          rw [ih, lastScope_cons_of_not fun same => named same.2]

theorem resolveScopeForLinear_eq : resolveScopeForLinear ms team project =
    (firstScope ms team project).or (lastScope ms team none) := by
  rw [resolveScopeForLinear, scanLinear_eq, Option.or_none]

theorem isSome_firstScope :
    (firstScope ms team project).isSome = true ↔ ∃ m ∈ ms, IsFor team project m := by
  rw [firstScope, Option.isSome_map, List.find?_isSome]
  simp

theorem isSome_lastScope :
    (lastScope ms team project).isSome = (firstScope ms team project).isSome := by
  rw [Bool.eq_iff_iff, lastScope, isSome_firstScope, isSome_firstScope]
  simp

/-- For no project, the first mapping of the team alone is taken. -/
theorem resolveScopeForLinear_none :
    resolveScopeForLinear ms team none = firstScope ms team none := by
  rw [resolveScopeForLinear_eq]
  cases first : firstScope ms team none with
  | some scope => rfl
  | none =>
    have last : lastScope ms team none = none := by
      rw [← Option.isNone_iff_eq_none, ← Option.not_isSome, isSome_lastScope, first]
      rfl
    rw [Option.none_or, last]

/-- Only the mappings for the team with the project, or with none, count. -/
theorem resolveScopeForLinear_filter : resolveScopeForLinear
    (ms.filter fun m => IsFor team project m ∨ IsFor team none m) team project =
      resolveScopeForLinear ms team project := by
  have kept {q : Option String} (read : q = project ∨ q = none) (l : List ModelLinearScopeMapping) :
      firstScope (l.filter fun m => IsFor team project m ∨ IsFor team none m) team q =
        firstScope l team q := by
    rw [firstScope, List.find?_filter, firstScope]
    congr
    funext m
    rcases read with rfl | rfl <;> simp +contextual
  rw [resolveScopeForLinear_eq, kept (.inl rfl), lastScope, ← List.filter_reverse, kept (.inr rfl),
    resolveScopeForLinear_eq, lastScope]

end Scan

/-- The scope of a team and a project is that of the first mapping for both, or else that of the
team's unassigned issues, and mappings for other teams and projects do not matter. -/
structure FallsBack (ms : List ModelLinearScopeMapping) (team : String) (project : Option String) :
    Prop where
  mapped : ∀ scope, firstScope ms team project = some scope →
    resolveScopeForLinear ms team project = some scope
  unmapped : firstScope ms team project = none →
    resolveScopeForLinear ms team project = resolveScopeForLinear ms team none
  independent : ∀ ms', (ms'.filter fun m => IsFor team project m ∨ IsFor team none m) =
    (ms.filter fun m => IsFor team project m ∨ IsFor team none m) →
      resolveScopeForLinear ms' team project = resolveScopeForLinear ms team project

/-- A project without a mapping gets the scope of unassigned issues just when the team's mappings
for no project begin and end with the same scope. -/
theorem fallsBack_iff (ms : List ModelLinearScopeMapping) (team : String)
    (project : Option String) :
    FallsBack ms team project ↔
      project = none ∨ (∃ m ∈ ms, IsFor team project m) ∨
        firstScope ms team none = lastScope ms team none := by
  constructor
  · intro law
    by_cases mapped : ∃ m ∈ ms, IsFor team project m
    · exact .inr (.inl mapped)
    · have unmapped : firstScope ms team project = none :=
        Option.not_isSome_iff_eq_none.mp (mt isSome_firstScope.mp mapped)
      have same := law.unmapped unmapped
      rw [resolveScopeForLinear_none, resolveScopeForLinear_eq, unmapped, Option.none_or] at same
      exact .inr (.inr same.symm)
  · intro condition
    refine ⟨fun scope first => ?_, fun unmapped => ?_, fun ms' same => ?_⟩
    · rw [resolveScopeForLinear_eq, first, Option.some_or]
    · rcases condition with rfl | mapped | same
      · rfl
      · have some_ := isSome_firstScope.mpr mapped
        rw [unmapped] at some_
        cases some_
      · rw [resolveScopeForLinear_none, resolveScopeForLinear_eq, unmapped, Option.none_or, same]
    · rw [← resolveScopeForLinear_filter, same, resolveScopeForLinear_filter]

/-- A team with two mappings for no project: a project without a mapping gets the second scope, and
unassigned issues the first. -/
theorem not_fallsBack_twice : ¬ ∀ ms team project, FallsBack ms team project := by
  intro all
  have law := (all [⟨"OmniNode", none, "omninode/shared", by decide⟩,
    ⟨"OmniNode", none, "omninode/other", by decide⟩] "OmniNode" (some "OmniMemory")).unmapped
  revert law
  decide

end Crawl

end OmniMemory
