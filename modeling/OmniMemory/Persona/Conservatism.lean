import OmniMemory.Persona.Classify

/-! When the technical level shifts as conservatively as `classify_persona` promises. A profile of
fewer than three sessions takes over whatever the batch proposes, and a value that names no level
proposes the intermediate one. -/

namespace OmniMemory.Persona

open Binary64 Tally

/-- The level shifts only after three sessions, and only to one that at least three fifths of the
values propose. -/
def ShiftsConservatively (existing persona : ModelUserPersonaV1) (values : List String) : Prop :=
  persona.technicalLevel ≠ existing.technicalLevel →
    3 ≤ existing.sessionCount ∧
      3 * values.length ≤ 5 * values.count persona.technicalLevel.value

/-- The most frequent value of the signals with a high confidence proposes the level of the profile,
or the profile has three sessions and a value that meets the code's test of a consensus names a
level, and is that of three fifths of these signals. -/
def ProposesConservatively (py : Python) (existing : ModelUserPersonaV1) (values : List String) :
    Prop :=
  ∀ value, leader values = some value → levelOf value = existing.technicalLevel ∨
    3 ≤ existing.sessionCount ∧ (Consensus py (values.count value) values.length →
      (∃ level, EnumTechnicalLevel.value level = value) ∧
        3 * values.length ≤ 5 * values.count value)

section Level

variable {py : Python} {signals : List ModelPersonaSignal} {existing : ModelUserPersonaV1}
  {value : String} {values : List String}

theorem classifyTechnicalLevel_eq (leads : leader (techValues py signals) = some value) :
    classifyTechnicalLevel py signals (some existing) =
      if existing.sessionCount < 3 ∨ levelOf value = existing.technicalLevel ∨
          Consensus py ((techValues py signals).count value) (techValues py signals).length
      then levelOf value else existing.technicalLevel := by
  simp only [classifyTechnicalLevel, leads]
  by_cases early : existing.sessionCount < 3
  · simp [early]
  by_cases same : levelOf value = existing.technicalLevel
  · simp [same]
  · simp [early, same]

theorem classifyTechnicalLevel_of_none (none : leader (techValues py signals) = none) :
    classifyTechnicalLevel py signals (some existing) = existing.technicalLevel := by
  simp only [classifyTechnicalLevel, none, Option.elim_some]

theorem levelOf_value (level : EnumTechnicalLevel) : levelOf level.value = level := by
  cases level <;> decide

theorem value_levelOf : (levelOf value).value = value ↔ ∃ level, EnumTechnicalLevel.value level = value := by
  constructor
  · exact fun same => ⟨_, same⟩
  · rintro ⟨level, rfl⟩
    rw [levelOf_value]

/-- Another value than the most frequent one is that of half of them at most. -/
theorem two_mul_count_le (leads : leader values = some value) {other : String}
    (ne : other ≠ value) : 2 * values.count other ≤ values.length := by
  have le := count_le_of_leader leads other
  have disjoint : values.count other + values.count value ≤ values.length := by
    have split := values.length_eq_countP_add_countP (· == value)
    have sub : values.count other ≤ values.countP fun a => ¬(a == value) = true := by
      refine List.countP_mono_left fun a _ same => ?_
      rw [beq_iff_eq.mp same]
      simpa using ne
    unfold List.count at sub ⊢
    omega
  omega

/-- The level that is proposed has three fifths of the values exactly if the value names it. -/
theorem three_mul_le_iff (leads : leader values = some value) :
    3 * values.length ≤ 5 * values.count (levelOf value).value ↔
      (∃ level, EnumTechnicalLevel.value level = value) ∧
        3 * values.length ≤ 5 * values.count value := by
  rw [← value_levelOf]
  by_cases named : (levelOf value).value = value
  · rw [named, and_iff_right rfl]
  · have half := two_mul_count_le leads named
    have some := List.length_pos_of_mem (mem_of_leader leads)
    exact iff_of_false (by omega) fun h => named h.1

/-- Up to `2 ^ 48` values, the code's test of a consensus lets only three fifths pass. -/
theorem three_mul_le_of_consensus {count total : Nat} (small : total ≤ 2 ^ 48)
    (consensus : Consensus py count total) : 3 * total ≤ 5 * count := by
  have near : ∀ q : ℚ, 0 ≤ q → q - (q + 1) * (1 / 9007199254740992) ≤ py.fl q :=
    fun q nonneg => by
      have error := (abs_le.mp (py.near q nonneg)).1
      norm_num at error ⊢
      linarith
  have nonneg : (0 : ℚ) ≤ total := Nat.cast_nonneg _
  have small : (total : ℚ) ≤ 281474976710656 := by exact_mod_cast small
  have total_fl := near total nonneg
  have share_fl := near (6 / 10) (by norm_num)
  have share_nonneg := py.nonneg (6 / 10) (by norm_num)
  have total_nonneg : (0 : ℚ) ≤ py.fl total := py.nonneg _ nonneg
  have rounded := near _ (mul_nonneg total_nonneg share_nonneg)
  have test : py.fl (py.fl total * py.fl (6 / 10)) ≤ count := consensus
  generalize py.fl (py.fl total * py.fl (6 / 10)) = bound at rounded test
  generalize py.fl total = T at *
  generalize py.fl (6 / 10) = share at *
  have T_le : (total : ℚ) - 1 / 16 ≤ T := by linarith
  have share_le : 3 / 5 - 1 / 2251799813685248 ≤ share := by linarith
  have product : (3 / 5 - 1 / 2251799813685248) * T ≤ T * share := by
    rw [mul_comm T]
    exact mul_le_mul_of_nonneg_right share_le total_nonneg
  have close : (3 : ℚ) * total < 5 * count + 1 := by linarith
  have close : 3 * total < 5 * count + 1 := by exact_mod_cast close
  omega

end Level

/-- The level shifts conservatively exactly if the batch proposes so. -/
theorem classifyPersona_shiftsConservatively_iff (py : Python) (userId : String)
    (signals : List ModelPersonaSignal) (existing : ModelUserPersonaV1) (now : Instant) :
    (∃ persona, Classifies py ⟨userId, signals, some existing⟩ now persona ∧
        ShiftsConservatively existing persona (techValues py signals)) ↔
      ProposesConservatively py existing (techValues py signals) := by
  obtain ⟨persona, classifies, level, -, -⟩ :=
    exists_classifies_profile py userId signals existing now
  rw [classifies.exists_iff, ShiftsConservatively, level]
  unfold ProposesConservatively
  cases leads : leader (techValues py signals) with
  | none =>
    rw [classifyTechnicalLevel_of_none leads]
    exact iff_of_true (fun ne => absurd rfl ne) nofun
  | some value =>
    rw [classifyTechnicalLevel_eq leads]
    simp only [Option.some.injEq, forall_eq', ← three_mul_le_iff leads]
    by_cases same : levelOf value = existing.technicalLevel
    · simp [same]
    by_cases early : existing.sessionCount < 3
    · simp [early, same]
    by_cases consensus : Consensus py ((techValues py signals).count value)
        (techValues py signals).length
    · simp [early, same, consensus]
    · simp [early, same, consensus]
      omega

/-- One signal takes a new profile from the intermediate level to the expert's. -/
theorem not_shiftsConservatively_early : ¬ ∀ (py : Python) (userId : String)
    (signals : List ModelPersonaSignal) (existing : ModelUserPersonaV1) (now : Instant),
    ∃ persona, Classifies py ⟨userId, signals, some existing⟩ now persona ∧
      ShiftsConservatively existing persona (techValues py signals) := by
  intro all
  let signals : List ModelPersonaSignal :=
    [{ signalType := "technical_level", inferredValue := "expert", confidence := 9 / 10, emittedAt := 0 }]
  let existing : ModelUserPersonaV1 := { userId := "a", sessionCount := 1, createdAt := 0 }
  obtain ⟨persona, classifies, shifts⟩ := all .plain "a" signals existing 1
  obtain ⟨same, classifies', traits⟩ :=
    exists_classifies .plain ⟨"a", signals, some existing⟩ 1 (List.cons_ne_nil _ _)
  obtain rfl := classifies.unique classifies'
  have level : persona.technicalLevel = .expert := traits.technicalLevel.trans (by decide +kernel)
  have early := (shifts (by rw [level]; decide)).1
  exact absurd early (by decide)

end OmniMemory.Persona
