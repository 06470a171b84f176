import OmniMemory.Persona.Classify
import Mathlib.Algebra.Order.Ring.Star
import Mathlib.Data.Rat.Star

/-! Which traits of a profile a classification keeps when the batch has no evidence for them. The
tone of the profile is lost without a signal for it, and the vocabulary complexity is rounded when
the batch has only signals for it that are no numbers. -/

namespace OmniMemory.Persona

open Binary64 Interleave Tally

/-- The persona keeps every trait of the profile for which the batch has no evidence, and counts one
session and one version more. -/
structure Keeps (py : Python) (signals : List ModelPersonaSignal)
    (existing persona : ModelUserPersonaV1) : Prop where
  technicalLevel : techValues py signals = [] → persona.technicalLevel = existing.technicalLevel
  vocabularyComplexity : vocabularyValues py signals = [] →
    persona.vocabularyComplexity = existing.vocabularyComplexity
  preferredTone : ofType "preferred_tone" signals = [] →
    persona.preferredTone = existing.preferredTone
  domainFamiliarity : ∀ domain,
    (∀ s ∈ ofType "domain_familiarity" signals, s.inferredValue ≠ domain) →
      persona.domainFamiliarity.find? domain = existing.domainFamiliarity.find? domain
  sessionCount : persona.sessionCount = existing.sessionCount + 1
  personaVersion : persona.personaVersion = existing.personaVersion + 1

section Traits

variable {py : Python} {signals : List ModelPersonaSignal} {existing : Option ModelUserPersonaV1}
  {domains : Domains} {domain other : String}

theorem find?_raiseDomain : (raiseDomain py domains other).find? domain =
    if domain = other then some (other, min (py.fl (familiarity domains other + py.fl (1 / 10))) 1)
    else domains.find? domain :=
  Table.find?_put _ _ _

/-- Raising other domains leaves a domain as it is. -/
theorem find?_foldl_raiseDomain {raised : List String} (absent : ∀ d ∈ raised, d ≠ domain) :
    (raised.foldl (raiseDomain py) domains).find? domain = domains.find? domain := by
  induction raised generalizing domains with
  | nil => rfl
  | cons d raised ih =>
    obtain ⟨here, rest⟩ := List.forall_mem_cons.mp absent
    rw [List.foldl_cons, ih rest, find?_raiseDomain, if_neg here.symm]

theorem find?_classifyDomains
    (absent : ∀ s ∈ ofType "domain_familiarity" signals, s.inferredValue ≠ domain) :
    (classifyDomains py signals existing).find? domain =
      (existing.elim Table.empty (·.domainFamiliarity)).find? domain := by
  refine find?_foldl_raiseDomain fun d mem => ?_
  obtain ⟨s, here, rfl⟩ := List.mem_map.mp mem
  exact absent s here

theorem classifyTechnicalLevel_of_nil (none : techValues py signals = []) :
    classifyTechnicalLevel py signals existing = existing.elim .intermediate (·.technicalLevel) := by
  have leads : leader (techValues py signals) = Option.none := leader_eq_none.mpr none
  simp only [classifyTechnicalLevel, leads]

/-- Without a signal, the tone is the explanatory one. -/
theorem classifyTone_of_nil (none : ofType "preferred_tone" signals = []) :
    classifyTone signals = .explanatory := by
  rw [classifyTone, none]
  rfl

/-- Without a number, the vocabulary complexity is the former one, which is rounded if there is a
signal. -/
theorem classifyVocabulary_of_nil (none : vocabularyValues py signals = []) :
    classifyVocabulary py signals existing =
      if ofType "vocabulary" signals = [] then existing.elim (1 / 2) (·.vocabularyComplexity)
      else py.round3 (existing.elim (1 / 2) (·.vocabularyComplexity)) := by
  rw [classifyVocabulary, none]
  rfl

end Traits

/-- A classification keeps what the batch has no evidence for exactly if the batch has a signal for
the tone, or the tone is the default one, and it has a number for the vocabulary complexity, no
signal for it at all, or one that rounding leaves as it is. -/
theorem classifyPersona_keeps_iff (py : Python) (userId : String) (signals : List ModelPersonaSignal)
    (existing : ModelUserPersonaV1) (now : Instant) (some : signals ≠ []) :
    (∃ persona, Classifies py ⟨userId, signals, .some existing⟩ now persona ∧
        Keeps py signals existing persona) ↔
      (ofType "preferred_tone" signals ≠ [] ∨ existing.preferredTone = .explanatory) ∧
        (vocabularyValues py signals ≠ [] ∨ ofType "vocabulary" signals = [] ∨
          py.round3 existing.vocabularyComplexity = existing.vocabularyComplexity) := by
  obtain ⟨persona, classifies, traits⟩ :=
    exists_classifies py ⟨userId, signals, .some existing⟩ now some
  rw [classifies.exists_iff]
  constructor
  · intro keeps
    constructor
    · by_cases none : ofType "preferred_tone" signals = []
      · have kept := keeps.preferredTone none
        rw [traits.preferredTone, classifyTone_of_nil none] at kept
        exact .inr kept.symm
      · exact .inl none
    · by_cases none : vocabularyValues py signals = []
      · have kept := keeps.vocabularyComplexity none
        rw [traits.vocabularyComplexity, classifyVocabulary_of_nil none] at kept
        split at kept
        · rename_i absent
          exact .inr (.inl absent)
        · exact .inr (.inr kept)
      · exact .inl none
  · rintro ⟨tone, vocabulary⟩
    refine ⟨fun none => ?_, fun none => ?_, fun none => ?_, fun domain absent => ?_,
      traits.sessionCount, traits.personaVersion⟩
    · exact traits.technicalLevel.trans (classifyTechnicalLevel_of_nil none)
    · rw [traits.vocabularyComplexity, classifyVocabulary_of_nil none]
      split
      · rfl
      · rename_i present
        exact (vocabulary.resolve_left (not_not_intro none)).resolve_left present
    · rw [traits.preferredTone, classifyTone_of_nil none]
      exact (tone.resolve_left (not_not_intro none)).symm
    · rw [traits.domainFamiliarity]
      exact find?_classifyDomains absent

/-- A signal for the tone and one that is a number. -/
theorem keeps_evident : ∃ persona, Classifies .plain ⟨"a",
      [{ signalType := "preferred_tone", inferredValue := "formal", confidence := 1, emittedAt := 0 },
        { signalType := "vocabulary", inferredValue := "0.9", confidence := 1, emittedAt := 0 }],
      some { userId := "a", preferredTone := .concise, createdAt := 0 }⟩ 1 persona ∧
    Keeps .plain
      [{ signalType := "preferred_tone", inferredValue := "formal", confidence := 1, emittedAt := 0 },
        { signalType := "vocabulary", inferredValue := "0.9", confidence := 1, emittedAt := 0 }]
      { userId := "a", preferredTone := .concise, createdAt := 0 } persona :=
  (classifyPersona_keeps_iff .plain "a" _ _ 1 (List.cons_ne_nil _ _)).mpr
    ⟨.inl (by decide), .inl (by decide +kernel)⟩

/-- The concise tone of a profile is lost with a batch that is only about its vocabulary. -/
theorem not_keeps_tone : ¬ ∀ (py : Python) (userId : String) (signals : List ModelPersonaSignal)
    (existing : ModelUserPersonaV1) (now : Instant), signals ≠ [] →
      ∃ persona, Classifies py ⟨userId, signals, some existing⟩ now persona ∧
        Keeps py signals existing persona := by
  intro all
  let signals : List ModelPersonaSignal :=
    [{ signalType := "vocabulary", inferredValue := "0.9", confidence := 1, emittedAt := 0 }]
  let existing : ModelUserPersonaV1 := { userId := "a", preferredTone := .concise, createdAt := 0 }
  obtain ⟨persona, classifies, keeps⟩ := all .plain "a" signals existing 1 (List.cons_ne_nil _ _)
  obtain ⟨same, classifies', traits⟩ :=
    exists_classifies .plain ⟨"a", signals, some existing⟩ 1 (List.cons_ne_nil _ _)
  obtain rfl := classifies.unique classifies'
  have tone : persona.preferredTone = .explanatory := traits.preferredTone.trans (by decide)
  have kept := keeps.preferredTone (by decide)
  rw [tone] at kept
  exact absurd kept (by decide)

end OmniMemory.Persona
