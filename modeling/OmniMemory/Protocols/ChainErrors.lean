import OmniMemory.Lib.Links

/-! `chain_errors`. A secondary error is made the cause of the primary one, or of the last error that
is reached by `__cause__` from its cause. Nothing is checked, so that two chains that are tied to each
other make a cycle, on which the next call does not end. -/

namespace OmniMemory

namespace ErrorModels

open Links Relation

/-- What the errors refer to: the `cause` of a `ProtocolOmniMemoryError`, and `__cause__`. -/
structure Causes (E : Type) where
  cause : E → Option E
  dunderCause : E → Option E

namespace Causes

variable {E : Type} (h : Causes E)

/-- An error has another for a cause. -/
def Refers (e e' : E) : Prop := h.cause e = some e' ∨ h.dunderCause e = some e'

section Chain

variable [DecidableEq E]

/-- `e.cause = e'`. -/
def setCause (e e' : E) : Causes E := { h with cause := Function.update h.cause e (some e') }

/-- `e.__cause__ = e'`. -/
def setDunderCause (e e' : E) : Causes E :=
  { h with dunderCause := Function.update h.dunderCause e (some e') }

/-- `chain_errors`, with the most errors that its loop may go through. -/
def chainErrors (steps : ℕ) (primaryError secondaryError : E) : Option (Causes E) :=
  match h.cause primaryError with
  | none => some ((h.setCause primaryError secondaryError).setDunderCause primaryError secondaryError)
  | some first =>
    (lastOf h.dunderCause steps first).map fun current => h.setDunderCause current secondaryError

/-- A call ends, and leaves these causes. -/
def Ends (primaryError secondaryError : E) (h' : Causes E) : Prop :=
  ∃ steps, h.chainErrors steps primaryError secondaryError = some h'

/-- What a call is to leave: no cycle, the causes that the primary error had, and the secondary one. -/
structure Chained (h : Causes E) (primaryError secondaryError : E) (h' : Causes E) : Prop where
  acyclic : Acyclic h'.Refers
  kept : ∀ e, TransGen h.Refers primaryError e → TransGen h'.Refers primaryError e
  reached : TransGen h'.Refers primaryError secondaryError

/-- Every call of a sequence ends and leaves what it is to leave. -/
def Sound : Causes E → List (E × E) → Prop
  | _, [] => True
  | h, (primaryError, secondaryError) :: calls =>
    ∃ h', h.Ends primaryError secondaryError h' ∧
      Chained h primaryError secondaryError h' ∧ Sound h' calls

/-- The secondary error does not lead to the one whose cause it is to be; and when this is the primary
one, a `__cause__` that it has is reached from the secondary one. -/
def Fits (primaryError secondaryError : E) : Prop :=
  match h.cause primaryError with
  | none => ¬ ReflTransGen h.Refers secondaryError primaryError ∧
      ∀ e, h.dunderCause primaryError = some e → ReflTransGen h.Refers secondaryError e
  | some first => ∀ steps last, lastOf h.dunderCause steps first = some last →
      ¬ ReflTransGen h.Refers secondaryError last

/-- The errors of every call of a sequence fit when it is made. -/
def AllFit : Causes E → List (E × E) → Prop
  | _, [] => True
  | h, (primaryError, secondaryError) :: calls =>
    h.Fits primaryError secondaryError ∧
      ∀ h', h.Ends primaryError secondaryError h' → AllFit h' calls

variable {h} {p s : E} {h' h'' : Causes E}

theorem Ends.unique (ends : h.Ends p s h') (ends' : h.Ends p s h'') : h' = h'' := by
  obtain ⟨steps, ends⟩ := ends
  obtain ⟨steps', ends'⟩ := ends'
  unfold chainErrors at ends ends'
  cases first : h.cause p with
  | none =>
    rw [first] at ends ends'
    exact (Option.some.inj ends).symm.trans (Option.some.inj ends')
  | some first =>
    simp only [first, Option.map_eq_some_iff] at ends ends'
    obtain ⟨last, found, rfl⟩ := ends
    obtain ⟨last', found', rfl⟩ := ends'
    rw [lastOf_unique found found']

theorem refers_setDunderCause {a b e e' : E} : (h.setDunderCause a b).Refers e e' ↔
    h.cause e = some e' ∨ if e = a then b = e' else h.dunderCause e = some e' := by
  unfold Refers setDunderCause
  dsimp only
  split
  · rename_i own
    rw [own, Function.update_self, Option.some.injEq]
  · rename_i other
    rw [Function.update_of_ne other]

theorem refers_setBoth {a b e e' : E} : ((h.setCause a b).setDunderCause a b).Refers e e' ↔
    if e = a then e' = b else h.Refers e e' := by
  rw [refers_setDunderCause]
  unfold setCause Refers
  dsimp only
  split
  · rename_i own
    rw [own, Function.update_self, Option.some.injEq, or_self, eq_comm]
  · rename_i other
    rw [Function.update_of_ne other]

/-- The primary error has no `cause`: the secondary one replaces what its `__cause__` was. -/
theorem ends_of_cause_none (none_ : h.cause p = none) : ∃ h', h.Ends p s h' ∧
    Redirected h.Refers h'.Refers p s ∧ ∀ e, h'.Refers p e → e = s := by
  refine ⟨_, ⟨0, by rw [chainErrors, none_]⟩, ⟨?_, fun e e' refers => ?_, fun e e' other refers => ?_⟩,
    fun e refers => ?_⟩
  · exact refers_setBoth.mpr (by rw [if_pos rfl])
  · rw [refers_setBoth] at refers
    split at refers
    · rename_i own
      exact .inr ⟨own, refers⟩
    · exact .inl refers
  · rw [refers_setBoth, if_neg other]
    exact refers
  · rwa [refers_setBoth, if_pos rfl] at refers

/-- The primary error has a `cause`: the secondary one becomes that of the last error, and every
reference is kept. -/
theorem ends_of_cause_some [Finite E] {first : E} (acyclic : Acyclic h.Refers)
    (some_ : h.cause p = some first) : ∃ h' steps last, h.Ends p s h' ∧
      lastOf h.dunderCause steps first = some last ∧ ReflTransGen h.Refers first last ∧
      Redirected h.Refers h'.Refers last s ∧ ∀ e e', h.Refers e e' → h'.Refers e e' := by
  obtain ⟨steps, last, found⟩ := exists_lastOf h.dunderCause acyclic
    (fun e e' link => .inr link) first
  obtain ⟨stop, way⟩ := lastOf_spec found
  have kept (e e' : E) (refers : h.Refers e e') : (h.setDunderCause last s).Refers e e' := by
    rw [refers_setDunderCause]
    refine refers.imp id fun link => ?_
    rw [if_neg, link]
    rintro rfl
    rw [stop] at link
    cases link
  refine ⟨h.setDunderCause last s, steps, last, ⟨steps, ?_⟩, found,
    ReflTransGen.mono (fun e e' link => .inr link) _ _ way, ⟨?_, fun e e' refers => ?_, ?_⟩, kept⟩
  · simp only [chainErrors, some_, found, Option.map_some]
  · exact refers_setDunderCause.mpr (.inr (if_pos rfl ▸ rfl))
  · rcases refers_setDunderCause.mp refers with link | link
    · exact .inl (.inl link)
    · split at link
      · rename_i own
        exact .inr ⟨own, link.symm⟩
      · exact .inl (.inr link)
  · exact fun e e' _ => kept e e'

/-- A call ends, and leaves what it is to leave just when its errors fit. -/
theorem exists_ends [Finite E] (acyclic : Acyclic h.Refers) (p s : E) :
    ∃ h', h.Ends p s h' ∧ (Chained h p s h' ↔ h.Fits p s) := by
  unfold Fits
  cases cause : h.cause p with
  | none =>
    obtain ⟨h', ends, redirected, only⟩ := ends_of_cause_none (s := s) cause
    refine ⟨h', ends, ?_⟩
    dsimp only
    constructor
    · rintro ⟨acyclic', kept, -⟩
      have apart := (redirected.acyclic_iff acyclic).mp acyclic'
      refine ⟨apart, fun e link => ?_⟩
      obtain ⟨e', first, rest⟩ := TransGen.head'_iff.mp (kept e (.single (.inr link)))
      obtain rfl := only e' first
      exact (redirected.reflTransGen_iff apart).mp rest
    · rintro ⟨apart, kept⟩
      refine ⟨(redirected.acyclic_iff acyclic).mpr apart, fun e way => ?_, .single redirected.new⟩
      obtain ⟨e', first, rest⟩ := TransGen.head'_iff.mp way
      have link : h.dunderCause p = some e' := by
        refine first.resolve_left ?_
        rw [cause]
        rintro ⟨⟩
      have there := (kept e' link).trans rest
      exact .head' redirected.new ((redirected.reflTransGen_iff apart).mpr there)
  | some first =>
    obtain ⟨h', steps, last, ends, found, way, redirected, kept⟩ :=
      ends_of_cause_some (s := s) acyclic cause
    refine ⟨h', ends, ?_⟩
    dsimp only
    constructor
    · rintro ⟨acyclic', -, -⟩ steps' last' found'
      rw [← lastOf_unique found found']
      exact (redirected.acyclic_iff acyclic).mp acyclic'
    · intro apart
      refine ⟨(redirected.acyclic_iff acyclic).mpr (apart steps last found), fun e way => ?_, ?_⟩
      · exact TransGen.mono kept _ _ way
      · have there : ReflTransGen h.Refers p last := .head (.inl cause) way
        exact .tail' (ReflTransGen.mono kept _ _ there) redirected.new

end Chain

end Causes

open Causes

/-- Every call of a sequence ends and leaves what it is to leave, just when its errors fit. -/
theorem chains_sound_iff {E : Type} [DecidableEq E] [Finite E] (h : Causes E)
    (acyclic : Acyclic h.Refers) (calls : List (E × E)) : h.Sound calls ↔ h.AllFit calls := by
  induction calls generalizing h with
  | nil => exact Iff.rfl
  | cons call calls ih =>
    obtain ⟨p, s⟩ := call
    obtain ⟨h', ends, chained⟩ := exists_ends acyclic p s
    unfold Sound AllFit
    constructor
    · rintro ⟨h'', ends', chained', sound⟩
      obtain rfl := ends.unique ends'
      refine ⟨chained.mp chained', fun h'' ends' => ?_⟩
      obtain rfl := ends.unique ends'
      exact (ih h' chained'.acyclic).mp sound
    · rintro ⟨fits, rest⟩
      have chained' := chained.mpr fits
      exact ⟨h', ends, chained', (ih h' chained'.acyclic).mpr (rest h' ends)⟩

/-- Two errors without a cause. -/
def unchained : Causes Bool := ⟨fun _ => none, fun _ => none⟩

theorem refers_unchained (e e' : Bool) : ¬ unchained.Refers e e' := by
  rintro (link | link) <;> cases link

theorem acyclic_unchained : Acyclic unchained.Refers := by
  intro e cycle
  obtain ⟨e', first, -⟩ := TransGen.head'_iff.mp cycle
  exact refers_unchained e e' first

theorem chains_sound_once : unchained.Sound [(false, true)] := by
  refine (chains_sound_iff unchained acyclic_unchained _).mpr
    ⟨⟨fun way => ?_, fun e link => ?_⟩, fun _ _ => trivial⟩
  · rcases ReflTransGen.cases_head way with same | ⟨e, first, -⟩
    · cases same
    · exact refers_unchained true e first
  · cases link

/-- Two errors that are chained to each other: the next call does not end. -/
theorem not_sound_crossed : ¬ ∀ h : Causes Bool, Acyclic h.Refers →
    h.Sound [(false, true), (true, false), (false, true)] := by
  intro all
  obtain ⟨h₁, ⟨_, first⟩, -, h₂, ⟨_, second⟩, -, h₃, ⟨steps, third⟩, -⟩ :=
    all unchained acyclic_unchained
  obtain rfl := Option.some.inj first
  obtain rfl := Option.some.inj second
  have loops (steps : ℕ) (e : Bool) : lastOf (fun e => some !e) steps e = none := by
    induction steps generalizing e with
    | zero => rfl
    | succ steps ih => exact ih !e
  have crossed : (((unchained.setCause false true).setDunderCause false true).setCause true
      false |>.setDunderCause true false).dunderCause = fun e => some !e := by
    funext e
    cases e <;> rfl
  obtain ⟨last, found, -⟩ := Option.map_eq_some_iff.mp third
  rw [crossed, loops] at found
  cases found

end ErrorModels

end OmniMemory
