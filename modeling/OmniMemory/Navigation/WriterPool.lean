import OmniMemory.Lib.Machine

/-! The connection pool of a `HandlerNavigationHistoryWriter`, over any interleaving of its `record`
and `close` calls. A call that finds no pool awaits the creation of one, and sets the reference to it
afterwards, whatever it is then; `close` awaits that the pool is closed, and then clears the
reference. -/

namespace OmniMemory

open Interleave

namespace Navigation

namespace WriterPool

/-- The writer, and the pools that were created, each open or not. `pgPool` is the position of the pool
that the writer refers to, and `qdrantClient` says whether it has a client. `closed` is no attribute:
a `close` has returned, and no `record` has begun since. -/
structure Writer where
  pgPool : Option ℕ
  qdrantClient : Bool
  pools : List Bool
  closed : Bool
deriving DecidableEq

def Writer.initial : Writer := ⟨none, false, [], false⟩

/-- Where a `record` call is. -/
inductive RecordStage where
  | ready
  /-- in `create_pool` -/
  | creating
  /-- in `_write_postgres`, with a pool -/
  | writing (pool : ℕ)
  /-- in `_write_qdrant` -/
  | writingQdrant
  | returned
deriving DecidableEq

/-- Where a `close` call is. -/
inductive CloseStage where
  | ready
  /-- in `close` of a pool -/
  | closing (pool : ℕ)
  /-- in `close` of the Qdrant client -/
  | closingQdrant
  | returned
  | raised

/-- A call; a session to record was successful or not. -/
inductive Task where
  | record (successful : Bool) (stage : RecordStage)
  | close (stage : CloseStage)

inductive Arg where
  | record (successful : Bool)
  | close

/-- How what a call awaits ends; a write that finds the row of the session there is one that is not
done. -/
inductive Choice where
  | done
  | failed
deriving DecidableEq

namespace Writer

variable (w : Writer)

/-- The pool is open. -/
def IsOpen (pool : ℕ) : Prop := w.pools[pool]? = some true

instance (pool : ℕ) : Decidable (w.IsOpen pool) := inferInstanceAs (Decidable (_ = _))

/-- A new pool, to which the writer refers. -/
def createPool : Writer := { w with pgPool := some w.pools.length, pools := w.pools ++ [true] }

/-- A pool has been closed, or terminated. -/
def closePool (pool : ℕ) : Writer := { w with pools := w.pools.set pool false }

def clearPool : Writer := { w with pgPool := none }

end Writer

/-- `close` when it is done with the pool. -/
def closeQdrant (w : Writer) : CloseStage × Writer :=
  if w.qdrantClient then (.closingQdrant, w) else (.returned, { w with closed := true })

/-- `record`, to its next suspension. -/
def recordStep (successful : Bool) (ch : Choice) (w : Writer) :
    RecordStage → Option (RecordStage × Writer)
  | .ready =>
    let w := { w with closed := false }
    match w.pgPool with
    | none => some (.creating, w)
    | some pool => some (.writing pool, w)
  | .creating =>
    match ch with
    | .done => some (.writing w.pools.length, w.createPool)
    | .failed => some (.returned, w)
  | .writing _ =>
    match ch with
    | .done =>
      -- `_get_qdrant_client` awaits nothing.
      if successful then some (.writingQdrant, { w with qdrantClient := true })
      else some (.returned, w)
    | .failed => some (.returned, w)
  | .writingQdrant => some (.returned, w)
  | .returned => none

/-- `close`, to its next suspension. -/
def closeStep (ch : Choice) (w : Writer) : CloseStage → Option (CloseStage × Writer)
  | .ready =>
    match w.pgPool with
    | none => some (closeQdrant w)
    | some pool =>
      -- Closing a pool again returns at once.
      if w.IsOpen pool then some (.closing pool, w) else some (closeQdrant w.clearPool)
  | .closing pool =>
    match ch with
    | .done => some (closeQdrant (w.closePool pool).clearPool)
    | .failed => some (.raised, w.closePool pool)
  | .closingQdrant =>
    match ch with
    | .done => some (.returned, { w with qdrantClient := false, closed := true })
    | .failed => some (.raised, w)
  | .returned | .raised => none

def machine : Machine Writer Task Arg Choice where
  enter _
    | .record successful => .record successful .ready
    | .close => .close .ready
  resume _ ch t w :=
    match t with
    | .record successful stage =>
      (recordStep successful ch w stage).map fun r => (.record successful r.1, r.2)
    | .close stage => (closeStep ch w stage).map fun r => (.close r.1, r.2)

abbrev WriterSystem := System Writer Task

/-- The `record` call is in progress. -/
def Task.recording : Task → Bool
  | record _ stage => stage != .returned
  | close _ => false

/-- At most one pool is open; and when a `close` has returned, no `record` has begun since and none is
in progress, none is. -/
structure Sound (s : WriterSystem) : Prop where
  single : ∀ p q, s.shared.IsOpen p → s.shared.IsOpen q → p = q
  released : s.shared.closed = true → (∀ t ∈ s.tasks, t.recording = false) →
    ∀ p, ¬ s.shared.IsOpen p

/-- The writer refers to no pool that is open. -/
def Writer.Idle (w : Writer) : Prop := ∀ pool, w.pgPool = some pool → ¬ w.IsOpen pool

/-- A creation is done when the writer refers to no open pool, and no `close` has returned with no
`record` since; the reference is cleared when it is to the pool that was closed, or to none that is
open; and `close` returns when the writer refers to none that is open. -/
def Orderly (ch : Choice) (w : Writer) : Task → Prop
  | .record _ .creating => ch = .done → w.Idle ∧ w.closed = false
  | .close (.closing pool) => ch = .done → w.Idle ∨ w.pgPool = some pool
  | .close .closingQdrant => ch = .done → w.Idle
  | _ => True

instance (w : Writer) : Decidable w.Idle :=
  decidable_of_iff (∀ pool ∈ w.pgPool, ¬ w.IsOpen pool) Iff.rfl

instance (ch : Choice) (w : Writer) (t : Task) : Decidable (Orderly ch w t) :=
  match t with
  | .record _ .creating => inferInstanceAs (Decidable (ch = .done → w.Idle ∧ w.closed = false))
  | .close (.closing pool) =>
    inferInstanceAs (Decidable (ch = .done → w.Idle ∨ w.pgPool = some pool))
  | .close .closingQdrant => inferInstanceAs (Decidable (ch = .done → w.Idle))
  | .record _ .ready | .record _ (.writing _) | .record _ .writingQdrant | .record _ .returned
  | .close .ready | .close .returned | .close .raised => isTrue trivial

/-- Every step is orderly. -/
def OrderlyStep (s : WriterSystem) : Machine.Act Arg Choice → Prop
  | .start _ => True
  | .resume i ch => s.At i (Orderly ch s.shared)

instance (s : WriterSystem) (a : Machine.Act Arg Choice) : Decidable (OrderlyStep s a) :=
  match a with
  | .start _ => isTrue trivial
  | .resume i ch => inferInstanceAs (Decidable (s.At i (Orderly ch s.shared)))

/-- An open pool is the one that the writer refers to, and none is open when the writer is closed. -/
structure Kept (w : Writer) : Prop where
  referred : ∀ p, w.IsOpen p → w.pgPool = some p
  released : w.closed = true → ∀ p, ¬ w.IsOpen p

section Steps

variable {w : Writer} {pool p : ℕ}

theorem isOpen_createPool : w.createPool.IsOpen p ↔ p = w.pools.length ∨ w.IsOpen p := by
  unfold Writer.IsOpen Writer.createPool
  dsimp only
  rw [List.getElem?_append]
  split
  · rename_i old
    exact (or_iff_right (by omega)).symm
  · rename_i new
    rw [List.getElem?_eq_none (Nat.not_lt.mp new), List.getElem?_singleton]
    split
    · exact iff_of_true rfl (.inl (by omega))
    · exact iff_of_false (by simp) (by simp; omega)

theorem isOpen_closePool : (w.closePool pool).IsOpen p ↔ p ≠ pool ∧ w.IsOpen p := by
  unfold Writer.IsOpen Writer.closePool
  dsimp only
  rw [List.getElem?_set]
  split
  · rename_i own
    subst own
    split <;> simp
  · rename_i other
    simp [Ne.symm other]

theorem Writer.Idle.none_open (idle : w.Idle) (kept : Kept w) (p : ℕ) : ¬ w.IsOpen p :=
  fun here => idle p (kept.referred p here) here

theorem kept_createPool (kept : Kept w) : Kept w.createPool ↔ w.Idle ∧ w.closed = false := by
  constructor
  · rintro ⟨referred, released⟩
    constructor
    · intro pool refers here
      have new := Option.some.inj (referred pool (isOpen_createPool.mpr (.inr here)))
      obtain ⟨bound, -⟩ := List.getElem?_eq_some_iff.mp here
      omega
    · by_contra closed
      have closed : w.closed = true := by simpa using closed
      exact released closed _ (isOpen_createPool.mpr (.inl rfl))
  · rintro ⟨idle, going⟩
    refine ⟨fun p here => ?_, fun closed => ?_⟩
    · rcases isOpen_createPool.mp here with rfl | here
      · rfl
      · exact absurd here (idle.none_open kept p)
    · exact absurd (going.symm.trans closed) Bool.false_ne_true

/-- The reference is cleared after a pool has been closed. -/
theorem kept_clearPool (kept : Kept w) :
    Kept (w.closePool pool).clearPool ↔ w.Idle ∨ w.pgPool = some pool := by
  constructor
  · rintro ⟨referred, -⟩
    refine or_iff_not_imp_right.mpr fun other p refers here => ?_
    have apart : p ≠ pool := by
      rintro rfl
      exact other refers
    cases referred p (isOpen_closePool.mpr ⟨apart, here⟩)
  · intro own
    have none (p : ℕ) : ¬ (w.closePool pool).clearPool.IsOpen p := by
      intro here
      obtain ⟨apart, here⟩ := isOpen_closePool.mp here
      rcases own with idle | refers
      · exact idle.none_open kept p here
      · exact apart (Option.some.inj ((kept.referred p here).symm.trans refers))
    exact ⟨fun p here => absurd here (none p), fun _ => none⟩

theorem kept_closePool (kept : Kept w) : Kept (w.closePool pool) where
  referred p here := kept.referred p (isOpen_closePool.mp here).2
  released closed p here := kept.released closed p (isOpen_closePool.mp here).2

/-- `close` goes on with the Qdrant client when the reference is cleared. -/
theorem kept_closeQdrant (cleared : w.pgPool = none) : Kept (closeQdrant w).2 ↔ Kept w := by
  unfold closeQdrant
  split
  · exact Iff.rfl
  · have none {p : ℕ} (referred : ∀ p, w.IsOpen p → w.pgPool = some p) : ¬ w.IsOpen p := by
      intro here
      cases cleared.symm.trans (referred p here)
    exact ⟨fun kept => ⟨kept.referred, fun _ p => none kept.referred⟩,
      fun kept => ⟨kept.referred, fun _ p => none kept.referred⟩⟩

theorem kept_returned (kept : Kept w) :
    Kept { w with qdrantClient := false, closed := true } ↔ w.Idle :=
  ⟨fun after pool _ => after.released rfl pool,
    fun idle => ⟨kept.referred, fun _ => idle.none_open kept⟩⟩

theorem kept_recordStep {successful : Bool} {ch : Choice} {stage stage' : RecordStage} {w' : Writer}
    (kept : Kept w) (ran : recordStep successful ch w stage = some (stage', w')) :
    Kept w' ↔ Orderly ch w (.record successful stage) := by
  cases stage with
  | ready =>
    refine iff_of_true ?_ trivial
    unfold recordStep at ran
    dsimp only at ran
    split at ran <;> cases ran <;> exact ⟨kept.referred, fun closed => nomatch closed⟩
  | creating =>
    cases ch with
    | done =>
      cases ran
      exact (kept_createPool kept).trans ⟨fun both _ => both, fun both => both rfl⟩
    | failed =>
      cases ran
      exact iff_of_true kept (by rintro ⟨⟩)
  | writing pool =>
    refine iff_of_true ?_ trivial
    cases ch with
    | done =>
      unfold recordStep at ran
      dsimp only at ran
      split at ran <;> cases ran <;> exact ⟨kept.referred, kept.released⟩
    | failed =>
      cases ran
      exact kept
  | writingQdrant =>
    cases ran
    exact iff_of_true kept trivial
  | returned => cases ran

theorem kept_closeStep {ch : Choice} {stage stage' : CloseStage} {w' : Writer}
    (kept : Kept w) (ran : closeStep ch w stage = some (stage', w')) :
    Kept w' ↔ Orderly ch w (.close stage) := by
  cases stage with
  | ready =>
    refine iff_of_true ?_ trivial
    unfold closeStep at ran
    dsimp only at ran
    split at ran
    · rename_i cleared
      have same : (closeQdrant w).2 = w' := congrArg Prod.snd (Option.some.inj ran)
      rw [← same]
      exact (kept_closeQdrant cleared).mpr kept
    · rename_i pool refers
      split at ran
      · cases ran
        exact kept
      · rename_i shut
        have same : (closeQdrant w.clearPool).2 = w' := congrArg Prod.snd (Option.some.inj ran)
        have none (p : ℕ) : ¬ w.IsOpen p := by
          intro here
          obtain rfl := Option.some.inj (refers.symm.trans (kept.referred p here))
          exact shut here
        have cleared : Kept w.clearPool := ⟨fun p here => absurd here (none p), fun _ => none⟩
        rw [← same]
        exact (kept_closeQdrant rfl).mpr cleared
  | closing pool =>
    cases ch with
    | done =>
      have same : (closeQdrant (w.closePool pool).clearPool).2 = w' :=
        congrArg Prod.snd (Option.some.inj ran)
      rw [← same]
      refine ((kept_closeQdrant rfl).trans (kept_clearPool kept)).trans ?_
      exact ⟨fun own _ => own, fun own => own rfl⟩
    | failed =>
      cases ran
      exact iff_of_true (kept_closePool kept) (by rintro ⟨⟩)
  | closingQdrant =>
    cases ch with
    | done =>
      cases ran
      exact (kept_returned kept).trans ⟨fun idle _ => idle, fun idle => idle rfl⟩
    | failed =>
      cases ran
      exact iff_of_true kept (by rintro ⟨⟩)
  | returned => cases ran
  | raised => cases ran

/-- A step keeps the pools just when it is orderly. -/
theorem kept_step_iff {i : ℕ} {ch : Choice} {t t' : Task} {w' : Writer} (kept : Kept w)
    (ran : machine.resume i ch t w = some (t', w')) : Kept w' ↔ Orderly ch w t := by
  cases t with
  | record successful stage =>
    obtain ⟨r, inner, same⟩ := Option.map_eq_some_iff.mp ran
    obtain ⟨-, rfl⟩ := Prod.mk.inj same
    exact kept_recordStep kept inner
  | close stage =>
    obtain ⟨r, inner, same⟩ := Option.map_eq_some_iff.mp ran
    obtain ⟨-, rfl⟩ := Prod.mk.inj same
    exact kept_closeStep kept inner

end Steps

theorem Kept.sound {s : WriterSystem} (kept : Kept s.shared) : Sound s where
  single p q here there := Option.some.inj ((kept.referred p here).symm.trans (kept.referred q there))
  released closed _ := kept.released closed

end WriterPool

end Navigation

end OmniMemory
