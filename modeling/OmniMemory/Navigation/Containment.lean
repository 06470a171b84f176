import OmniMemory.Lib.Contract
import OmniMemory.Navigation.History

/-! The two stores of navigation history, for any interleaving of `record` calls. A point is written
only by the call that inserted the row of its session, and nothing is ever removed, so the points
stay among the rows. -/

namespace OmniMemory

open Interleave Prog

namespace Navigation

/-- The call answered with an exception. -/
def raised : (op : Op) → Res op → Bool
  | .hasPool, _ | .hasClient, _ => false
  | .createPool, a | .acquire, a | .release, a | .createClient, a | .upsert _, a => !a.toBool
  | .insert _, a => !a.toBool
  | .embed _, a => !a.toBool

def Raised (e : NavigationEvent) : Prop := raised e.op e.answer = true

/-- The call inserted the row with the key. -/
def StoresRow (key : String) (e : NavigationEvent) : Prop :=
  e.before.hasRow key = false ∧ e.after.hasRow key = true

/-- The call is an upsert of a point with the key that Qdrant executed. -/
def StoresPoint (key : String) (e : NavigationEvent) : Prop :=
  ∃ point, e.op = .upsert point ∧ point.id = key ∧ e.after = e.before.upsert point

/-- The calls that change neither store. -/
def Op.isPlain : Op → Bool
  | insert _ | upsert _ => false
  | _ => true

/-! ### What calls do -/

section Calls

variable {e : NavigationEvent} {before after s s' : Store} {row : SessionRow}
  {point : NavigationPoint} {key : String}

theorem calls_iff : world.Calls e ↔ ∃ ch, exec e.op ch e.before = some (e.answer, e.after) := Iff.rfl

theorem plain_eq (call : world.Calls e) (plain : e.op.isPlain = true) :
    e.after.sessions = e.before.sessions ∧ e.after.paths = e.before.paths := by
  obtain ⟨op, before, answer, after⟩ := e
  obtain ⟨ch, call⟩ := calls_iff.mp call
  cases op with
  | insert => contradiction
  | upsert => contradiction
  | _ =>
    cases ch <;> first
      | contradiction
      | have same : _ = after := (Prod.mk.inj (Option.some.inj call)).2
        exact same ▸ ⟨rfl, rfl⟩

theorem insert_cases {answer : Except PyError (Option String)}
    (call : world.Calls ⟨.insert row, before, answer, after⟩) :
    (answer = .ok (before.inserted row) ∧ after = before.insert row) ∨
      (∃ e, answer = .error e) ∧ (after = before ∨ after = before.insert row) := by
  obtain ⟨ch, call⟩ : ∃ ch, exec (.insert row) ch before = some (answer, after) :=
    calls_iff.mp call
  cases ch with
  | vector => contradiction
  | _ =>
    obtain ⟨rfl, rfl⟩ := Prod.mk.inj (Option.some.inj call)
    simp

theorem upsert_cases {answer : Except PyError Unit}
    (call : world.Calls ⟨.upsert point, before, answer, after⟩) :
    (answer = .ok () ∧ after = before.upsert point) ∨
      (∃ e, answer = .error e) ∧ (after = before ∨ after = before.upsert point) := by
  obtain ⟨ch, call⟩ : ∃ ch, exec (.upsert point) ch before = some (answer, after) :=
    calls_iff.mp call
  cases ch with
  | vector => contradiction
  | _ =>
    obtain ⟨rfl, rfl⟩ := Prod.mk.inj (Option.some.inj call)
    simp

theorem hasRow_insert :
    (s.insert row).hasRow key = (s.hasRow key || decide (key = row.sessionId)) := by
  rw [Store.hasRow, Store.insert, Table.find?_add, Option.isSome_or, ← Store.hasRow]
  split <;> simp_all

theorem hasPoint_upsert :
    (s.upsert point).hasPoint key = (s.hasPoint key || decide (key = point.id)) := by
  rw [Store.hasPoint, Store.upsert, Table.find?_put]
  split <;> simp_all [Store.hasPoint]

/-- `s'` has a row for every row of `s`, and a point for every point of `s`. -/
structure Grows (s s' : Store) : Prop where
  rows : ∀ key, s.hasRow key = true → s'.hasRow key = true
  points : ∀ key, s.hasPoint key = true → s'.hasPoint key = true

theorem Grows.refl (s : Store) : Grows s s := ⟨fun _ h => h, fun _ h => h⟩

theorem Grows.trans {a b c : Store} (first : Grows a b) (second : Grows b c) : Grows a c :=
  ⟨fun key row => second.rows key (first.rows key row),
    fun key point => second.points key (first.points key point)⟩

theorem Grows.of_eq (sessions : s'.sessions = s.sessions) (paths : s'.paths = s.paths) :
    Grows s s' :=
  ⟨fun _ row => by rwa [Store.hasRow, sessions], fun _ point => by rwa [Store.hasPoint, paths]⟩

theorem grows_insert (s : Store) (row : SessionRow) : Grows s (s.insert row) :=
  ⟨fun _ present => by rw [hasRow_insert, present, Bool.true_or], fun _ point => point⟩

theorem grows_upsert (s : Store) (point : NavigationPoint) : Grows s (s.upsert point) :=
  ⟨fun _ row => row, fun _ present => by rw [hasPoint_upsert, present, Bool.true_or]⟩

theorem grows_of_call (call : world.Calls e) : Grows e.before e.after := by
  by_cases plain : e.op.isPlain = true
  · exact .of_eq (plain_eq call plain).1 (plain_eq call plain).2
  obtain ⟨op, before, answer, after⟩ := e
  cases op with
  | insert row =>
    rcases insert_cases call with ⟨-, rfl⟩ | ⟨-, rfl | rfl⟩
    · exact grows_insert before row
    · exact .refl _
    · exact grows_insert before row
  | upsert point =>
    rcases upsert_cases call with ⟨-, rfl⟩ | ⟨-, rfl | rfl⟩
    · exact grows_upsert before point
    · exact .refl _
    · exact grows_upsert before point
  | _ => exact absurd rfl plain

/-- Only an INSERT of a row with the key stores the row with the key. -/
theorem StoresRow.insert (stores : StoresRow key e) (call : world.Calls e) :
    ∃ row, e.op = .insert row ∧ row.sessionId = key := by
  obtain ⟨absent, present⟩ := stores
  have changed : e.after.sessions ≠ e.before.sessions := by
    intro same
    rw [Store.hasRow, same, ← Store.hasRow, absent] at present
    contradiction
  by_cases plain : e.op.isPlain = true
  · exact absurd (plain_eq call plain).1 changed
  obtain ⟨op, before, answer, after⟩ := e
  cases op with
  | insert row =>
    have new : after = before.insert row := by
      rcases insert_cases call with ⟨-, rfl⟩ | ⟨-, rfl | rfl⟩
      · rfl
      · exact absurd rfl changed
      · rfl
    rw [new, hasRow_insert, absent] at present
    exact ⟨row, rfl, by simpa [eq_comm] using present⟩
  | upsert point =>
    refine absurd ?_ changed
    rcases upsert_cases call with ⟨-, rfl⟩ | ⟨-, rfl | rfl⟩ <;> rfl
  | _ => exact absurd rfl plain

/-- A point that a call leaves was there before, or the call is its upsert. -/
theorem mem_paths_of_call (call : world.Calls e) (now : point ∈ e.after.paths) :
    point ∈ e.before.paths ∨ e.op = .upsert point ∧ e.after = e.before.upsert point := by
  by_cases plain : e.op.isPlain = true
  · rw [(plain_eq call plain).2] at now
    exact .inl now
  obtain ⟨op, before, answer, after⟩ := e
  cases op with
  | insert row =>
    left
    rcases insert_cases call with ⟨-, rfl⟩ | ⟨-, rfl | rfl⟩ <;> exact now
  | upsert other =>
    have put (now : point ∈ (before.upsert other).paths) :
        point = other ∨ point ∈ before.paths := (Table.mem_put.mp now).imp_right And.left
    rcases upsert_cases call with ⟨-, rfl⟩ | ⟨-, rfl | rfl⟩
    · exact (put now).symm.imp_right fun same => by simp [same]
    · exact .inl now
    · exact (put now).symm.imp_right fun same => by simp [same]
  | _ => exact absurd rfl plain

theorem StoresPoint.hasPoint (stores : StoresPoint key e) : e.after.hasPoint key = true := by
  obtain ⟨point, -, rfl, stored⟩ := stores
  rw [stored, hasPoint_upsert, decide_eq_true rfl, Bool.or_true]

end Calls

/-! ### What `record` does -/

section History

variable {c : ModelNavigationSession} {h : List NavigationEvent} {e : NavigationEvent} {s : Store}

/-- No call failed. -/
def Clean (h : List NavigationEvent) : Prop := ∀ e ∈ h, ¬ Raised e

/-- One of the calls inserted the row of the session. -/
def Inserted (c : ModelNavigationSession) (h : List NavigationEvent) : Prop :=
  ∃ e ∈ h, StoresRow (UUID.str c.sessionId) e

/-- One of the calls is an upsert of the point of the session that Qdrant executed. -/
def Upserted (c : ModelNavigationSession) (h : List NavigationEvent) : Prop :=
  ∃ e ∈ h, StoresPoint (UUID.str c.sessionId) e

theorem clean_snoc : Clean (h ++ [e]) ↔ Clean h ∧ ¬ Raised e := by
  simp [Clean, or_imp, forall_and]

theorem inserted_snoc :
    Inserted c (h ++ [e]) ↔ Inserted c h ∨ StoresRow (UUID.str c.sessionId) e := by
  simp [Inserted, or_and_right, exists_or]

theorem upserted_snoc :
    Upserted c (h ++ [e]) ↔ Upserted c h ∨ StoresPoint (UUID.str c.sessionId) e := by
  simp [Upserted, or_and_right, exists_or]

theorem not_storesRow {key : String} (call : world.Calls e)
    (other : ∀ row, e.op ≠ .insert row) : ¬ StoresRow key e := by
  intro stores
  obtain ⟨row, op, -⟩ := stores.insert call
  exact other row op

theorem not_storesPoint {key : String} (other : ∀ point, e.op ≠ .upsert point) :
    ¬ StoresPoint key e := by
  rintro ⟨point, op, -⟩
  exact other point op

/-- Every session is written as its own row, and as its own point by the call that inserted its row
and only if it was successful. Nothing is removed. -/
def writes : Contract Op Res ModelNavigationSession Store where
  inv _ := True
  rely := Grows
  can _ _ := True
  guar c h e := (∀ row, e.op = .insert row → row = sessionRow c) ∧
    ∀ point, e.op = .upsert point → (∃ goal startState, point = navigationPoint c goal startState) ∧
      c.isSuccessful = true ∧ Inserted c h

/-- The calls stored no point, and a row as `stored` says. With `ok` none of them failed, and
otherwise one did. -/
structure Idle (c : ModelNavigationSession) (stored : Prop) (ok : Bool) (h : List NavigationEvent) :
    Prop where
  inserted : Inserted c h ↔ stored
  upserted : ¬ Upserted c h
  clean : Clean h ↔ ok = true

/-- The calls of the first `try`: the row is there when it returns, inserted by one of the calls if
it says so. -/
structure RowPart (c : ModelNavigationSession) (r : Except PyError WriteResult)
    (h : List NavigationEvent) : Prop where
  upserted : ¬ Upserted c h
  clean : Clean h ↔ r.toBool = true
  inserted : Inserted c h → r ≠ .ok .idempotent
  written : r = .ok .written → Inserted c h
  present : Clean h → ∃ e ∈ h, e.after.hasRow (UUID.str c.sessionId) = true

/-- The calls of the second `try`, after those of the first: either the point was stored and no
other call failed, or a call failed without the point stored. -/
structure PointPart (c : ModelNavigationSession) (r : Except PyError Unit)
    (h : List NavigationEvent) : Prop where
  inserted : Inserted c h
  clean : Clean h ↔ r.toBool = true
  upserted : Upserted c h ↔ ∀ e ∈ h, Raised e → StoresPoint (UUID.str c.sessionId) e

variable {α : Type} {stored : Prop} {Q : α → List NavigationEvent → Store → Prop}

/-- A call that writes nothing, in front of a program. -/
theorem keeps_plain {op : Op} {next : Res op → NavigationProg α} (plain : op.isPlain = true)
    (rest : ∀ before answer after,
      (Inserted c (h ++ [⟨op, before, answer, after⟩]) ↔ Inserted c h) →
      (Upserted c (h ++ [⟨op, before, answer, after⟩]) ↔ Upserted c h) →
      writes.Keeps world c Q (next answer) (h ++ [⟨op, before, answer, after⟩]) after) :
    writes.Keeps world c Q (.call op next) h s := by
  intro before _ _ answer after call _
  have noInsert : ∀ row, op ≠ .insert row := by
    rintro row rfl
    contradiction
  have noUpsert : ∀ point, op ≠ .upsert point := by
    rintro point rfl
    contradiction
  refine ⟨⟨trivial, grows_of_call call, fun row same => absurd same (noInsert row),
    fun point same => absurd same (noUpsert point)⟩, rest before answer after ?_ ?_⟩
  · rw [inserted_snoc, or_iff_left (not_storesRow call noInsert)]
  · rw [upserted_snoc, or_iff_left (not_storesPoint noUpsert)]

theorem Idle.snoc (ok : Bool) (idle : Idle c stored true h)
    (inserted : Inserted c (h ++ [e]) ↔ Inserted c h)
    (upserted : Upserted c (h ++ [e]) ↔ Upserted c h) (answer : raised e.op e.answer = !ok) :
    Idle c stored ok (h ++ [e]) where
  inserted := inserted.trans idle.inserted
  upserted := mt upserted.mp idle.upserted
  clean := by
    rw [clean_snoc, idle.clean, Raised, answer]
    cases ok <;> simp

theorem getPgPool_keeps (idle : Idle c stored true h) :
    writes.Keeps world c (fun r h _ => Idle c stored r.toBool h) getPgPool h s := by
  refine keeps_plain rfl fun _ has _ inserted upserted => ?_
  have idle := idle.snoc true inserted upserted rfl
  cases has with
  | true => exact idle
  | false =>
    refine keeps_plain rfl fun _ r _ inserted upserted => ?_
    exact idle.snoc _ inserted upserted rfl

theorem Idle.error {e : PyError} (idle : Idle c False false h) : RowPart c (.error e) h where
  upserted := idle.upserted
  clean := idle.clean
  inserted := fun _ => by simp
  written := by simp
  present clean := absurd (idle.clean.mp clean) (by simp)

/-- The INSERT, which tells whether it inserted the row unless it fails. -/
theorem Idle.insert {before after : Store} {answer : Except PyError (Option String)}
    (idle : Idle c False true h)
    (call : world.Calls ⟨.insert (sessionRow c), before, answer, after⟩) :
    RowPart c (answer.map writeResult)
      (h ++ [⟨.insert (sessionRow c), before, answer, after⟩]) := by
  have calm : ¬ Upserted c (h ++ [⟨.insert (sessionRow c), before, answer, after⟩]) := by
    rw [upserted_snoc]
    exact not_or.mpr ⟨idle.upserted, not_storesPoint fun _ => Op.noConfusion⟩
  have clean : Clean (h ++ [⟨.insert (sessionRow c), before, answer, after⟩]) ↔
      (answer.map writeResult).toBool = true := by
    rw [clean_snoc, idle.clean, Raised]
    cases answer <;> simp [raised, Except.toBool, Except.map]
  rcases insert_cases call with ⟨rfl, stored⟩ | ⟨⟨error, rfl⟩, -⟩
  · have key : (sessionRow c).sessionId = UUID.str c.sessionId := rfl
    have there : after.hasRow (UUID.str c.sessionId) = true := by
      rw [stored, hasRow_insert, key, decide_eq_true rfl, Bool.or_true]
    have present : ∃ e ∈ h ++ [⟨.insert (sessionRow c), before,
        .ok (before.inserted (sessionRow c)), after⟩],
        e.after.hasRow (UUID.str c.sessionId) = true :=
      ⟨_, List.mem_append_right _ (List.mem_singleton_self _), there⟩
    cases old : before.hasRow (UUID.str c.sessionId) with
    | true =>
      have same : writeResult (before.inserted (sessionRow c)) = .idempotent := by
        rw [Store.inserted, key, old]
        rfl
      have unstored : ¬ StoresRow (UUID.str c.sessionId) (⟨.insert (sessionRow c), before,
          .ok (before.inserted (sessionRow c)), after⟩ : NavigationEvent) := by
        rintro ⟨absent, -⟩
        exact absurd (old.symm.trans absent) (by decide)
      refine ⟨calm, clean, ?_, ?_, fun _ => present⟩
      · intro inserted
        exact absurd inserted (inserted_snoc.not.mpr (not_or.mpr ⟨idle.inserted.mp, unstored⟩))
      · simp [Except.map, same]
    | false =>
      have new : writeResult (before.inserted (sessionRow c)) = .written := by
        rw [Store.inserted, key, old]
        rfl
      refine ⟨calm, clean, ?_, ?_, fun _ => present⟩
      · simp [Except.map, new]
      · exact fun _ => inserted_snoc.mpr (.inr ⟨old, there⟩)
  · refine ⟨calm, clean, ?_, ?_, fun calm => absurd (clean.mp calm) ?_⟩ <;>
      simp [Except.map, Except.toBool]

/-- The release of the connection, whose exception replaces the result. -/
theorem RowPart.release {r : Except PyError WriteResult} {answer : Except PyError Unit}
    {before after : Store} (part : RowPart c r h)
    (inserted : Inserted c (h ++ [⟨.release, before, answer, after⟩]) ↔ Inserted c h)
    (upserted : Upserted c (h ++ [⟨.release, before, answer, after⟩]) ↔ Upserted c h) :
    RowPart c (answer.bind fun _ => r) (h ++ [⟨.release, before, answer, after⟩]) := by
  have clean : Clean (h ++ [⟨.release, before, answer, after⟩]) ↔
      (answer.bind fun _ => r).toBool = true := by
    rw [clean_snoc, part.clean, Raised]
    cases answer <;> simp [raised, Except.toBool, Except.bind]
  refine ⟨mt upserted.mp part.upserted, clean, fun stored => ?_, fun written => ?_, fun calm => ?_⟩
  · cases answer with
    | error e => simp [Except.bind]
    | ok => exact part.inserted (inserted.mp stored)
  · cases answer with
    | error e => simp [Except.bind] at written
    | ok => exact inserted.mpr (part.written written)
  · obtain ⟨e, mem, present⟩ := part.present (clean_snoc.mp calm).1
    exact ⟨e, List.mem_append_left _ mem, present⟩

theorem writePostgres_keeps (idle : Idle c False true h) :
    writes.Keeps world c (fun r h _ => RowPart c r h) (writePostgres c) h s := by
  refine keeps_plain rfl fun _ r _ inserted upserted => ?_
  cases r with
  | error e => exact (idle.snoc false inserted upserted rfl).error
  | ok =>
    have idle := idle.snoc true inserted upserted rfl
    intro before _ _ answer after call _
    refine ⟨⟨trivial, grows_of_call call, fun row same => (Op.insert.inj same).symm,
      fun _ => Op.noConfusion⟩, ?_⟩
    refine keeps_plain rfl fun _ r _ inserted upserted => ?_
    have part := (idle.insert call).release inserted upserted
    cases r with
    | error e => exact part
    | ok => exact part

theorem storeRow_keeps (idle : Idle c False true h) :
    writes.Keeps world c (fun r h _ => RowPart c r h) (storeRow c) h s := by
  refine (getPgPool_keeps idle).seq fun r h s idle => ?_
  cases r with
  | error e => exact idle.error
  | ok => exact writePostgres_keeps idle

theorem getQdrantClient_keeps (idle : Idle c stored true h) :
    writes.Keeps world c (fun r h _ => Idle c stored r.toBool h) getQdrantClient h s := by
  refine keeps_plain rfl fun _ has _ inserted upserted => ?_
  have idle := idle.snoc true inserted upserted rfl
  cases has with
  | true => exact idle
  | false =>
    refine keeps_plain rfl fun _ r _ inserted upserted => ?_
    exact idle.snoc _ inserted upserted rfl

theorem embedText_keeps {text : String} (idle : Idle c stored true h) :
    writes.Keeps world c (fun r h _ => Idle c stored r.toBool h) (embedText text) h s :=
  keeps_plain rfl fun _ _ _ inserted upserted => idle.snoc _ inserted upserted rfl

/-- A call that fails before the upsert leaves the row without its point. -/
theorem Idle.unstored {e : PyError} (idle : Idle c True false h) : PointPart c (.error e) h where
  inserted := idle.inserted.mpr trivial
  clean := idle.clean
  upserted := by
    refine iff_of_false idle.upserted fun all => ?_
    obtain ⟨f, mem, raised⟩ : ∃ f ∈ h, Raised f := by
      simpa [Clean] using idle.clean.not.mpr (by simp)
    exact idle.upserted ⟨f, mem, all f mem raised⟩

theorem writeQdrant_keeps (successful : c.isSuccessful = true) (idle : Idle c True true h) :
    writes.Keeps world c (fun r h _ => PointPart c r h) (writeQdrant c) h s := by
  refine (embedText_keeps idle).seq fun r h s idle => ?_
  cases r with
  | error e => exact idle.unstored
  | ok goal =>
    refine (embedText_keeps idle).seq fun r h s idle => ?_
    cases r with
    | error e => exact idle.unstored
    | ok startState =>
      intro before _ _ answer after call _
      refine ⟨⟨trivial, grows_of_call call, fun _ => Op.noConfusion, fun point same =>
        ⟨⟨goal, startState, (Op.upsert.inj same).symm⟩, successful, idle.inserted.mpr trivial⟩⟩, ?_⟩
      have calm := idle.clean.mpr rfl
      refine ⟨inserted_snoc.mpr (.inl (idle.inserted.mpr trivial)), ?_, ?_⟩
      · rw [clean_snoc, idle.clean, Raised]
        cases answer <;> simp [raised, Except.toBool]
      · rw [upserted_snoc, or_iff_right idle.upserted]
        constructor
        · intro stores e mem failed
          rcases List.mem_append.mp mem with mem | mem
          · exact absurd failed (calm e mem)
          · rwa [List.mem_singleton.mp mem]
        · intro all
          rcases upsert_cases call with ⟨-, done⟩ | ⟨⟨e, rfl⟩, -⟩
          · exact ⟨_, rfl, rfl, done⟩
          · exact all _ (List.mem_append_right _ (List.mem_singleton_self _)) rfl

theorem storePoint_keeps (successful : c.isSuccessful = true) (idle : Idle c True true h) :
    writes.Keeps world c (fun r h _ => PointPart c r h) (storePoint c) h s := by
  refine (getQdrantClient_keeps idle).seq fun r h s idle => ?_
  cases r with
  | error e => exact idle.unstored
  | ok => exact writeQdrant_keeps successful idle

/-- What the calls of a `record` that returned tell. -/
structure Recorded (c : ModelNavigationSession) (h : List NavigationEvent) : Prop where
  present : Clean h → ∃ e ∈ h, e.after.hasRow (UUID.str c.sessionId) = true
  upserted : Inserted c h → (Upserted c h ↔ c.isSuccessful = true ∧
    ∀ e ∈ h, Raised e → StoresPoint (UUID.str c.sessionId) e)

theorem PointPart.recorded {r : Except PyError Unit} (successful : c.isSuccessful = true)
    (part : PointPart c r h) : Recorded c h where
  present _ := by
    obtain ⟨e, mem, stores⟩ := part.inserted
    exact ⟨e, mem, stores.2⟩
  upserted _ := by
    rw [part.upserted]
    exact ⟨fun all => ⟨successful, all⟩, And.right⟩

theorem RowPart.recorded {r : Except PyError WriteResult} (part : RowPart c r h)
    (stop : r = .ok .written → c.isSuccessful = false) : Recorded c h where
  present := part.present
  upserted inserted := by
    refine iff_of_false part.upserted ?_
    rintro ⟨successful, all⟩
    cases r with
    | error e =>
      obtain ⟨f, mem, raised⟩ : ∃ f ∈ h, Raised f := by
        simpa [Clean] using part.clean.not.mpr (by simp [Except.toBool])
      exact part.upserted ⟨f, mem, all f mem raised⟩
    | ok result =>
      cases result with
      | idempotent => exact part.inserted inserted rfl
      | written => exact absurd successful (by simp [stop rfl])

theorem record_keeps (c : ModelNavigationSession) (s : Store) :
    writes.Keeps world c (fun _ h _ => Recorded c h) (record c) [] s := by
  have idle : Idle c False true [] := by
    refine ⟨?_, ?_, ?_⟩ <;> simp [Inserted, Upserted, Clean]
  refine (storeRow_keeps idle).seq fun r h s part => ?_
  cases r with
  | error e => exact part.recorded (by simp)
  | ok result =>
    cases result with
    | idempotent => exact part.recorded (by simp)
    | written =>
      cases successful : c.isSuccessful with
      | false => simpa using part.recorded fun _ => successful
      | true =>
        simp only [if_true]
        have idle : Idle c True true h :=
          ⟨iff_true_intro (part.written rfl), part.upserted, part.clean⟩
        refine (storePoint_keeps successful idle).seq fun r h s part => ?_
        cases r with
        | error e => exact part.recorded successful
        | ok => exact part.recorded successful

end History

/-! ### Pools -/

section Pools

variable {init : Store → Prop} {ok : NavigationPool → NavigationLabel → Prop} {p : NavigationPool}
  {t : NavigationTask}

theorem writes_holds : writes.Holds world init ok fun c _ h _ => Recorded c h where
  refl := Grows.refl
  trans _ _ _ := Grows.trans
  init _ _ := trivial
  move p m after _ _ moved := by
    refine ⟨trivial, ?_⟩
    cases m <;> cases moved <;> exact .of_eq rfl rfl
  call _ _ _ _ _ := trivial
  code c s _ := record_keeps c s
  stable _ _ _ _ _ _ recorded := recorded

theorem kept_of_reach (reach : world.Reach init ok p) (task : t ∈ p.tasks) :
    writes.Kept world (fun c _ h _ => Recorded c h) p.shared t :=
  (writes_holds.reach reach).2 t task

theorem recorded_of_reach (reach : world.Reach init ok p) (task : t ∈ p.tasks)
    (returned : t.result?.isSome = true) : Recorded t.cmd t.calls := by
  obtain ⟨response, returned⟩ := Option.isSome_iff_exists.mp returned
  have keeps := (kept_of_reach reach task).keeps
  rwa [Task.result?_eq_some.mp returned] at keeps

/-- A task's upsert is of its own point, after it inserted the row. -/
theorem upsert_of_reach (reach : world.Reach init ok p) (task : t ∈ p.tasks)
    {e : NavigationEvent} (mem : e ∈ t.calls) {point : NavigationPoint}
    (upsert : e.op = .upsert point) :
    (∃ goal startState, point = navigationPoint t.cmd goal startState) ∧
      t.cmd.isSuccessful = true ∧ Inserted t.cmd t.calls := by
  obtain ⟨pre, post, split⟩ := List.append_of_mem mem
  obtain ⟨-, here⟩ := (kept_of_reach reach task).obeyed pre e post split
  obtain ⟨own, successful, f, hf, stores⟩ := here point upsert
  exact ⟨own, successful, f, split ▸ List.mem_append_left _ hf, stores⟩

/-- Every point was written by a task of the pool. -/
theorem upsert_of_mem (reach : world.Reach (fun s => s.paths = .empty) ok p)
    {point : NavigationPoint} (mem : point ∈ p.shared.paths) :
    ∃ t ∈ p.tasks, ∃ e ∈ t.calls, e.op = .upsert point ∧ e.after = e.before.upsert point := by
  revert point
  refine reach.invariant (P := fun p => ∀ {point}, point ∈ p.shared.paths → ∃ t ∈ p.tasks,
    ∃ e ∈ t.calls, e.op = .upsert point ∧ e.after = e.before.upsert point) ?_ ?_
  · rintro s start point mem
    rw [start] at mem
    exact absurd mem (Table.not_mem_empty point)
  rintro p l p' - ih - step point mem
  cases step with
  | start c =>
    obtain ⟨t, task, e⟩ := ih mem
    exact ⟨t, List.mem_append_left _ task, e⟩
  | @call i t op rest answer after task here call =>
    rcases mem_paths_of_call call mem with old | new
    · obtain ⟨u, hu, e, he, wrote⟩ := ih old
      obtain ⟨u', hu', grown⟩ := World.grown_of_mem task hu
      exact ⟨u', hu', e, grown.subset he, wrote⟩
    · exact ⟨_, World.self_mem_set task, _,
        List.mem_append_right _ (List.mem_singleton_self _), new⟩
  | @move m after moved =>
    cases m <;> cases moved <;> exact ih mem

/-- Every point belongs to the row of its session, and was written for a successful session. -/
theorem row_of_point (reach : world.Reach (fun s => s.paths = .empty) ok p)
    {point : NavigationPoint} (mem : point ∈ p.shared.paths) :
    ∃ t ∈ p.tasks, t.cmd.isSuccessful = true ∧ point.id = UUID.str t.cmd.sessionId ∧
      point.payload = payload t.cmd ∧ p.shared.hasRow (UUID.str t.cmd.sessionId) = true := by
  obtain ⟨t, task, e, he, upsert, -⟩ := upsert_of_mem reach mem
  obtain ⟨⟨goal, startState, rfl⟩, successful, f, hf, -, stored⟩ :=
    upsert_of_reach reach task he upsert
  exact ⟨t, task, successful, rfl, rfl, ((kept_of_reach reach task).past f hf).rows _ stored⟩

/-- What the two stores have in common. -/
structure Contained (p : NavigationPool) : Prop where
  row : ∀ point ∈ p.shared.paths, ∃ row ∈ p.shared.sessions,
    row.sessionId = point.payload.sessionId ∧ point.id = point.payload.sessionId
  failures : ∀ t ∈ p.tasks, t.cmd.isSuccessful = false →
    ∀ point ∈ p.shared.paths, point.payload.sessionId ≠ UUID.str t.cmd.sessionId
  oneRow : ∀ row ∈ p.shared.sessions, ∀ row' ∈ p.shared.sessions,
    row.sessionId = row'.sessionId → row = row'
  onePoint : ∀ point ∈ p.shared.paths, ∀ point' ∈ p.shared.paths,
    point.payload.sessionId = point'.payload.sessionId → point = point'

/-- Sessions with the same id carry the same outcome. -/
def Agreeing (p : NavigationPool) : NavigationLabel → Prop
  | .start c => ∀ t ∈ p.tasks, t.cmd.sessionId = c.sessionId → t.cmd.isSuccessful = c.isSuccessful
  | _ => True

/-- Every task is for a session that agrees with the others. -/
theorem agree_of_reach (reach : world.Reach init Agreeing p) : ∀ t ∈ p.tasks, ∀ u ∈ p.tasks,
    t.cmd.sessionId = u.cmd.sessionId → t.cmd.isSuccessful = u.cmd.isSuccessful := by
  refine reach.invariant (P := fun p => ∀ t ∈ p.tasks, ∀ u ∈ p.tasks,
    t.cmd.sessionId = u.cmd.sessionId → t.cmd.isSuccessful = u.cmd.isSuccessful) (by simp) ?_
  rintro p l p' - ih agreeing step t ht u hu same
  cases step with
  | start c =>
    rcases List.mem_append.mp ht with ht | ht <;> rcases List.mem_append.mp hu with hu | hu
    · exact ih t ht u hu same
    · obtain rfl := List.mem_singleton.mp hu
      exact agreeing t ht same
    · obtain rfl := List.mem_singleton.mp ht
      exact (agreeing u hu same.symm).symm
    · rw [List.mem_singleton.mp ht, List.mem_singleton.mp hu]
  | @call i v op rest answer after task here call =>
    have cmd : ∀ w ∈ p.tasks.set i (v.advance ⟨op, p.shared, answer, after⟩ (rest answer)),
        ∃ w' ∈ p.tasks, w'.cmd = w.cmd := by
      intro w hw
      rcases World.mem_tasks_set hw with rfl | hw
      · exact ⟨v, List.mem_of_getElem? task, rfl⟩
      · exact ⟨w, hw, rfl⟩
    obtain ⟨t', ht', cmdt⟩ := cmd t ht
    obtain ⟨u', hu', cmdu⟩ := cmd u hu
    rw [← cmdt, ← cmdu] at same ⊢
    exact ih t' ht' u' hu' same
  | move moved => exact ih t ht u hu same

theorem contained_of_reach
    (reach : world.Reach (fun s => s.sessions = .empty ∧ s.paths = .empty) Agreeing p) :
    Contained p := by
  have agree := agree_of_reach reach
  have reach : world.Reach (fun s => s.paths = .empty) Agreeing p :=
    reach.mono (fun _ start => start.2) fun _ _ met => met
  have ids : ∀ point ∈ p.shared.paths, point.id = point.payload.sessionId := by
    intro point mem
    obtain ⟨t, -, -, id, load, -⟩ := row_of_point reach mem
    rw [id, load]
    rfl
  refine ⟨fun point mem => ?_, fun t task failed point mem same => ?_, ?_, ?_⟩
  · obtain ⟨t, -, -, id, -, present⟩ := row_of_point reach mem
    obtain ⟨row, here, same⟩ := Table.isSome_find?.mp present
    exact ⟨row, here, by rw [← ids point mem, id, same], ids point mem⟩
  · obtain ⟨u, hu, successful, id, -⟩ := row_of_point reach mem
    have same : u.cmd.sessionId = t.cmd.sessionId :=
      UUID.str_inj (id.symm.trans ((ids point mem).trans same))
    rw [agree u hu t task same, failed] at successful
    contradiction
  · exact fun row mem row' mem' same => Table.eq_of_key mem mem' same
  · intro point mem point' mem' same
    exact Table.eq_of_key mem mem' ((ids point mem).trans (same.trans (ids point' mem').symm))

end Pools

/-- Sessions for runs. -/
def plainSession (sessionId : UUID) (finalOutcome : NavigationOutcome) :
    ModelNavigationSession where
  sessionId := sessionId
  goalCondition := "goal"
  startStateId := "start"
  endStateId := "end"
  executedSteps := []
  finalOutcome := finalOutcome
  graphFingerprint := "graph"
  createdAt := ⟨2025, 1, 1, 0⟩

def checkAgreeing (p : NavigationPool) : NavigationLabel → Bool
  | .start c => p.tasks.all fun t =>
      t.cmd.sessionId != c.sessionId || t.cmd.isSuccessful == c.isSuccessful
  | _ => true

theorem agreeing_of_check {p : NavigationPool}
    {l : NavigationLabel} (check : checkAgreeing p l = true) :
    Agreeing p l := by
  cases l with
  | start c =>
    intro t task same
    simpa [same] using List.all_eq_true.mp check t task
  | call i c e => trivial
  | move m => trivial

/-- Two attempts for one successful session, the second between the two writes of the first, and
one for a failed session. -/
theorem contained_duplicate : ∃ p : NavigationPool, p.shared.sessions.rows.length = 2 ∧
    p.shared.paths.rows.length = 1 ∧ Contained p := by
  obtain ⟨p, reach, counts⟩ : ∃ p : NavigationPool, world.Reach (· = Store.empty) Agreeing p ∧
      decide (p.shared.sessions.rows.length = 2 ∧ p.shared.paths.rows.length = 1) = true :=
    World.Reach.of_run checkAgreeing .empty
      [.start (plainSession 1 (.success "end")), .start (plainSession 1 (.success "end")),
        .call 0 .run, .call 0 .run, .call 0 .run, .call 0 .run, .call 0 .run,
        .call 1 .run, .call 1 .run, .call 1 .run, .call 1 .run,
        .start (plainSession 2 (.failure "no_path_found" none)),
        .call 2 .run, .call 2 .run, .call 2 .run, .call 2 .run,
        .call 0 .run, .call 0 .run, .call 0 (.vector []), .call 0 (.vector []), .call 0 .run]
      (fun _ _ _ => agreeing_of_check) (by decide +kernel)
  obtain ⟨rows, points⟩ := of_decide_eq_true counts
  refine ⟨p, rows, points, contained_of_reach (reach.mono ?_ fun _ _ met => met)⟩
  rintro s rfl
  exact ⟨rfl, rfl⟩

end Navigation

end OmniMemory
