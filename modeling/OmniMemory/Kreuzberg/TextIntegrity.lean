import OmniMemory.Lib.Contract
import OmniMemory.Kreuzberg.TextCache
import Mathlib.Data.List.TakeDrop

/-! Extracted texts. An indexed event should carry, or refer to, the text that its parser version
gives for a content with its hash. The bytes are read after the hash was taken, the text file is
found by URL alone and stamped with the hash of the event, and it is rewritten in place, so the
handler ensures this only in runs whose steps meet `Careful`. -/

namespace OmniMemory

open Interleave

namespace Kreuzberg

/-- An event with the handler that takes it and the time that the handler reads. -/
structure Command where
  self : HandlerKreuzbergParse
  now : DateTime
  event : ModelDocumentEvent

/-- The world of the handlers: the commands, and source files that are rewritten at any time. A
process that stops is a command that makes no further call, and a restart with another
configuration is a further command. -/
def world (X : External) :
    World Op Res (Except PyError ModelKreuzbergParseResult) Command Choice Rewrite State where
  code c := c.self.processEvent X c.now c.event
  exec := exec X
  move := move

abbrev CallEvent := Event Op Res State

abbrev ParsePool := Pool Op Res (Except PyError ModelKreuzbergParseResult) Command State

/-- `text` is what the parser version gives for a content with this hash. -/
def Extracts (X : External) (hash : Digest) (version text : String) : Prop :=
  ∃ content, sha256 content = hash ∧ text = X.extract version content

/-- The event carries such a text, or the file that it refers to holds one. -/
def Faithful (X : External) (s : State) (event : ModelDocumentIndexedKreuzbergEvent) : Prop :=
  match event.extractedTextRef with
  | .inline text => Extracts X event.contentHash event.parserVersion text
  | .file path => ∃ file text, s.texts (X.entry path) = some file ∧
      file.bytes = cachedContent event.contentHash text ∧
      Extracts X event.contentHash event.parserVersion text

/-- Every published indexed event is faithful, now that the state is `s`. -/
def TextsFaithful (X : External) (s : State) : Prop :=
  ∀ topic event, (topic, .indexed event) ∈ s.published → Faithful X s event

/-- No text file and no event yet. -/
def Initial (s : State) : Prop := s.texts = (fun _ => none) ∧ s.writers = [] ∧ s.published = []

/-- The steps that keep texts faithful. -/
structure Careful (X : External) (c : Command) (e : CallEvent) : Prop where
  /-- The content that the service gets has the hash of the event. -/
  sent : ∀ request text before after, e = ⟨.post request, before, .content text, after⟩ →
    sha256 request.fileBytes = c.event.contentFingerprint
  /-- A text file that is taken for the text of the event was written and closed by a command with
  the same parser version, and its text has no carriage return. -/
  hit : ∀ path bytes text before after, e = ⟨.readText path, before, .ok bytes, after⟩ →
    parseBytes bytes = some (c.event.contentFingerprint.hex, text) →
    text.length < c.self.config.inlineTextMaxChars →
    ∃ file w, before.texts (X.entry path) = some file ∧ file.closed = true ∧
      before.writers[file.opener]? = some w ∧ w.version = c.self.config.parserVersion ∧
      '\r' ∉ w.text.toList
  /-- A handle writes to a file only while no other one was opened on it since. -/
  own : ∀ handle w file, e.op = .flush handle ∨ e.op = .closeText handle →
    e.before.writers[handle]? = some w → w.position < w.content.length →
    e.before.texts (X.entry w.path) = some file → file.opener = handle
  /-- A reference is published while its file was last written, and closed, by a command with the
  same hash and parser version. -/
  current : ∀ topic event path, e.op = .publish topic (.indexed event) →
    event.extractedTextRef = .file path →
    ∃ file w, e.before.texts (X.entry path) = some file ∧ file.closed = true ∧
      e.before.writers[file.opener]? = some w ∧ w.fingerprint = event.contentHash ∧
      w.version = event.parserVersion
  /-- No file that a published event refers to is opened for writing. -/
  unreferenced : ∀ path fingerprint version text, e.op = .openText path fingerprint version text →
    ∀ topic event path', (topic, .indexed event) ∈ e.before.published →
      event.extractedTextRef = .file path' → X.entry path' ≠ X.entry path

def CarefulStep (X : External) (_ : ParsePool) : Label Op Res Command Rewrite State → Prop
  | .call _ c e => Careful X c e
  | _ => True

/-! ### The text file format -/

theorem parseBytes_cachedContent {fingerprint : Digest} {text : String}
    (plain : '\r' ∉ text.toList) :
    parseBytes (cachedContent fingerprint text) = some (fingerprint.hex, text) := by
  have line : '\n' ∉ fingerprint.hex.toList ∧ '\r' ∉ fingerprint.hex.toList := by
    rw [Digest.toList_hex]
    exact not_mem_hexDigits _ _
  rw [cachedContent_eq, parseBytes_cachedText line, universalNewlines_of_not_mem plain,
    String.ofList_toList]

/-! ### The invariant -/

/-- The event is faithful, and if it refers to a file, this file is closed. -/
def Settled (X : External) (s : State) (event : ModelDocumentIndexedKreuzbergEvent) : Prop :=
  match event.extractedTextRef with
  | .inline text => Extracts X event.contentHash event.parserVersion text
  | .file path => ∃ file text, s.texts (X.entry path) = some file ∧ file.closed = true ∧
      file.bytes = cachedContent event.contentHash text ∧
      Extracts X event.contentHash event.parserVersion text

/-- Every text file is a beginning of what the writer that opened it last is to write, all of it
if it is closed; writers have texts of their hash and version; events are settled. -/
structure Inv (X : External) (s : State) : Prop where
  files : ∀ f file, s.texts f = some file → ∃ w, s.writers[file.opener]? = some w ∧
    X.entry w.path = f ∧ file.bytes = w.content.take w.position ∧
    (file.closed = true → w.content.length ≤ w.position)
  sound : ∀ w ∈ s.writers, Extracts X w.fingerprint w.version w.text
  published : ∀ topic event, (topic, .indexed event) ∈ s.published → Settled X s event

variable {X : External} {s : State}

theorem Settled.faithful {event : ModelDocumentIndexedKreuzbergEvent}
    (settled : Settled X s event) : Faithful X s event := by
  unfold Settled at settled
  unfold Faithful
  split at settled
  · exact settled
  · obtain ⟨file, text, here, -, bytes, extracts⟩ := settled
    exact ⟨file, text, here, bytes, extracts⟩

/-- A file is at the entry of its opener, and has what the opener has written. -/
theorem Inv.opened (inv : Inv X s) {f : PurePath} {file : TextFile} {handle : Nat} {w : Writer}
    (here : s.texts f = some file) (mine : file.opener = handle)
    (writer : s.writers[handle]? = some w) :
    X.entry w.path = f ∧ file.bytes = w.content.take w.position ∧
      (file.closed = true → w.content.length ≤ w.position) := by
  obtain ⟨w', writer', facts⟩ := inv.files f file here
  rw [mine] at writer'
  obtain rfl := Option.some.inj (writer.symm.trans writer')
  exact facts

theorem Inv.closed_bytes (inv : Inv X s) {f : PurePath} {file : TextFile} {w : Writer}
    (here : s.texts f = some file) (closed : file.closed = true)
    (writer : s.writers[file.opener]? = some w) :
    file.bytes = w.content ∧ Extracts X w.fingerprint w.version w.text := by
  obtain ⟨-, bytes, complete⟩ := inv.opened here rfl writer
  exact ⟨by rw [bytes, List.take_of_length_le (complete closed)],
    inv.sound w (List.mem_of_getElem? writer)⟩

theorem Settled.mono {s' : State} {event : ModelDocumentIndexedKreuzbergEvent}
    (settled : Settled X s event)
    (kept : ∀ path file, event.extractedTextRef = .file path →
      s.texts (X.entry path) = some file → file.closed = true →
      s'.texts (X.entry path) = some file) : Settled X s' event := by
  unfold Settled at *
  split
  · rename_i here
    rw [here] at settled
    exact settled
  · rename_i path here
    rw [here] at settled
    obtain ⟨file, text, there, closed, bytes, extracts⟩ := settled
    exact ⟨file, text, kept path file here there closed, closed, bytes, extracts⟩

theorem overlay_take {content : Bytes} {position stored : Nat} (positive : 0 < stored)
    (fits : position + stored ≤ content.length) :
    overlay (content.take position) position ((content.drop position).take stored) =
      content.take (position + stored) := by
  have length : (content.take position).length = position := by
    rw [List.length_take]
    omega
  have nonempty : (content.drop position).take stored ≠ [] := by
    intro nothing
    have := congrArg List.length nothing
    simp only [List.length_take, List.length_drop, List.length_nil] at this
    omega
  have whole : (content.take position).take position = content.take position :=
    List.take_of_length_le (by omega)
  have rest : (content.take position).drop
      (position + ((content.drop position).take stored).length) = [] :=
    List.drop_of_length_le (by omega)
  rw [overlay, if_neg nonempty, whole, rest, length, Nat.sub_self, List.replicate_zero,
    List.append_nil, List.append_nil, List.take_add]

@[simp] theorem State.store_zero (handle : Nat) (w : Writer)
    (writer : s.writers[handle]? = some w) : s.store X handle w 0 = s := by
  obtain ⟨bound, writer⟩ := List.getElem?_eq_some_iff.mp writer
  have writers : s.writers.set handle w = s.writers := by
    rw [← writer, List.set_getElem_self]
  cases here : s.texts (X.entry w.path) with
  | none => simp [State.store, here, writers]
  | some file =>
    have texts : Function.update s.texts (X.entry w.path) (some file) = s.texts :=
      here ▸ Function.update_eq_self _ _
    simp [State.store, overlay, here, writers, texts]

theorem Inv.store (inv : Inv X s) {handle : Nat} {w : Writer} {stored : Nat}
    (writer : s.writers[handle]? = some w) (fits : stored ≤ w.content.length - w.position)
    (own : ∀ file, w.position < w.content.length → s.texts (X.entry w.path) = some file →
      file.opener = handle) : Inv X (s.store X handle w stored) := by
  rcases Nat.eq_zero_or_pos stored with rfl | positive
  · rwa [State.store_zero handle w writer]
  have bound := (List.getElem?_eq_some_iff.mp writer).1
  -- A file that another handle opened last, or at another entry, is as it was.
  have other : ∀ f file, s.texts f = some file → file.opener ≠ handle →
      ∃ w', (s.store X handle w stored).writers[file.opener]? = some w' ∧ X.entry w'.path = f ∧
        file.bytes = w'.content.take w'.position ∧
        (file.closed = true → w'.content.length ≤ w'.position) := by
    intro f file here ne
    obtain ⟨w', writer', facts⟩ := inv.files f file here
    exact ⟨w', by rw [← writer']; exact List.getElem?_set_ne (Ne.symm ne), facts⟩
  refine ⟨?_, ?_, ?_⟩
  · intro f file here
    cases there : s.texts (X.entry w.path) with
    | none =>
      simp only [State.store, there] at here
      by_cases mine : file.opener = handle
      · rw [(inv.opened here mine writer).1, here] at there
        contradiction
      · exact other f file here mine
    | some old =>
      simp only [State.store, there] at here
      have mine := own old (by omega) there
      by_cases same : f = X.entry w.path
      · subst same
        rw [Function.update_self] at here
        cases here
        obtain ⟨entry, bytes, complete⟩ := inv.opened there mine writer
        refine ⟨{ w with position := w.position + stored }, ?_, entry, ?_, fun closed => ?_⟩
        · rw [← mine] at bound ⊢
          exact List.getElem?_set_self bound
        · dsimp only
          rw [bytes]
          exact overlay_take positive (by omega)
        · have := complete closed
          omega
      · rw [Function.update_of_ne same] at here
        exact other f file here fun mine' => same (inv.opened here mine' writer).1.symm
  · intro w' hw'
    rcases List.mem_or_eq_of_mem_set hw' with hw' | rfl
    · exact inv.sound w' hw'
    · exact inv.sound w (List.mem_of_getElem? writer)
  · intro topic event published
    refine (inv.published topic event published).mono fun path file _ here closed => ?_
    cases there : s.texts (X.entry w.path) with
    | none => simpa only [State.store, there] using here
    | some old =>
      simp only [State.store, there]
      rw [Function.update_of_ne, here]
      intro same
      rw [same, there] at here
      cases here
      have mine := own file (by omega) there
      have := (inv.opened there mine writer).2.2 closed
      omega

theorem Inv.close (inv : Inv X s) {handle : Nat} {w : Writer}
    (writer : s.writers[handle]? = some w) (complete : w.content.length ≤ w.position) :
    Inv X (s.close X handle w.path) := by
  cases there : s.texts (X.entry w.path) with
  | none =>
    have same : s.close X handle w.path = s := by simp [State.close, there]
    rwa [same]
  | some old =>
    refine ⟨?_, inv.sound, ?_⟩
    · intro f file here
      simp only [State.close, there] at here
      by_cases same : f = X.entry w.path
      · subst same
        rw [Function.update_self] at here
        cases here
        obtain ⟨w', writer', entry, bytes, done⟩ := inv.files _ old there
        refine ⟨w', writer', entry, bytes, fun closed => ?_⟩
        simp only [Bool.or_eq_true, beq_iff_eq] at closed
        rcases closed with closed | mine
        · exact done closed
        · rw [mine] at writer'
          obtain rfl := Option.some.inj (writer.symm.trans writer')
          exact complete
      · rw [Function.update_of_ne same] at here
        exact inv.files f file here
    · intro topic event published
      refine (inv.published topic event published).mono fun path file _ here closed => ?_
      simp only [State.close, there]
      by_cases same : X.entry path = X.entry w.path
      · rw [same] at here ⊢
        obtain rfl := Option.some.inj (there.symm.trans here)
        have marked : { old with closed := old.closed || old.opener == handle } = old := by
          rw [closed, Bool.true_or, ← closed]
        rw [marked, Function.update_self]
      · rw [Function.update_of_ne same, here]

theorem Inv.openText (inv : Inv X s) {path : PurePath} {fingerprint : Digest}
    {version text : String} (extracts : Extracts X fingerprint version text)
    (unreferenced : ∀ topic event path', (topic, .indexed event) ∈ s.published →
      event.extractedTextRef = .file path' → X.entry path' ≠ X.entry path) :
    Inv X (s.openText X path fingerprint version text) := by
  refine ⟨?_, ?_, ?_⟩
  · intro f file here
    simp only [State.openText] at here ⊢
    by_cases same : f = X.entry path
    · subst same
      rw [Function.update_self] at here
      cases here
      exact ⟨⟨path, fingerprint, version, text, 0⟩, by simp, rfl, rfl, nofun⟩
    · rw [Function.update_of_ne same] at here
      obtain ⟨w, writer, facts⟩ := inv.files f file here
      refine ⟨w, ?_, facts⟩
      rw [List.getElem?_append_left (List.getElem?_eq_some_iff.mp writer).1, writer]
  · intro w hw
    rcases List.mem_append.mp hw with hw | hw
    · exact inv.sound w hw
    · obtain rfl := List.mem_singleton.mp hw
      exact extracts
  · intro topic event published
    refine (inv.published topic event published).mono fun path' file ref here _ => ?_
    simp only [State.openText]
    rw [Function.update_of_ne (unreferenced topic event path' published ref), here]

theorem Inv.publish (inv : Inv X s) {topic : String} {payload : Payload}
    (settled : ∀ event, payload = .indexed event → Settled X s event) :
    Inv X { s with published := s.published ++ [(topic, payload)] } := by
  refine ⟨inv.files, inv.sound, fun topic' event published => ?_⟩
  have kept : Settled X s event → Settled X
      { s with published := s.published ++ [(topic, payload)] } event :=
    fun settled => settled.mono fun _ _ _ here _ => here
  rcases List.mem_append.mp published with published | published
  · exact kept (inv.published topic' event published)
  · cases List.mem_singleton.mp published
    exact kept (settled event rfl)

/-! ### The handler keeps the invariant -/

/-- The contract of the handler: the invariant under the condition. -/
def texts (X : External) : Contract Op Res Command State where
  inv := Inv X
  rely _ _ := True
  can := Careful X
  guar _ _ _ := True

/-- The calls that leave the state as it is. -/
def Op.isIdle : Op → Bool
  | openText .. | flush _ | closeText _ | publish .. => false
  | _ => true

/-! ### What calls do -/

section Calls

variable {before after : State} {handle : Nat}

theorem calls_iff {op : Op} {answer : Res op} : (world X).Calls ⟨op, before, answer, after⟩ ↔
    ∃ ch, exec X op ch before = some (answer, after) := Iff.rfl

theorem after_eq {e : CallEvent} (call : (world X).Calls e) (idle : e.op.isIdle = true) :
    e.after = e.before := by
  obtain ⟨op, before, answer, after⟩ := e
  obtain ⟨ch, call⟩ := calls_iff.mp call
  cases op with
  | readText path =>
    cases ch with
    | run =>
      obtain ⟨file, -, same⟩ := Option.map_eq_some_iff.mp call
      exact (Prod.mk.inj same).2.symm
    | _ => first | contradiction | exact (Prod.mk.inj (Option.some.inj call)).2.symm
  | readBytes path =>
    cases ch with
    | run =>
      obtain ⟨bytes, -, same⟩ := Option.map_eq_some_iff.mp call
      exact (Prod.mk.inj same).2.symm
    | _ => first | contradiction | exact (Prod.mk.inj (Option.some.inj call)).2.symm
  | post request =>
    cases ch with
    | answer response =>
      cases response <;> first
        | contradiction
        | exact (Prod.mk.inj (Option.some.inj call)).2.symm
    | _ => first | contradiction | exact (Prod.mk.inj (Option.some.inj call)).2.symm
  | _ => first
    | contradiction
    | cases ch <;> first | contradiction | exact (Prod.mk.inj (Option.some.inj call)).2.symm

theorem readText_cases {path : PurePath} {bytes : Bytes}
    (call : (world X).Calls ⟨.readText path, before, .ok bytes, after⟩) :
    ∃ file, before.texts (X.entry path) = some file ∧ bytes = file.bytes := by
  obtain ⟨ch, call⟩ := calls_iff.mp call
  cases ch with
  | run =>
    obtain ⟨file, here, same⟩ := Option.map_eq_some_iff.mp call
    exact ⟨file, here, (Except.ok.inj (Prod.mk.inj same).1).symm⟩
  | fail e => cases (Prod.mk.inj (Option.some.inj call)).1
  | _ => contradiction

/-- A text that the service returns is the one of the request. -/
theorem post_cases {request : Request} {text : String}
    (call : (world X).Calls ⟨.post request, before, .content text, after⟩) :
    text = X.extract request.parserVersion request.fileBytes := by
  obtain ⟨ch, call⟩ := calls_iff.mp call
  cases ch with
  | run => exact (Response.content.inj (Prod.mk.inj (Option.some.inj call)).1).symm
  | answer response =>
    cases response <;> first | contradiction | cases (Prod.mk.inj (Option.some.inj call)).1
  | _ => contradiction

theorem openText_cases {path : PurePath} {fingerprint : Digest} {version text : String}
    {answer : Except PyError Nat}
    (call : (world X).Calls ⟨.openText path fingerprint version text, before, answer, after⟩) :
    after = before ∨ after = before.openText X path fingerprint version text := by
  obtain ⟨ch, call⟩ := calls_iff.mp call
  cases ch with
  | run => exact .inr (Prod.mk.inj (Option.some.inj call)).2.symm
  | fail e => exact .inl (Prod.mk.inj (Option.some.inj call)).2.symm
  | _ => contradiction

theorem flush_cases {answer : Except PyError Bool}
    (call : (world X).Calls ⟨.flush handle, before, answer, after⟩) : after = before ∨
      ∃ w stored, before.writers[handle]? = some w ∧ 0 < stored ∧
        w.position + stored ≤ w.content.length ∧ after = before.store X handle w stored := by
  obtain ⟨ch, call⟩ := calls_iff.mp call
  cases ch with
  | run => exact .inl (Prod.mk.inj (Option.some.inj call)).2.symm
  | fail e => exact .inl (Prod.mk.inj (Option.some.inj call)).2.symm
  | part stored =>
    simp only [exec] at call
    split at call
    · contradiction
    · rename_i w writer
      split at call
      · rename_i fits
        exact .inr ⟨w, stored, writer, fits.1, fits.2,
          (Prod.mk.inj (Option.some.inj call)).2.symm⟩
      · contradiction
  | _ => contradiction

theorem closeText_cases {answer : Except PyError Unit}
    (call : (world X).Calls ⟨.closeText handle, before, answer, after⟩) : after = before ∨
      ∃ w, before.writers[handle]? = some w ∧ after =
        (before.store X handle w (w.content.length - w.position)).close X handle w.path := by
  obtain ⟨ch, call⟩ := calls_iff.mp call
  cases ch with
  | run =>
    simp only [exec] at call
    split at call
    · contradiction
    · rename_i w writer
      exact .inr ⟨w, writer, (Prod.mk.inj (Option.some.inj call)).2.symm⟩
  | fail e => exact .inl (Prod.mk.inj (Option.some.inj call)).2.symm
  | _ => contradiction

theorem publish_cases {topic : String} {payload : Payload} {answer : Except PyError Unit}
    (call : (world X).Calls ⟨.publish topic payload, before, answer, after⟩) : after = before ∨
      after = { before with published := before.published ++ [(topic, payload)] } := by
  obtain ⟨ch, call⟩ := calls_iff.mp call
  cases ch with
  | run => exact .inr (Prod.mk.inj (Option.some.inj call)).2.symm
  | fail e => exact .inl (Prod.mk.inj (Option.some.inj call)).2.symm
  | lost e => exact .inr (Prod.mk.inj (Option.some.inj call)).2.symm
  | _ => contradiction

end Calls

section Keeps

variable {c : Command} {h : List CallEvent} {α : Type} {Q : α → List CallEvent → State → Prop}

theorem keeps_op {op : Op} {next : Res op → KreuzbergProg α}
    (keep : ∀ before answer after, Inv X before →
      (world X).Calls ⟨op, before, answer, after⟩ → Careful X c ⟨op, before, answer, after⟩ →
      Inv X after)
    (rest : ∀ before answer after, Inv X before →
      (world X).Calls ⟨op, before, answer, after⟩ → Careful X c ⟨op, before, answer, after⟩ →
      (texts X).Keeps (world X) c Q (next answer) (h ++ [⟨op, before, answer, after⟩]) after) :
    (texts X).Keeps (world X) c Q (Prog.perform op >>= next) h s := by
  intro before _ inv answer after call careful
  exact ⟨⟨keep before answer after inv call careful, trivial, trivial⟩,
    rest before answer after inv call careful⟩

theorem keeps_idle {op : Op} {next : Res op → KreuzbergProg α} (idle : op.isIdle = true)
    (rest : ∀ before answer after, Inv X before →
      (world X).Calls ⟨op, before, answer, after⟩ → Careful X c ⟨op, before, answer, after⟩ →
      (texts X).Keeps (world X) c Q (next answer) (h ++ [⟨op, before, answer, after⟩]) after) :
    (texts X).Keeps (world X) c Q (Prog.perform op >>= next) h s :=
  keeps_op (fun _ _ _ inv call _ => (congrArg (Inv X) (after_eq call idle)).mpr inv) rest

theorem inv_flush {handle : Nat} {before after : State} {answer : Except PyError Bool}
    (inv : Inv X before) (call : (world X).Calls ⟨.flush handle, before, answer, after⟩)
    (careful : Careful X c ⟨.flush handle, before, answer, after⟩) : Inv X after := by
  rcases flush_cases call with rfl | ⟨w, stored, writer, some, fits, rfl⟩
  · exact inv
  · exact inv.store writer (by omega) fun file short here =>
      careful.own handle w file (.inl rfl) writer short here

theorem inv_closeText {handle : Nat} {before after : State} {answer : Except PyError Unit}
    (inv : Inv X before) (call : (world X).Calls ⟨.closeText handle, before, answer, after⟩)
    (careful : Careful X c ⟨.closeText handle, before, answer, after⟩) : Inv X after := by
  rcases closeText_cases call with rfl | ⟨w, writer, rfl⟩
  · exact inv
  have stored := inv.store writer (Nat.le_refl _) fun file short here =>
    careful.own handle w file (.inr rfl) writer short here
  have bound := (List.getElem?_eq_some_iff.mp writer).1
  refine stored.close
    (w := { w with position := w.position + (w.content.length - w.position) }) ?_ ?_
  · exact List.getElem?_set_self bound
  · change w.content.length ≤ w.position + (w.content.length - w.position)
    omega

theorem flushParts_keeps (handle fuel : Nat) : (texts X).Keeps (world X) c
    (fun _ _ _ => True) (flushParts handle fuel) h s := by
  induction fuel generalizing h s with
  | zero => trivial
  | succ fuel ih =>
    refine keeps_op (fun _ _ _ => inv_flush) fun before answer after _ _ _ => ?_
    rcases answer with e | _ | _
    · trivial
    · trivial
    · exact ih

theorem writeCachedText_keeps (path : PurePath) {fingerprint : Digest} {version text : String}
    (extracts : Extracts X fingerprint version text) : (texts X).Keeps (world X) c
      (fun _ _ _ => True) (writeCachedText path fingerprint version text) h s := by
  unfold writeCachedText
  refine keeps_idle rfl fun before answer after _ _ _ => ?_
  rcases answer with e | _
  · trivial
  refine keeps_op ?_ fun before answer after _ _ _ => ?_
  · intro before answer after inv call careful
    rcases openText_cases call with rfl | rfl
    · exact inv
    · exact inv.openText extracts (careful.unreferenced path fingerprint version text rfl)
  rcases answer with e | handle
  · trivial
  refine (flushParts_keeps handle _).seq fun written h s _ => ?_
  refine keeps_op (fun _ _ _ => inv_closeText) fun before answer after _ _ _ => ?_
  rcases answer with e | _ <;> trivial

theorem inv_publish {topic : String} {payload : Payload} {before after : State}
    {answer : Except PyError Unit} (inv : Inv X before)
    (call : (world X).Calls ⟨.publish topic payload, before, answer, after⟩)
    (settled : ∀ event, payload = .indexed event → Settled X before event) : Inv X after := by
  rcases publish_cases call with rfl | rfl
  · exact inv
  · exact inv.publish settled

theorem parseFailed_keeps (self : HandlerKreuzbergParse) (now : DateTime)
    (event : ModelDocumentEvent) (errorCode : EnumParseErrorCode) (errorDetail : String)
    (result : ModelKreuzbergParseResult) : (texts X).Keeps (world X) c (fun _ _ _ => True)
      (self.parseFailed now event errorCode errorDetail result) h s := by
  unfold HandlerKreuzbergParse.parseFailed
  dsimp only
  split
  · trivial
  · refine keeps_op (fun _ _ _ inv call _ => inv_publish inv call nofun) ?_
    intro before answer after _ _ _
    rcases answer with e | _ <;> trivial

theorem validate_ok {event event' : ModelDocumentIndexedKreuzbergEvent}
    (valid : event.validate = .ok event') : event' = event := by
  unfold ModelDocumentIndexedKreuzbergEvent.validate at valid
  split at valid
  · contradiction
  · exact (Except.ok.inj valid).symm

/-- An indexed event is published with a text of its hash and version, or a reference. -/
theorem publishIndexed_keeps (self : HandlerKreuzbergParse) (now : DateTime)
    (event : ModelDocumentEvent) (ref : TextRef)
    (good : ∀ text, ref = .inline text →
      Extracts X event.contentFingerprint self.config.parserVersion text) :
    (texts X).Keeps (world X) c (fun _ _ _ => True)
      (self.publishIndexed X now event ref) h s := by
  unfold HandlerKreuzbergParse.publishIndexed
  dsimp only
  split
  · trivial
  rename_i valid
  obtain rfl := validate_ok valid
  refine keeps_op ?_ fun before answer after _ _ _ => ?_
  · intro before answer after inv call careful
    refine inv_publish inv call fun indexed here => ?_
    cases here
    unfold Settled
    dsimp only
    split
    · exact good _ rfl
    · obtain ⟨file, w, here, closed, writer, hash, version⟩ := careful.current _ _ _ rfl rfl
      obtain ⟨bytes, extracts⟩ := inv.closed_bytes here closed writer
      dsimp only at hash version
      rw [Writer.content, hash] at bytes
      rw [hash, version] at extracts
      exact ⟨file, w.text, here, closed, bytes, extracts⟩
  · rcases answer with e | _ <;> trivial

theorem textRef_inline {self : HandlerKreuzbergParse} {event : ModelDocumentEvent}
    {text text' : String} (ref : self.textRef X event text = .ok (.inline text')) :
    text' = text ∧ text.length < self.config.inlineTextMaxChars := by
  unfold HandlerKreuzbergParse.textRef at ref
  split at ref
  · cases ref
    exact ⟨rfl, ‹_›⟩
  · cases resolved : X.resolve (self.textPath event) <;> simp [resolved, Except.map] at ref

theorem storeAndPublish_keeps (self : HandlerKreuzbergParse) (now : DateTime)
    (event : ModelDocumentEvent) {text : String}
    (extracts : Extracts X event.contentFingerprint self.config.parserVersion text) :
    (texts X).Keeps (world X) c (fun _ _ _ => True)
      (self.storeAndPublish X now event text) h s := by
  unfold HandlerKreuzbergParse.storeAndPublish
  refine (writeCachedText_keeps _ extracts).seq fun cached h s _ => ?_
  split
  · rename_i ref written
    refine publishIndexed_keeps self now event ref fun text' inline => ?_
    rcases cached with e | _
    · contradiction
    · rw [inline] at written
      obtain ⟨rfl, -⟩ := textRef_inline written
      exact extracts
  · split
    · trivial
    split
    · refine publishIndexed_keeps self now event _ fun text' inline => ?_
      cases inline
      exact extracts
    · exact parseFailed_keeps self now event _ _ _

theorem callKreuzbergExtract_keeps (request : Request) : (texts X).Keeps (world X) c
    (fun out _ _ => ∀ text, out = .ok text → sha256 request.fileBytes = c.event.contentFingerprint ∧
      text = X.extract request.parserVersion request.fileBytes)
    (callKreuzbergExtract request) h s := by
  unfold callKreuzbergExtract
  refine keeps_idle rfl fun before answer after _ call careful => ?_
  cases answer <;> intro text' here <;> cases here
  case content =>
    exact ⟨careful.sent _ _ _ _ rfl, post_cases call⟩

theorem parseSource_keeps (path : PurePath) : (texts X).Keeps (world X) c
    (fun _ _ _ => True) (c.self.parseSource X c.now c.event path) h s := by
  unfold HandlerKreuzbergParse.parseSource
  refine keeps_idle rfl fun before answer after _ _ _ => ?_
  rcases answer with e | fileBytes
  · dsimp only
    split
    · trivial
    · exact parseFailed_keeps _ _ _ _ _ _
  dsimp only
  split
  · exact parseFailed_keeps _ _ _ _ _ _
  refine (callKreuzbergExtract_keeps _).seq fun extracted h s text => ?_
  split
  · exact parseFailed_keeps _ _ _ _ _ _
  · exact parseFailed_keeps _ _ _ _ _ _
  · trivial
  · obtain ⟨hash, text⟩ := text _ rfl
    exact storeAndPublish_keeps _ _ _ ⟨fileBytes, hash, text⟩

theorem readCachedText_keeps (path : PurePath) : (texts X).Keeps (world X) c
    (fun out _ _ => ∀ text, out = .ok (some (c.event.contentFingerprint.hex, text)) →
      text.length < c.self.config.inlineTextMaxChars →
      Extracts X c.event.contentFingerprint c.self.config.parserVersion text)
    (readCachedText path) h s := by
  unfold readCachedText
  refine keeps_idle rfl fun before answer after _ _ _ => ?_
  rcases answer with e | _ | _
  · exact nofun
  · exact nofun
  refine keeps_idle rfl fun before answer after inv call careful => ?_
  rcases answer with e | bytes
  · dsimp only
    split <;> exact nofun
  intro text here short
  obtain ⟨file, w, there, closed, writer, version, plain⟩ :=
    careful.hit path bytes text before after rfl (Except.ok.inj here) short
  obtain ⟨content, extracts⟩ := inv.closed_bytes there closed writer
  have read : bytes = w.content := by
    obtain ⟨file', here', same⟩ := readText_cases call
    obtain rfl := Option.some.inj (here'.symm.trans there)
    rw [same, content]
  rw [read, Writer.content, parseBytes_cachedContent plain] at here
  obtain ⟨hash, same⟩ := Prod.mk.inj (Option.some.inj (Except.ok.inj here))
  rw [← version, ← same, ← Digest.hex_inj hash]
  exact extracts

theorem processEvent_keeps : (texts X).Keeps (world X) c (fun _ _ _ => True)
    (c.self.processEvent X c.now c.event) h s := by
  unfold HandlerKreuzbergParse.processEvent
  split
  · exact parseFailed_keeps _ _ _ _ _ _
  · trivial
  refine (readCachedText_keeps _).seq fun cached h s extracts => ?_
  -- The digits of the fingerprint are not to be computed when the goal is reduced.
  generalize c.event.contentFingerprint.hex = fingerprint at extracts ⊢
  rcases cached with e | _ | ⟨stored, text⟩
  · trivial
  · exact parseSource_keeps _
  dsimp only
  by_cases hit : stored = fingerprint
  · subst hit
    rw [if_pos rfl]
    cases here : c.self.textRef X c.event text with
    | error e => trivial
    | ok ref =>
      refine publishIndexed_keeps _ _ _ _ fun text' inline => ?_
      rw [inline] at here
      obtain ⟨rfl, short⟩ := textRef_inline here
      exact extracts _ rfl short
  · rw [if_neg hit]
    exact parseSource_keeps _

end Keeps

theorem texts_hold : (texts X).Holds (world X) Initial (CarefulStep X) fun _ _ _ _ => True where
  refl _ := trivial
  trans _ _ _ _ _ := trivial
  init s initial := by
    obtain ⟨texts, writers, published⟩ := initial
    exact ⟨by simp [texts], by simp [writers], by simp [published]⟩
  move p m after _ inv moved := by
    cases moved
    refine ⟨⟨inv.files, inv.sound, fun topic event published => ?_⟩, trivial⟩
    exact (inv.published topic event published).mono fun _ _ _ here _ => here
  call _ _ _ _ careful := careful
  code c s _ := processEvent_keeps
  stable _ _ _ _ _ _ _ := trivial

/-- In every run of careful steps, every published event is and stays faithful. -/
theorem textsFaithful_of_reach {p : ParsePool}
    (reach : (world X).Reach Initial (CarefulStep X) p) : TextsFaithful X p.shared :=
  fun topic event published => ((texts_hold.reach reach).1.published topic event published).faithful

/-! ### Two runs -/

/-- A service that tells the content `"a"` from others, and a file system without links. -/
def External.plain : External where
  extract _ content := if sha256 content = sha256 [97] then "first" else "second"
  resolve path := .ok path
  entry path := path
  entry_resolve path resolved same := by rw [Except.ok.inj same]
  guessType _ := none
  repr s := s

/-- The event that `"/a"` was found with content `"a"`. -/
def plainEvent : ModelDocumentEvent where
  correlationId := 1
  sourceRef := "/a"
  contentFingerprint := sha256 [97]

def plainCommand (inlineTextMaxChars : Nat) (pos : 1 ≤ inlineTextMaxChars) : Command where
  self := ⟨{ kreuzbergUrl := "http://kreuzberg"
             textStorePath := ⟨["/", "texts"]⟩
             parserVersion := "1"
             inlineTextMaxChars
             publishTopicIndexed := "indexed"
             publishTopicParseFailed := "failed"
             inlineTextMaxChars_pos := pos }⟩
  now := ⟨2025, 1, 1, 0⟩
  event := plainEvent

/-- Every source file has this content, and nothing was parsed yet. -/
def plainState (content : Bytes) : State := ⟨fun _ => some content, fun _ => none, [], []⟩

/-- The cache is missed, and every call succeeds. -/
def parseOnce (c : Command) : List (Act Command Choice Rewrite) :=
  .start c :: List.replicate 8 (.call 0 .run)

/-- The text of the first published event, as the event or its file has it. -/
def firstText (X : External) (s : State) : Option (Digest × Bytes) :=
  match s.published with
  | (_, .indexed event) :: _ =>
    match event.extractedTextRef with
    | .inline text => some (event.contentHash, encodeUtf8 text)
    | .file path => (s.texts (X.entry path)).map fun file => (event.contentHash, file.bytes)
  | _ => none

/-- A decidable condition that implies the one on the steps. -/
def checkCareful (X : External) (_ : ParsePool) : Label Op Res Command Rewrite State → Bool
  | .call _ c ⟨.post request, _, .content _, _⟩ =>
    sha256 request.fileBytes == c.event.contentFingerprint
  | .call _ _ ⟨.readText _, _, _, _⟩ => false
  | .call _ _ ⟨.flush handle, before, _, _⟩ => ownFile handle before
  | .call _ _ ⟨.closeText handle, before, _, _⟩ => ownFile handle before
  | .call _ _ ⟨.publish _ (.indexed event), before, _, _⟩ =>
    match event.extractedTextRef with
    | .inline _ => true
    | .file path => (before.texts (X.entry path)).any fun file => file.closed &&
        (before.writers[file.opener]?).any fun w =>
          w.fingerprint == event.contentHash && w.version == event.parserVersion
  | .call _ _ ⟨.openText .., before, _, _⟩ => before.published.isEmpty
  | _ => true
where
  ownFile (handle : Nat) (before : State) : Bool :=
    (before.writers[handle]?).all fun w => (before.texts (X.entry w.path)).all (·.opener == handle)

theorem carefulStep_of_check {p : ParsePool} {l : Label Op Res Command Rewrite State}
    (check : checkCareful X p l = true) : CarefulStep X p l := by
  rcases l with c | ⟨i, c, e⟩ | m
  · trivial
  · refine ⟨?_, ?_, ?_, ?_, ?_⟩
    · rintro request text before after rfl
      simpa [checkCareful] using check
    · rintro path bytes text before after rfl
      simp [checkCareful] at check
    · obtain ⟨op, before, answer, after⟩ := e
      rintro handle w file (rfl | rfl) writer - here
      all_goals
        dsimp only at writer here
        simpa [checkCareful, checkCareful.ownFile, writer, here] using check
    · obtain ⟨op, before, answer, after⟩ := e
      rintro topic event path rfl ref
      simpa [checkCareful, ref, Option.any_eq_true, and_assoc] using check
    · obtain ⟨op, before, answer, after⟩ := e
      rintro path fingerprint version text rfl topic event path' published
      have nothing : before.published = [] := by simpa [checkCareful] using check
      dsimp only at published
      rw [nothing] at published
      contradiction
  · trivial

theorem textsFaithful_parseOnce : ∃ p : ParsePool,
    firstText .plain p.shared = some (sha256 [97], cachedContent (sha256 [97]) "first") ∧
      TextsFaithful .plain p.shared := by
  obtain ⟨p, reach, text⟩ : ∃ p : ParsePool,
      (world .plain).Reach (· = plainState [97]) (CarefulStep .plain) p ∧
        decide (firstText .plain p.shared =
          some (sha256 [97], cachedContent (sha256 [97]) "first")) = true :=
    World.Reach.of_run (checkCareful .plain) _ (parseOnce (plainCommand 1 (by decide)))
      (fun _ _ _ => carefulStep_of_check) (by decide +kernel)
  refine ⟨p, of_decide_eq_true text, textsFaithful_of_reach (reach.mono ?_ fun _ _ met => met)⟩
  rintro s rfl
  exact ⟨rfl, rfl, rfl⟩

/-- An indexed event with the hash of `"a"` and another text. -/
def mismatched : Payload → Bool
  | .indexed event => decide (event.contentHash = sha256 [97] ∧
      event.extractedTextRef = .inline "second")
  | .failed _ => false

/-- The file is rewritten after it was found: the event has the hash of its old content and the
text of its new one. -/
theorem not_textsFaithful_free :
    ¬ ∀ (X : External) (p : ParsePool), (world X).Reach Initial World.Free p →
      TextsFaithful X p.shared := by
  intro all
  obtain ⟨p, reach, wrong⟩ : ∃ p : ParsePool,
      (world .plain).Reach (· = plainState [98]) World.Free p ∧
        p.shared.published.any (mismatched ·.2) = true :=
    World.Reach.of_run (fun _ _ => true) _ (parseOnce (plainCommand 4096 (by decide)))
      (fun _ _ _ _ => trivial) (by decide +kernel)
  obtain ⟨⟨topic, payload⟩, published, wrong⟩ := List.any_eq_true.mp wrong
  rcases payload with event | event
  · have faithful := all .plain p
      (reach.mono (by rintro s rfl; exact ⟨rfl, rfl, rfl⟩) fun _ _ met => met) topic event published
    obtain ⟨hash, ref⟩ := of_decide_eq_true wrong
    simp only [Faithful, ref, hash] at faithful
    obtain ⟨content, same, text⟩ := faithful
    simp [External.plain, same] at text
  · contradiction

end Kreuzberg

end OmniMemory
