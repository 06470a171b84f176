import OmniMemory.Kreuzberg.Parse

/-! What `process_event` ends in, for one document event and any surroundings of which only the
publishing is sure to succeed. It publishes one event that its counters report, or an exception
leaves it before it has published anything. -/

namespace OmniMemory

open Interleave Prog

namespace Kreuzberg

/-- The number of calls made so far, and what they published. -/
structure Log where
  calls : Nat
  published : List (String × Payload)

/-- What the surroundings answer to a call, by its place in the run. -/
abbrev Surroundings := (op : Op) → (place : Nat) → Res op

/-- The answers of the surroundings, with every publishing successful. -/
def serve (w : Surroundings) : (op : Op) → Log → Res op × Log
  | .publish topic payload, log => (.ok (), ⟨log.calls + 1, log.published ++ [(topic, payload)]⟩)
  | op, log => (w op log.calls, ⟨log.calls + 1, log.published⟩)

def Op.isPublish : Op → Bool
  | .publish .. => true
  | _ => false

theorem serve_eq {w : Surroundings} {op : Op} {log : Log} (plain : op.isPublish = false) :
    serve w op log = (w op log.calls, ⟨log.calls + 1, log.published⟩) := by
  cases op with
  | publish => contradiction
  | _ => rfl

/-- The counters that go with a failure. -/
def countersOf : EnumParseErrorCode → ModelKreuzbergParseResult
  | .tooLarge => ⟨0, 0, 1, 0⟩
  | .timeout => ⟨0, 1, 0, 1⟩
  | .parseError => ⟨0, 1, 0, 0⟩

section Terminal

variable (X : External) (handler : HandlerKreuzbergParse) (now : DateTime)
  (event : ModelDocumentEvent) (w : Surroundings)

/-- The counters go with what was published: a valid event about the document. -/
inductive Reports : ModelKreuzbergParseResult → String → Payload → Prop where
  | indexed {e : ModelDocumentIndexedKreuzbergEvent} (valid : e.validate = .ok e)
      (source : e.sourceUrl = event.sourceRef) :
      Reports ⟨1, 0, 0, 0⟩ handler.config.publishTopicIndexed (.indexed e)
  | failed {e : ModelDocumentParseFailedEvent} {code : EnumParseErrorCode}
      (valid : e.validate = .ok e) (source : e.sourceUrl = event.sourceRef)
      (same : e.errorCode = code) :
      Reports (countersOf code) handler.config.publishTopicParseFailed (.failed e)

/-- From `log` on, the program returns counters that go with the one event it publishes. -/
def Ends (p : KreuzbergProg (Except PyError ModelKreuzbergParseResult)) (log : Log) : Prop :=
  ∃ result topic payload, (p.run (serve w) log).1 = .ok result ∧
    (p.run (serve w) log).2.published = log.published ++ [(topic, payload)] ∧
    Reports handler event result topic payload

/-- `process_event` returns, and has published one event that its counters go with. -/
def OneTerminalEvent : Prop := Ends handler event w (handler.processEvent X now event) ⟨0, []⟩

/-! ### What the surroundings do -/

/-- What `read_cached_text` returns or raises, and the log after it. -/
def lookup : Except PyError (Option (String × String)) × Log :=
  (readCachedText (handler.textPath event)).run (serve w) ⟨0, []⟩

/-- What `write_cached_text` returns or raises, when it starts at a place of the run. -/
def cacheWrite (text : String) (place : Nat) : Except PyError Unit :=
  ((writeCachedText (handler.textPath event) event.contentFingerprint handler.config.parserVersion
    text).run (serve w) ⟨place, []⟩).1

/-- The request for the bytes of a source file. -/
def requestOf (path : PurePath) (fileBytes : Bytes) : Request where
  url := handler.config.kreuzbergUrl
  fileBytes := fileBytes
  filename := path.name
  mimeType := detectMimeType X event.sourceRef
  timeoutMs := handler.config.timeoutMs
  parserVersion := handler.config.parserVersion

def validated : Except PyError PurePath :=
  validateSourcePath X event.sourceRef handler.config.documentRoot

/-- A text that goes with the event as it is, or by the path of its file. -/
structure Referable (text : String) (raises : PyError → Prop) : Prop where
  nonempty : text ≠ ""
  path : ∀ e, handler.config.inlineTextMaxChars ≤ text.length →
    X.resolve (handler.textPath event) = .error e → raises e

/-- What is asked of an extracted text and of its way into the cache, from a place on. -/
structure Storable (text : String) (place : Nat) : Prop where
  referable : Referable X handler event text fun e =>
    cacheWrite handler event w text place = .ok () → e.isOSError = true
  written : ∀ e, cacheWrite handler event w text place = .error e → e.isOSError = true

/-- What is asked of the source file and of the service, from a place on. -/
structure Parsable (path : PurePath) (place : Nat) : Prop where
  source : ∀ e, w (.readBytes path) place = .error e → e.isOSError = true
  client : ∀ fileBytes e, w (.readBytes path) place = .ok fileBytes →
    fileBytes.length ≤ handler.config.maxDocBytes →
    w (.post (requestOf X handler event path fileBytes)) (place + 1) ≠ .raised e
  extracted : ∀ fileBytes text, w (.readBytes path) place = .ok fileBytes →
    fileBytes.length ≤ handler.config.maxDocBytes →
    w (.post (requestOf X handler event path fileBytes)) (place + 1) = .content text →
    Storable X handler event w text (place + 2)

/-- Nothing happens that makes an exception leave `process_event`. -/
structure Contained : Prop where
  version : handler.config.parserVersion ≠ ""
  path : ∀ e, validated X handler event = .error e → e.isValueError = true
  lookup : ∀ path e, validated X handler event = .ok path → (lookup handler event w).1 ≠ .error e
  cached : ∀ path text, validated X handler event = .ok path →
    (Kreuzberg.lookup handler event w).1 = .ok (some (event.contentFingerprint.hex, text)) →
    Referable X handler event text fun _ => False
  missed : ∀ path found, validated X handler event = .ok path →
    (Kreuzberg.lookup handler event w).1 = .ok found →
    (∀ text, found ≠ some (event.contentFingerprint.hex, text)) →
    Parsable X handler event w path (Kreuzberg.lookup handler event w).2.calls

end Terminal

/-! ### Programs that publish nothing -/

section Quiet

variable {w : Surroundings} {α : Type} {p : KreuzbergProg α} {log : Log}

/-- Only calls that do not publish. -/
abbrev Quiet (p : KreuzbergProg α) : Prop := p.Uses fun op => op.isPublish = false

theorem published_of_quiet (quiet : Quiet p) :
    (p.run (serve w) log).2.published = log.published := by
  induction p generalizing log with
  | ret a => rfl
  | call op rest ih =>
    rw [run_call, ih _ (quiet.2 _), serve_eq quiet.1]

/-- What was published before does not matter to a program that publishes nothing. -/
theorem run_of_quiet (quiet : Quiet p) (published : List (String × Payload)) :
    p.run (serve w) log = ((p.run (serve w) ⟨log.calls, published⟩).1,
      ⟨(p.run (serve w) ⟨log.calls, published⟩).2.calls, log.published⟩) := by
  induction p generalizing log with
  | ret a => rfl
  | call op rest ih =>
    rw [run_call, run_call, serve_eq quiet.1, serve_eq quiet.1]
    exact ih _ (quiet.2 _)

theorem readCachedText_quiet (path : PurePath) : Quiet (readCachedText path) := by
  unfold readCachedText
  refine uses_op.mpr ⟨rfl, fun answer => ?_⟩
  rcases answer with e | _ | _
  · trivial
  · trivial
  · refine uses_op.mpr ⟨rfl, fun answer => ?_⟩
    cases answer with
    | ok bytes => trivial
    | error e =>
      dsimp only
      split
      · trivial
      · trivial

theorem flushParts_quiet (handle fuel : Nat) : Quiet (flushParts handle fuel) := by
  induction fuel with
  | zero => trivial
  | succ fuel ih =>
    refine uses_op.mpr ⟨rfl, fun answer => ?_⟩
    rcases answer with e | _ | _
    · trivial
    · trivial
    · exact ih

theorem writeCachedText_quiet (path : PurePath) (fingerprint : Digest) (version text : String) :
    Quiet (writeCachedText path fingerprint version text) := by
  unfold writeCachedText
  refine uses_op.mpr ⟨rfl, fun answer => ?_⟩
  rcases answer with e | _
  · trivial
  refine uses_op.mpr ⟨rfl, fun answer => ?_⟩
  rcases answer with e | handle
  · trivial
  refine (flushParts_quiet handle _).bind fun written => ?_
  refine uses_op.mpr ⟨rfl, fun answer => ?_⟩
  rcases answer with e | _
  · trivial
  · trivial

end Quiet

/-! ### The exits -/

section Exits

variable {X : External} {handler : HandlerKreuzbergParse} {now : DateTime}
  {event : ModelDocumentEvent} {w : Surroundings} {log : Log}

theorem not_ends_error {e : PyError} : ¬ Ends handler event w (.ret (.error e)) log := by
  rintro ⟨result, topic, payload, returned, -⟩
  contradiction

theorem ends_parseFailed (code : EnumParseErrorCode) (detail : String) :
    Ends handler event w (handler.parseFailed now event code detail (countersOf code)) log ↔
      handler.config.parserVersion ≠ "" := by
  unfold HandlerKreuzbergParse.parseFailed ModelDocumentParseFailedEvent.validate
  by_cases version : handler.config.parserVersion = ""
  · simp only [version, or_true, if_true, ne_eq, not_true, iff_false]
    exact not_ends_error
  · simp only [version, event.sourceRef_ne, or_self, if_false, ne_eq, not_false_eq_true, iff_true]
    refine ⟨countersOf code, _, _, rfl, rfl, .failed ?_ rfl rfl⟩
    exact if_neg (not_or.mpr ⟨event.sourceRef_ne, version⟩)

theorem ends_publishIndexed (ref : TextRef) :
    Ends handler event w (handler.publishIndexed X now event ref) log ↔
      handler.config.parserVersion ≠ "" ∧ ref.str ≠ "" := by
  have mime : detectMimeType X event.sourceRef ≠ "" := by
    unfold detectMimeType
    split
    · decide
    · decide
    · rename_i empty _
      exact fun same => empty same
  unfold HandlerKreuzbergParse.publishIndexed ModelDocumentIndexedKreuzbergEvent.validate
  by_cases bad : ref.str = "" ∨ handler.config.parserVersion = ""
  · have checks : event.sourceRef = "" ∨ ref.str = "" ∨ detectMimeType X event.sourceRef = "" ∨
        handler.config.parserVersion = "" := by tauto
    simp only [checks, if_true]
    exact iff_of_false not_ends_error (by tauto)
  · have checks : ¬ (event.sourceRef = "" ∨ ref.str = "" ∨
        detectMimeType X event.sourceRef = "" ∨ handler.config.parserVersion = "") := by
      have := event.sourceRef_ne
      tauto
    simp only [checks, if_false]
    refine iff_of_true ⟨_, _, _, rfl, rfl, .indexed (if_neg checks) rfl⟩ (by tauto)

/-- A program goes on after one that publishes nothing. -/
theorem ends_bind {α : Type} {p : KreuzbergProg α} (quiet : Quiet p)
    {next : α → KreuzbergProg (Except PyError ModelKreuzbergParseResult)} :
    Ends handler event w (p >>= next) log ↔
      Ends handler event w (next (p.run (serve w) log).1) (p.run (serve w) log).2 := by
  unfold Ends
  rw [run_bind, published_of_quiet quiet]

theorem ends_op {op : Op} (plain : op.isPublish = false)
    {next : Res op → KreuzbergProg (Except PyError ModelKreuzbergParseResult)} :
    Ends handler event w (perform op >>= next) log ↔
      Ends handler event w (next (w op log.calls)) ⟨log.calls + 1, log.published⟩ := by
  rw [ends_bind (uses_perform.mpr plain)]
  unfold perform
  rw [run_call, serve_eq plain]
  rfl

theorem inline_ne_empty {text : String} : (TextRef.inline text).str ≠ "" ↔ text ≠ "" := Iff.rfl

theorem file_ne_empty (path : PurePath) : (TextRef.file path).str ≠ "" := by
  intro empty
  have letters := congrArg String.toList empty
  simp [TextRef.str] at letters

/-- The reference of a text that is not empty, with what resolving its path raises. -/
theorem textRef_cases (text : String) :
    (text.length < handler.config.inlineTextMaxChars ∧
      handler.textRef X event text = .ok (.inline text)) ∨
    (handler.config.inlineTextMaxChars ≤ text.length ∧
      ((∃ path, X.resolve (handler.textPath event) = .ok path ∧
        handler.textRef X event text = .ok (.file path)) ∨
      ∃ e, X.resolve (handler.textPath event) = .error e ∧
        handler.textRef X event text = .error e)) := by
  unfold HandlerKreuzbergParse.textRef
  by_cases short : text.length < handler.config.inlineTextMaxChars
  · exact .inl ⟨short, if_pos short⟩
  · refine .inr ⟨Nat.le_of_not_lt short, ?_⟩
    rw [if_neg short]
    cases resolved : X.resolve (handler.textPath event) with
    | ok path => exact .inl ⟨path, rfl, rfl⟩
    | error e => exact .inr ⟨e, rfl, rfl⟩

theorem long_ne_empty {text : String} (long : handler.config.inlineTextMaxChars ≤ text.length) :
    text ≠ "" := by
  rintro rfl
  have := handler.config.inlineTextMaxChars_pos
  simp at long
  omega

theorem referable_short {text : String} {raises : PyError → Prop}
    (short : text.length < handler.config.inlineTextMaxChars) :
    Referable X handler event text raises ↔ text ≠ "" :=
  ⟨(·.nonempty), fun nonempty => ⟨nonempty, fun _ long => absurd long (Nat.not_le.mpr short)⟩⟩

theorem referable_resolved {text : String} {raises : PyError → Prop} {path : PurePath}
    (long : handler.config.inlineTextMaxChars ≤ text.length)
    (resolved : X.resolve (handler.textPath event) = .ok path) :
    Referable X handler event text raises := by
  refine ⟨long_ne_empty long, fun e _ raised => ?_⟩
  rw [resolved] at raised
  contradiction

theorem referable_raised {text : String} {raises : PyError → Prop} {e : PyError}
    (long : handler.config.inlineTextMaxChars ≤ text.length)
    (raised : X.resolve (handler.textPath event) = .error e) :
    Referable X handler event text raises ↔ raises e := by
  refine ⟨fun referable => referable.path e long raised, fun own => ⟨long_ne_empty long, ?_⟩⟩
  intro e' _ raised'
  rw [raised] at raised'
  exact Except.error.inj raised' ▸ own

theorem ends_cached (text : String) :
    Ends handler event w (match handler.textRef X event text with
      | .error e => return .error e
      | .ok ref => handler.publishIndexed X now event ref) log ↔
      handler.config.parserVersion ≠ "" ∧ Referable X handler event text fun _ => False := by
  rcases @textRef_cases X handler event text with
    ⟨short, ref⟩ | ⟨long, ⟨path, resolved, ref⟩ | ⟨e, raised, ref⟩⟩
  · rw [ref]
    dsimp only
    rw [ends_publishIndexed, inline_ne_empty, referable_short short]
  · rw [ref]
    dsimp only
    rw [ends_publishIndexed]
    exact and_congr_right fun _ =>
      iff_of_true (file_ne_empty path) (referable_resolved long resolved)
  · rw [ref, referable_raised long raised]
    exact iff_of_false not_ends_error And.right

theorem storable_of_unwritten {text : String} {place : Nat} {e : PyError}
    (unwritten : cacheWrite handler event w text place = .error e) :
    Storable X handler event w text place ↔ text ≠ "" ∧ e.isOSError = true := by
  refine ⟨fun storable => ⟨storable.referable.nonempty, storable.written e unwritten⟩, ?_⟩
  rintro ⟨nonempty, os⟩
  refine ⟨⟨nonempty, fun e' _ _ ok => ?_⟩, fun e' raised => ?_⟩
  · rw [unwritten] at ok
    contradiction
  · rw [unwritten] at raised
    exact Except.error.inj raised ▸ os

theorem storable_of_written {text : String} {place : Nat}
    (written : cacheWrite handler event w text place = .ok ()) :
    Storable X handler event w text place ↔
      Referable X handler event text fun e => e.isOSError = true := by
  refine ⟨fun storable => ⟨storable.referable.nonempty, fun e long raised =>
    storable.referable.path e long raised written⟩, fun referable =>
    ⟨⟨referable.nonempty, fun e long raised _ => referable.path e long raised⟩, fun e raised => ?_⟩⟩
  rw [written] at raised
  contradiction

theorem ends_storeAndPublish (text : String) :
    Ends handler event w (handler.storeAndPublish X now event text) log ↔
      handler.config.parserVersion ≠ "" ∧ Storable X handler event w text log.calls := by
  unfold HandlerKreuzbergParse.storeAndPublish
  have quiet := writeCachedText_quiet (handler.textPath event) event.contentFingerprint
    handler.config.parserVersion text
  have write : ((writeCachedText (handler.textPath event) event.contentFingerprint
      handler.config.parserVersion text).run (serve w) log).1 =
      cacheWrite handler event w text log.calls := by
    rw [run_of_quiet quiet []]
    rfl
  rw [ends_bind quiet, write]
  generalize ((writeCachedText _ _ _ _).run (serve w) log).2 = log'
  cases written : cacheWrite handler event w text log.calls with
  | error e =>
    rw [storable_of_unwritten written]
    cases os : e.isOSError with
    | false =>
      simp only [Except.bind, os, Bool.not_false, if_true]
      exact iff_of_false not_ends_error fun asked => Bool.false_ne_true asked.2.2
    | true =>
      simp only [Except.bind, os, Bool.not_true, Bool.false_eq_true, if_false]
      split
      · rw [ends_publishIndexed, inline_ne_empty, and_true]
      · rename_i long
        exact (ends_parseFailed .parseError _).trans
          ⟨fun version => ⟨version, long_ne_empty (Nat.le_of_not_lt long), trivial⟩, (·.1)⟩
  | ok =>
    rw [storable_of_written written]
    rcases @textRef_cases X handler event text with
      ⟨short, ref⟩ | ⟨long, ⟨path, resolved, ref⟩ | ⟨e, raised, ref⟩⟩
    · simp only [Except.bind, ref]
      rw [ends_publishIndexed, inline_ne_empty, referable_short short]
    · simp only [Except.bind, ref]
      rw [ends_publishIndexed]
      exact and_congr_right fun _ =>
        iff_of_true (file_ne_empty path) (referable_resolved long resolved)
    · have short : ¬ text.length < handler.config.inlineTextMaxChars := Nat.not_lt.mpr long
      rw [referable_raised long raised]
      cases os : e.isOSError with
      | false =>
        simp only [Except.bind, ref, os, Bool.not_false, if_true]
        exact iff_of_false not_ends_error fun asked => Bool.false_ne_true asked.2
      | true =>
        simp only [Except.bind, ref, os, Bool.not_true, Bool.false_eq_true, if_false, short]
        exact (ends_parseFailed .parseError _).trans (and_iff_left trivial).symm

/-- What the client makes of a response. -/
theorem callKreuzbergExtract_cases (request : Request) (log : Log) :
    ∃ out, (callKreuzbergExtract request).run (serve w) log =
        (out, ⟨log.calls + 1, log.published⟩) ∧
      ((∃ text, w (.post request) log.calls = .content text ∧ out = .ok text) ∨
        (∃ e, w (.post request) log.calls = .raised e ∧ out = .error (.uncaught e)) ∨
        (∀ text, w (.post request) log.calls ≠ .content text) ∧
          (∀ e, w (.post request) log.calls ≠ .raised e) ∧
          (out = .error .timeout ∨
            ∃ statusCode detail, out = .error (.extraction statusCode detail))) := by
  unfold callKreuzbergExtract
  rw [perform_bind, run_call, serve_eq rfl]
  cases w (.post request) log.calls with
  | content text => exact ⟨_, rfl, .inl ⟨text, rfl, rfl⟩⟩
  | raised e => exact ⟨_, rfl, .inr (.inl ⟨e, rfl, rfl⟩)⟩
  | timeout => exact ⟨_, rfl, .inr (.inr ⟨by simp, by simp, .inl rfl⟩)⟩
  | _ => exact ⟨_, rfl, .inr (.inr ⟨by simp, by simp, .inr ⟨_, _, rfl⟩⟩)⟩

theorem callKreuzbergExtract_quiet (request : Request) :
    Quiet (callKreuzbergExtract request) := by
  unfold callKreuzbergExtract
  refine uses_op.mpr ⟨rfl, fun answer => ?_⟩
  cases answer with
  | _ => trivial

theorem parsable_of_unread {path : PurePath} {place : Nat} {e : PyError}
    (unread : w (.readBytes path) place = .error e) :
    Parsable X handler event w path place ↔ e.isOSError = true := by
  refine ⟨fun parsable => parsable.source e unread, fun os => ⟨fun e' raised => ?_,
    fun fileBytes e' read => ?_, fun fileBytes text read => ?_⟩⟩
  · rw [unread] at raised
    exact Except.error.inj raised ▸ os
  · rw [unread] at read
    contradiction
  · rw [unread] at read
    contradiction

/-- After a read, what is asked is asked of the bytes that were read. -/
theorem parsable_of_read {path : PurePath} {place : Nat} {fileBytes : Bytes}
    (source : w (.readBytes path) place = .ok fileBytes) :
    Parsable X handler event w path place ↔
      (fileBytes.length ≤ handler.config.maxDocBytes →
        (∀ e, w (.post (requestOf X handler event path fileBytes)) (place + 1) ≠ .raised e) ∧
        ∀ text, w (.post (requestOf X handler event path fileBytes)) (place + 1) = .content text →
          Storable X handler event w text (place + 2)) := by
  refine ⟨fun parsable small => ⟨fun e => parsable.client fileBytes e source small, fun text =>
    parsable.extracted fileBytes text source small⟩, fun asked => ⟨fun e raised => ?_,
    fun fileBytes' e read small => ?_, fun fileBytes' text read small => ?_⟩⟩
  · rw [source] at raised
    contradiction
  · obtain rfl := Except.ok.inj (source.symm.trans read)
    exact (asked small).1 e
  · obtain rfl := Except.ok.inj (source.symm.trans read)
    exact (asked small).2 text

theorem ends_parseSource (path : PurePath) :
    Ends handler event w (handler.parseSource X now event path) log ↔
      handler.config.parserVersion ≠ "" ∧ Parsable X handler event w path log.calls := by
  unfold HandlerKreuzbergParse.parseSource
  rw [ends_op rfl]
  cases source : w (.readBytes path) log.calls with
  | error e =>
    rw [parsable_of_unread source]
    dsimp only
    cases os : e.isOSError with
    | false =>
      simp only [Bool.not_false, if_true]
      exact iff_of_false not_ends_error fun asked => Bool.false_ne_true asked.2
    | true =>
      simp only [Bool.not_true, Bool.false_eq_true, if_false]
      exact (ends_parseFailed .parseError _).trans (and_iff_left trivial).symm
  | ok fileBytes =>
    rw [parsable_of_read source]
    dsimp only
    split
    · rename_i large
      exact (ends_parseFailed .tooLarge _).trans
        (and_iff_left fun small => absurd small (Nat.not_le.mpr large)).symm
    · rename_i small
      rw [ends_bind (callKreuzbergExtract_quiet _), forall_prop_of_true (Nat.le_of_not_lt small)]
      obtain ⟨out, run, response⟩ := @callKreuzbergExtract_cases w
        (requestOf X handler event path fileBytes) ⟨log.calls + 1, log.published⟩
      rw [requestOf] at run
      rw [run]
      rcases response with ⟨text, content, rfl⟩ | ⟨e, raised, rfl⟩ | ⟨noText, caught, failed⟩
      · refine (ends_storeAndPublish text).trans (and_congr_right fun _ => ⟨fun storable => ?_,
          fun asked => asked.2 text content⟩)
        refine ⟨fun e raised => ?_, fun text' same => ?_⟩
        · rw [content] at raised
          contradiction
        · rw [content] at same
          rwa [← Response.content.inj same]
      · exact iff_of_false not_ends_error fun asked => asked.2.1 e raised
      · have asked := And.intro caught fun text content =>
          (absurd content (noText text) : Storable X handler event w text (log.calls + 2))
        rcases failed with rfl | ⟨statusCode, detail, rfl⟩
        · exact (ends_parseFailed .timeout _).trans (and_iff_left asked).symm
        · exact (ends_parseFailed .parseError _).trans (and_iff_left asked).symm

/-! What `Contained` asks, for each way into the run. -/

theorem contained_iff_of_refused {e : PyError} (refused : validated X handler event = .error e) :
    Contained X handler event w ↔ handler.config.parserVersion ≠ "" ∧ e.isValueError = true := by
  refine ⟨fun contained => ⟨contained.version, contained.path e refused⟩, ?_⟩
  rintro ⟨version, value⟩
  have noPath : ∀ p, validated X handler event ≠ .ok p := by
    intro p ok
    rw [refused] at ok
    contradiction
  refine ⟨version, fun e' raised => ?_, fun p _ ok => absurd ok (noPath p),
    fun p _ ok => absurd ok (noPath p), fun p _ ok => absurd ok (noPath p)⟩
  rw [refused] at raised
  exact Except.error.inj raised ▸ value

/-- After a valid path and a lookup that returned, the rest is about that path and that entry. -/
theorem contained_iff_of_found {p : PurePath} {found : Option (String × String)}
    (path : validated X handler event = .ok p) (here : (lookup handler event w).1 = .ok found) :
    Contained X handler event w ↔ handler.config.parserVersion ≠ "" ∧
      (∀ text, found = some (event.contentFingerprint.hex, text) →
        Referable X handler event text fun _ => False) ∧
      ((∀ text, found ≠ some (event.contentFingerprint.hex, text)) →
        Parsable X handler event w p (lookup handler event w).2.calls) := by
  refine ⟨fun contained => ⟨contained.version, fun text hit => ?_,
    contained.missed p found path here⟩, ?_⟩
  · subst hit
    exact contained.cached p text path here
  rintro ⟨version, cached, missed⟩
  refine ⟨version, fun e refused => ?_, fun p' e _ raised => ?_, fun p' text _ hit => ?_,
    fun p' found' ok there other => ?_⟩
  · rw [path] at refused
    contradiction
  · rw [here] at raised
    contradiction
  · rw [here] at hit
    exact cached text (Except.ok.inj hit)
  · rw [path] at ok
    rw [here] at there
    obtain rfl := Except.ok.inj ok
    obtain rfl := Except.ok.inj there
    exact missed other

theorem ends_cached_iff {p : PurePath} {text : String} (path : validated X handler event = .ok p)
    (hit : (lookup handler event w).1 = .ok (some (event.contentFingerprint.hex, text))) :
    Ends handler event w (match handler.textRef X event text with
      | .error e => return .error e
      | .ok ref => handler.publishIndexed X now event ref) log ↔ Contained X handler event w := by
  rw [ends_cached, contained_iff_of_found path hit]
  refine and_congr_right fun _ => ⟨fun referable => ⟨fun text' same => ?_, fun other => ?_⟩,
    fun asked => asked.1 text rfl⟩
  · obtain ⟨-, rfl⟩ := Prod.mk.inj (Option.some.inj same)
    exact referable
  · exact absurd rfl (other text)

theorem ends_missed_iff {p : PurePath} {found : Option (String × String)}
    (path : validated X handler event = .ok p) (here : (lookup handler event w).1 = .ok found)
    (other : ∀ text, found ≠ some (event.contentFingerprint.hex, text)) :
    Ends handler event w (handler.parseSource X now event p) (lookup handler event w).2 ↔
      Contained X handler event w := by
  rw [ends_parseSource, contained_iff_of_found path here]
  exact and_congr_right fun _ =>
    ⟨fun parsable => ⟨fun text hit => absurd hit (other text), fun _ => parsable⟩,
      fun asked => asked.2 other⟩

/-- `process_event` returns with one event published that its counters go with exactly if nothing
happens that makes an exception leave it. -/
theorem oneTerminalEvent_iff :
    OneTerminalEvent X handler now event w ↔ Contained X handler event w := by
  unfold OneTerminalEvent HandlerKreuzbergParse.processEvent
  cases path : validated X handler event with
  | error e =>
    rw [contained_iff_of_refused path]
    rw [validated] at path
    rw [path]
    cases e with
    | valueError text => exact (ends_parseFailed .parseError _).trans (and_iff_left rfl).symm
    | _ => exact iff_of_false not_ends_error fun asked => Bool.false_ne_true asked.2
  | ok p =>
    have start : validateSourcePath X event.sourceRef handler.config.documentRoot = .ok p := path
    rw [start]
    dsimp only
    rw [ends_bind (readCachedText_quiet _), ← lookup]
    cases found : (lookup handler event w).1 with
    | error e =>
      exact iff_of_false not_ends_error fun contained => contained.lookup p e path found
    | ok entry =>
      rcases entry with _ | ⟨storedFingerprint, cachedText⟩
      · exact ends_missed_iff path found fun text => by simp
      · dsimp only
        split
        · rename_i hit
          rw [hit] at found
          exact ends_cached_iff path found
        · rename_i other
          exact ends_missed_iff path found
            fun text same => other (Prod.mk.inj (Option.some.inj same)).1

end Exits

/-! ### A run -/

/-- The outcomes that the handler is written for: what reads and writes raise are `OSError`s, and
the client catches what comes of a request. -/
def Foreseen : (op : Op) → Res op → Prop
  | .exists _, answer => ∃ present, answer = .ok present
  | .readText _, answer | .readBytes _, answer => ∀ e, answer = .error e → e.isOSError = true
  | .post _, answer => ∀ e, answer ≠ .raised e
  | .mkdir _, answer | .closeText _, answer | .publish .., answer =>
    ∀ e, answer = .error e → e.isOSError = true
  | .openText .., answer => ∀ e, answer = .error e → e.isOSError = true
  | .flush _, answer => ∀ e, answer = .error e → e.isOSError = true

theorem eq_of_resolved (path resolved : PurePath)
    (same : (.ok path : Except PyError PurePath) = .ok resolved) : resolved = path :=
  (Except.ok.inj same).symm

/-- Every path is its own resolution. -/
def flatExternal : External where
  extract _ _ := ""
  resolve path := .ok path
  entry path := path
  entry_resolve := eq_of_resolved
  guessType _ := none
  repr text := text

def flatHandler : HandlerKreuzbergParse where
  config :=
    { kreuzbergUrl := "http://localhost:8090"
      textStorePath := ⟨["/", "texts"]⟩
      parserVersion := "1.0.0"
      maxDocBytes := 1
      maxDocBytes_pos := Nat.zero_lt_one
      timeoutMs := 1
      timeoutMs_pos := Nat.zero_lt_one
      inlineTextMaxChars := 1
      inlineTextMaxChars_pos := Nat.zero_lt_one
      publishTopicIndexed := "indexed"
      publishTopicParseFailed := "parse-failed" }

def blankDocument : ModelDocumentEvent where
  correlationId := 1
  sourceRef := "/docs/blank.png"
  contentFingerprint := 1

/-- A source without text: the service answers with the empty string. -/
def blankAnswers : Surroundings
  | .exists _, _ => .ok false
  | .readText _, _ | .readBytes _, _ => .ok []
  | .post _, _ => .content ""
  | .mkdir _, _ | .closeText _, _ | .publish .., _ => .ok ()
  | .openText .., _ => .ok 0
  | .flush _, _ => .ok false

theorem blankAnswers_foreseen (op : Op) (place : Nat) : Foreseen op (blankAnswers op place) := by
  cases op with
  | «exists» path => exact ⟨false, rfl⟩
  | _ =>
    intro e raised
    contradiction

/-- The validation of the indexed event raises for an empty text, and nothing is published. -/
theorem not_oneTerminalEvent_blank : ¬ ∀ (X : External) (handler : HandlerKreuzbergParse)
    (now : DateTime) (event : ModelDocumentEvent) (w : Surroundings),
    handler.config.parserVersion ≠ "" → (∀ path, ∃ resolved, X.resolve path = .ok resolved) →
    (∀ op place, Foreseen op (w op place)) → OneTerminalEvent X handler now event w := by
  intro all
  obtain ⟨result, topic, payload, returned, -⟩ := all flatExternal flatHandler ⟨2026, 1, 1, 0⟩
    blankDocument blankAnswers (by decide) (fun path => ⟨path, rfl⟩) blankAnswers_foreseen
  have raised : ((flatHandler.processEvent flatExternal ⟨2026, 1, 1, 0⟩ blankDocument).run
      (serve blankAnswers) ⟨0, []⟩).1.toBool = false := by decide +kernel
  rw [returned] at raised
  contradiction

end Kreuzberg

end OmniMemory
