import OmniMemory.Lib.Pool
import OmniMemory.Path
import OmniMemory.Sha256
import Mathlib.Logic.Function.Basic

/-! The calls that `HandlerKreuzbergParse` makes, and what the surroundings do with them: the
source files, the text files, the extraction service, and the event bus. Writing a text file is
the opening, which empties it, any number of writes of a part, and the closing, which writes the
rest. Others may run between any two of these. -/

namespace OmniMemory

open Interleave

structure ModelKreuzbergParseConfig where
  kreuzbergUrl : String
  textStorePath : PurePath
  documentRoot : PurePath := ⟨["/"]⟩
  parserVersion : String
  maxDocBytes : Nat := 50000000
  timeoutMs : Nat := 30000
  inlineTextMaxChars : Nat := 4096
  publishTopicIndexed : String
  publishTopicParseFailed : String
  maxDocBytes_pos : 1 ≤ maxDocBytes := by decide
  timeoutMs_pos : 1 ≤ timeoutMs := by decide
  inlineTextMaxChars_pos : 1 ≤ inlineTextMaxChars := by decide

/-- The fields of `ModelDocumentDiscoveredEvent` and `ModelDocumentChangedEvent` that
`process_event` reads. -/
structure ModelDocumentEvent where
  correlationId : UUID
  sourceRef : String
  contentFingerprint : Digest
  sourceRef_ne : sourceRef ≠ "" := by decide

/-- `extracted_text_ref`: the text itself, or `file://` and the path of its file. -/
inductive TextRef where
  | inline (text : String)
  | file (path : PurePath)
deriving DecidableEq

def TextRef.str : TextRef → String
  | inline text => text
  | file path => "file://" ++ path.str

structure ModelDocumentIndexedKreuzbergEvent where
  correlationId : UUID
  emittedAtUtc : DateTime
  documentId : UUID
  sourceUrl : String
  contentHash : Digest
  extractedTextRef : TextRef
  mimeType : String
  parserVersion : String

inductive EnumParseErrorCode where
  | tooLarge
  | timeout
  | parseError

structure ModelDocumentParseFailedEvent where
  correlationId : UUID
  emittedAtUtc : DateTime
  sourceUrl : String
  contentHash : Digest
  errorCode : EnumParseErrorCode
  errorDetail : String
  parserVersion : String

namespace Kreuzberg

inductive Payload where
  | indexed (event : ModelDocumentIndexedKreuzbergEvent)
  | failed (event : ModelDocumentParseFailedEvent)

/-- A request to `/extract`. `parserVersion` is not sent: it is the version at which the
configuration says that the service runs. -/
structure Request where
  url : String
  fileBytes : Bytes
  filename : String
  mimeType : String
  timeoutMs : Nat
  parserVersion : String

/-- What comes of a request: the text, one of the outcomes that the client tells apart, or an
exception that it does not catch, such as `httpx.InvalidURL`. -/
inductive Response where
  | timeout
  | statusError (statusCode : Nat) (text : String)
  | transportError (text : String)
  | requestError (text : String)
  | notJson (statusCode : Nat) (text : String)
  | notList (typeName : String)
  | emptyList
  | badItem
  | nullContent
  | raised (e : PyError)
  | content (text : String)

/-- What the handler uses of other software: the service, whose text depends on its version and
the content only; `Path.resolve` and the directory entry that the system finds for a path, which
resolving does not change; `mimetypes.guess_type`; and the `repr` of a string. -/
structure External where
  extract : String → Bytes → String
  resolve : PurePath → Except PyError PurePath
  entry : PurePath → PurePath
  entry_resolve : ∀ path resolved, resolve path = .ok resolved → entry resolved = entry path
  guessType : String → Option String
  repr : String → String

inductive Op where
  | exists (path : PurePath)
  | readText (path : PurePath)
  | readBytes (path : PurePath)
  | post (request : Request)
  | mkdir (dir : PurePath)
  | openText (path : PurePath) (fingerprint : Digest) (version text : String)
  | flush (handle : Nat)
  | closeText (handle : Nat)
  | publish (topic : String) (payload : Payload)

@[reducible] def Res : Op → Type
  | .exists _ => Except PyError Bool
  | .readText _ | .readBytes _ => Except PyError Bytes
  | .post _ => Response
  | .openText .. => Except PyError Nat
  | .flush _ => Except PyError Bool
  | .mkdir _ | .closeText _ | .publish .. => Except PyError Unit

end Kreuzberg

abbrev KreuzbergProg := Prog Kreuzberg.Op Kreuzberg.Res

namespace Kreuzberg

/-! The calls as programs. `exists` is a keyword. -/

abbrev pathExists (path : PurePath) : KreuzbergProg (Except PyError Bool) :=
  .perform (Op.exists path)

abbrev readText (path : PurePath) : KreuzbergProg (Except PyError Bytes) :=
  .perform (Op.readText path)

abbrev readBytes (path : PurePath) : KreuzbergProg (Except PyError Bytes) :=
  .perform (Op.readBytes path)

abbrev post (request : Request) : KreuzbergProg Response := .perform (Op.post request)

abbrev mkdir (dir : PurePath) : KreuzbergProg (Except PyError Unit) := .perform (Op.mkdir dir)

abbrev openText (path : PurePath) (fingerprint : Digest) (version text : String) :
    KreuzbergProg (Except PyError Nat) := .perform (Op.openText path fingerprint version text)

abbrev flush (handle : Nat) : KreuzbergProg (Except PyError Bool) := .perform (Op.flush handle)

abbrev closeText (handle : Nat) : KreuzbergProg (Except PyError Unit) :=
  .perform (Op.closeText handle)

abbrev publish (topic : String) (payload : Payload) : KreuzbergProg (Except PyError Unit) :=
  .perform (Op.publish topic payload)

/-- The content of a text file: a line with the fingerprint, then the text. -/
def cachedContent (fingerprint : Digest) (text : String) : Bytes :=
  encodeUtf8 ("fingerprint:" ++ fingerprint.hex ++ "\n" ++ text)

/-- A text file that was opened for writing: where it writes, what it is to write, and how many
bytes it has written. `version` is the parser version of the command that opened it; the system
does not know it. -/
structure Writer where
  path : PurePath
  fingerprint : Digest
  version : String
  text : String
  position : Nat

def Writer.content (w : Writer) : Bytes := cachedContent w.fingerprint w.text

/-- A text file: its bytes, the handle that opened it last, and whether this handle was closed. -/
structure TextFile where
  bytes : Bytes
  opener : Nat
  closed : Bool

/-- What the commands share. A handle is a position in `writers`. -/
structure State where
  sources : PurePath → Option Bytes
  texts : PurePath → Option TextFile
  writers : List Writer
  published : List (String × Payload)

/-- How the surroundings treat a call: it succeeds, a write stores some bytes, the service answers
otherwise, it fails without effect, or it fails after its effect. -/
inductive Choice where
  | run
  | part (stored : Nat)
  | answer (response : Response)
  | fail (e : PyError)
  | lost (e : PyError)

/-- A file after a write of `bytes` at an offset; zeros fill a gap, and a write of nothing does
nothing. -/
def overlay (file : Bytes) (offset : Nat) (bytes : Bytes) : Bytes :=
  if bytes = [] then file
  else file.take offset ++ List.replicate (offset - file.length) 0 ++ bytes ++
    file.drop (offset + bytes.length)

/-- The state after the writer at `handle` has stored `stored` more bytes at its position. -/
def State.store (X : External) (s : State) (handle : Nat) (w : Writer) (stored : Nat) : State :=
  { s with
    writers := s.writers.set handle { w with position := w.position + stored }
    texts := match s.texts (X.entry w.path) with
      | none => s.texts
      | some file => Function.update s.texts (X.entry w.path) (some { file with
          bytes := overlay file.bytes w.position ((w.content.drop w.position).take stored) }) }

def State.close (X : External) (s : State) (handle : Nat) (path : PurePath) : State :=
  { s with
    texts := match s.texts (X.entry path) with
      | none => s.texts
      | some file => Function.update s.texts (X.entry path)
          (some { file with closed := file.closed || file.opener == handle }) }

def State.openText (X : External) (s : State) (path : PurePath) (fingerprint : Digest)
    (version text : String) : State :=
  { s with
    writers := s.writers ++ [⟨path, fingerprint, version, text, 0⟩]
    texts := Function.update s.texts (X.entry path) (some ⟨[], s.writers.length, false⟩) }

def exec (X : External) : (op : Op) → Choice → State → Option (Res op × State)
  | .exists path, .run, s => some (.ok (s.texts (X.entry path)).isSome, s)
  | .exists _, .fail e, s => some (.error e, s)
  | .readText path, .run, s => (s.texts (X.entry path)).map fun file => (.ok file.bytes, s)
  | .readText _, .fail e, s => some (.error e, s)
  | .readBytes path, .run, s => (s.sources (X.entry path)).map fun bytes => (.ok bytes, s)
  | .readBytes _, .fail e, s => some (.error e, s)
  | .post request, .run, s =>
    some (.content (X.extract request.parserVersion request.fileBytes), s)
  | .post _, .answer (.content _), _ => none
  | .post _, .answer response, s => some (response, s)
  | .mkdir _, .run, s => some (.ok (), s)
  | .mkdir _, .fail e, s => some (.error e, s)
  | .openText path fingerprint version text, .run, s =>
    some (.ok s.writers.length, s.openText X path fingerprint version text)
  | .openText .., .fail e, s => some (.error e, s)
  | .flush _, .run, s => some (.ok false, s)
  | .flush handle, .part stored, s =>
    match s.writers[handle]? with
    | none => none
    | some w =>
      if 0 < stored ∧ w.position + stored ≤ w.content.length then
        some (.ok true, s.store X handle w stored)
      else none
  | .flush _, .fail e, s => some (.error e, s)
  | .closeText handle, .run, s =>
    match s.writers[handle]? with
    | none => none
    | some w =>
      some (.ok (), (s.store X handle w (w.content.length - w.position)).close X handle w.path)
  | .closeText _, .fail e, s => some (.error e, s)
  | .publish topic payload, .run, s =>
    some (.ok (), { s with published := s.published ++ [(topic, payload)] })
  | .publish _ _, .fail e, s => some (.error e, s)
  | .publish topic payload, .lost e, s =>
    some (.error e, { s with published := s.published ++ [(topic, payload)] })
  | _, _, _ => none

/-- A source file is written or removed. -/
structure Rewrite where
  path : PurePath
  content : Option Bytes

def move (m : Rewrite) (s : State) : Option State :=
  some { s with sources := Function.update s.sources m.path m.content }

end Kreuzberg

end OmniMemory
