import OmniMemory.Kreuzberg.Calls

/-! `HandlerKreuzbergParse.process_event` and the client functions that it uses, as programs over
their calls. -/

namespace OmniMemory

open Kreuzberg

structure ModelKreuzbergParseResult where
  indexedCount : Nat
  failedCount : Nat
  skippedTooLargeCount : Nat
  timeoutCount : Nat

namespace Kreuzberg

/-! ### The client -/

inductive ExtractError where
  | timeout
  | extraction (statusCode : Nat) (detail : String)
  | uncaught (e : PyError)

def callKreuzbergExtract (request : Request) : KreuzbergProg (Except ExtractError String) := do
  match ← post request with
  | .timeout => return .error .timeout
  | .statusError statusCode text =>
    return .error (.extraction statusCode (String.ofList (text.toList.take 200)))
  | .transportError e => return .error (.extraction 503 s!"kreuzberg transport error: {e}")
  | .requestError e => return .error (.extraction 503 s!"kreuzberg request error: {e}")
  | .notJson statusCode e =>
    return .error (.extraction statusCode s!"kreuzberg returned non-JSON response: {e}")
  | .notList typeName =>
    return .error (.extraction 200 s!"kreuzberg returned unexpected response type: {typeName}")
  | .emptyList => return .error (.extraction 200 "kreuzberg returned empty response array")
  | .badItem => return .error (.extraction 200 "kreuzberg response item has unexpected format")
  | .nullContent => return .error (.extraction 200 "kreuzberg returned null content")
  | .raised e => return .error (.uncaught e)
  | .content text => return .ok text

/-- The parse in `read_cached_text`: the fingerprint of the first line and the text after it. -/
def parseCached (content : List Char) : Option (String × String) :=
  match content.span (· ≠ '\n') with
  | (_, []) => none
  | (firstLine, _ :: text) =>
    let fingerprintPrefix := "fingerprint:".toList
    if fingerprintPrefix.isPrefixOf firstLine then
      some (String.ofList (firstLine.drop fingerprintPrefix.length), String.ofList text)
    else
      none

/-- The bytes of a text file as `read_text` and the parse see them. -/
def parseBytes (bytes : Bytes) : Option (String × String) :=
  (decodeUtf8 bytes).bind fun content => parseCached (universalNewlines content.toList)

def readCachedText (textPath : PurePath) :
    KreuzbergProg (Except PyError (Option (String × String))) := do
  match ← pathExists textPath with
  | .error e => return .error e
  | .ok false => return .ok none
  | .ok true =>
  match ← readText textPath with
  | .error e => return if e.isOSError || e.isValueError then .ok none else .error e
  | .ok bytes => return .ok (parseBytes bytes)

/-- The writes of a part before the closing; `fuel` bounds their number. -/
def flushParts (handle : Nat) : Nat → KreuzbergProg (Except PyError Unit)
  | 0 => return .ok ()
  | fuel + 1 => do
    match ← flush handle with
    | .error e => return .error e
    | .ok false => return .ok ()
    | .ok true => flushParts handle fuel

/-- `write_cached_text`. The `with` block of `write_text` closes the file also after an exception,
and an exception of the closing replaces it. -/
def writeCachedText (textPath : PurePath) (fingerprint : Digest) (version text : String) :
    KreuzbergProg (Except PyError Unit) := do
  match ← mkdir textPath.parent with
  | .error e => return .error e
  | .ok () =>
  match ← openText textPath fingerprint version text with
  | .error e => return .error e
  | .ok handle =>
  let written ← flushParts handle (cachedContent fingerprint text).length
  match ← closeText handle with
  | .error e => return .error e
  | .ok () => return written

end Kreuzberg

/-! ### The handler -/

def validateSourcePath (X : Kreuzberg.External) (sourceUrl : String) (documentRoot : PurePath) :
    Except PyError PurePath := do
  let candidate := PurePath.ofString sourceUrl
  let resolved ← X.resolve (if candidate.isAbsolute then candidate else documentRoot.join candidate)
  let root ← X.resolve documentRoot
  if resolved.isRelativeTo root then
    return resolved
  throw (.valueError (s!"source_url {X.repr sourceUrl} resolves to {resolved.str} which is " ++
    s!"outside the permitted document root {root.str}"))

/-- `_compute_document_id`: the first 16 bytes of the digest. -/
def computeDocumentId (sourceUrl : String) (contentHash : Digest) (parserVersion : String) : UUID :=
  (sha256 (encodeUtf8 (sourceUrl ++ contentHash.hex ++ parserVersion))).extractLsb' 128 128

def sourceUrlSlug (sourceUrl : String) : String := (sha256 (encodeUtf8 sourceUrl)).hex

def detectMimeType (X : Kreuzberg.External) (sourceUrl : String) : String :=
  match X.guessType sourceUrl with
  | none | some "" => "application/octet-stream"
  | some mime => mime

/-- The construction of an indexed event, with the checks of its model. -/
def ModelDocumentIndexedKreuzbergEvent.validate (event : ModelDocumentIndexedKreuzbergEvent) :
    Except PyError ModelDocumentIndexedKreuzbergEvent :=
  if event.sourceUrl = "" ∨ event.extractedTextRef.str = "" ∨ event.mimeType = "" ∨
      event.parserVersion = "" then
    .error (.valueError "ModelDocumentIndexedKreuzbergEvent")
  else
    .ok event

def ModelDocumentParseFailedEvent.validate (event : ModelDocumentParseFailedEvent) :
    Except PyError ModelDocumentParseFailedEvent :=
  if event.sourceUrl = "" ∨ event.parserVersion = "" then
    .error (.valueError "ModelDocumentParseFailedEvent")
  else
    .ok event

structure HandlerKreuzbergParse where
  config : ModelKreuzbergParseConfig

namespace HandlerKreuzbergParse

variable (X : Kreuzberg.External) (self : HandlerKreuzbergParse) (now : DateTime)
  (event : ModelDocumentEvent)

/-- The text file of a document. -/
def textPath : PurePath :=
  self.config.textStorePath.child (sourceUrlSlug event.sourceRef ++ ".txt")

/-- What each failing branch does: it publishes the event and returns `result`. -/
def parseFailed (errorCode : EnumParseErrorCode) (errorDetail : String)
    (result : ModelKreuzbergParseResult) :
    KreuzbergProg (Except PyError ModelKreuzbergParseResult) := do
  let failedEvent : ModelDocumentParseFailedEvent :=
    { correlationId := event.correlationId
      emittedAtUtc := now
      sourceUrl := event.sourceRef
      contentHash := event.contentFingerprint
      errorCode
      errorDetail
      parserVersion := self.config.parserVersion }
  match failedEvent.validate with
  | .error e => return .error e
  | .ok failedEvent =>
  match ← publish self.config.publishTopicParseFailed (.failed failedEvent) with
  | .error e => return .error e
  | .ok () => return .ok result

/-- What both successful branches do: they publish the indexed event. -/
def publishIndexed (extractedTextRef : TextRef) :
    KreuzbergProg (Except PyError ModelKreuzbergParseResult) := do
  let indexedEvent : ModelDocumentIndexedKreuzbergEvent :=
    { correlationId := event.correlationId
      emittedAtUtc := now
      documentId := computeDocumentId event.sourceRef event.contentFingerprint
        self.config.parserVersion
      sourceUrl := event.sourceRef
      contentHash := event.contentFingerprint
      extractedTextRef
      mimeType := detectMimeType X event.sourceRef
      parserVersion := self.config.parserVersion }
  match indexedEvent.validate with
  | .error e => return .error e
  | .ok indexedEvent =>
  match ← publish self.config.publishTopicIndexed (.indexed indexedEvent) with
  | .error e => return .error e
  | .ok () => return .ok ⟨1, 0, 0, 0⟩

/-- The text itself if it is short, and else its file. -/
def textRef (text : String) : Except PyError TextRef :=
  if text.length < self.config.inlineTextMaxChars then
    .ok (.inline text)
  else
    (X.resolve (self.textPath event)).map .file

/-- `process_event` from the extracted text on: the cache is written and the event published. -/
def storeAndPublish (extractedText : String) :
    KreuzbergProg (Except PyError ModelKreuzbergParseResult) := do
  let cached ← writeCachedText (self.textPath event) event.contentFingerprint
    self.config.parserVersion extractedText
  match cached.bind fun () => self.textRef X event extractedText with
  | .ok extractedTextRef => self.publishIndexed X now event extractedTextRef
  | .error e =>
    if !e.isOSError then
      return .error e
    if extractedText.length < self.config.inlineTextMaxChars then
      self.publishIndexed X now event (.inline extractedText)
    else
      self.parseFailed now event .parseError "cache write failed and text too large to inline"
        ⟨0, 1, 0, 0⟩

/-- `process_event` after the cache was missed: the file is read and its text extracted. -/
def parseSource (validatedPath : PurePath) :
    KreuzbergProg (Except PyError ModelKreuzbergParseResult) := do
  match ← readBytes validatedPath with
  | .error e =>
    if !e.isOSError then
      return .error e
    self.parseFailed now event .parseError s!"Failed to read source file: {e.text}" ⟨0, 1, 0, 0⟩
  | .ok fileBytes =>
  if self.config.maxDocBytes < fileBytes.length then
    self.parseFailed now event .tooLarge (s!"Document size {fileBytes.length} bytes exceeds " ++
      s!"max_doc_bytes={self.config.maxDocBytes}") ⟨0, 0, 1, 0⟩
  else
    let extracted ← callKreuzbergExtract
      { url := self.config.kreuzbergUrl
        fileBytes
        filename := validatedPath.name
        mimeType := detectMimeType X event.sourceRef
        timeoutMs := self.config.timeoutMs
        parserVersion := self.config.parserVersion }
    match extracted with
    | .error .timeout =>
      self.parseFailed now event .timeout
        s!"kreuzberg extract request timed out after {self.config.timeoutMs} ms" ⟨0, 1, 0, 1⟩
    | .error (.extraction _ detail) =>
      self.parseFailed now event .parseError detail ⟨0, 1, 0, 0⟩
    | .error (.uncaught e) => return .error e
    | .ok extractedText => self.storeAndPublish X now event extractedText

/-- `process_event`; `now` is the time that it reads. -/
def processEvent : KreuzbergProg (Except PyError ModelKreuzbergParseResult) := do
  match validateSourcePath X event.sourceRef self.config.documentRoot with
  | .error (.valueError e) =>
    self.parseFailed now event .parseError s!"Invalid source_ref path: {e}" ⟨0, 1, 0, 0⟩
  | .error e => return .error e
  | .ok validatedPath =>
  match ← readCachedText (self.textPath event) with
  | .error e => return .error e
  | .ok none => self.parseSource X now event validatedPath
  | .ok (some (storedFingerprint, cachedText)) =>
    if storedFingerprint = event.contentFingerprint.hex then
      match self.textRef X event cachedText with
      | .error e => return .error e
      | .ok extractedTextRef => self.publishIndexed X now event extractedTextRef
    else
      self.parseSource X now event validatedPath

end HandlerKreuzbergParse

end OmniMemory
