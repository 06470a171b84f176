import OmniMemory.Crawl.Calls
import Mathlib.Data.List.Infix

/-! `HandlerFilesystemCrawler.crawl` and the functions that it uses, as programs over their
calls. -/

namespace OmniMemory

open Crawl

def defaultScopeRef : String := "omninode/shared"

namespace Crawl

/-- What the handler uses of the language and the system: `~/.claude`, `str.upper`, `str.lower` and
`repr`. -/
structure External where
  claudeHome : PurePath
  upper : String → String
  lower : String → String
  repr : String → String

def skipDirs : List String := ["src", "docs", "design", "plans", "handoffs"]

/-- `part in s` for strings. -/
def isIn (part s : String) : Bool := decide (part.toList <:+: s.toList)

def startsWith (s start : String) : Bool := start.toList.isPrefixOf s.toList

def endsWith (s ending : String) : Bool := ending.toList.isSuffixOf s.toList

/-- The test for deep dive reports, which two functions make. -/
def isDeepDive (nameUpper : String) : Bool :=
  nameUpper == "DEEP_DIVE.MD" || startsWith nameUpper "DEEP_DIVE_" ||
    endsWith nameUpper "_DEEP_DIVE.MD"

variable (X : External)

def detectDocType (path : PurePath) : EnumDetectedDocType :=
  let nameUpper := X.upper path.name
  let partsLower := path.parts.map X.lower
  if path.name = "CLAUDE.md" then .claudeMd
  else if isDeepDive nameUpper then .deepDive
  else if endsWith nameUpper ".MD" && (isIn "ARCHITECTURE" nameUpper || isIn "OVERVIEW" nameUpper)
    then .architectureDoc
  else if nameUpper = "README.MD" then .readme
  else if "design" ∈ partsLower then .designDoc
  else if "plans" ∈ partsLower ∨ "plan" ∈ partsLower then .plan
  else if "handoffs" ∈ partsLower ∨ "handoff" ∈ partsLower then .handoff
  else .unknownMd

def sourceTypeForPath (path : PurePath) : EnumContextSourceType :=
  if path.isRelativeTo X.claudeHome then .staticStandards
  else if path.name = "CLAUDE.md" then .staticStandards
  else .repoDerived

def priorityHintForPath (path : PurePath) (pathPrefixes : List String) : Nat :=
  let nameUpper := X.upper path.name
  let partsLower := path.parts.map X.lower
  if path.isRelativeTo X.claudeHome ∧ path.name = "CLAUDE.md" then 95
  else if path.name = "CLAUDE.md" then 85
  else if "design" ∈ partsLower ∧ (isIn "ARCHITECTURE" nameUpper ∨ isIn "OVERVIEW" nameUpper)
    then 80
  else if "design" ∈ partsLower then 70
  else if "plans" ∈ partsLower ∨ "plan" ∈ partsLower then 65
  else if "handoffs" ∈ partsLower ∨ "handoff" ∈ partsLower then 60
  else if nameUpper = "README.MD" ∧ path.parent.str ∈ pathPrefixes then 55
  else if isDeepDive nameUpper then 45
  else 35

def scopeRefForPath (path : PurePath) (scopeMappings : List (String × String)) : String :=
  let best := scopeMappings.foldl (fun (best : Int × String) (pathPrefix, scope) =>
    let prefixPath := PurePath.ofString pathPrefix
    if path.isRelativeTo prefixPath ∧ best.1 < prefixPath.parts.length then
      (prefixPath.parts.length, scope)
    else best) (-1, defaultScopeRef)
  best.2

def extractTags (path : PurePath) (docType : EnumDetectedDocType) : List String :=
  let repo := path.parts.dropLast.reverse.find? fun part =>
    part ∉ skipDirs ∧ ¬ startsWith part "."
  [path.str, "doctype:" ++ docType.value] ++ (repo.map ("repo:" ++ ·)).toList

end Crawl

/-- `HandlerFilesystemCrawler` with the arguments of `crawl`, the time that it reads, and the order
in which it goes through a set of strings. -/
structure HandlerFilesystemCrawler where
  config : ModelFilesystemCrawlerConfig
  correlationId : UUID
  crawlScope : String
  triggerSource : TriggerSource
  scopeMappings : List (String × String)
  now : DateTime
  inOrder : List String → List String
  mem_inOrder : ∀ scopes scope, scope ∈ inOrder scopes ↔ scope ∈ scopes

namespace HandlerFilesystemCrawler

/-- The variables of `crawl` that the walk changes. -/
structure Walk where
  filesWalked : Nat := 0
  discoveredCount : Nat := 0
  changedCount : Nat := 0
  unchangedCount : Nat := 0
  skippedCount : Nat := 0
  mtimeSkippedCount : Nat := 0
  indexedCount : Nat := 0
  errorCount : Nat := 0
  truncated : Bool := false
  walkedPaths : List PurePath := []
  scopeRefsSeen : List String := []

variable (X : Crawl.External) (self : HandlerFilesystemCrawler)

abbrev scopeOf (path : PurePath) : String := scopeRefForPath path self.scopeMappings

/-- An event is constructed and published as by `_publish_event`, which swallows the exceptions of
the callback. -/
def publishEvent (topic : String) (event : CrawlEvent) : CrawlProg (Except PyError Unit) := do
  match event.validate with
  | .error e => return .error e
  | .ok () =>
  let _ ← publish topic event
  return .ok ()

/-- A record is constructed and stored. -/
def storeRecord (record : ModelCrawlStateRecord) : CrawlProg (Except PyError Unit) := do
  match record.validate with
  | .error e => return .error e
  | .ok () => upsertState record

def discoveredEvent (path : PurePath) (content : Bytes) : ModelDocumentDiscoveredEvent where
  correlationId := self.correlationId
  emittedAtUtc := self.now
  crawlerType := .filesystem
  crawlScope := self.crawlScope
  triggerSource := self.triggerSource
  sourceRef := path
  sourceType := sourceTypeForPath X path
  sourceVersion := none
  contentFingerprint := sha256 content
  contentBlobRef := "sha256:" ++ (sha256 content).hex
  tokenEstimate := decodedLength 0 0 0 content / 4
  scopeRef := self.scopeOf path
  detectedDocType := detectDocType X path
  tags := extractTags path (detectDocType X path)
  priorityHint := priorityHintForPath X path self.config.pathPrefixes

def indexedEvent (path : PurePath) (content : Bytes) : ModelDocumentIndexedEvent where
  correlationId := self.correlationId
  emittedAtUtc := self.now
  crawlerType := .filesystem
  crawlScope := self.crawlScope
  triggerSource := self.triggerSource
  sourceRef := path
  sourceType := sourceTypeForPath X path
  contentFingerprint := sha256 content
  scopeRef := self.scopeOf path

def removedEvent (record : ModelCrawlStateRecord) (scopeRef : String) :
    ModelDocumentRemovedEvent where
  correlationId := self.correlationId
  emittedAtUtc := self.now
  crawlerType := .filesystem
  crawlScope := self.crawlScope
  triggerSource := self.triggerSource
  sourceRef := record.sourceRef
  sourceType := sourceTypeForPath X record.sourceRef
  scopeRef
  lastKnownContentFingerprint := record.contentFingerprint
  lastKnownSourceVersion := record.sourceVersion

def newRecord (path : PurePath) (content : Bytes) (mtime : Mtime) : ModelCrawlStateRecord where
  sourceRef := path
  crawlerType := .filesystem
  scopeRef := self.scopeOf path
  contentFingerprint := sha256 content
  sourceVersion := none
  lastCrawledAtUtc := self.now
  lastChangedAtUtc := some self.now
  lastKnownMtime := some mtime

/-- The record of a document with the content of `prior`. -/
def sameRecord (path : PurePath) (prior : ModelCrawlStateRecord) (mtime : Mtime) :
    ModelCrawlStateRecord where
  sourceRef := path
  crawlerType := .filesystem
  scopeRef := self.scopeOf path
  contentFingerprint := prior.contentFingerprint
  sourceVersion := prior.sourceVersion
  lastCrawledAtUtc := self.now
  lastChangedAtUtc := prior.lastChangedAtUtc
  lastKnownMtime := some mtime

/-- What follows a discovered or a changed event: the indexed event and the new record. -/
def indexAndStore (path : PurePath) (content : Bytes) (mtime : Mtime) (w : Walk) :
    CrawlProg (Except PyError Walk) := do
  match ← publishEvent self.config.publishTopicIndexed (.indexed (self.indexedEvent X path content))
    with
  | .error e => return .error e
  | .ok () =>
  match ← storeRecord (self.newRecord path content mtime) with
  | .error e => return .error e
  | .ok () => return .ok { w with indexedCount := w.indexedCount + 1 }

/-- `crawl` for a file whose content was read. -/
def compareContent (path : PurePath) (prior : Option ModelCrawlStateRecord) (mtime : Mtime)
    (content : Bytes) (w : Walk) : CrawlProg (Except PyError Walk) := do
  match prior with
  | none =>
    match ← publishEvent self.config.publishTopicDiscovered
      (.discovered (self.discoveredEvent X path content)) with
    | .error e => return .error e
    | .ok () =>
      self.indexAndStore X path content mtime { w with discoveredCount := w.discoveredCount + 1 }
  | some prior =>
    if prior.contentFingerprint = sha256 content then
      match ← storeRecord (self.sameRecord path prior mtime) with
      | .error e => return .error e
      | .ok () => return .ok { w with unchangedCount := w.unchangedCount + 1 }
    else
      match ← publishEvent self.config.publishTopicChanged
        (.changed { self.discoveredEvent X path content with
          previousContentFingerprint := prior.contentFingerprint
          previousSourceVersion := prior.sourceVersion }) with
      | .error e => return .error e
      | .ok () =>
        self.indexAndStore X path content mtime { w with changedCount := w.changedCount + 1 }

/-- `crawl` for a file that counts as walked: `path` is what `mdPath` resolves to. -/
def crawlWalked (mdPath path : PurePath) (mtime : Mtime) (w : Walk) :
    CrawlProg (Except PyError Walk) := do
  let w := { w with
    walkedPaths := w.walkedPaths.insert path
    scopeRefsSeen := w.scopeRefsSeen.insert (self.scopeOf path) }
  match ← getState ⟨path, .filesystem, self.scopeOf path⟩ with
  | .error e => return .error e
  | .ok prior =>
  match prior.filter (·.lastKnownMtime == some mtime) with
  | some prior =>
    match ← storeRecord (self.sameRecord path prior mtime) with
    | .error e => return .error e
    | .ok () => return .ok { w with mtimeSkippedCount := w.mtimeSkippedCount + 1 }
  | none =>
  match ← readBytes mdPath with
  | .error e =>
    if e.isOSError then
      return .ok { w with errorCount := w.errorCount + 1 }
    return .error e
  | .ok content => self.compareContent X path prior mtime content w

/-- `crawl` for one path that `rglob` yielded. -/
def crawlFile (resolvedPrefix mdPath : PurePath) (w : Walk) : CrawlProg (Except PyError Walk) := do
  match ← resolve mdPath with
  | .error e => return .error e
  | .ok path =>
  if !path.isRelativeTo resolvedPrefix then
    return .ok { w with skippedCount := w.skippedCount + 1 }
  let w := { w with filesWalked := w.filesWalked + 1 }
  match ← stat mdPath with
  | .error e =>
    if e.isOSError then
      return .ok { w with errorCount := w.errorCount + 1 }
    return .error e
  | .ok st =>
  if self.config.maxFileSizeBytes < st.size then
    return .ok { w with skippedCount := w.skippedCount + 1 }
  self.crawlWalked X mdPath path st.mtime w

def crawlFiles (resolvedPrefix : PurePath) :
    List PurePath → Walk → CrawlProg (Except PyError Walk)
  | [], w => return .ok w
  | mdPath :: rest, w => do
    if self.config.maxFilesPerCrawl ≤ w.filesWalked then
      return .ok { w with truncated := true }
    match ← self.crawlFile X resolvedPrefix mdPath w with
    | .error e => return .error e
    | .ok w => crawlFiles resolvedPrefix rest w

def crawlPrefixes : List PurePath → Walk → CrawlProg (Except PyError Walk)
  | [], w => return .ok w
  | prefixPath :: rest, w => do
    match ← pathExists prefixPath with
    | .error e => return .error e
    | .ok false => crawlPrefixes rest w
    | .ok true =>
    match ← resolve prefixPath with
    | .error e => return .error e
    | .ok resolvedPrefix =>
    match ← rglob prefixPath self.config.fileGlob with
    | (results, raised) =>
    match raised.filter fun e => !e.isOSError with
    | some e => return .error e
    | none =>
    match ← self.crawlFiles X resolvedPrefix results w with
    | .error e => return .error e
    | .ok w => if w.truncated then return .ok w else crawlPrefixes rest w

/-- The paths of `path_prefixes`. -/
def prefixPaths : List PurePath := self.config.pathPrefixes.map PurePath.ofString

def affectedScopes (scopeRefsSeen : List String) : List String :=
  if scopeRefsSeen ≠ [] then
    if self.prefixPaths.any fun prefixPath => self.scopeOf prefixPath == defaultScopeRef then
      scopeRefsSeen.insert defaultScopeRef
    else
      scopeRefsSeen
  else
    self.prefixPaths.foldl (fun scopes prefixPath => scopes.insert (self.scopeOf prefixPath)) []

/-- The loop of `_detect_and_emit_removals` over the records of a scope. -/
def removeRecords (walkedPaths : List PurePath) (scopeRef : String) :
    List ModelCrawlStateRecord → Nat → CrawlProg (Except PyError Nat)
  | [], removedCount => return .ok removedCount
  | record :: rest, removedCount => do
    if record.sourceRef ∈ walkedPaths then
      removeRecords walkedPaths scopeRef rest removedCount
    else
      match ← publishEvent self.config.publishTopicRemoved
        (.removed (self.removedEvent X record scopeRef)) with
      | .error e => return .error e
      | .ok () =>
      match ← deleteState ⟨record.sourceRef, .filesystem, scopeRef⟩ with
      | .error e => return .error e
      | .ok () => removeRecords walkedPaths scopeRef rest (removedCount + 1)

/-- The loop of `_detect_and_emit_removals` over the affected scopes. -/
def removeInScopes (walkedPaths : List PurePath) :
    List String → Nat → CrawlProg (Except PyError Nat)
  | [], removedCount => return .ok removedCount
  | scopeRef :: rest, removedCount => do
    match ← listStates .filesystem scopeRef with
    | .error e => return .error e
    | .ok knownRecords =>
    match ← self.removeRecords X walkedPaths scopeRef knownRecords removedCount with
    | .error e => return .error e
    | .ok removedCount => removeInScopes walkedPaths rest removedCount

def detectAndEmitRemovals (walkedPaths : List PurePath) (scopeRefsSeen : List String) :
    CrawlProg (Except PyError Nat) :=
  self.removeInScopes X walkedPaths (self.inOrder (self.affectedScopes scopeRefsSeen)) 0

def Walk.result (w : Walk) (removedCount : Nat) : ModelFilesystemCrawlResult where
  filesWalked := w.filesWalked
  discoveredCount := w.discoveredCount
  changedCount := w.changedCount
  unchangedCount := w.unchangedCount
  skippedCount := w.skippedCount
  indexedCount := w.indexedCount
  removedCount
  errorCount := w.errorCount
  mtimeSkippedCount := w.mtimeSkippedCount
  truncated := w.truncated

def crawl : CrawlProg (Except PyError ModelFilesystemCrawlResult) := do
  match self.config.pathPrefixes.find? fun prefixStr => !(PurePath.ofString prefixStr).isAbsolute
    with
  | some prefixStr =>
    return .error (.valueError s!"path_prefix must be absolute: {X.repr prefixStr}")
  | none =>
  match ← self.crawlPrefixes X self.prefixPaths {} with
  | .error e => return .error e
  | .ok w =>
  if w.truncated then
    return .ok (w.result 0)
  match ← self.detectAndEmitRemovals X w.walkedPaths w.scopeRefsSeen with
  | .error e => return .error e
  | .ok removedCount => return .ok (w.result removedCount)

end HandlerFilesystemCrawler

end OmniMemory
