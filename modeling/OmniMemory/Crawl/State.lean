import OmniMemory.Lib.Table
import OmniMemory.Path
import OmniMemory.Sha256

/-! What `HandlerFilesystemCrawler` stores and publishes: the crawl state records, the events, and
the configuration. A source reference is the string of a resolved path; the path stands for it. -/

namespace OmniMemory

open Interleave

inductive EnumCrawlerType where
  | filesystem
  | gitRepo
  | linear
  | watchdog
deriving DecidableEq

inductive EnumContextSourceType where
  | staticStandards
  | repoDerived
  | memoryHook
  | memoryPattern
  | linearTicket

inductive EnumDetectedDocType where
  | claudeMd
  | designDoc
  | architectureDoc
  | plan
  | handoff
  | readme
  | ticket
  | linearDocument
  | deepDive
  | unknownMd

def EnumDetectedDocType.value : EnumDetectedDocType → String
  | claudeMd => "claude_md"
  | designDoc => "design_doc"
  | architectureDoc => "architecture_doc"
  | plan => "plan"
  | handoff => "handoff"
  | readme => "readme"
  | ticket => "ticket"
  | linearDocument => "linear_document"
  | deepDive => "deep_dive"
  | unknownMd => "unknown_md"

inductive TriggerSource where
  | scheduled
  | manual
  | gitHook
  | filesystemWatch

/-- An `st_mtime`, of which only equality matters. -/
abbrev Mtime := Int

/-- The primary key of `omnimemory_crawl_state`. -/
structure CrawlStateKey where
  sourceRef : PurePath
  crawlerType : EnumCrawlerType
  scopeRef : String
deriving DecidableEq

structure ModelCrawlStateRecord where
  sourceRef : PurePath
  crawlerType : EnumCrawlerType
  scopeRef : String
  contentFingerprint : Digest
  sourceVersion : Option String
  lastCrawledAtUtc : DateTime
  lastChangedAtUtc : Option DateTime
  lastKnownMtime : Option Mtime

def ModelCrawlStateRecord.key (record : ModelCrawlStateRecord) : CrawlStateKey :=
  ⟨record.sourceRef, record.crawlerType, record.scopeRef⟩

/-- The table `omnimemory_crawl_state`. -/
abbrev CrawlStateTable := Table ModelCrawlStateRecord.key

structure ModelFilesystemCrawlerConfig where
  pathPrefixes : List String := []
  fileGlob : String := "*.md"
  publishTopicDiscovered : String := "onex.evt.omnimemory.document-discovered.v1"
  publishTopicChanged : String := "onex.evt.omnimemory.document-changed.v1"
  publishTopicRemoved : String := "onex.evt.omnimemory.document-removed.v1"
  publishTopicIndexed : String := "onex.evt.omnimemory.document-indexed.v1"
  maxFileSizeBytes : Nat := 5242880
  maxFilesPerCrawl : Nat := 10000
  maxFileSizeBytes_pos : 1 ≤ maxFileSizeBytes := by decide
  maxFilesPerCrawl_pos : 1 ≤ maxFilesPerCrawl := by decide

structure ModelDocumentDiscoveredEvent where
  correlationId : UUID
  emittedAtUtc : DateTime
  crawlerType : EnumCrawlerType
  crawlScope : String
  triggerSource : TriggerSource
  sourceRef : PurePath
  sourceType : EnumContextSourceType
  sourceVersion : Option String
  contentFingerprint : Digest
  contentBlobRef : String
  tokenEstimate : Nat
  scopeRef : String
  detectedDocType : EnumDetectedDocType
  tags : List String
  priorityHint : Nat

structure ModelDocumentChangedEvent extends ModelDocumentDiscoveredEvent where
  previousContentFingerprint : Digest
  previousSourceVersion : Option String

structure ModelDocumentIndexedEvent where
  correlationId : UUID
  emittedAtUtc : DateTime
  crawlerType : EnumCrawlerType
  crawlScope : String
  triggerSource : TriggerSource
  sourceRef : PurePath
  sourceType : EnumContextSourceType
  contentFingerprint : Digest
  scopeRef : String

structure ModelDocumentRemovedEvent where
  correlationId : UUID
  emittedAtUtc : DateTime
  crawlerType : EnumCrawlerType
  crawlScope : String
  triggerSource : TriggerSource
  sourceRef : PurePath
  sourceType : EnumContextSourceType
  scopeRef : String
  lastKnownContentFingerprint : Digest
  lastKnownSourceVersion : Option String

inductive CrawlEvent where
  | discovered (event : ModelDocumentDiscoveredEvent)
  | changed (event : ModelDocumentChangedEvent)
  | indexed (event : ModelDocumentIndexedEvent)
  | removed (event : ModelDocumentRemovedEvent)

namespace CrawlEvent

def crawlScope : CrawlEvent → String
  | discovered event => event.crawlScope
  | changed event => event.crawlScope
  | indexed event => event.crawlScope
  | removed event => event.crawlScope

def scopeRef : CrawlEvent → String
  | discovered event => event.scopeRef
  | changed event => event.scopeRef
  | indexed event => event.scopeRef
  | removed event => event.scopeRef

/-- The check of the event models that an event can fail: both scopes have `min_length=1`. -/
def validate (event : CrawlEvent) : Except PyError Unit :=
  if event.crawlScope = "" ∨ event.scopeRef = "" then
    .error (.valueError "String should have at least 1 character")
  else
    .ok ()

/-- The event says that a document was found with this content. -/
def Announces (path : PurePath) (fingerprint : Digest) : CrawlEvent → Prop
  | discovered event => event.sourceRef = path ∧ event.contentFingerprint = fingerprint
  | changed event => event.sourceRef = path ∧ event.contentFingerprint = fingerprint
  | _ => False

end CrawlEvent

def ModelCrawlStateRecord.validate (record : ModelCrawlStateRecord) : Except PyError Unit :=
  if record.scopeRef = "" then .error (.valueError "String should have at least 1 character")
  else .ok ()

structure ModelFilesystemCrawlResult where
  filesWalked : Nat
  discoveredCount : Nat
  changedCount : Nat
  unchangedCount : Nat
  skippedCount : Nat
  indexedCount : Nat
  removedCount : Nat
  errorCount : Nat
  mtimeSkippedCount : Nat
  truncated : Bool

end OmniMemory
