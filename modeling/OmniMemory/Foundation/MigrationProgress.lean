import OmniMemory.Lib.Automaton
import OmniMemory.Lib.Binary64

/-! `MigrationProgressTracker`: the files of a migration with their statuses, and the counters and
rates of its metrics. -/

namespace OmniMemory

open Sequential Binary64

namespace Migration

inductive EnumFileProcessingStatus where
  | pending
  | processing
  | completed
  | failed
  | skipped
deriving DecidableEq

structure FileProcessingInfo where
  filePath : String
  fileSize : Option Int := none
  status : EnumFileProcessingStatus := .pending
  errorMessage : Option String := none
  retryCount : Int := 0

structure MigrationProgressMetrics where
  totalFiles : Int
  processedFiles : Int := 0
  failedFiles : Int := 0
  skippedFiles : Int := 0
  totalSizeBytes : Option Int := none
  processedSizeBytes : Int := 0
  cachedCompletionPercentage : Option ℚ := none
  cachedSuccessRate : Option ℚ := none
  /-- A time in microseconds. -/
  cacheInvalidatedAt : Option Int := none
  cacheTtlSeconds : Int := 60

namespace MigrationProgressMetrics

variable (self : MigrationProgressMetrics)

def isCacheValid (now : Int) : Bool :=
  match self.cacheInvalidatedAt with
  | none => false
  | some invalidatedAt => now - invalidatedAt < self.cacheTtlSeconds * 1000000

def invalidateCache (now : Int) : MigrationProgressMetrics :=
  { self with
    cachedCompletionPercentage := none
    cachedSuccessRate := none
    cacheInvalidatedAt := some now }

/-- `(part / whole) * 100`. -/
def percentage (part whole : Int) : ℚ :=
  if whole = 0 then 0 else nearest (nearest (part / whole) * 100)

/-- A rate that was cached, or is calculated now. -/
def cachedOr (cached : Option ℚ) (now : Int) (result : ℚ) : ℚ :=
  (if self.isCacheValid now then cached else none).getD result

def completionPercentage (now : Int) : ℚ × MigrationProgressMetrics :=
  let result := self.cachedOr self.cachedCompletionPercentage now
    (percentage self.processedFiles self.totalFiles)
  (result, { self with cachedCompletionPercentage := some result })

def successRate (now : Int) : ℚ × MigrationProgressMetrics :=
  let result := self.cachedOr self.cachedSuccessRate now
    (percentage (self.processedFiles - self.failedFiles) self.processedFiles)
  (result, { self with cachedSuccessRate := some result })

def remainingFiles : Int := self.totalFiles - self.processedFiles

end MigrationProgressMetrics

structure MigrationProgressTracker where
  metrics : MigrationProgressMetrics
  files : List FileProcessingInfo := []
  recoveryAttempts : Int := 0

/-- The files after a change of the first one with a path. -/
def updateFirst (filePath : String) (change : FileProcessingInfo → FileProcessingInfo) :
    List FileProcessingInfo → List FileProcessingInfo
  | [] => []
  | file :: rest =>
    if file.filePath = filePath then change file :: rest
    else file :: updateFirst filePath change rest

namespace MigrationProgressTracker

variable (self : MigrationProgressTracker)

/-- A tracker of no files. -/
def empty : MigrationProgressTracker where
  metrics := { totalFiles := 0 }

def findFile (filePath : String) : Option FileProcessingInfo :=
  self.files.find? (·.filePath = filePath)

def addFile (filePath : String) (fileSize : Option Int) : MigrationProgressTracker :=
  let files := self.files ++ [{ filePath := filePath, fileSize := fileSize }]
  { self with
    files := files
    metrics := { self.metrics with
      totalFiles := files.length
      totalSizeBytes := match fileSize with
        | none => self.metrics.totalSizeBytes
        | some size => some (self.metrics.totalSizeBytes.getD 0 + size) } }

def startFileProcessing (filePath : String) : Bool × MigrationProgressTracker :=
  match self.findFile filePath with
  | none => (false, self)
  | some _ =>
    (true, { self with
      files := updateFirst filePath (fun file => { file with status := .processing }) self.files })

def completeFileProcessing (filePath : String) (success : Bool) (errorMessage : Option String)
    (now : Int) : MigrationProgressTracker :=
  match self.findFile filePath with
  | none => self
  | some fileInfo =>
    if success then
      { self with
        files := updateFirst filePath (fun file => { file with status := .completed }) self.files
        metrics := { self.metrics with
          processedFiles := self.metrics.processedFiles + 1
          processedSizeBytes :=
            self.metrics.processedSizeBytes + fileInfo.fileSize.getD 0 }.invalidateCache now }
    else
      { self with
        files := updateFirst filePath
          (fun file => { file with status := .failed, errorMessage := errorMessage }) self.files
        metrics := { self.metrics with
          failedFiles := self.metrics.failedFiles + 1 }.invalidateCache now }

def skipFileProcessing (filePath reason : String) : MigrationProgressTracker :=
  match self.findFile filePath with
  | none => self
  | some _ =>
    { self with
      files := updateFirst filePath (fun file =>
        { file with status := .skipped, errorMessage := some s!"Skipped: {reason}" }) self.files
      metrics := { self.metrics with skippedFiles := self.metrics.skippedFiles + 1 } }

/-- A failed file that was not retried too often yet. -/
def retryable (maxRetries : Int) (file : FileProcessingInfo) : Bool :=
  file.status = .failed && file.retryCount < maxRetries

def retried (file : FileProcessingInfo) : FileProcessingInfo :=
  { file with retryCount := file.retryCount + 1, status := .pending }

def retryFailedFiles (maxRetries : Int) : List FileProcessingInfo × MigrationProgressTracker :=
  let retryableFiles := (self.files.filter (retryable maxRetries)).map retried
  (retryableFiles,
    { self with
      files := self.files.map fun file => if retryable maxRetries file then retried file else file
      recoveryAttempts := self.recoveryAttempts + if retryableFiles = [] then 0 else 1 })

end MigrationProgressTracker

/-- The operations, and the reads of the two rates, which cache what they calculate. -/
inductive Op where
  | addFile (filePath : String) (fileSize : Option Int)
  | startFileProcessing (filePath : String)
  | completeFileProcessing (filePath : String) (success : Bool) (errorMessage : Option String)
      (now : Int)
  | skipFileProcessing (filePath reason : String)
  | retryFailedFiles (maxRetries : Int)
  | completionPercentage (now : Int)
  | successRate (now : Int)

inductive Answer where
  | none
  | started (found : Bool)
  | retryable (files : List FileProcessingInfo)
  | rate (value : ℚ)

def step (t : MigrationProgressTracker) : Op → Answer × MigrationProgressTracker
  | .addFile filePath fileSize => (.none, t.addFile filePath fileSize)
  | .startFileProcessing filePath => (t.startFileProcessing filePath).map .started id
  | .completeFileProcessing filePath success errorMessage now =>
    (.none, t.completeFileProcessing filePath success errorMessage now)
  | .skipFileProcessing filePath reason => (.none, t.skipFileProcessing filePath reason)
  | .retryFailedFiles maxRetries => (t.retryFailedFiles maxRetries).map .retryable id
  | .completionPercentage now =>
    (t.metrics.completionPercentage now).map .rate fun metrics => { t with metrics := metrics }
  | .successRate now =>
    (t.metrics.successRate now).map .rate fun metrics => { t with metrics := metrics }

def tracker : Automaton Op Answer MigrationProgressTracker where
  step := step

end Migration

end OmniMemory
