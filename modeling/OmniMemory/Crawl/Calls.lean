import OmniMemory.Lib.Pool
import OmniMemory.Crawl.State

/-! The calls that `HandlerFilesystemCrawler` makes, and what the surroundings do with them: the
file tree, the crawl state repository, whose methods are transactions of their own, and the publish
callback. -/

namespace OmniMemory

open Interleave

namespace Crawl

/-- What is found at a resolved path: a regular file, or a directory or another node whose content
cannot be read. -/
inductive Node where
  | file (content : Bytes) (mtime : Mtime) (readable : Bool)
  | other (size : Nat) (mtime : Mtime)

namespace Node

def size : Node → Nat
  | file content _ _ => content.length
  | other size _ => size

def mtime : Node → Mtime
  | file _ mtime _ => mtime
  | other _ mtime => mtime

def content? : Node → Option Bytes
  | file content _ true => some content
  | _ => none

theorem eq_of_content? {node : Node} {content : Bytes} (read : node.content? = some content) :
    node = file content node.mtime true := by
  rcases node with ⟨content', mtime, _ | _⟩ | _
  · cases read
  · cases read
    rfl
  · cases read

end Node

/-- A file tree: where paths resolve to, what is found there, and the paths that `rglob` yields for
a path and a pattern. -/
structure Tree where
  resolve : PurePath → PurePath
  node : PurePath → Option Node
  listing : PurePath → String → List PurePath

/-- What the system finds for a path, following links. -/
def Tree.find (tree : Tree) (path : PurePath) : Option Node := tree.node (tree.resolve path)

/-- `os.stat_result`, as far as it is read. -/
structure Stat where
  size : Nat
  mtime : Mtime

inductive Op where
  | exists (path : PurePath)
  | resolve (path : PurePath)
  | rglob (path : PurePath) (glob : String)
  | stat (path : PurePath)
  | readBytes (path : PurePath)
  | getState (key : CrawlStateKey)
  | upsertState (record : ModelCrawlStateRecord)
  | listStates (crawlerType : EnumCrawlerType) (scopeRef : String)
  | deleteState (key : CrawlStateKey)
  | publish (topic : String) (event : CrawlEvent)

/-- `rglob` answers with the paths that it yielded and the exception that ended it, if any. -/
@[reducible] def Res : Op → Type
  | .exists _ => Except PyError Bool
  | .resolve _ => Except PyError PurePath
  | .rglob .. => List PurePath × Option PyError
  | .stat _ => Except PyError Stat
  | .readBytes _ => Except PyError Bytes
  | .getState _ => Except PyError (Option ModelCrawlStateRecord)
  | .listStates .. => Except PyError (List ModelCrawlStateRecord)
  | .upsertState _ | .deleteState _ | .publish .. => Except PyError Unit

end Crawl

abbrev CrawlProg := Prog Crawl.Op Crawl.Res

namespace Crawl

/-! The calls as programs. -/

abbrev pathExists (path : PurePath) : CrawlProg (Except PyError Bool) := .perform (Op.exists path)

abbrev resolve (path : PurePath) : CrawlProg (Except PyError PurePath) :=
  .perform (Op.resolve path)

abbrev rglob (path : PurePath) (glob : String) : CrawlProg (List PurePath × Option PyError) :=
  .perform (Op.rglob path glob)

abbrev stat (path : PurePath) : CrawlProg (Except PyError Stat) := .perform (Op.stat path)

abbrev readBytes (path : PurePath) : CrawlProg (Except PyError Bytes) :=
  .perform (Op.readBytes path)

abbrev getState (key : CrawlStateKey) :
    CrawlProg (Except PyError (Option ModelCrawlStateRecord)) := .perform (Op.getState key)

abbrev upsertState (record : ModelCrawlStateRecord) : CrawlProg (Except PyError Unit) :=
  .perform (Op.upsertState record)

abbrev listStates (crawlerType : EnumCrawlerType) (scopeRef : String) :
    CrawlProg (Except PyError (List ModelCrawlStateRecord)) :=
  .perform (Op.listStates crawlerType scopeRef)

abbrev deleteState (key : CrawlStateKey) : CrawlProg (Except PyError Unit) :=
  .perform (Op.deleteState key)

abbrev publish (topic : String) (event : CrawlEvent) : CrawlProg (Except PyError Unit) :=
  .perform (Op.publish topic event)

/-- A call of the publish callback: its arguments and what it raised. -/
structure Publication where
  topic : String
  event : CrawlEvent
  raised : Option PyError

/-- What the crawls share. `past` are the trees that there were before; the system does not keep
them. -/
structure State where
  tree : Tree
  past : List Tree
  records : CrawlStateTable
  publications : List Publication

def State.publishing (s : State) (topic : String) (event : CrawlEvent) (raised : Option PyError) :
    State :=
  { s with publications := s.publications ++ [⟨topic, event, raised⟩] }

/-- A call on which nothing fails. -/
def answer : (op : Op) → State → Res op × State
  | .exists path, s => (.ok (s.tree.find path).isSome, s)
  | .resolve path, s => (.ok (s.tree.resolve path), s)
  | .rglob path glob, s => ((s.tree.listing path glob, none), s)
  | .stat path, s =>
    match s.tree.find path with
    | some node => (.ok ⟨node.size, node.mtime⟩, s)
    | none => (.error (.osError "No such file or directory"), s)
  | .readBytes path, s =>
    match (s.tree.find path).bind Node.content? with
    | some content => (.ok content, s)
    | none => (.error (.osError "No such file, not a regular file, or no permission"), s)
  | .getState key, s => (.ok (s.records.find? key), s)
  | .upsertState record, s => (.ok (), { s with records := s.records.put record })
  | .listStates crawlerType scopeRef, s =>
    (.ok (s.records.filter fun record =>
      record.crawlerType == crawlerType && record.scopeRef == scopeRef).rows, s)
  | .deleteState key, s => (.ok (), { s with records := s.records.erase key })
  | .publish topic event, s => (.ok (), s.publishing topic event none)

/-- How the surroundings treat a call: nothing fails, `rglob` yields some of the paths only, with an
exception at the end or without one, or the call fails without effect or after it. -/
inductive Choice where
  | run
  | cut (listed : List PurePath) (raised : Option PyError)
  | fail (e : PyError)
  | lost (e : PyError)

def exec : (op : Op) → Choice → State → Option (Res op × State)
  | op, .run, s => some (answer op s)
  | .rglob path glob, .cut listed raised, s =>
    if ∀ path' ∈ listed, path' ∈ s.tree.listing path glob then some ((listed, raised), s) else none
  | .exists _, .fail e, s => some (.error e, s)
  | .resolve _, .fail e, s => some (.error e, s)
  | .stat _, .fail e, s => some (.error e, s)
  | .readBytes _, .fail e, s => some (.error e, s)
  | .getState _, .fail e, s => some (.error e, s)
  | .upsertState _, .fail e, s => some (.error e, s)
  | .upsertState record, .lost e, s => some (.error e, (answer (.upsertState record) s).2)
  | .listStates .., .fail e, s => some (.error e, s)
  | .deleteState _, .fail e, s => some (.error e, s)
  | .deleteState key, .lost e, s => some (.error e, (answer (.deleteState key) s).2)
  | .publish topic event, .fail e, s => some (.error e, s.publishing topic event (some e))
  | _, _, _ => none

/-- The file tree changes in any way. -/
def move (tree : Tree) (s : State) : Option State :=
  some { s with tree, past := s.past ++ [s.tree] }

end Crawl

end OmniMemory
