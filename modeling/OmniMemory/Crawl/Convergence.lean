import OmniMemory.Crawl.MtimeSound

/-! One crawl without faults, alone. The walk brings the records of the documents it finds up to
date, and the removal pass deletes the records of the affected scopes that were not walked. What it
does not cover stays: records of walked paths in other scopes or without readable content, and
records in scopes that are not affected. -/

namespace OmniMemory

open Interleave

namespace Crawl

open HandlerFilesystemCrawler (Walk)

def State.fingerprint? (s : State) (path : PurePath) (scopeRef : String) : Option Digest :=
  (s.records.find? ⟨path, .filesystem, scopeRef⟩).map (·.contentFingerprint)

section Spec

variable (self : HandlerFilesystemCrawler) (tree : Tree)

/-- `path` is found under one of the prefixes. -/
def Walked (path : PurePath) : Prop :=
  ∃ prefixPath ∈ self.prefixPaths, ∃ node, Found self tree prefixPath path node

/-- `path` is a crawlable document of the scope with this content. -/
def Document (path : PurePath) (scopeRef : String) (content : Bytes) : Prop :=
  (∃ prefixPath ∈ self.prefixPaths, IsDocument self tree prefixPath path content) ∧
    scopeRef = self.scopeOf path

/-- The scopes whose records the removal pass lists: those of the paths found, and the default one
if a prefix has it; or those of the prefixes if no path is found. -/
def Affected (scopeRef : String) : Prop :=
  ((∃ path, Walked self tree path) ∧ ((∃ path, Walked self tree path ∧ self.scopeOf path = scopeRef) ∨
      scopeRef = defaultScopeRef ∧ ∃ p ∈ self.prefixPaths, self.scopeOf p = defaultScopeRef)) ∨
    (¬ ∃ path, Walked self tree path) ∧ ∃ p ∈ self.prefixPaths, self.scopeOf p = scopeRef

/-- A record that the crawl neither brings up to date nor removes. -/
def Uncovered (path : PurePath) (scopeRef : String) : Prop :=
  (Walked self tree path ∧ ¬ ∃ content, Document self tree path scopeRef content) ∨
    ¬ Walked self tree path ∧ ¬ Affected self tree scopeRef

end Spec

/-- Since `s₀` a removed event was published for a record. -/
def RemovedSince (s₀ s : State) (path : PurePath) (scopeRef : String) (fingerprint : Digest) :
    Prop :=
  ∃ publication ∈ s.publications.drop s₀.publications.length, publication.raised = none ∧
    ∃ event, publication.event = .removed event ∧ event.sourceRef = path ∧
      event.scopeRef = scopeRef ∧ event.lastKnownContentFingerprint = fingerprint

/-- What a crawl from `s` to `s'` achieves. -/
structure Converged (crawler : HandlerFilesystemCrawler) (s s' : State) : Prop where
  /-- The records under the prefixes are those of the documents, and the uncovered ones. -/
  records : ∀ path scopeRef fingerprint, Under crawler s.tree path →
    (s'.fingerprint? path scopeRef = some fingerprint ↔
      (∃ content, Document crawler s.tree path scopeRef content ∧ fingerprint = sha256 content) ∨
        Uncovered crawler s.tree path scopeRef ∧ s.fingerprint? path scopeRef = some fingerprint)
  /-- For every other record a removed event was published. -/
  removed : ∀ path scopeRef fingerprint, Under crawler s.tree path →
    s.fingerprint? path scopeRef = some fingerprint →
    (¬ ∃ content, Document crawler s.tree path scopeRef content) →
    ¬ Uncovered crawler s.tree path scopeRef →
    RemovedSince s s' path scopeRef fingerprint

/-! ### One file -/

section Run

variable {X : External} {self : HandlerFilesystemCrawler} {s : State}

/-- From `s` to `s'` the record is stored; events may be published. -/
structure Puts (s s' : State) (record : ModelCrawlStateRecord) : Prop where
  tree : s'.tree = s.tree
  records : s'.records = s.records.put record
  publications : s.publications <+: s'.publications

/-- The variables that decide on removals are the same. -/
structure SameWalk (w w' : Walk) : Prop where
  walkedPaths : w'.walkedPaths = w.walkedPaths
  scopeRefsSeen : w'.scopeRefsSeen = w.scopeRefsSeen
  truncated : w'.truncated = w.truncated

theorem storeRecord_run (record : ModelCrawlStateRecord) :
    (HandlerFilesystemCrawler.storeRecord record).Ensures answer s fun out s' =>
      out = .ok () → Puts s s' record := by
  unfold HandlerFilesystemCrawler.storeRecord
  split
  · exact nofun
  · exact fun _ => ⟨rfl, rfl, List.prefix_rfl⟩

theorem publishEvent_run (topic : String) (event : CrawlEvent) :
    (HandlerFilesystemCrawler.publishEvent topic event).Ensures answer s fun out s' =>
      out = .ok () → s' = s.publishing topic event none := by
  unfold HandlerFilesystemCrawler.publishEvent
  split
  · exact nofun
  · exact fun _ => rfl

theorem indexAndStore_run (path : PurePath) (content : Bytes) (mtime : Mtime) (w : Walk) :
    (self.indexAndStore X path content mtime w).Ensures answer s fun out s' =>
      ∀ w', out = .ok w' → SameWalk w w' ∧ Puts s s' (self.newRecord path content mtime) := by
  unfold HandlerFilesystemCrawler.indexAndStore
  refine (publishEvent_run _ _).seq fun out s₁ sent => ?_
  rcases out with e | _
  · exact nofun
  obtain rfl := sent rfl
  refine (storeRecord_run _).seq fun out s₂ stored => ?_
  rcases out with e | _
  · exact nofun
  obtain ⟨tree, records, publications⟩ := stored rfl
  rintro w' ⟨⟩
  exact ⟨⟨rfl, rfl, rfl⟩, tree, records, (List.prefix_append _ _).trans publications⟩

/-- A record for the content of a file, as it is stored. -/
structure RecordOf (crawler : HandlerFilesystemCrawler) (path : PurePath) (mtime : Mtime)
    (fingerprint : Digest) (record : ModelCrawlStateRecord) : Prop where
  key : record.key = ⟨path, .filesystem, crawler.scopeOf path⟩
  mtime : record.lastKnownMtime = some mtime
  fingerprint : record.contentFingerprint = fingerprint

theorem announceContent_run {path : PurePath} {mtime : Mtime} {content : Bytes} (topic : String)
    (event : CrawlEvent) (w w₁ : Walk) (same : SameWalk w w₁) :
    (announceContent X self path mtime content topic event w₁).Ensures answer s fun out s' =>
      ∀ w', out = .ok w' → SameWalk w w' ∧
        ∃ record, Puts s s' record ∧ RecordOf self path mtime (sha256 content) record := by
  refine (publishEvent_run topic event).seq fun out s₁ sent => ?_
  rcases out with e | _
  · rintro _ ⟨⟩
  obtain rfl := sent rfl
  refine (indexAndStore_run path content mtime w₁).imp fun out s₂ stored w' here => ?_
  obtain ⟨same', tree, records, publications⟩ := stored w' here
  exact ⟨⟨same'.1.trans same.1, same'.2.trans same.2, same'.3.trans same.3⟩, _,
    ⟨tree, records, (List.prefix_append _ _).trans publications⟩, rfl, rfl, rfl⟩

theorem compareContent_run (path : PurePath) (prior : Option ModelCrawlStateRecord)
    (mtime : Mtime) (content : Bytes) (w : Walk) :
    (self.compareContent X path prior mtime content w).Ensures answer s fun out s' =>
      ∀ w', out = .ok w' → SameWalk w w' ∧
        ∃ record, Puts s s' record ∧ RecordOf self path mtime (sha256 content) record := by
  unfold HandlerFilesystemCrawler.compareContent
  rcases prior with _ | prior
  · exact announceContent_run _ _ w _ ⟨rfl, rfl, rfl⟩
  dsimp only
  split
  · rename_i same
    refine (storeRecord_run _).seq fun out s' stored => ?_
    rcases out with e | _
    · rintro _ ⟨⟩
    rintro w' ⟨⟩
    exact ⟨⟨rfl, rfl, rfl⟩, _, stored rfl, rfl, rfl, same⟩
  · exact announceContent_run _ _ w _ ⟨rfl, rfl, rfl⟩

/-- What comes of a file that counts as walked: its record is stored, with the fingerprint of its
content if it has any, or nothing changes, since it cannot be read. -/
inductive Updated (self : HandlerFilesystemCrawler) (path : PurePath) (node : Node) (s s' : State) :
    Prop where
  | stored (record : ModelCrawlStateRecord) (fingerprint : Digest) (puts : Puts s s' record)
      (of : RecordOf self path node.mtime fingerprint record)
      (right : ∀ content mtime readable, node = .file content mtime readable →
        fingerprint = sha256 content)
      (same : node.content? = none → s.fingerprint? path (self.scopeOf path) = some fingerprint)
  | unreadable (same : s' = s) (none : node.content? = none)

theorem crawlWalked_run {mdPath path : PurePath} {node : Node} (w : Walk)
    (found : s.tree.find mdPath = some node) (there : s.tree.node path = some node)
    (sound : MtimeSound s) :
    (self.crawlWalked X mdPath path node.mtime w).Ensures answer s fun out s' =>
      ∀ w', out = .ok w' → w'.walkedPaths = w.walkedPaths.insert path ∧
        w'.scopeRefsSeen = w.scopeRefsSeen.insert (self.scopeOf path) ∧
        w'.truncated = w.truncated ∧ Updated self path node s s' := by
  unfold HandlerFilesystemCrawler.crawlWalked
  refine Prog.ensures_op.mpr ?_
  dsimp only [answer]
  split
  · -- The time is that of the record, so the record has the fingerprint of the content.
    rename_i prior hit
    obtain ⟨got, mtime⟩ := Option.filter_eq_some_iff.mp hit
    rw [beq_iff_eq] at mtime
    obtain ⟨mem, key⟩ := Table.find?_eq_some.mp got
    have ref : prior.sourceRef = path := congrArg CrawlStateKey.sourceRef key
    refine (storeRecord_run _).seq fun out s' stored => ?_
    rcases out with e | _
    · exact nofun
    rintro w' ⟨⟩
    refine ⟨rfl, rfl, rfl, .stored _ prior.contentFingerprint (stored rfl) ⟨rfl, rfl, rfl⟩ ?_ ?_⟩
    · rintro content mtime' readable rfl
      exact sound prior mem content mtime' readable mtime (ref ▸ there)
    · intro _
      rw [State.fingerprint?, got]
      rfl
  · refine Prog.ensures_op.mpr ?_
    dsimp only [answer]
    rw [found, Option.bind_some]
    cases read : node.content? with
    | none =>
      rintro w' ⟨⟩
      exact ⟨rfl, rfl, rfl, .unreadable rfl read⟩
    | some content =>
      refine (compareContent_run _ _ _ _ _).imp fun out s' compared w' here => ?_
      obtain ⟨same, record, puts, of⟩ := compared w' here
      refine ⟨same.1, same.2, same.3, .stored record _ puts of ?_ (by simp [read])⟩
      rintro content' mtime readable rfl
      cases Node.eq_of_content? read
      rfl

/-! ### The walk -/

/-- The stored fingerprints of a crawl that started at `s₀`, when it has walked `walkedPaths`. -/
def expected (self : HandlerFilesystemCrawler) (s₀ : State) (walkedPaths : List PurePath)
    (path : PurePath) (scopeRef : String) : Option Digest :=
  if path ∈ walkedPaths ∧ scopeRef = self.scopeOf path then
    match (s₀.tree.node path).bind Node.content? with
    | some content => some (sha256 content)
    | none => s₀.fingerprint? path scopeRef
  else
    s₀.fingerprint? path scopeRef

/-- Where a crawl that started at `s₀` is. -/
structure Progress (crawler : HandlerFilesystemCrawler) (s₀ : State) (w : Walk) (s : State) :
    Prop where
  tree : s.tree = s₀.tree
  sound : MtimeSound s
  walked : ∀ path ∈ w.walkedPaths, Walked crawler s₀.tree path
  scopes : ∀ scopeRef, scopeRef ∈ w.scopeRefsSeen ↔
    ∃ path ∈ w.walkedPaths, crawler.scopeOf path = scopeRef
  publications : s₀.publications <+: s.publications
  records : ∀ path scopeRef,
    s.fingerprint? path scopeRef = expected crawler s₀ w.walkedPaths path scopeRef

theorem expected_insert (s₀ : State) (walkedPaths : List PurePath) (path path' : PurePath)
    (scopeRef : String) : expected self s₀ (walkedPaths.insert path) path' scopeRef =
      if path' = path ∧ scopeRef = self.scopeOf path then
        match (s₀.tree.node path).bind Node.content? with
        | some content => some (sha256 content)
        | none => s₀.fingerprint? path scopeRef
      else expected self s₀ walkedPaths path' scopeRef := by
  unfold expected
  by_cases same : path' = path
  · subst same
    by_cases scope : scopeRef = self.scopeOf path' <;> simp [scope]
  · simp [same]

theorem expected_unread {s₀ : State} {walkedPaths : List PurePath} {path : PurePath}
    (unread : (s₀.tree.node path).bind Node.content? = none) (scopeRef : String) :
    expected self s₀ walkedPaths path scopeRef = s₀.fingerprint? path scopeRef := by
  unfold expected
  rw [unread]
  exact ite_self _

theorem Puts.fingerprint? {s s' : State} {record : ModelCrawlStateRecord} {path : PurePath}
    {mtime : Mtime} {fingerprint : Digest} (puts : Puts s s' record)
    (of : RecordOf self path mtime fingerprint record) (path' : PurePath) (scopeRef : String) :
    s'.fingerprint? path' scopeRef =
      if path' = path ∧ scopeRef = self.scopeOf path then some fingerprint
      else s.fingerprint? path' scopeRef := by
  rw [State.fingerprint?, puts.records, Table.find?_put, of.key]
  by_cases same : path' = path ∧ scopeRef = self.scopeOf path
  · obtain ⟨rfl, rfl⟩ := same
    simp [of.fingerprint]
  · rw [if_neg same, if_neg]
    · rfl
    · rintro ⟨⟩
      exact same ⟨rfl, rfl⟩

theorem Puts.mtimeSound {s s' : State} {record : ModelCrawlStateRecord} {path : PurePath}
    {node : Node} {fingerprint : Digest} (puts : Puts s s' record)
    (of : RecordOf self path node.mtime fingerprint record) (there : s.tree.node path = some node)
    (right : ∀ content mtime readable, node = .file content mtime readable →
      fingerprint = sha256 content) (sound : MtimeSound s) : MtimeSound s' := by
  intro record' mem content mtime readable known here
  rw [puts.tree] at here
  rw [puts.records, Table.mem_put] at mem
  rcases mem with rfl | ⟨mem, -⟩
  · have ref : record'.sourceRef = path := congrArg CrawlStateKey.sourceRef of.key
    rw [ref, there] at here
    rw [of.fingerprint]
    exact right _ _ _ (Option.some.inj here)
  · exact sound record' mem content mtime readable known here

theorem Progress.walk {s₀ s s' : State} {w w' : Walk} {path : PurePath} {node : Node}
    (progress : Progress self s₀ w s) (found : Walked self s₀.tree path)
    (there : s₀.tree.node path = some node)
    (walkedPaths : w'.walkedPaths = w.walkedPaths.insert path)
    (scopeRefsSeen : w'.scopeRefsSeen = w.scopeRefsSeen.insert (self.scopeOf path))
    (updated : Updated self path node s s') : Progress self s₀ w' s' := by
  have walked : ∀ path' ∈ w'.walkedPaths, Walked self s₀.tree path' := by
    intro path' mem
    rw [walkedPaths, List.mem_insert_iff] at mem
    rcases mem with rfl | mem
    · exact found
    · exact progress.walked path' mem
  have scopes : ∀ scopeRef, scopeRef ∈ w'.scopeRefsSeen ↔ ∃ path' ∈ w'.walkedPaths,
      self.scopeOf path' = scopeRef := by
    intro scopeRef
    rw [scopeRefsSeen, walkedPaths, List.mem_insert_iff, progress.scopes]
    simp only [List.mem_insert_iff, exists_eq_or_imp]
    exact or_congr_left eq_comm
  rcases updated with ⟨record, fingerprint, puts, of, right, same⟩ | ⟨rfl, unread⟩
  · refine ⟨puts.tree.trans progress.tree, ?_, walked, scopes,
      progress.publications.trans puts.publications, fun path' scopeRef => ?_⟩
    · exact puts.mtimeSound of (progress.tree ▸ there) right progress.sound
    · rw [walkedPaths, expected_insert, puts.fingerprint? of, progress.records, there,
        Option.bind_some]
      split
      · rename_i here
        obtain ⟨rfl, rfl⟩ := here
        cases read : node.content? with
        | none =>
          rw [← same read, progress.records, expected_unread]
          rw [there, Option.bind_some, read]
        | some content =>
          rw [right content node.mtime true (Node.eq_of_content? read)]
      · rfl
  · refine ⟨progress.tree, progress.sound, walked, scopes, progress.publications,
      fun path' scopeRef => ?_⟩
    rw [walkedPaths, expected_insert, progress.records, there, Option.bind_some, unread]
    split
    · rename_i here
      obtain ⟨rfl, rfl⟩ := here
      exact expected_unread (by rw [there, Option.bind_some, unread]) _
    · rfl

theorem Progress.of_eq {s₀ : State} {w w' : Walk} (progress : Progress self s₀ w s)
    (walkedPaths : w'.walkedPaths = w.walkedPaths)
    (scopeRefsSeen : w'.scopeRefsSeen = w.scopeRefsSeen) : Progress self s₀ w' s := by
  refine ⟨progress.tree, progress.sound, ?_, ?_, progress.publications, ?_⟩
  · rw [walkedPaths]
    exact progress.walked
  · rw [walkedPaths, scopeRefsSeen]
    exact progress.scopes
  · rw [walkedPaths]
    exact progress.records

variable {s₀ : State} {prefixPath : PurePath}

theorem crawlFile_run {mdPath : PurePath} (w : Walk) (own : prefixPath ∈ self.prefixPaths)
    (present : (s₀.tree.find prefixPath).isSome)
    (listed : mdPath ∈ s₀.tree.listing prefixPath self.config.fileGlob)
    (progress : Progress self s₀ w s) :
    (self.crawlFile X (s₀.tree.resolve prefixPath) mdPath w).Ensures answer s fun out s' =>
      ∀ w', out = .ok w' → w'.truncated = w.truncated ∧ w.walkedPaths ⊆ w'.walkedPaths ∧
        Progress self s₀ w' s' ∧ ∀ node, Found self s₀.tree prefixPath (s₀.tree.resolve mdPath) node →
          s₀.tree.resolve mdPath ∈ w'.walkedPaths := by
  unfold HandlerFilesystemCrawler.crawlFile
  refine Prog.ensures_op.mpr ?_
  dsimp only [answer]
  rw [progress.tree]
  split
  · rename_i outside
    rintro w' ⟨⟩
    refine ⟨rfl, List.Subset.refl _, progress.of_eq rfl rfl, fun node found => ?_⟩
    simp [found.inside] at outside
  rename_i inside
  refine Prog.ensures_op.mpr ?_
  dsimp only [answer]
  rw [progress.tree]
  cases found : s₀.tree.find mdPath with
  | none =>
    rintro w' ⟨⟩
    refine ⟨rfl, List.Subset.refl _, progress.of_eq rfl rfl, fun node there => ?_⟩
    cases found.symm.trans there.there
  | some node =>
    dsimp only
    split
    · rename_i large
      rintro w' ⟨⟩
      refine ⟨rfl, List.Subset.refl _, progress.of_eq rfl rfl, fun node' there => ?_⟩
      cases found.symm.trans there.there
      exact absurd there.small (Nat.not_le.mpr large)
    · rename_i small
      have there : Found self s₀.tree prefixPath (s₀.tree.resolve mdPath) node :=
        ⟨present, ⟨mdPath, listed, rfl⟩, by simpa using inside, found, Nat.le_of_not_lt small⟩
      refine (crawlWalked_run _ (progress.tree ▸ found) (progress.tree ▸ found) progress.sound).imp
        fun out s' walked w' here => ?_
      obtain ⟨walkedPaths, scopeRefsSeen, truncated, updated⟩ := walked w' here
      refine ⟨truncated, ?_, progress.walk ⟨prefixPath, own, node, there⟩ found walkedPaths
        scopeRefsSeen updated, fun _ _ => ?_⟩
      · rw [walkedPaths]
        exact fun _ mem => List.mem_insert_of_mem mem
      · rw [walkedPaths]
        exact List.mem_insert_self

theorem crawlFiles_run {results : List PurePath} (w : Walk) (own : prefixPath ∈ self.prefixPaths)
    (present : (s₀.tree.find prefixPath).isSome)
    (listed : results ⊆ s₀.tree.listing prefixPath self.config.fileGlob)
    (progress : Progress self s₀ w s) :
    (self.crawlFiles X (s₀.tree.resolve prefixPath) results w).Ensures answer s fun out s' =>
      ∀ w', out = .ok w' → w.walkedPaths ⊆ w'.walkedPaths ∧ Progress self s₀ w' s' ∧
        (w'.truncated = false → ∀ mdPath ∈ results, ∀ node,
          Found self s₀.tree prefixPath (s₀.tree.resolve mdPath) node →
            s₀.tree.resolve mdPath ∈ w'.walkedPaths) := by
  induction results generalizing s w with
  | nil =>
    rintro w' ⟨⟩
    exact ⟨List.Subset.refl _, progress, by simp⟩
  | cons mdPath rest ih =>
    unfold HandlerFilesystemCrawler.crawlFiles
    split
    · rintro w' ⟨⟩
      exact ⟨List.Subset.refl _, progress.of_eq rfl rfl, by simp⟩
    refine (crawlFile_run w own present (listed List.mem_cons_self) progress).seq
      fun out s₁ first => ?_
    rcases out with e | w₁
    · rintro _ ⟨⟩
    obtain ⟨-, walked, progress₁, found⟩ := first w₁ rfl
    refine (ih w₁ (List.Subset.trans (List.subset_cons_self _ _) listed) progress₁).imp
      fun out s₂ others w₂ here => ?_
    obtain ⟨walked', progress₂, found'⟩ := others w₂ here
    refine ⟨fun _ mem => walked' (walked mem), progress₂, fun complete => ?_⟩
    rintro mdPath' (_ | ⟨_, mem⟩) node there
    · exact walked' (found node there)
    · exact found' complete mdPath' mem node there

theorem crawlPrefixes_run {prefixPaths : List PurePath} (w : Walk)
    (own : prefixPaths ⊆ self.prefixPaths) (progress : Progress self s₀ w s) :
    (self.crawlPrefixes X prefixPaths w).Ensures answer s fun out s' =>
      ∀ w', out = .ok w' → w.walkedPaths ⊆ w'.walkedPaths ∧ Progress self s₀ w' s' ∧
        (w'.truncated = false → ∀ prefixPath ∈ prefixPaths, ∀ path node,
          Found self s₀.tree prefixPath path node → path ∈ w'.walkedPaths) := by
  induction prefixPaths generalizing s w with
  | nil =>
    rintro w' ⟨⟩
    exact ⟨List.Subset.refl _, progress, by simp⟩
  | cons prefixPath rest ih =>
    obtain ⟨mine, others⟩ := List.cons_subset.mp own
    -- The other prefixes, once what is found under this one is walked.
    have go {w₁ : Walk} {s₁ : State} (walked : w.walkedPaths ⊆ w₁.walkedPaths)
        (progress₁ : Progress self s₀ w₁ s₁) (found : ∀ path node,
          Found self s₀.tree prefixPath path node → path ∈ w₁.walkedPaths) :
        (self.crawlPrefixes X rest w₁).Ensures answer s₁ fun out s' =>
          ∀ w', out = .ok w' → w.walkedPaths ⊆ w'.walkedPaths ∧ Progress self s₀ w' s' ∧
            (w'.truncated = false → ∀ prefixPath' ∈ prefixPath :: rest, ∀ path node,
              Found self s₀.tree prefixPath' path node → path ∈ w'.walkedPaths) := by
      refine (ih w₁ others progress₁).imp fun out s₂ rest w₂ here => ?_
      obtain ⟨walked', progress₂, found'⟩ := rest w₂ here
      refine ⟨fun _ mem => walked' (walked mem), progress₂, fun complete => ?_⟩
      rintro prefixPath' (_ | ⟨_, mem⟩) path node there
      · exact walked' (found path node there)
      · exact found' complete prefixPath' mem path node there
    unfold HandlerFilesystemCrawler.crawlPrefixes
    refine Prog.ensures_op.mpr ?_
    dsimp only [answer]
    rw [progress.tree]
    cases present : (s₀.tree.find prefixPath).isSome with
    | false =>
      refine go (List.Subset.refl _) progress fun path node found => ?_
      rw [found.present] at present
      contradiction
    | true =>
      refine Prog.ensures_op.mpr (Prog.ensures_op.mpr ?_)
      dsimp only [answer, Option.filter_none]
      rw [progress.tree]
      refine (crawlFiles_run w mine present (List.Subset.refl _) progress).seq
        fun out s₁ first => ?_
      rcases out with e | w₁
      · rintro _ ⟨⟩
      obtain ⟨walked, progress₁, found⟩ := first w₁ rfl
      dsimp only
      split
      · rename_i truncated
        rintro w' ⟨⟩
        exact ⟨walked, progress₁, fun complete => absurd truncated (by simp [complete])⟩
      · rename_i complete
        refine go walked progress₁ fun path node there => ?_
        obtain ⟨mdPath, mem, rfl⟩ := there.listed
        exact found (by simpa using complete) mdPath mem node there

/-! ### The removal pass -/

/-- Where the removal pass that started at `s₁` is, when it has deleted the records in `deleted`. -/
structure Removing (s₀ s₁ : State) (deleted : PurePath → String → Prop) (s : State) : Prop where
  publications : s₀.publications <+: s.publications
  gone : ∀ path scopeRef, deleted path scopeRef → s.fingerprint? path scopeRef = none
  kept : ∀ path scopeRef, ¬ deleted path scopeRef →
    s.fingerprint? path scopeRef = s₁.fingerprint? path scopeRef
  sent : ∀ path scopeRef fingerprint, deleted path scopeRef →
    s₁.fingerprint? path scopeRef = some fingerprint → RemovedSince s₀ s path scopeRef fingerprint

theorem fingerprint?_of_mem {record : ModelCrawlStateRecord} (mem : record ∈ s.records)
    (filesystem : record.crawlerType = .filesystem) :
    s.fingerprint? record.sourceRef record.scopeRef = some record.contentFingerprint := by
  have found : s.records.find? ⟨record.sourceRef, .filesystem, record.scopeRef⟩ = some record :=
    Table.find?_eq_some.mpr ⟨mem, by rw [ModelCrawlStateRecord.key, filesystem]⟩
  rw [State.fingerprint?, found, Option.map_some]

theorem RemovedSince.mono {s s' : State} {path : PurePath} {scopeRef : String}
    {fingerprint : Digest} (sent : RemovedSince s₀ s path scopeRef fingerprint)
    (later : s.publications <+: s'.publications) :
    RemovedSince s₀ s' path scopeRef fingerprint := by
  obtain ⟨publication, mem, facts⟩ := sent
  exact ⟨publication, (later.drop _).subset mem, facts⟩

theorem Removing.extend {s₁ : State} {deleted deleted' : PurePath → String → Prop}
    (removing : Removing s₀ s₁ deleted s)
    (more : ∀ path scopeRef, deleted path scopeRef → deleted' path scopeRef)
    (absent : ∀ path scopeRef, deleted' path scopeRef → ¬ deleted path scopeRef →
      s₁.fingerprint? path scopeRef = none) : Removing s₀ s₁ deleted' s := by
  refine ⟨removing.publications, fun path scopeRef here => ?_, fun path scopeRef not => ?_,
    fun path scopeRef fingerprint here stored => ?_⟩
  · by_cases old : deleted path scopeRef
    · exact removing.gone path scopeRef old
    · rw [removing.kept path scopeRef old, absent path scopeRef here old]
  · exact removing.kept path scopeRef fun old => not (more path scopeRef old)
  · by_cases old : deleted path scopeRef
    · exact removing.sent path scopeRef fingerprint old stored
    · rw [absent path scopeRef here old] at stored
      contradiction

def State.remove (s : State) (topic : String) (event : ModelDocumentRemovedEvent)
    (path : PurePath) (scopeRef : String) : State :=
  { s.publishing topic (.removed event) none with
    records := s.records.erase ⟨path, .filesystem, scopeRef⟩ }

theorem Removing.remove (X : External) (self : HandlerFilesystemCrawler) {s₁ : State}
    {deleted : PurePath → String → Prop} (removing : Removing s₀ s₁ deleted s) (topic : String)
    {record : ModelCrawlStateRecord} {scopeRef : String}
    (stored : s₁.fingerprint? record.sourceRef scopeRef = some record.contentFingerprint) :
    Removing s₀ s₁ (fun path scopeRef' =>
        deleted path scopeRef' ∨ path = record.sourceRef ∧ scopeRef' = scopeRef)
      (s.remove topic (self.removedEvent X record scopeRef) record.sourceRef scopeRef) := by
  have fingerprint (path : PurePath) (scopeRef' : String) :
      (s.remove topic (self.removedEvent X record scopeRef) record.sourceRef scopeRef).fingerprint?
        path scopeRef' = if path = record.sourceRef ∧ scopeRef' = scopeRef then none
          else s.fingerprint? path scopeRef' := by
    rw [State.fingerprint?, State.remove, Table.find?_erase]
    by_cases same : path = record.sourceRef ∧ scopeRef' = scopeRef
    · obtain ⟨rfl, rfl⟩ := same
      simp
    · rw [if_neg same, if_neg]
      · rfl
      · rintro ⟨⟩
        exact same ⟨rfl, rfl⟩
  have later : s.publications <+: (s.remove topic (self.removedEvent X record scopeRef)
      record.sourceRef scopeRef).publications := List.prefix_append _ _
  refine ⟨removing.publications.trans later, ?_, ?_, ?_⟩
  · intro path scopeRef' here
    rw [fingerprint]
    split
    · rfl
    · rename_i other
      exact removing.gone path scopeRef' (here.resolve_right other)
  · intro path scopeRef' not
    rw [fingerprint, if_neg fun same => not (.inr same)]
    exact removing.kept path scopeRef' fun old => not (.inl old)
  · intro path scopeRef' hash here stored'
    rcases here with old | ⟨rfl, rfl⟩
    · exact (removing.sent path scopeRef' hash old stored').mono later
    · refine ⟨⟨topic, .removed (self.removedEvent X record scopeRef'), none⟩, ?_, rfl, _, rfl, rfl,
        rfl, Option.some.inj (stored.symm.trans stored')⟩
      have length := removing.publications.length_le
      rw [State.remove, State.publishing, List.drop_append_of_le_length length]
      exact List.mem_append_right _ (List.mem_singleton_self _)

theorem removeRecords_run {s₁ : State} {walkedPaths : List PurePath} {scopeRef : String}
    {records : List ModelCrawlStateRecord} {deleted : PurePath → String → Prop} (removedCount : Nat)
    (listed : ∀ record ∈ records,
      s₁.fingerprint? record.sourceRef scopeRef = some record.contentFingerprint)
    (removing : Removing s₀ s₁ deleted s) :
    (self.removeRecords X walkedPaths scopeRef records removedCount).Ensures answer s fun out s' =>
      ∀ n, out = .ok n → Removing s₀ s₁ (fun path scopeRef' => deleted path scopeRef' ∨
        scopeRef' = scopeRef ∧ path ∉ walkedPaths ∧ ∃ record ∈ records, record.sourceRef = path)
        s' := by
  induction records generalizing s deleted removedCount with
  | nil =>
    rintro n ⟨⟩
    exact removing.extend (fun _ _ => .inl) fun _ _ more not => absurd more (by simpa using not)
  | cons record rest ih =>
    have others := fun other mem => listed other (List.mem_cons_of_mem _ mem)
    unfold HandlerFilesystemCrawler.removeRecords
    split
    · rename_i walked
      refine (ih removedCount others removing).imp fun out s' rest n here => ?_
      refine (rest n here).extend ?_ ?_
      · rintro path scopeRef' (old | ⟨same, missed, other, mem, ref⟩)
        · exact .inl old
        · exact .inr ⟨same, missed, other, List.mem_cons_of_mem _ mem, ref⟩
      · rintro path scopeRef' (old | ⟨same, missed, other, mem, rfl⟩) not
        · exact absurd (.inl old) not
        · rcases List.mem_cons.mp mem with rfl | mem
          · exact absurd walked missed
          · exact absurd (.inr ⟨same, missed, other, mem, rfl⟩) not
    · rename_i missed
      refine (publishEvent_run _ _).seq fun out s' sent => ?_
      rcases out with e | _
      · rintro _ ⟨⟩
      obtain rfl := sent rfl
      refine Prog.ensures_op.mpr ?_
      have removing' := removing.remove X self self.config.publishTopicRemoved
        (listed record List.mem_cons_self)
      refine (ih (removedCount + 1) others removing').imp fun out s' rest n here => ?_
      refine (rest n here).extend ?_ ?_
      · rintro path scopeRef' ((old | ⟨rfl, rfl⟩) | ⟨same, missed', other, mem, ref⟩)
        · exact .inl old
        · exact .inr ⟨rfl, missed, record, List.mem_cons_self, rfl⟩
        · exact .inr ⟨same, missed', other, List.mem_cons_of_mem _ mem, ref⟩
      · rintro path scopeRef' (old | ⟨rfl, missed', other, mem, rfl⟩) not
        · exact absurd (.inl (.inl old)) not
        · rcases List.mem_cons.mp mem with rfl | mem
          · exact absurd (.inl (.inr ⟨rfl, rfl⟩)) not
          · exact absurd (.inr ⟨rfl, missed', other, mem, rfl⟩) not

theorem removeInScopes_run {s₁ : State} {walkedPaths : List PurePath} {scopes : List String}
    {deleted : PurePath → String → Prop} (removedCount : Nat)
    (removing : Removing s₀ s₁ deleted s) :
    (self.removeInScopes X walkedPaths scopes removedCount).Ensures answer s fun out s' =>
      ∀ n, out = .ok n → Removing s₀ s₁ (fun path scopeRef => deleted path scopeRef ∨
        scopeRef ∈ scopes ∧ path ∉ walkedPaths) s' := by
  induction scopes generalizing s deleted removedCount with
  | nil =>
    rintro n ⟨⟩
    exact removing.extend (fun _ _ => .inl) fun _ _ more not => absurd more (by simpa using not)
  | cons scopeRef rest ih =>
    unfold HandlerFilesystemCrawler.removeInScopes
    refine Prog.ensures_op.mpr ?_
    dsimp only [answer]
    have known {record : ModelCrawlStateRecord} : record ∈ (s.records.filter fun record =>
        record.crawlerType == .filesystem && record.scopeRef == scopeRef).rows ↔
          record ∈ s.records ∧ record.crawlerType = .filesystem ∧ record.scopeRef = scopeRef := by
      rw [← Table.mem_def, Table.mem_filter]
      simp
    refine (removeRecords_run removedCount ?_ removing).seq fun out s' first => ?_
    · intro record listed
      obtain ⟨here, filesystem, rfl⟩ := known.mp listed
      have stored := fingerprint?_of_mem here filesystem
      rw [← removing.kept, stored]
      intro deleted
      rw [removing.gone _ _ deleted] at stored
      contradiction
    rcases out with e | removedCount
    · rintro _ ⟨⟩
    refine (ih removedCount (first _ rfl)).imp fun out s'' others n here => ?_
    refine (others n here).extend ?_ ?_
    · rintro path scopeRef' ((old | ⟨rfl, missed, -⟩) | ⟨mem, missed⟩)
      · exact .inl old
      · exact .inr ⟨List.mem_cons_self, missed⟩
      · exact .inr ⟨List.mem_cons_of_mem _ mem, missed⟩
    · -- What was not listed was not stored.
      rintro path scopeRef' (old | ⟨mem, missed⟩) not
      · exact absurd (.inl (.inl old)) not
      rcases List.mem_cons.mp mem with rfl | mem
      · rw [← removing.kept path scopeRef' fun old => not (.inl (.inl old))]
        cases found : s.records.find? ⟨path, .filesystem, scopeRef'⟩ with
        | none => rw [State.fingerprint?, found, Option.map_none]
        | some record =>
          obtain ⟨here, key⟩ := Table.find?_eq_some.mp found
          cases record
          cases key
          exact absurd (.inl (.inr ⟨rfl, missed, _, known.mpr ⟨here, rfl, rfl⟩, rfl⟩)) not
      · exact absurd (.inr ⟨mem, missed⟩) not

/-! ### The whole crawl -/

theorem document_iff {tree : Tree} {path : PurePath} {scopeRef : String} {content : Bytes} :
    Document self tree path scopeRef content ↔ Walked self tree path ∧
      (tree.node path).bind Node.content? = some content ∧ scopeRef = self.scopeOf path := by
  constructor
  · rintro ⟨⟨prefixPath, own, mtime, found⟩, scope⟩
    refine ⟨⟨prefixPath, own, _, found⟩, ?_, scope⟩
    rw [found.there]
    rfl
  · rintro ⟨⟨prefixPath, own, node, found⟩, read, scope⟩
    rw [found.there, Option.bind_some] at read
    exact ⟨⟨prefixPath, own, node.mtime, Node.eq_of_content? read ▸ found⟩, scope⟩

theorem mem_foldl_insert {α : Type} (f : α → String) (l : List α) (scopes : List String)
    (scopeRef : String) : scopeRef ∈ l.foldl (fun scopes a => scopes.insert (f a)) scopes ↔
      scopeRef ∈ scopes ∨ ∃ a ∈ l, f a = scopeRef := by
  induction l generalizing scopes with
  | nil => simp
  | cons a rest ih =>
    rw [List.foldl_cons, ih, List.mem_insert_iff]
    simp only [List.mem_cons, exists_eq_or_imp, eq_comm (a := scopeRef)]
    tauto

theorem mem_affectedScopes {w : Walk} (progress : Progress self s₀ w s)
    (complete : ∀ path, path ∈ w.walkedPaths ↔ Walked self s₀.tree path) (scopeRef : String) :
    scopeRef ∈ self.affectedScopes w.scopeRefsSeen ↔ Affected self s₀.tree scopeRef := by
  have some_walked : w.scopeRefsSeen ≠ [] ↔ ∃ path, Walked self s₀.tree path := by
    constructor
    · intro nonempty
      obtain ⟨scope, mem⟩ := List.exists_mem_of_ne_nil _ nonempty
      obtain ⟨path, mem, -⟩ := (progress.scopes scope).mp mem
      exact ⟨path, (complete path).mp mem⟩
    · rintro ⟨path, walked⟩
      exact List.ne_nil_of_mem ((progress.scopes _).mpr ⟨path, (complete path).mpr walked, rfl⟩)
  have seen : scopeRef ∈ w.scopeRefsSeen ↔
      ∃ path, Walked self s₀.tree path ∧ self.scopeOf path = scopeRef := by
    simp only [progress.scopes, complete]
  unfold HandlerFilesystemCrawler.affectedScopes Affected
  by_cases any : ∃ path, Walked self s₀.tree path
  · rw [if_pos (some_walked.mpr any)]
    simp only [any, not_true, false_and, or_false, true_and]
    split
    · rename_i default
      rw [List.any_eq_true] at default
      simp only [beq_iff_eq] at default
      rw [List.mem_insert_iff, seen, or_comm]
      simp only [default, and_true]
    · rename_i default
      rw [List.any_eq_true] at default
      simp only [beq_iff_eq] at default
      rw [seen]
      simp only [default, and_false, or_false]
  · rw [if_neg (fun nonempty => any (some_walked.mp nonempty)), mem_foldl_insert]
    simp only [any, false_and, false_or, not_false_eq_true, true_and, List.not_mem_nil]

theorem converged_of_removing {w : Walk} {s₁ : State} {scopes : List String}
    (progress : Progress self s₀ w s₁)
    (complete : ∀ path, path ∈ w.walkedPaths ↔ Walked self s₀.tree path)
    (affected : ∀ scopeRef, scopeRef ∈ scopes ↔ Affected self s₀.tree scopeRef)
    (removing : Removing s₀ s₁ (fun path scopeRef => False ∨ scopeRef ∈ scopes ∧
      path ∉ w.walkedPaths) s) : Converged self s₀ s := by
  refine ⟨fun path scopeRef hash _ => ?_, fun path scopeRef hash _ stored document covered => ?_⟩
  · rw [Uncovered]
    by_cases walked : Walked self s₀.tree path
    · rw [removing.kept path scopeRef fun deleted =>
        (deleted.resolve_left id).2 ((complete path).mpr walked), progress.records, expected]
      simp only [complete, walked, true_and, not_true, false_and, or_false, document_iff]
      by_cases scope : scopeRef = self.scopeOf path
      · rw [if_pos scope]
        cases read : (s₀.tree.node path).bind Node.content? with
        | none => simp
        | some content => simp [scope, eq_comm]
      · rw [if_neg scope]
        simp [scope]
    · simp only [document_iff, walked, false_and, exists_false, false_or, not_false_eq_true,
        true_and]
      by_cases covered : Affected self s₀.tree scopeRef
      · rw [removing.gone path scopeRef (.inr ⟨(affected scopeRef).mpr covered,
          fun mem => walked ((complete path).mp mem)⟩)]
        simp [covered]
      · rw [removing.kept path scopeRef fun deleted =>
          covered ((affected scopeRef).mp (deleted.resolve_left id).1), progress.records, expected,
          if_neg fun here => walked ((complete path).mp here.1)]
        simp [covered]
  · have walked : ¬ Walked self s₀.tree path := fun walked => covered (.inl ⟨walked, document⟩)
    have here : path ∉ w.walkedPaths := fun mem => walked ((complete path).mp mem)
    refine removing.sent path scopeRef hash (.inr ⟨(affected scopeRef).mpr ?_, here⟩) ?_
    · by_contra unaffected
      exact covered (.inr ⟨walked, unaffected⟩)
    · rw [progress.records, expected, if_neg fun there => here there.1]
      exact stored

end Run

/-- The file `"/a/x.md"` is there, and records of `"/a/gone.md"` in two scopes. -/
def goneState : State :=
  { plainState (plainTree [97] 1) with
    records := (Table.empty.put (goneRecord "old")).put (goneRecord defaultScopeRef) }

theorem goneState_sound : MtimeSound goneState := by
  intro record mem content mtime readable _ here
  have ref : record.sourceRef = ⟨["/", "a", "gone.md"]⟩ := by
    simp only [goneState, Table.mem_put] at mem
    rcases mem with rfl | ⟨rfl | ⟨mem, -⟩, -⟩
    · rfl
    · rfl
    · exact absurd mem (Table.not_mem_empty record)
  rw [ref] at here
  cases here

/-- A crawl of `"/a"` with the default scope, from this state. -/
def goneCrawl : Except PyError ModelFilesystemCrawlResult × State :=
  ((plainCrawler ["/a"] []).crawl .plain).run answer goneState

/-- It returns untruncated, and the record in the old scope is still there. -/
def leavesOld (out : Except PyError ModelFilesystemCrawlResult × State) : Bool :=
  match out.1 with
  | .ok result => !result.truncated && result.removedCount == 1 &&
      out.2.fingerprint? ⟨["/", "a", "gone.md"]⟩ "old" == some (sha256 [97])
  | .error _ => false

end Crawl

end OmniMemory
