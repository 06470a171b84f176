import OmniMemory.Lib.Contract
import OmniMemory.Crawl.Crawler

/-! What the calls of a crawl are justified by, in terms of the calls that the same crawl made
before: which stat and which content a stored record is of, and what a removed document was missed
by. Nothing is assumed of the answers, so this holds of every crawl whatever runs beside it. -/

namespace OmniMemory

open Interleave

namespace Crawl

/-- The world of the crawls. A process that stops is a crawl that makes no further call. -/
def world (X : External) :
    World Op Res (Except PyError ModelFilesystemCrawlResult) HandlerFilesystemCrawler Choice Tree
      State where
  code self := self.crawl X
  exec := exec
  move := move

abbrev CrawlCall := Event Op Res State

abbrev CrawlPool :=
  Pool Op Res (Except PyError ModelFilesystemCrawlResult) HandlerFilesystemCrawler State

/-! ### What the calls do to the state -/

section Calls

variable {X : External} {e : CrawlCall}

theorem calls_iff {op : Op} {before after : State} {answered : Res op} :
    (world X).Calls ⟨op, before, answered, after⟩ ↔
      ∃ ch, exec op ch before = some (answered, after) := Iff.rfl

/-- A call of another operation than the three that change the state leaves it as it is. -/
theorem answer_state {op : Op} {s : State} (others : (∀ record, op ≠ .upsertState record) ∧
    (∀ key, op ≠ .deleteState key) ∧ ∀ topic event, op ≠ .publish topic event) :
    (answer op s).2 = s := by
  obtain ⟨noUpsert, noDelete, noPublish⟩ := others
  cases op with
  | stat path => cases found : s.tree.find path <;> simp only [answer, found]
  | readBytes path =>
    cases found : (s.tree.find path).bind Node.content? <;> simp only [answer, found]
  | upsertState record => exact absurd rfl (noUpsert record)
  | deleteState key => exact absurd rfl (noDelete key)
  | publish topic event => exact absurd rfl (noPublish topic event)
  | _ => rfl

/-- What a call can do: it is of another operation and does nothing, or it fails without effect, or
it writes the records, or it publishes. -/
theorem effect_cases (call : (world X).Calls e) :
    ((∀ topic event, e.op ≠ .publish topic event) ∧ e.after = e.before) ∨
    (∃ record, e.op = .upsertState record ∧
      e.after = { e.before with records := e.before.records.put record }) ∨
    (∃ key, e.op = .deleteState key ∧
      e.after = { e.before with records := e.before.records.erase key }) ∨
    ∃ topic event raised, e.op = .publish topic event ∧
      e.after = e.before.publishing topic event raised := by
  obtain ⟨op, before, answered, after⟩ := e
  obtain ⟨ch, call⟩ := calls_iff.mp call
  cases ch with
  | run =>
    have state : (answer op before).2 = after := congrArg Prod.snd (Option.some.inj call)
    cases op with
    | upsertState record => exact .inr (.inl ⟨record, rfl, state.symm⟩)
    | deleteState key => exact .inr (.inr (.inl ⟨key, rfl, state.symm⟩))
    | publish topic event => exact .inr (.inr (.inr ⟨topic, event, none, rfl, state.symm⟩))
    | _ => exact .inl ⟨by simp, state.symm.trans (answer_state (by simp))⟩
  | cut listed raised =>
    cases op with
    | rglob path glob =>
      by_cases within : ∀ path' ∈ listed, path' ∈ before.tree.listing path glob
      · have here := (if_pos within).symm.trans call
        exact .inl ⟨by simp, (Prod.mk.inj (Option.some.inj here)).2.symm⟩
      · have none := (if_neg within).symm.trans call
        contradiction
    | _ => contradiction
  | fail error =>
    cases op with
    | publish topic event =>
      exact .inr (.inr (.inr ⟨topic, event, some error, rfl,
        (Prod.mk.inj (Option.some.inj call)).2.symm⟩))
    | _ => first
      | contradiction
      | exact .inl ⟨by simp, (Prod.mk.inj (Option.some.inj call)).2.symm⟩
  | lost error =>
    cases op with
    | upsertState record =>
      exact .inr (.inl ⟨record, rfl, (Prod.mk.inj (Option.some.inj call)).2.symm⟩)
    | deleteState key =>
      exact .inr (.inr (.inl ⟨key, rfl, (Prod.mk.inj (Option.some.inj call)).2.symm⟩))
    | _ => contradiction

/-- The call returned a value. A listing may be cut short without an exception, so it does not
count. -/
def succeeds : (op : Op) → Res op → Bool
  | .exists _, a => a.toBool
  | .resolve _, a => a.toBool
  | .rglob .., _ => false
  | .stat _, a => a.toBool
  | .readBytes _, a => a.toBool
  | .getState _, a => a.toBool
  | .listStates .., a => a.toBool
  | .upsertState _, a | .deleteState _, a | .publish .., a => a.toBool

/-- A call that returned a value is one on which nothing failed. -/
theorem answer_of_succeeds {op : Op} {before after : State} {answered : Res op}
    (call : (world X).Calls ⟨op, before, answered, after⟩) (ok : succeeds op answered = true) :
    answer op before = (answered, after) := by
  obtain ⟨ch, call⟩ := calls_iff.mp call
  cases ch with
  | run => exact Option.some.inj call
  | _ =>
    cases op <;> first
      | contradiction
      | (obtain ⟨rfl, -⟩ := Prod.mk.inj (Option.some.inj call)
         contradiction)

theorem tree_eq (call : (world X).Calls e) : e.after.tree = e.before.tree := by
  rcases effect_cases call with ⟨-, same⟩ | ⟨_, -, same⟩ | ⟨_, -, same⟩ | ⟨_, _, _, -, same⟩ <;>
    rw [same]
  rfl

theorem past_eq (call : (world X).Calls e) : e.after.past = e.before.past := by
  rcases effect_cases call with ⟨-, same⟩ | ⟨_, -, same⟩ | ⟨_, -, same⟩ | ⟨_, _, _, -, same⟩ <;>
    rw [same]
  rfl

theorem records_cases (call : (world X).Calls e) : e.after.records = e.before.records ∨
    (∃ record, e.op = .upsertState record ∧ e.after.records = e.before.records.put record) ∨
    ∃ key, e.op = .deleteState key ∧ e.after.records = e.before.records.erase key := by
  rcases effect_cases call with
    ⟨-, same⟩ | ⟨record, op, same⟩ | ⟨key, op, same⟩ | ⟨topic, event, raised, -, same⟩
  · exact .inl (congrArg State.records same)
  · exact .inr (.inl ⟨record, op, congrArg State.records same⟩)
  · exact .inr (.inr ⟨key, op, congrArg State.records same⟩)
  · exact .inl (by rw [same, State.publishing])

theorem publications_cases (call : (world X).Calls e) :
    (∃ topic event raised, e.op = .publish topic event ∧
      e.after.publications = e.before.publications ++ [⟨topic, event, raised⟩]) ∨
    (∀ topic event, e.op ≠ .publish topic event) ∧
      e.after.publications = e.before.publications := by
  rcases effect_cases call with
    ⟨quiet, same⟩ | ⟨record, op, same⟩ | ⟨key, op, same⟩ | ⟨topic, event, raised, op, same⟩
  · exact .inr ⟨quiet, congrArg State.publications same⟩
  · exact .inr ⟨by simp [op], by rw [same]⟩
  · exact .inr ⟨by simp [op], by rw [same]⟩
  · exact .inl ⟨topic, event, raised, op, congrArg State.publications same⟩

/-- A record that `get_state` finds is there, with the key that was asked for. -/
theorem got_cases {key : CrawlStateKey} {prior : ModelCrawlStateRecord} {before after : State}
    (call : (world X).Calls ⟨.getState key, before, .ok (some prior), after⟩) :
    prior ∈ before.records ∧ prior.key = key ∧ after = before := by
  obtain ⟨found, same⟩ := Prod.mk.inj (answer_of_succeeds call rfl)
  obtain ⟨mem, own⟩ := Table.find?_eq_some.mp (Except.ok.inj found)
  exact ⟨mem, own, same.symm⟩

end Calls

section History

variable (self : HandlerFilesystemCrawler) (h : List CrawlCall)

def Resolved (path resolved : PurePath) : Prop :=
  ∃ before after, ⟨.resolve path, before, .ok resolved, after⟩ ∈ h

def Statted (path : PurePath) (st : Stat) : Prop :=
  ∃ before after, ⟨.stat path, before, .ok st, after⟩ ∈ h

/-- The path was read after it was statted. -/
def StattedThenRead (path : PurePath) (st : Stat) (content : Bytes) : Prop :=
  ∃ before after before' after', [⟨.stat path, before, .ok st, after⟩,
    ⟨.readBytes path, before', .ok content, after'⟩].Sublist h

def Got (prior : ModelCrawlStateRecord) : Prop :=
  ∃ key before after, ⟨.getState key, before, .ok (some prior), after⟩ ∈ h

def Announced (path : PurePath) (fingerprint : Digest) : Prop :=
  ∃ topic event before answer after, ⟨.publish topic event, before, answer, after⟩ ∈ h ∧
    event.Announces path fingerprint

def RemovedSent (path : PurePath) (scopeRef : String) : Prop :=
  ∃ topic event before answer after, ⟨.publish topic (.removed event), before, answer, after⟩ ∈ h ∧
    event.sourceRef = path ∧ event.scopeRef = scopeRef

/-- Where the time and the fingerprint of a stored record come from: a stat, and the record that was
there with the same time, or the content that was read after the stat. -/
def Sampled (record : ModelCrawlStateRecord) : Prop :=
  ∃ mdPath st, Resolved h mdPath record.sourceRef ∧ record.lastKnownMtime = some st.mtime ∧
    ((∃ prior, Got h prior ∧ prior.key = record.key ∧ prior.lastKnownMtime = some st.mtime ∧
        prior.contentFingerprint = record.contentFingerprint) ∨
      ∃ content, StattedThenRead h mdPath st content ∧ record.contentFingerprint = sha256 content)

/-- The fingerprint of a stored record is that of the record that was there, or was announced. -/
def Known (record : ModelCrawlStateRecord) : Prop :=
  (∃ prior, Got h prior ∧ prior.key = record.key ∧
      prior.contentFingerprint = record.contentFingerprint) ∨
    Announced h record.sourceRef record.contentFingerprint

/-- Why `path` was not walked at `mdPath`. -/
def Dismissed (resolvedPrefix mdPath path : PurePath) : Prop :=
  ∃ path', Resolved h mdPath path' ∧ (path' ≠ path ∨ path'.isRelativeTo resolvedPrefix = false ∨
    (∃ e before after, ⟨.stat mdPath, before, .error e, after⟩ ∈ h) ∨
    ∃ st, Statted h mdPath st ∧ self.config.maxFileSizeBytes < st.size)

/-- Why `path` was not walked under a prefix: the prefix is missing, or each path that `rglob`
yielded for it was dismissed. -/
def Missed (prefixPath path : PurePath) : Prop :=
  (∃ before after, ⟨.exists prefixPath, before, .ok false, after⟩ ∈ h) ∨
    ∃ resolvedPrefix before results raised after, Resolved h prefixPath resolvedPrefix ∧
      ⟨.rglob prefixPath self.config.fileGlob, before, (results, raised), after⟩ ∈ h ∧
      ∀ mdPath ∈ results, Dismissed self h resolvedPrefix mdPath path

/-- Why a document counts as removed: it is in the records of its scope, and it was missed under
every prefix. -/
structure Gone (path : PurePath) (scopeRef : String) : Prop where
  listed : ∃ before records after,
    ⟨.listStates .filesystem scopeRef, before, .ok records, after⟩ ∈ h ∧
      ∃ record ∈ records, record.sourceRef = path
  missed : ∀ prefixPath ∈ self.prefixPaths, Missed self h prefixPath path

/-- What a call is justified by. -/
def Justified (e : CrawlCall) : Prop :=
  match e.op with
  | .upsertState record => Sampled h record ∧ Known h record
  | .publish _ (.removed event) => Gone self h event.sourceRef event.scopeRef
  | .deleteState key =>
    Gone self h key.sourceRef key.scopeRef ∧ RemovedSent h key.sourceRef key.scopeRef
  | _ => True

end History

section Mono

variable {self : HandlerFilesystemCrawler} {h h' : List CrawlCall}

theorem Dismissed.mono {resolvedPrefix mdPath path : PurePath}
    (dismissed : Dismissed self h resolvedPrefix mdPath path) (grown : h ⊆ h') :
    Dismissed self h' resolvedPrefix mdPath path := by
  obtain ⟨path', ⟨b, a, resolved⟩, why⟩ := dismissed
  refine ⟨path', ⟨b, a, grown resolved⟩, ?_⟩
  rcases why with other | outside | ⟨e, b, a, failed⟩ | ⟨st, ⟨b, a, statted⟩, large⟩
  · exact .inl other
  · exact .inr (.inl outside)
  · exact .inr (.inr (.inl ⟨e, b, a, grown failed⟩))
  · exact .inr (.inr (.inr ⟨st, ⟨b, a, grown statted⟩, large⟩))

theorem Missed.mono {prefixPath path : PurePath} (missed : Missed self h prefixPath path)
    (grown : h ⊆ h') : Missed self h' prefixPath path := by
  rcases missed with ⟨b, a, missing⟩ | ⟨root, b, results, raised, a, ⟨b', a', resolved⟩, listed, all⟩
  · exact .inl ⟨b, a, grown missing⟩
  · exact .inr ⟨root, b, results, raised, a, ⟨b', a', grown resolved⟩, grown listed,
      fun mdPath mem => (all mdPath mem).mono grown⟩

theorem Gone.mono {path : PurePath} {scopeRef : String} (gone : Gone self h path scopeRef)
    (grown : h ⊆ h') : Gone self h' path scopeRef := by
  obtain ⟨⟨b, records, a, listed, record⟩, missed⟩ := gone
  exact ⟨⟨b, records, a, grown listed, record⟩, fun p hp => (missed p hp).mono grown⟩

theorem Resolved.mono {path resolved : PurePath} (here : Resolved h path resolved)
    (grown : h ⊆ h') : Resolved h' path resolved := by
  obtain ⟨b, a, here⟩ := here
  exact ⟨b, a, grown here⟩

theorem Statted.mono {path : PurePath} {st : Stat} (statted : Statted h path st) (grown : h ⊆ h') :
    Statted h' path st := by
  obtain ⟨b, a, statted⟩ := statted
  exact ⟨b, a, grown statted⟩

theorem Got.mono {prior : ModelCrawlStateRecord} (got : Got h prior) (grown : h ⊆ h') :
    Got h' prior := by
  obtain ⟨key, b, a, got⟩ := got
  exact ⟨key, b, a, grown got⟩

theorem Announced.mono {path : PurePath} {fingerprint : Digest}
    (announced : Announced h path fingerprint) (grown : h ⊆ h') :
    Announced h' path fingerprint := by
  obtain ⟨topic, event, b, answer, a, sent, announces⟩ := announced
  exact ⟨topic, event, b, answer, a, grown sent, announces⟩

theorem StattedThenRead.mono {path : PurePath} {st : Stat} {content : Bytes}
    (read : StattedThenRead h path st content) (grown : h.Sublist h') :
    StattedThenRead h' path st content := by
  obtain ⟨b, a, b', a', read⟩ := read
  exact ⟨b, a, b', a', read.trans grown⟩

end Mono

/-! ### The handler -/

/-- The contract of a crawl: its calls are justified. -/
def crawls : Contract Op Res HandlerFilesystemCrawler State where
  inv _ := True
  rely _ _ := True
  can _ _ := True
  guar := Justified

section Keeps

variable {X : External} {self : HandlerFilesystemCrawler} {h : List CrawlCall} {s : State}
  {α β : Type} {Q : α → List CrawlCall → State → Prop}

theorem keeps_op {op : Op} {next : Res op → CrawlProg α}
    (justified : ∀ before answer after, Justified self h ⟨op, before, answer, after⟩)
    (rest : ∀ before answer after, (world X).Calls ⟨op, before, answer, after⟩ →
      crawls.Keeps (world X) self Q (next answer) (h ++ [⟨op, before, answer, after⟩]) after) :
    crawls.Keeps (world X) self Q (Prog.perform op >>= next) h s :=
  fun before _ _ answer after call _ =>
    ⟨⟨trivial, trivial, justified before answer after⟩, rest before answer after call⟩

theorem publishEvent_keeps (topic : String) (event : CrawlEvent)
    (justified : ∀ e : CrawlCall, e.op = .publish topic event → Justified self h e) :
    crawls.Keeps (world X) self
      (fun out h' _ => out = .ok () →
        ∃ before answer after, h' = h ++ [⟨.publish topic event, before, answer, after⟩])
      (HandlerFilesystemCrawler.publishEvent topic event) h s := by
  unfold HandlerFilesystemCrawler.publishEvent
  split
  · exact nofun
  · exact keeps_op (fun _ _ _ => justified _ rfl) fun before answer after _ _ =>
      ⟨before, answer, after, rfl⟩

theorem storeRecord_keeps (record : ModelCrawlStateRecord) (sampled : Sampled h record)
    (known : Known h record) : crawls.Keeps (world X) self (fun _ _ _ => True)
      (HandlerFilesystemCrawler.storeRecord record) h s := by
  unfold HandlerFilesystemCrawler.storeRecord
  split
  · trivial
  · change crawls.Keeps _ _ _ (Prog.perform (Op.upsertState record) >>= .ret) _ _
    exact keeps_op (fun _ _ _ => ⟨sampled, known⟩) fun _ _ _ _ => trivial

/-- If the crawl goes on, the variables that decide on removals are those of `w`, except that
`walked` are the paths walked. -/
def Walks (w : HandlerFilesystemCrawler.Walk) (walked : List PurePath)
    (out : Except PyError HandlerFilesystemCrawler.Walk) : Prop :=
  ∀ w', out = .ok w' → w'.truncated = w.truncated ∧ w'.walkedPaths = walked

section Document

variable {mdPath path : PurePath} {st : Stat} {content : Bytes}

theorem sampled_of_read {record : ModelCrawlStateRecord} (resolved : Resolved h mdPath path)
    (read : StattedThenRead h mdPath st content) (ref : record.sourceRef = path)
    (mtime : record.lastKnownMtime = some st.mtime)
    (hash : record.contentFingerprint = sha256 content) : Sampled h record :=
  ⟨mdPath, st, ref ▸ resolved, mtime, .inr ⟨content, read, hash⟩⟩

theorem indexAndStore_keeps (w : HandlerFilesystemCrawler.Walk) (resolved : Resolved h mdPath path)
    (read : StattedThenRead h mdPath st content) (announced : Announced h path (sha256 content)) :
    crawls.Keeps (world X) self (fun out _ _ => Walks w w.walkedPaths out)
      (self.indexAndStore X path content st.mtime w) h s := by
  unfold HandlerFilesystemCrawler.indexAndStore
  refine (publishEvent_keeps _ _ fun e op => by simp [Justified, op]).seq fun out h' s sent => ?_
  rcases out with e | _
  · exact nofun
  obtain ⟨before, answer, after, rfl⟩ := sent rfl
  have grown := List.sublist_append_left h
    [(⟨.publish _ _, before, answer, after⟩ : CrawlCall)]
  refine (storeRecord_keeps _ ?_ ?_).seq fun out _ _ _ => ?_
  · exact sampled_of_read (resolved.mono grown.subset) (read.mono grown) rfl rfl rfl
  · exact .inr (announced.mono grown.subset)
  · rcases out with e | _
    · exact nofun
    · rintro w' ⟨⟩
      exact ⟨rfl, rfl⟩

/-- What `compareContent` does with a new or changed content: the event, then what follows it. -/
def announceContent (X : External) (self : HandlerFilesystemCrawler) (path : PurePath)
    (mtime : Mtime) (content : Bytes) (topic : String) (event : CrawlEvent)
    (w : HandlerFilesystemCrawler.Walk) :
    CrawlProg (Except PyError HandlerFilesystemCrawler.Walk) := do
  match ← HandlerFilesystemCrawler.publishEvent topic event with
  | .error e => return .error e
  | .ok () => self.indexAndStore X path content mtime w

theorem announceContent_keeps (w w' : HandlerFilesystemCrawler.Walk) {topic : String}
    {event : CrawlEvent} (resolved : Resolved h mdPath path)
    (read : StattedThenRead h mdPath st content) (announces : event.Announces path (sha256 content))
    (justified : ∀ e : CrawlCall, e.op = .publish topic event → Justified self h e)
    (same : w'.truncated = w.truncated ∧ w'.walkedPaths = w.walkedPaths) :
    crawls.Keeps (world X) self (fun out _ _ => Walks w w.walkedPaths out)
      (announceContent X self path st.mtime content topic event w') h s := by
  refine (publishEvent_keeps _ _ justified).seq fun out h' s sent => ?_
  rcases out with e | _
  · rintro _ ⟨⟩
  obtain ⟨before, answer, after, rfl⟩ := sent rfl
  have grown := List.sublist_append_left h
    [(⟨.publish topic event, before, answer, after⟩ : CrawlCall)]
  refine (indexAndStore_keeps w' (resolved.mono grown.subset) (read.mono grown) ?_).imp ?_
  · exact ⟨topic, event, before, answer, after,
      List.mem_append_right _ (List.mem_singleton_self _), announces⟩
  · intro out _ _ walks w'' here
    obtain ⟨truncated, walked⟩ := walks w'' here
    exact ⟨truncated.trans same.1, walked.trans same.2⟩

theorem compareContent_keeps {prior : Option ModelCrawlStateRecord}
    (w : HandlerFilesystemCrawler.Walk) (resolved : Resolved h mdPath path)
    (read : StattedThenRead h mdPath st content)
    (got : ∀ p, prior = some p → Got h p ∧ p.key = ⟨path, .filesystem, self.scopeOf path⟩) :
    crawls.Keeps (world X) self (fun out _ _ => Walks w w.walkedPaths out)
      (self.compareContent X path prior st.mtime content w) h s := by
  unfold HandlerFilesystemCrawler.compareContent
  rcases prior with _ | prior
  · exact announceContent_keeps w _ resolved read (by exact ⟨rfl, rfl⟩)
      (fun e op => by simp [Justified, op]) ⟨rfl, rfl⟩
  obtain ⟨got, key⟩ := got prior rfl
  dsimp only
  split
  · rename_i same
    refine (storeRecord_keeps _ ?_ ?_).seq fun out _ _ _ => ?_
    · exact sampled_of_read resolved read rfl rfl same
    · exact .inl ⟨prior, got, key, rfl⟩
    · rcases out with e | _
      · rintro _ ⟨⟩
      · rintro w' ⟨⟩
        exact ⟨rfl, rfl⟩
  · exact announceContent_keeps w _ resolved read (by exact ⟨rfl, rfl⟩)
      (fun e op => by simp [Justified, op]) ⟨rfl, rfl⟩

theorem stattedThenRead_snoc (statted : Statted h mdPath st) (before after : State) :
    StattedThenRead (h ++ [⟨.readBytes mdPath, before, .ok content, after⟩]) mdPath st content := by
  obtain ⟨b, a, statted⟩ := statted
  exact ⟨b, a, before, after, (List.singleton_sublist.mpr statted).append (List.Sublist.refl _)⟩

theorem crawlWalked_keeps (w : HandlerFilesystemCrawler.Walk) (resolved : Resolved h mdPath path)
    (statted : Statted h mdPath st) : crawls.Keeps (world X) self
      (fun out _ _ => Walks w (w.walkedPaths.insert path) out)
      (self.crawlWalked X mdPath path st.mtime w) h s := by
  unfold HandlerFilesystemCrawler.crawlWalked
  refine keeps_op (fun _ _ _ => trivial) fun before answer after call => ?_
  rcases answer with e | prior
  · exact nofun
  let key : CrawlStateKey := ⟨path, .filesystem, self.scopeOf path⟩
  have grown := List.subset_append_left h
    [(⟨.getState key, before, .ok prior, after⟩ : CrawlCall)]
  replace resolved := resolved.mono grown
  replace statted := statted.mono grown
  have got : ∀ p, prior = some p →
      Got (h ++ [⟨.getState key, before, .ok prior, after⟩]) p ∧ p.key = key := by
    rintro p rfl
    exact ⟨⟨key, before, after, List.mem_append_right _ (List.mem_singleton_self _)⟩,
      (got_cases call).2.1⟩
  dsimp only
  split
  · rename_i found hit
    obtain ⟨rfl, mtime⟩ := Option.filter_eq_some_iff.mp hit
    rw [beq_iff_eq] at mtime
    obtain ⟨got, key⟩ := got found rfl
    refine (storeRecord_keeps _ ?_ ?_).seq fun out _ _ _ => ?_
    · exact ⟨mdPath, st, resolved, rfl, .inl ⟨found, got, key, mtime, rfl⟩⟩
    · exact .inl ⟨found, got, key, rfl⟩
    · rcases out with e | _
      · exact nofun
      · rintro w' ⟨⟩
        exact ⟨rfl, rfl⟩
  · refine keeps_op (fun _ _ _ => trivial) fun before' answer after' _ => ?_
    rcases answer with e | content
    · dsimp only
      split
      · rintro w' ⟨⟩
        exact ⟨rfl, rfl⟩
      · exact nofun
    · refine (compareContent_keeps _ (resolved.mono (List.subset_append_left _ _))
        (stattedThenRead_snoc statted before' after') fun p hp => ?_).imp fun _ _ _ walks => walks
      obtain ⟨got, key⟩ := got p hp
      exact ⟨got.mono (List.subset_append_left _ _), key⟩

end Document

/-! The walk. -/

open HandlerFilesystemCrawler (Walk)

theorem crawlFile_keeps (resolvedPrefix mdPath : PurePath) (w : Walk) :
    crawls.Keeps (world X) self
      (fun out h' _ => ∀ w', out = .ok w' → w'.truncated = w.truncated ∧
        w.walkedPaths ⊆ w'.walkedPaths ∧
        ∀ path, path ∉ w'.walkedPaths → Dismissed self h' resolvedPrefix mdPath path)
      (self.crawlFile X resolvedPrefix mdPath w) h s := by
  unfold HandlerFilesystemCrawler.crawlFile
  refine keeps_op (fun _ _ _ => trivial) fun before answer after _ => ?_
  rcases answer with e | path
  · exact nofun
  have resolved : Resolved (h ++ [⟨.resolve mdPath, before, .ok path, after⟩]) mdPath path :=
    ⟨before, after, List.mem_append_right _ (List.mem_singleton_self _)⟩
  dsimp only
  split
  · rename_i outside
    rintro w' ⟨⟩
    exact ⟨rfl, List.Subset.refl _, fun _ _ =>
      ⟨path, resolved, .inr (.inl (by simpa using outside))⟩⟩
  refine keeps_op (fun _ _ _ => trivial) fun before' answer after' _ => ?_
  have last : ∀ e : CrawlCall, e ∈ h ++ [⟨.resolve mdPath, before, .ok path, after⟩] ++ [e] :=
    fun e => List.mem_append_right _ (List.mem_singleton_self _)
  replace resolved := resolved.mono
    (List.subset_append_left _ [(⟨.stat mdPath, before', answer, after'⟩ : CrawlCall)])
  rcases answer with e | st
  · dsimp only
    split
    · rintro w' ⟨⟩
      exact ⟨rfl, List.Subset.refl _, fun _ _ =>
        ⟨path, resolved, .inr (.inr (.inl ⟨e, before', after', last _⟩))⟩⟩
    · exact nofun
  have statted : Statted _ mdPath st := ⟨before', after', last _⟩
  dsimp only
  split
  · rename_i large
    rintro w' ⟨⟩
    exact ⟨rfl, List.Subset.refl _, fun _ _ =>
      ⟨path, resolved, .inr (.inr (.inr ⟨st, statted, large⟩))⟩⟩
  · refine (crawlWalked_keeps _ resolved statted).grows.imp ?_
    rintro out h' s ⟨walks, grown⟩ w' here
    obtain ⟨truncated, walked⟩ := walks w' here
    refine ⟨truncated, ?_, fun other missed => ?_⟩
    · rw [walked]
      exact fun _ mem => List.mem_insert_of_mem mem
    · refine ⟨path, resolved.mono grown.subset, .inl ?_⟩
      rintro rfl
      rw [walked] at missed
      exact missed List.mem_insert_self

theorem crawlFiles_keeps (resolvedPrefix : PurePath) (results : List PurePath) (w : Walk) :
    crawls.Keeps (world X) self
      (fun out h' _ => ∀ w', out = .ok w' → w.walkedPaths ⊆ w'.walkedPaths ∧
        (w'.truncated = false → ∀ path, path ∉ w'.walkedPaths → ∀ mdPath ∈ results,
          Dismissed self h' resolvedPrefix mdPath path))
      (self.crawlFiles X resolvedPrefix results w) h s := by
  induction results generalizing h s w with
  | nil =>
    rintro w' ⟨⟩
    exact ⟨List.Subset.refl _, by simp⟩
  | cons mdPath rest ih =>
    unfold HandlerFilesystemCrawler.crawlFiles
    split
    · rintro w' ⟨⟩
      exact ⟨List.Subset.refl _, nofun⟩
    refine (crawlFile_keeps resolvedPrefix mdPath w).seq fun out h₁ s₁ first => ?_
    rcases out with e | w₁
    · exact nofun
    obtain ⟨-, walked, dismissed⟩ := first w₁ rfl
    refine (ih w₁).grows.imp ?_
    rintro out h₂ s₂ ⟨others, grown⟩ w₂ here
    obtain ⟨walked', dismissed'⟩ := others w₂ here
    refine ⟨fun _ mem => walked' (walked mem), fun complete path missed => ?_⟩
    rintro mdPath' (_ | ⟨_, mem⟩)
    · exact (dismissed path fun mem => missed (walked' mem)).mono grown.subset
    · exact dismissed' complete path missed mdPath' mem

theorem crawlPrefixes_keeps (prefixPaths : List PurePath) (w : Walk) :
    crawls.Keeps (world X) self
      (fun out h' _ => ∀ w', out = .ok w' → w.walkedPaths ⊆ w'.walkedPaths ∧
        (w'.truncated = false → ∀ path, path ∉ w'.walkedPaths → ∀ prefixPath ∈ prefixPaths,
          Missed self h' prefixPath path))
      (self.crawlPrefixes X prefixPaths w) h s := by
  induction prefixPaths generalizing h s w with
  | nil =>
    rintro w' ⟨⟩
    exact ⟨List.Subset.refl _, by simp⟩
  | cons prefixPath rest ih =>
    -- The other prefixes, once `h₁` shows that what is not walked was missed under this one.
    have others {h₁ : List CrawlCall} {s₁ : State} {w₁ : Walk}
        (walked : w.walkedPaths ⊆ w₁.walkedPaths)
        (missed : ∀ path, path ∉ w₁.walkedPaths → Missed self h₁ prefixPath path) :
        crawls.Keeps (world X) self
          (fun out h' _ => ∀ w', out = .ok w' → w.walkedPaths ⊆ w'.walkedPaths ∧
            (w'.truncated = false → ∀ path, path ∉ w'.walkedPaths →
              ∀ prefixPath' ∈ prefixPath :: rest, Missed self h' prefixPath' path))
          (self.crawlPrefixes X rest w₁) h₁ s₁ := by
      refine (ih w₁).grows.imp ?_
      rintro out h₂ s₂ ⟨others, grown⟩ w₂ here
      obtain ⟨walked', missed'⟩ := others w₂ here
      refine ⟨fun _ mem => walked' (walked mem), fun complete path absent => ?_⟩
      rintro prefixPath' (_ | ⟨_, mem⟩)
      · exact (missed path fun mem => absent (walked' mem)).mono grown.subset
      · exact missed' complete path absent prefixPath' mem
    unfold HandlerFilesystemCrawler.crawlPrefixes
    refine keeps_op (fun _ _ _ => trivial) fun before answer after _ => ?_
    rcases answer with e | _ | _
    · exact nofun
    · exact others (List.Subset.refl _) fun path _ =>
        .inl ⟨before, after, List.mem_append_right _ (List.mem_singleton_self _)⟩
    refine keeps_op (fun _ _ _ => trivial) fun before answer after _ => ?_
    rcases answer with e | resolvedPrefix
    · exact nofun
    refine keeps_op (fun _ _ _ => trivial) fun before' answer after' _ => ?_
    obtain ⟨results, raised⟩ := answer
    dsimp only
    split
    · exact nofun
    refine (crawlFiles_keeps resolvedPrefix results w).grows.seq fun out h₁ s₁ first => ?_
    obtain ⟨first, grown⟩ := first
    rcases out with e | w₁
    · exact nofun
    obtain ⟨walked, dismissed⟩ := first w₁ rfl
    dsimp only
    split
    · rename_i truncated
      rintro w' ⟨⟩
      exact ⟨walked, fun complete => absurd truncated (by simp [complete])⟩
    · rename_i complete
      have dismissed := dismissed (by simpa using complete)
      refine others walked fun path absent => .inr ⟨resolvedPrefix, before', results, raised,
        after', ⟨before, after, grown.subset ?_⟩, grown.subset ?_, dismissed path absent⟩
      · simp
      · simp

/-! The removals. -/

theorem removeRecords_keeps (walkedPaths : List PurePath) (scopeRef : String)
    (records : List ModelCrawlStateRecord) (removedCount : Nat)
    (gone : ∀ record ∈ records, record.sourceRef ∉ walkedPaths →
      Gone self h record.sourceRef scopeRef) :
    crawls.Keeps (world X) self (fun _ _ _ => True)
      (self.removeRecords X walkedPaths scopeRef records removedCount) h s := by
  induction records generalizing h s removedCount with
  | nil => trivial
  | cons record rest ih =>
    unfold HandlerFilesystemCrawler.removeRecords
    split
    · exact ih _ fun other mem => gone other (List.mem_cons_of_mem _ mem)
    rename_i absent
    have this := gone record List.mem_cons_self absent
    refine (publishEvent_keeps _ _ ?_).seq fun out h' s sent => ?_
    · intro e op
      simp only [Justified, op]
      exact this
    rcases out with e | _
    · trivial
    obtain ⟨before, answer, after, rfl⟩ := sent rfl
    refine keeps_op (fun b answer' a => ⟨this.mono (List.subset_append_left _ _), ?_⟩)
      fun before' answer' after' _ => ?_
    · exact ⟨_, _, before, answer, after, List.mem_append_right _ (List.mem_singleton_self _), rfl,
        rfl⟩
    rcases answer' with e | _
    · trivial
    · refine ih _ fun other mem missed => ?_
      refine (gone other (List.mem_cons_of_mem _ mem) missed).mono ?_
      rw [List.append_assoc]
      exact List.subset_append_left _ _

theorem removeInScopes_keeps (walkedPaths : List PurePath) (scopes : List String)
    (removedCount : Nat) (missed : ∀ path, path ∉ walkedPaths → ∀ prefixPath ∈ self.prefixPaths,
      Missed self h prefixPath path) :
    crawls.Keeps (world X) self (fun _ _ _ => True)
      (self.removeInScopes X walkedPaths scopes removedCount) h s := by
  induction scopes generalizing h s removedCount with
  | nil => trivial
  | cons scopeRef rest ih =>
    unfold HandlerFilesystemCrawler.removeInScopes
    refine keeps_op (fun _ _ _ => trivial) fun before answer after _ => ?_
    rcases answer with e | records
    · trivial
    refine (removeRecords_keeps walkedPaths scopeRef records removedCount ?_).grows.seq
      fun out h' s' after => ?_
    · intro record mem absent
      refine ⟨⟨before, records, after, List.mem_append_right _ (List.mem_singleton_self _), record,
        mem, rfl⟩, fun prefixPath hp => ?_⟩
      exact (missed _ absent prefixPath hp).mono (List.subset_append_left _ _)
    obtain ⟨-, grown⟩ := after
    rcases out with e | removedCount
    · trivial
    · refine ih _ fun path absent prefixPath hp => ?_
      refine (missed path absent prefixPath hp).mono ?_
      exact List.Subset.trans (List.subset_append_left _ _) grown.subset

theorem crawl_keeps : crawls.Keeps (world X) self (fun _ _ _ => True) (self.crawl X) h s := by
  unfold HandlerFilesystemCrawler.crawl
  split
  · trivial
  refine (crawlPrefixes_keeps self.prefixPaths {}).seq fun out h s walk => ?_
  rcases out with e | w
  · trivial
  obtain ⟨-, missed⟩ := walk w rfl
  dsimp only
  split
  · trivial
  · rename_i complete
    refine (removeInScopes_keeps w.walkedPaths _ 0 (missed (by simpa using complete))).seq
      fun out _ _ _ => ?_
    rcases out with e | _ <;> trivial

end Keeps

section Reach

variable {X : External} {init : State → Prop}
  {ok : CrawlPool → Label Op Res HandlerFilesystemCrawler Tree State → Prop} {p : CrawlPool}
  {t : Task Op Res (Except PyError ModelFilesystemCrawlResult) HandlerFilesystemCrawler State}

theorem crawls_hold : crawls.Holds (world X) init ok fun _ _ _ _ => True where
  refl _ := trivial
  trans _ _ _ _ _ := trivial
  init _ _ := trivial
  move _ _ _ _ _ _ := ⟨trivial, trivial⟩
  call _ _ _ _ _ := trivial
  code _ _ _ := crawl_keeps
  stable _ _ _ _ _ _ _ := trivial

/-- Whatever runs beside it, the calls of a crawl are justified by the ones before them. -/
theorem justified_of_reach (reach : (world X).Reach init ok p) (task : t ∈ p.tasks) :
    Each (Justified t.cmd) t.calls :=
  ((crawls_hold.reach reach).2 t task).obeyed

theorem calls_of_reach (reach : (world X).Reach init ok p) (task : t ∈ p.tasks) :
    ∀ e ∈ t.calls, (world X).Calls e := fun e he =>
  (((crawls_hold.reach reach).2 t task).made e he).1

/-- What holds of every stored record, now and when a crawl made its calls. -/
structure RecordsKeep (P : State → ModelCrawlStateRecord → Prop) (p : CrawlPool) : Prop where
  now : ∀ record ∈ p.shared.records, P p.shared record
  past : ∀ t ∈ p.tasks, ∀ e ∈ t.calls, ∀ record ∈ e.before.records, P e.before record

/-- A property of records holds of all if it lasts while the state evolves, and every justified
record has it when it is stored. -/
theorem recordsKeep_of_reach {R : State → State → Prop} {P : State → ModelCrawlStateRecord → Prop}
    (evolves : (Contract.timeline (fun _ _ => True) R).Holds (world X) init ok fun _ _ _ _ => True)
    (lasts : ∀ s s' record, R s s' → P s record → P s' record)
    (first : ∀ s, init s → ∀ record ∈ s.records, P s record)
    (stored : ∀ p t record, (world X).Reach init ok p → t ∈ p.tasks →
      (∀ e ∈ t.calls, ∀ prior ∈ e.before.records, P e.before prior) →
      Sampled t.calls record → Known t.calls record → P p.shared record)
    (reach : (world X).Reach init ok p) : RecordsKeep P p := by
  refine reach.invariant (fun s start => ⟨first s start, by simp⟩) ?_
  rintro p l p' reach keep met step
  have reach' := World.Reach.step reach met step
  cases step with
  | start c =>
    refine ⟨keep.now, fun t ht => ?_⟩
    rcases List.mem_append.mp ht with ht | ht
    · exact keep.past t ht
    · obtain rfl := List.mem_singleton.mp ht
      simp
  | @call i t op rest answer after task here call =>
    have ht := List.mem_of_getElem? task
    have later : R p.shared after :=
      (((evolves.reach reach).2 t ht).advance evolves trivial here call trivial).1.2
    have old : ∀ record ∈ p.shared.records, P after record := fun record mem =>
      lasts _ _ _ later (keep.now record mem)
    refine ⟨fun record mem => ?_, fun u hu e he => ?_⟩
    · rcases records_cases call with same | ⟨record', rfl, put⟩ | ⟨key, -, erased⟩
      · exact old record (same ▸ mem)
      · have justified := justified_of_reach reach' (World.self_mem_set task) t.calls _ [] rfl
        dsimp only at put mem
        rw [put, Table.mem_put] at mem
        rcases mem with rfl | ⟨mem, -⟩
        · exact lasts _ _ _ later
            (stored p t record reach ht (keep.past t ht) justified.1 justified.2)
        · exact old record mem
      · dsimp only at erased mem
        rw [erased, Table.mem_erase] at mem
        exact old record mem.1
    · rcases World.mem_tasks_set hu with rfl | hu
      · rcases List.mem_append.mp he with he | he
        · exact keep.past t ht e he
        · obtain rfl := List.mem_singleton.mp he
          exact keep.now
      · exact keep.past u hu e he
  | move moved =>
    have later := (evolves.move _ _ _ met trivial moved).2
    exact ⟨fun record mem => lasts _ _ _ later (keep.now record (by cases moved; exact mem)),
      keep.past⟩

theorem tree_of_reach {s : State}
    (reach : (world X).Reach (· = s) (fun _ l => l.isMove = false) p) :
    p.shared.tree = s.tree ∧ p.shared.past = s.past := by
  refine reach.invariant (P := fun p => p.shared.tree = s.tree ∧ p.shared.past = s.past) ?_ ?_
  · rintro _ rfl
    exact ⟨rfl, rfl⟩
  rintro p l p' - ⟨tree, past⟩ still step
  cases step with
  | start c => exact ⟨tree, past⟩
  | call task here call => exact ⟨(tree_eq call).trans tree, (past_eq call).trans past⟩
  | move moved => cases still

end Reach

/-! ### Documents -/

/-- `path` is found under a prefix: a path which matches the pattern resolves to it, inside the
prefix, and it is within the size limit. -/
structure Found (crawler : HandlerFilesystemCrawler) (tree : Tree) (prefixPath path : PurePath)
    (node : Node) : Prop where
  present : (tree.find prefixPath).isSome
  listed : ∃ mdPath ∈ tree.listing prefixPath crawler.config.fileGlob, tree.resolve mdPath = path
  inside : path.isRelativeTo (tree.resolve prefixPath) = true
  there : tree.node path = some node
  small : node.size ≤ crawler.config.maxFileSizeBytes

/-- `path` is a crawlable document under a prefix: a readable regular file that is found. -/
def IsDocument (crawler : HandlerFilesystemCrawler) (tree : Tree) (prefixPath path : PurePath)
    (content : Bytes) : Prop :=
  ∃ mtime, Found crawler tree prefixPath path (.file content mtime true)

/-- `path` lies under one of the prefixes. -/
def Under (crawler : HandlerFilesystemCrawler) (tree : Tree) (path : PurePath) : Prop :=
  ∃ prefixPath ∈ crawler.prefixPaths, path.isRelativeTo (tree.resolve prefixPath) = true

/-! ### Plain instances, for runs -/

def External.plain : External where
  claudeHome := ⟨["/", "home", ".claude"]⟩
  upper s := s
  lower s := s
  repr s := s

def plainCrawler (pathPrefixes : List String) (scopeMappings : List (String × String)) :
    HandlerFilesystemCrawler where
  config := { pathPrefixes }
  correlationId := 1
  crawlScope := "docs"
  triggerSource := .manual
  scopeMappings
  now := ⟨2025, 1, 1, 0⟩
  inOrder scopes := scopes
  mem_inOrder _ _ := Iff.rfl

/-- A tree without links whose nodes are given. -/
def Tree.plain (nodes : List (PurePath × Node)) : Tree where
  resolve path := path
  node path := nodes.lookup path
  listing path _ := (nodes.map (·.1)).filter fun path' => path'.isRelativeTo path && path' != path

def plainTree (content : Bytes) (mtime : Mtime) : Tree :=
  .plain [(⟨["/", "a"]⟩, .other 4096 0), (⟨["/", "a", "x.md"]⟩, .file content mtime true)]

def plainState (tree : Tree) : State := ⟨tree, [], .empty, []⟩

/-- The record of a file `"/a/gone.md"`, in a scope. -/
def goneRecord (scopeRef : String) : ModelCrawlStateRecord where
  sourceRef := ⟨["/", "a", "gone.md"]⟩
  crawlerType := .filesystem
  scopeRef
  contentFingerprint := sha256 [97]
  sourceVersion := none
  lastCrawledAtUtc := ⟨2024, 12, 31, 0⟩
  lastChangedAtUtc := none
  lastKnownMtime := some 0

end Crawl

end OmniMemory
