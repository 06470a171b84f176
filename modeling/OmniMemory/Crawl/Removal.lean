import OmniMemory.Crawl.Trace

/-! Removals. A crawl removes the records of its scopes that it has not walked. These records may be
of other crawlers, and a listing that is cut short or a stat that fails leaves documents unwalked
that are there, so a removal is right only in runs whose steps meet `Truthful`. -/

namespace OmniMemory

open Interleave

namespace Crawl

/-- The call removes `path`: it deletes its record or gives a removed event to the callback. -/
def Removes (e : CrawlCall) (path : PurePath) : Prop :=
  (∃ key, e.op = .deleteState key ∧ key.sourceRef = path) ∨
    ∃ topic event, e.op = .publish topic (.removed event) ∧ event.sourceRef = path

/-- What a crawl removes lies under one of its prefixes, and for each of them there was a moment of
the crawl at which it was no crawlable document under this prefix. -/
def NoSpuriousRemoval (p : CrawlPool) : Prop :=
  ∀ t ∈ p.tasks, Each (fun calls e => ∀ path, Removes e path → Under t.cmd e.before.tree path ∧
    ∀ prefixPath ∈ t.cmd.prefixPaths, ∃ f ∈ calls, ∀ content,
      ¬ IsDocument t.cmd f.before.tree prefixPath path content) t.calls

/-- The calls on which a removal may rely. -/
structure Truthful (crawler : HandlerFilesystemCrawler) (e : CrawlCall) : Prop where
  /-- A listing is complete. -/
  complete : ∀ path glob before results raised after,
    e = ⟨.rglob path glob, before, (results, raised), after⟩ →
      before.tree.listing path glob ⊆ results
  /-- A stat does not fail on a document. -/
  statted : ∀ mdPath before error after, e = ⟨.stat mdPath, before, .error error, after⟩ →
    ∀ content mtime, before.tree.find mdPath = some (.file content mtime true) →
      crawler.config.maxFileSizeBytes < content.length
  /-- The records of a scope that the crawl covers lie under its prefixes. -/
  own : ∀ crawlerType scopeRef before records after,
    e = ⟨.listStates crawlerType scopeRef, before, .ok records, after⟩ →
      ∀ record ∈ records, Under crawler before.tree record.sourceRef

def TruthfulStep (p : CrawlPool) : Label Op Res HandlerFilesystemCrawler Tree State → Prop
  | .call _ self e => Truthful self e
  | .move tree => tree.resolve = p.shared.tree.resolve
  | _ => True

section Steps

variable {X : External} {init : State → Prop} {p : CrawlPool}
  {t : Task Op Res (Except PyError ModelFilesystemCrawlResult) HandlerFilesystemCrawler State}

theorem truthful_hold : (Contract.timeline Truthful fun s s' : State =>
    s'.tree.resolve = s.tree.resolve).Holds (world X) init TruthfulStep fun _ _ _ _ => True := by
  refine Contract.timeline_holds (fun _ => rfl) (fun _ _ _ h1 h2 => h2.trans h1)
    (fun _ _ _ _ met => met) ?_ ?_
  · exact fun _ e call _ => congrArg Tree.resolve (tree_eq call)
  · intro p tree after still moved
    cases moved
    exact still

theorem not_missed {self : HandlerFilesystemCrawler} {calls : List CrawlCall}
    {root : PurePath → PurePath} (made : ∀ e ∈ calls, (world X).Calls e)
    (truthful : ∀ e ∈ calls, Truthful self e)
    (links : ∀ e ∈ calls, e.before.tree.resolve = root) {prefixPath path : PurePath}
    (document : ∀ f ∈ calls, ∃ content, IsDocument self f.before.tree prefixPath path content) :
    ¬ Missed self calls prefixPath path := by
  -- What a resolution answers does not depend on its moment.
  have resolved_eq {path path' : PurePath} (resolved : Resolved calls path path') :
      path' = root path := by
    obtain ⟨before, after, mem⟩ := resolved
    have links := links _ mem
    have answered := Except.ok.inj (Prod.mk.inj (answer_of_succeeds (made _ mem) rfl)).1
    rw [← answered, ← links]
  rintro (⟨before, after, mem⟩ |
    ⟨resolvedPrefix, before, results, raised, after, resolved, mem, dismissed⟩)
  · obtain ⟨content, mtime, present, -⟩ := document _ mem
    have absent := Except.ok.inj (Prod.mk.inj (answer_of_succeeds (made _ mem) rfl)).1
    rw [absent] at present
    contradiction
  · obtain ⟨content, mtime, -, ⟨mdPath, listed, leads⟩, inside, -⟩ := document _ mem
    have listed := (truthful _ mem).complete _ _ _ _ _ _ rfl listed
    dsimp only at leads inside
    rw [links _ mem] at leads inside
    obtain ⟨path', here, why⟩ := dismissed mdPath listed
    obtain rfl := resolved_eq here
    rcases why with other | outside | ⟨error, b, a, failed⟩ | ⟨st, ⟨b, a, statted⟩, large⟩
    · exact other leads
    · rw [leads, resolved_eq resolved, inside] at outside
      contradiction
    · obtain ⟨content, mtime, -, -, -, file, small⟩ := document _ failed
      have large := (truthful _ failed).statted _ _ _ _ rfl content mtime (by
        rw [Tree.find, links _ failed, leads]
        exact file)
      exact absurd small (Nat.not_le.mpr large)
    · obtain ⟨content, mtime, -, -, -, file, small⟩ := document _ statted
      have found : b.tree.find mdPath = some (.file content mtime true) := by
        rw [Tree.find, links _ statted, leads]
        exact file
      have answered := answer_of_succeeds (made _ statted) rfl
      simp only [Crawl.answer, found] at answered
      rw [← Except.ok.inj (Prod.mk.inj answered).1] at large
      exact absurd small (Nat.not_le.mpr large)

end Steps

/-- In every run of truthful calls, no crawl removes what it should not. -/
theorem noSpuriousRemoval_of_reach {X : External} {p : CrawlPool}
    (reach : (world X).Reach (fun _ => True) TruthfulStep p) : NoSpuriousRemoval p := by
  intro t task pre e post split path removes
  have kept := (truthful_hold.reach reach).2 t task
  have made := calls_of_reach reach task
  have links : ∀ f ∈ t.calls, f.before.tree.resolve = p.shared.tree.resolve := fun f hf =>
    (congrArg Tree.resolve (tree_eq (made f hf))).symm.trans (kept.past f hf).symm
  have earlier : ∀ f ∈ pre, f ∈ t.calls := fun f hf => split ▸ List.mem_append_left _ hf
  have gone : ∃ scopeRef, Gone t.cmd pre path scopeRef := by
    have justified := justified_of_reach reach task pre e post split
    rcases removes with ⟨key, op, rfl⟩ | ⟨topic, event, op, rfl⟩
    · rw [Justified, op] at justified
      exact ⟨_, justified.1⟩
    · rw [Justified, op] at justified
      exact ⟨_, justified⟩
  obtain ⟨scopeRef, ⟨before, records, after, listed, record, mem, rfl⟩, missed⟩ := gone
  refine ⟨?_, fun prefixPath hp => ?_⟩
  · obtain ⟨prefixPath, hp, inside⟩ :=
      (kept.made _ (earlier _ listed)).2.2.own _ _ _ _ _ rfl record mem
    refine ⟨prefixPath, hp, ?_⟩
    rw [links e (split ▸ List.mem_append_right _ List.mem_cons_self)]
    rwa [← links _ (earlier _ listed)]
  · by_contra always
    push Not at always
    exact not_missed (fun f hf => made f (earlier f hf))
      (fun f hf => (kept.made f (earlier f hf)).2.2) (fun f hf => links f (earlier f hf)) always
      (missed prefixPath hp)

/-! ### Two runs -/

def checkTruthful (_ : CrawlPool) : Label Op Res HandlerFilesystemCrawler Tree State → Bool
  | .call _ _ ⟨.rglob path glob, before, (results, _), _⟩ =>
    (before.tree.listing path glob).all (· ∈ results)
  | .call _ _ ⟨.stat _, _, .error _, _⟩ => false
  | .call _ crawler ⟨.listStates _ _, before, .ok records, _⟩ =>
    records.all fun record => crawler.prefixPaths.any fun prefixPath =>
      record.sourceRef.isRelativeTo (before.tree.resolve prefixPath)
  | .move _ => false
  | _ => true

theorem truthfulStep_of_check {p : CrawlPool}
    {l : Label Op Res HandlerFilesystemCrawler Tree State} (check : checkTruthful p l = true) :
    TruthfulStep p l := by
  rcases l with c | ⟨i, c, e⟩ | m
  · trivial
  · refine ⟨?_, ?_, ?_⟩
    · rintro path glob before results raised after rfl path' mem
      simp only [checkTruthful, List.all_eq_true, decide_eq_true_eq] at check
      exact check path' mem
    · rintro mdPath before error after rfl
      cases check
    · rintro crawlerType scopeRef before records after rfl record mem
      simp only [checkTruthful, List.all_eq_true, List.any_eq_true] at check
      exact check record mem
  · cases check

/-- A crawl of `"/a"` finds `"/a/x.md"` and removes `"/a/gone.md"`. -/
theorem noSpuriousRemoval_crawlGone : ∃ p : CrawlPool,
    p.shared.records.rows.map (·.sourceRef) = [⟨["/", "a", "x.md"]⟩] ∧ NoSpuriousRemoval p := by
  obtain ⟨p, reach, removed⟩ : ∃ p : CrawlPool,
      (world .plain).Reach
        (· = { plainState (plainTree [97] 1) with
          records := Table.empty.put (goneRecord defaultScopeRef) })
        TruthfulStep p ∧
      decide (p.shared.records.rows.map (·.sourceRef) = [⟨["/", "a", "x.md"]⟩]) = true :=
    World.Reach.of_run checkTruthful _
      (.start (plainCrawler ["/a"] []) :: List.replicate 13 (.call 0 .run))
      (fun _ _ _ => truthfulStep_of_check) (by decide +kernel)
  exact ⟨p, of_decide_eq_true removed,
    noSpuriousRemoval_of_reach (reach.mono (fun _ _ => trivial) fun _ _ met => met)⟩

/-- The last call of a crawl deletes a record of a source that is under none of its prefixes. -/
def deletesForeign (p : CrawlPool) (i : Nat) : Bool :=
  (p.tasks[i]?).any fun t => (t.calls.getLast?).any fun e =>
    match e.op with
    | .deleteState key => t.cmd.prefixPaths.all fun prefixPath =>
        !key.sourceRef.isRelativeTo (e.before.tree.resolve prefixPath)
    | _ => false

/-- A crawl of `"/a"` stores a record in the default scope; a crawl of `"/b"`, which is missing,
covers this scope and deletes the record. -/
theorem not_noSpuriousRemoval_free : ¬ ∀ (X : External) (p : CrawlPool),
    (world X).Reach (fun _ => True) World.Free p → NoSpuriousRemoval p := by
  intro all
  obtain ⟨p, reach, foreign⟩ : ∃ p : CrawlPool,
      (world .plain).Reach (· = plainState (plainTree [97] 1)) World.Free p ∧
        deletesForeign p 1 = true :=
    World.Reach.of_run (fun _ _ => true) _
      (.start (plainCrawler ["/a"] []) :: List.replicate 11 (.call 0 .run) ++
        .start (plainCrawler ["/b"] []) :: List.replicate 4 (.call 1 .run))
      (fun _ _ _ _ => trivial) (by decide +kernel)
  obtain ⟨t, task, foreign⟩ := (Option.any_eq_true _ _).mp foreign
  obtain ⟨e, last, foreign⟩ := (Option.any_eq_true _ _).mp foreign
  obtain ⟨pre, split⟩ := List.getLast?_eq_some_iff.mp last
  split at foreign
  · rename_i key op
    obtain ⟨⟨prefixPath, hp, inside⟩, -⟩ :=
      all .plain p (reach.mono (fun _ _ => trivial) fun _ _ met => met) t
        (List.mem_of_getElem? task) pre e [] split key.sourceRef (.inl ⟨key, op, rfl⟩)
    have outside := List.all_eq_true.mp foreign prefixPath hp
    rw [inside] at outside
    contradiction
  · contradiction

end Crawl

end OmniMemory
