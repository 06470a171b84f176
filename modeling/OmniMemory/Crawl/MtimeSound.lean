import OmniMemory.Crawl.Trace

/-! The mtime fast path. A crawl stores the time of a stat with the fingerprint of a content that it
read later, while files are written and other crawls store records of the same file. If every write
gives a file a time that it never had, a stored pair of a time and a fingerprint can only be right
or out of date, and once it is either it stays so. -/

namespace OmniMemory

open Interleave

namespace Crawl

/-- The file at `path` has, or had, this time. -/
def State.Used (s : State) (path : PurePath) (mtime : Mtime) : Prop :=
  ∃ tree ∈ s.past ++ [s.tree], ∃ node, tree.node path = some node ∧ node.mtime = mtime

/-- What a write replaces: the time and the bytes. -/
def Node.version : Node → Mtime × Option Bytes
  | .file content mtime _ => (mtime, some content)
  | .other _ mtime => (mtime, none)

/-- The tree changes as assumed: links stay, and a file is as it was or has a time that no file at
its path had. -/
structure Fresh (s : State) (tree : Tree) : Prop where
  resolve : tree.resolve = s.tree.resolve
  node : ∀ path node, tree.node path = some node →
    (∃ old, s.tree.node path = some old ∧ node.version = old.version) ∨ ¬ s.Used path node.mtime

def FreshStep (p : CrawlPool) : Label Op Res HandlerFilesystemCrawler Tree State → Prop
  | .move tree => Fresh p.shared tree
  | _ => True

/-- If the time of a record is that of its file, its fingerprint is that of the content. -/
def MtimeSound (s : State) : Prop :=
  ∀ record ∈ s.records, ∀ content mtime readable, record.lastKnownMtime = some mtime →
    s.tree.node record.sourceRef = some (.file content mtime readable) →
    record.contentFingerprint = sha256 content

/-! ### Pairs of a time and a fingerprint -/

/-- A pair that is right or out of date. -/
structure Sound (s : State) (path : PurePath) (mtime : Mtime) (fingerprint : Digest) : Prop where
  used : s.Used path mtime
  right : ∀ content readable, s.tree.node path = some (.file content mtime readable) →
    fingerprint = sha256 content

/-- How the tree evolves: links stay, times stay used, and sound pairs stay sound. -/
structure Evolves (s s' : State) : Prop where
  resolve : s'.tree.resolve = s.tree.resolve
  used : ∀ path mtime, s.Used path mtime → s'.Used path mtime
  sound : ∀ path mtime fingerprint, Sound s path mtime fingerprint →
    Sound s' path mtime fingerprint

theorem Evolves.refl (s : State) : Evolves s s := ⟨rfl, fun _ _ h => h, fun _ _ _ h => h⟩

theorem Evolves.trans {s s' s'' : State} (h1 : Evolves s s') (h2 : Evolves s' s'') :
    Evolves s s'' where
  resolve := h2.resolve.trans h1.resolve
  used path mtime h := h2.used path mtime (h1.used path mtime h)
  sound path mtime fingerprint h := h2.sound path mtime fingerprint (h1.sound _ _ _ h)

theorem Evolves.of_tree_eq {s s' : State} (tree : s'.tree = s.tree) (past : s'.past = s.past) :
    Evolves s s' := by
  have used : ∀ path mtime, s.Used path mtime → s'.Used path mtime := by
    intro path mtime h
    rwa [State.Used, tree, past]
  refine ⟨by rw [tree], used, fun path mtime fingerprint sound => ⟨used _ _ sound.used, ?_⟩⟩
  rw [tree]
  exact sound.right

/-- A file whose time was used before is not written with it again. -/
theorem Fresh.evolves {s : State} {tree : Tree} (fresh : Fresh s tree) :
    Evolves s { s with tree, past := s.past ++ [s.tree] } := by
  have used : ∀ path mtime, s.Used path mtime →
      ({ s with tree, past := s.past ++ [s.tree] } : State).Used path mtime := by
    rintro path mtime ⟨old, mem, stamped⟩
    exact ⟨old, List.mem_append_left _ mem, stamped⟩
  refine ⟨fresh.resolve, used, fun path mtime fingerprint sound => ⟨used _ _ sound.used, ?_⟩⟩
  intro content readable here
  rcases fresh.node path _ here with ⟨old, there, same⟩ | new
  · rcases old with ⟨content', mtime', readable'⟩ | ⟨size, mtime'⟩
    · cases same
      exact sound.right _ _ there
    · cases same
  · exact absurd sound.used new

/-! ### Runs -/

def RecordSound (s : State) (record : ModelCrawlStateRecord) : Prop :=
  ∃ mtime, record.lastKnownMtime = some mtime ∧
    Sound s record.sourceRef mtime record.contentFingerprint

section Steps

variable {X : External} {init : State → Prop} {p : CrawlPool}
  {t : Task Op Res (Except PyError ModelFilesystemCrawlResult) HandlerFilesystemCrawler State}

theorem evolves_hold : (Contract.timeline (fun _ _ => True) Evolves).Holds (world X) init FreshStep
    fun _ _ _ _ => True := by
  refine Contract.timeline_holds Evolves.refl (fun _ _ _ => Evolves.trans)
    (fun _ _ _ _ _ => trivial) ?_ ?_
  · exact fun _ e call _ => .of_tree_eq (tree_eq call) (past_eq call)
  · intro p tree after fresh moved
    cases moved
    exact fresh.evolves

theorem used_of_stat {mdPath : PurePath} {st : Stat} {before after : State}
    (call : (world X).Calls ⟨.stat mdPath, before, .ok st, after⟩) :
    before.Used (before.tree.resolve mdPath) st.mtime := by
  have answered := answer_of_succeeds call rfl
  simp only [Crawl.answer] at answered
  split at answered
  · rename_i node here
    cases answered
    exact ⟨before.tree, by simp, node, here, rfl⟩
  · cases answered

theorem sound_of_read {mdPath : PurePath} {content : Bytes} {mtime : Mtime} {before after : State}
    (call : (world X).Calls ⟨.readBytes mdPath, before, .ok content, after⟩)
    (used : before.Used (before.tree.resolve mdPath) mtime) :
    Sound before (before.tree.resolve mdPath) mtime (sha256 content) := by
  refine ⟨used, fun content' readable here => ?_⟩
  have answered := answer_of_succeeds call rfl
  simp only [Crawl.answer] at answered
  split at answered
  · rename_i found
    cases answered
    obtain ⟨node, there, read⟩ := Option.bind_eq_some_iff.mp found
    cases there.symm.trans here
    cases readable
    · cases read
    · cases read
      rfl
  · cases answered

theorem recordSound_of_sampled (reach : (world X).Reach init FreshStep p) (task : t ∈ p.tasks)
    (past : ∀ e ∈ t.calls, ∀ prior ∈ e.before.records, RecordSound e.before prior)
    {record : ModelCrawlStateRecord} (sampled : Sampled t.calls record) :
    RecordSound p.shared record := by
  have kept := (evolves_hold.reach reach).2 t task
  have calls := calls_of_reach reach task
  have now : ∀ e ∈ t.calls, Evolves e.before p.shared := fun e he =>
    (Evolves.of_tree_eq (tree_eq (calls e he)) (past_eq (calls e he))).trans (kept.past e he)
  obtain ⟨mdPath, st, ⟨b, a, resolved⟩, mtime, source⟩ := sampled
  refine ⟨st.mtime, mtime, ?_⟩
  rcases source with ⟨prior, ⟨key, b', a', got⟩, same, mtime', hash⟩ |
    ⟨content, ⟨b₁, a₁, b₂, a₂, order⟩, hash⟩
  · -- The record that was there is a sound pair since it was got.
    obtain ⟨mem, -, -⟩ := got_cases (calls _ got)
    obtain ⟨mtime'', there, pair⟩ := past _ got prior mem
    obtain rfl := Option.some.inj (there.symm.trans mtime')
    have ref : prior.sourceRef = record.sourceRef := congrArg CrawlStateKey.sourceRef same
    rw [← hash, ← ref]
    exact (now _ got).sound _ _ _ pair
  · -- The time was in use at the stat, so it still was when the content was read.
    have statted := order.subset List.mem_cons_self
    have read := order.subset (List.mem_cons_of_mem _ List.mem_cons_self)
    have between : Evolves a₁ b₂ :=
      (List.pairwise_cons.mp (kept.order.sublist order)).1 _ List.mem_cons_self
    have path : p.shared.tree.resolve mdPath = record.sourceRef := by
      rw [(now _ resolved).resolve]
      exact Except.ok.inj (Prod.mk.inj (answer_of_succeeds (calls _ resolved) rfl)).1
    have used := used_of_stat (calls _ statted)
    rw [← (now _ statted).resolve, path] at used
    have used' : b₂.Used (b₂.tree.resolve mdPath) st.mtime := by
      rw [← (now _ read).resolve, path]
      refine between.used _ _ ?_
      exact (Evolves.of_tree_eq (tree_eq (calls _ statted)) (past_eq (calls _ statted))).used _ _
        used
    have pair := sound_of_read (calls _ read) used'
    rw [hash, ← path, (now _ read).resolve]
    exact (now _ read).sound _ _ _ pair

end Steps

/-- In every run whose writes give files times that they never had, the fast path is sound. -/
theorem mtimeSound_of_reach {X : External} {p : CrawlPool}
    (reach : (world X).Reach (·.records = Table.empty) FreshStep p) : MtimeSound p.shared := by
  have keep := recordsKeep_of_reach (P := RecordSound) evolves_hold ?_ ?_ ?_ reach
  · intro record mem content mtime readable known here
    obtain ⟨mtime', known', pair⟩ := keep.now record mem
    obtain rfl := Option.some.inj (known.symm.trans known')
    exact pair.right content readable here
  · rintro s s' record evolves ⟨mtime, known, pair⟩
    exact ⟨mtime, known, evolves.sound _ _ _ pair⟩
  · intro s empty record mem
    simp [empty] at mem
  · exact fun p t record reach task past sampled _ => recordSound_of_sampled reach task past sampled

/-! ### A run with a write between the stat and the read -/

/-- A crawl of `"/a"` up to the stat of `"/a/x.md"`. -/
def toStat : List (Act HandlerFilesystemCrawler Choice Tree) :=
  .start (plainCrawler ["/a"] []) :: List.replicate 5 (.call 0 .run)

def atStat : CrawlPool :=
  ((world .plain).schedule (fun _ l => !l.isMove) ⟨plainState (plainTree [97] 1), []⟩ toStat).getD
    ⟨plainState (plainTree [97] 1), []⟩

theorem atStat_reach : (world .plain).Reach (· = plainState (plainTree [97] 1))
    (fun _ l => l.isMove = false) atStat := by
  obtain ⟨p, run⟩ := Option.isSome_iff_exists.mp (show ((world .plain).schedule
    (fun _ l => !l.isMove) ⟨plainState (plainTree [97] 1), []⟩ toStat).isSome = true by
      decide +kernel)
  rw [atStat, run]
  exact World.Reach.of_schedule (fun _ _ _ still => by simpa using still) (.init rfl) run

theorem fresh_atStat : Fresh atStat.shared (plainTree [98] 2) := by
  obtain ⟨tree, past⟩ := tree_of_reach atStat_reach
  refine ⟨by rw [tree]; rfl, fun path node here => ?_⟩
  by_cases file : path = ⟨["/", "a", "x.md"]⟩
  · subst file
    right
    rintro ⟨old, mem, node', there, same⟩
    rw [past, tree] at mem
    obtain rfl := List.mem_singleton.mp mem
    cases here
    cases there
    cases same
  · left
    refine ⟨node, ?_, rfl⟩
    rw [tree]
    change List.lookup path _ = some node at here
    change List.lookup path _ = some node
    have other : (path == ⟨["/", "a", "x.md"]⟩) = false := beq_eq_false_iff_ne.mpr file
    simp only [List.lookup_cons, other] at here ⊢
    exact here

def afterWrite : CrawlPool :=
  ⟨{ atStat.shared with
      tree := plainTree [98] 2, past := atStat.shared.past ++ [atStat.shared.tree] }, atStat.tasks⟩

theorem freshStep_of_still {p : CrawlPool} {l : Label Op Res HandlerFilesystemCrawler Tree State}
    (still : l.isMove = false) : FreshStep p l := by
  cases l with
  | move m => cases still
  | _ => trivial

theorem afterWrite_reach :
    (world .plain).Reach (·.records = Table.empty) FreshStep afterWrite := by
  refine .step (l := .move (plainTree [98] 2)) (atStat_reach.mono ?_ ?_) fresh_atStat (.move rfl)
  · rintro s rfl
    rfl
  · exact fun _ _ => freshStep_of_still

/-- The file is written before it is read: the crawl stores the time of the old content with the
fingerprint of the new one, which are a sound pair. -/
theorem mtimeSound_writeBeforeRead : ∃ p : CrawlPool,
    p.shared.records.rows.map (fun record => (record.lastKnownMtime, record.contentFingerprint)) =
      [(some 1, sha256 [98])] ∧ MtimeSound p.shared := by
  obtain ⟨p, run, stored⟩ := (Option.any_eq_true _ _).mp (show ((world .plain).schedule
    (fun _ l => !l.isMove) afterWrite (List.replicate 6 (.call 0 .run))).any (fun p =>
      decide (p.shared.records.rows.map (fun record =>
        (record.lastKnownMtime, record.contentFingerprint)) = [(some 1, sha256 [98])])) = true by
          decide +kernel)
  refine ⟨p, of_decide_eq_true stored, mtimeSound_of_reach (X := .plain)
    (World.Reach.of_schedule ?_ afterWrite_reach run)⟩
  exact fun _ _ _ still => freshStep_of_still (by simpa using still)

end Crawl

end OmniMemory
