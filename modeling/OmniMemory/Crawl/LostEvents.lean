import OmniMemory.Crawl.Trace

/-! Stored records and events. The publish callback may raise, and the crawl goes on as if it had
not: a record is stored after its event was given to the callback, whatever came of it, and a record
is deleted after its removed event was. -/

namespace OmniMemory

open Interleave

namespace Crawl

/-- Among the calls of the callback that count as `sent` there is a discovered or a changed event
for every stored record, and before a record was deleted there was a removed event for it. -/
structure NoLostEvent (sent : Publication → Prop) (p : CrawlPool) : Prop where
  stored : ∀ record ∈ p.shared.records, ∃ publication ∈ p.shared.publications,
    sent publication ∧ publication.event.Announces record.sourceRef record.contentFingerprint
  deleted : ∀ t ∈ p.tasks, ∀ e ∈ t.calls, ∀ record ∈ e.before.records,
    e.after.records.find? record.key = none → ∃ publication ∈ e.before.publications,
      sent publication ∧ ∃ event, publication.event = .removed event ∧
        event.sourceRef = record.sourceRef ∧ event.scopeRef = record.scopeRef

section Steps

variable {X : External} {init : State → Prop} {p : CrawlPool}
  {t : Task Op Res (Except PyError ModelFilesystemCrawlResult) HandlerFilesystemCrawler State}

theorem publications_subset {e : CrawlCall} (call : (world X).Calls e) :
    e.before.publications ⊆ e.after.publications := by
  rcases publications_cases call with ⟨topic, event, raised, -, same⟩ | ⟨-, same⟩
  · rw [same]
    exact List.subset_append_left _ _
  · rw [same]
    exact List.Subset.refl _

theorem publications_hold : (Contract.timeline (fun _ _ => True) fun s s' : State =>
    s.publications ⊆ s'.publications).Holds (world X) init World.Free fun _ _ _ _ => True := by
  refine Contract.timeline_holds (fun _ => List.Subset.refl _) (fun _ _ _ => List.Subset.trans)
    (fun _ _ _ _ _ => trivial) (fun _ e call _ => publications_subset call) ?_
  intro p tree after _ moved
  cases moved
  exact List.Subset.refl _

theorem sent_of_call {topic : String} {event : CrawlEvent} {before after : State}
    {answer : Except PyError Unit}
    (call : (world X).Calls ⟨.publish topic event, before, answer, after⟩) :
    ∃ publication ∈ after.publications, publication.event = event := by
  rcases publications_cases call with ⟨topic', event', raised, same, publications⟩ | ⟨other, -⟩
  · cases same
    refine ⟨⟨topic, event, raised⟩, ?_, rfl⟩
    dsimp only at publications
    rw [publications]
    exact List.mem_append_right _ (List.mem_singleton_self _)
  · exact absurd rfl (other topic event)

def Told (s : State) (record : ModelCrawlStateRecord) : Prop :=
  ∃ publication ∈ s.publications,
    publication.event.Announces record.sourceRef record.contentFingerprint

theorem told_of_known (reach : (world X).Reach init World.Free p) (task : t ∈ p.tasks)
    (past : ∀ e ∈ t.calls, ∀ prior ∈ e.before.records, Told e.before prior)
    {record : ModelCrawlStateRecord} (known : Known t.calls record) : Told p.shared record := by
  rcases known with ⟨prior, ⟨key, b, a, got⟩, same, hash⟩ |
    ⟨topic, event, b, answer, a, mem, announces⟩
  · obtain ⟨mem, -, rfl⟩ := got_cases (calls_of_reach reach task _ got)
    obtain ⟨publication, sent, announces⟩ := past _ got prior mem
    have ref : prior.sourceRef = record.sourceRef := congrArg CrawlStateKey.sourceRef same
    refine ⟨publication, ((publications_hold.reach reach).2 t task).past _ got sent, ?_⟩
    rw [← hash, ← ref]
    exact announces
  · obtain ⟨publication, sent, rfl⟩ := sent_of_call (calls_of_reach reach task _ mem)
    exact ⟨publication, ((publications_hold.reach reach).2 t task).past _ mem sent, announces⟩

theorem deleteState_of_missing {e : CrawlCall} (call : (world X).Calls e)
    {record : ModelCrawlStateRecord} (here : record ∈ e.before.records)
    (missing : e.after.records.find? record.key = none) : e.op = .deleteState record.key := by
  have there : e.before.records.find? record.key = some record :=
    Table.find?_eq_some.mpr ⟨here, rfl⟩
  rcases records_cases call with same | ⟨record', -, put⟩ | ⟨key, op, erased⟩
  · rw [same, there] at missing
    contradiction
  · rw [put, Table.find?_put, there] at missing
    split at missing <;> contradiction
  · rw [erased, Table.find?_erase, there] at missing
    split at missing
    · rename_i same
      rw [op, same]
    · contradiction

end Steps

/-- In every run of crawls, whatever the callback raises, records are stored and deleted only after
their events were given to the callback. -/
theorem noLostEvent_of_reach {X : External} {p : CrawlPool}
    (reach : (world X).Reach (·.records = Table.empty) World.Free p) :
    NoLostEvent (fun _ => True) p := by
  refine ⟨fun record mem => ?_, ?_⟩
  · have keep := recordsKeep_of_reach (P := Told) publications_hold ?_ ?_ ?_ reach
    · obtain ⟨publication, sent, announces⟩ := keep.now record mem
      exact ⟨publication, sent, trivial, announces⟩
    · rintro s s' record later ⟨publication, sent, announces⟩
      exact ⟨publication, later sent, announces⟩
    · intro s empty record mem
      simp [empty] at mem
    · exact fun p t record reach task past _ known => told_of_known reach task past known
  · intro t task e mem record here missing
    have op := deleteState_of_missing (calls_of_reach reach task e mem) here missing
    obtain ⟨pre, post, split⟩ := List.append_of_mem mem
    have justified := justified_of_reach reach task pre e post split
    rw [Justified, op] at justified
    obtain ⟨-, topic, event, b, answer, a, sent, ref, scope⟩ := justified
    -- The removed event was given to the callback by the same crawl, before this call.
    obtain ⟨publication, there, same⟩ := sent_of_call
      (calls_of_reach reach task _ (split ▸ List.mem_append_left _ sent))
    have order := ((publications_hold.reach reach).2 t task).order
    rw [split] at order
    have later := (List.pairwise_append.mp order).2.2 _ sent e List.mem_cons_self
    exact ⟨publication, later there, trivial, event, same, ref, scope⟩

/-- A crawl of a new file, on which the callback raises. -/
def crawlRaised : List (Act HandlerFilesystemCrawler Choice Tree) :=
  .start (plainCrawler ["/a"] []) :: List.replicate 7 (.call 0 .run) ++
    [.call 0 (.fail (.other "bus down")), .call 0 (.fail (.other "bus down")), .call 0 .run]

theorem noLostEvent_crawlRaised : ∃ p : CrawlPool, p.shared.records.rows.length = 1 ∧
    NoLostEvent (fun _ => True) p := by
  obtain ⟨p, reach, one⟩ : ∃ p : CrawlPool,
      (world .plain).Reach (· = plainState (plainTree [97] 1)) World.Free p ∧
        decide (p.shared.records.rows.length = 1) = true :=
    World.Reach.of_run (fun _ _ => true) _ crawlRaised (fun _ _ _ _ => trivial) (by decide +kernel)
  refine ⟨p, of_decide_eq_true one, noLostEvent_of_reach (reach.mono ?_ fun _ _ met => met)⟩
  rintro s rfl
  rfl

/-- The record is stored though no call of the callback returned. -/
theorem not_noLostEvent_crawlRaised : ¬ ∀ (X : External) (p : CrawlPool),
    (world X).Reach (·.records = Table.empty) World.Free p →
      NoLostEvent (fun publication => publication.raised = none) p := by
  intro all
  obtain ⟨p, reach, wrong⟩ : ∃ p : CrawlPool,
      (world .plain).Reach (· = plainState (plainTree [97] 1)) World.Free p ∧
        decide (p.shared.records.rows.length = 1 ∧
          p.shared.publications.all (·.raised.isSome) = true) = true :=
    World.Reach.of_run (fun _ _ => true) _ crawlRaised (fun _ _ _ _ => trivial) (by decide +kernel)
  obtain ⟨one, raised⟩ := of_decide_eq_true wrong
  obtain ⟨record, rows⟩ := List.length_eq_one_iff.mp one
  have mem : record ∈ p.shared.records := by
    rw [Table.mem_def, rows]
    exact List.mem_singleton_self _
  obtain ⟨publication, sent, returned, -⟩ := (all .plain p
    (reach.mono (by rintro s rfl; rfl) fun _ _ met => met)).stored record mem
  have := List.all_eq_true.mp raised publication sent
  rw [returned] at this
  contradiction

end Crawl

end OmniMemory
