import OmniMemory.Embedding.Batch
import OmniMemory.Embedding.HttpClient

/-! What a batch of the HTTP client comes to. However its tasks interleave with each other and with other
tasks that use the client and its limiter: no more requests are under way than allowed, each text is sent
at most once, every request was granted by the limiter when it was sent, and the batch returns the
embeddings in the order of the texts. -/

namespace OmniMemory

open Interleave Asyncio SlidingWindow
open OmniMemory.Embedding (EmbeddingError ofTask ofTask_nil ofTask_concat_self ofTask_concat_other)
open ProviderRateLimiter (Acquiring Answer Between Clocked Entry Limits Unused Waiting)
open Semantic (EntityData PyJson)

namespace ProviderRateLimiter

variable {self : ProviderRateLimiter} {waiting : Waiting} {now called pause : ℚ} {tokens : ℤ} {i : Nat}
  {sh sh' : Clocked} {t : Acquiring}

/-- What a call of `acquire` leaves, at its first sleep, at a later one or at its end: it has returned when
its tokens were granted. -/
structure Asks (limiter : ProviderRateLimiter) (now : ℚ) (tokens : ℤ) (sh : Clocked) (t : Acquiring)
    (sh' : Clocked) : Prop where
  between : Between limiter now sh'.granted sh'.guarded
  clock : sh'.clock = now
  granted : ∀ answer, t = .returned answer → sh'.granted = sh.granted ++ [(now, tokens)]
  more : ∃ new, sh'.granted = sh.granted ++ new

theorem attempt_asks (between : Between self now sh.granted sh.guarded)
    (ran : self.attempt waiting i called now tokens pause sh = some (t, sh')) :
    Asks self now tokens sh t sh' := by
  have permitted := permit_permitted i tokens between
  have grants : (self.permit i now tokens sh).2.granted =
      sh.granted ++ (Call.entry ⟨i, false, now, tokens⟩ (self.permit i now tokens sh).1).toList := rfl
  simp only [attempt] at ran
  generalize self.permit i now tokens sh = out at permitted grants ran
  obtain ⟨answer, after⟩ := out
  cases answer with
  | waits => cases ran
  | granted =>
    cases ran
    exact ⟨permitted.between, permitted.clock, fun _ _ => grants, permitted.more⟩
  | valueError text =>
    cases ran
    exact ⟨permitted.between, permitted.clock, by rintro _ ⟨⟩, permitted.more⟩
  | refused =>
    cases ran
    exact ⟨permitted.between, permitted.clock, by rintro _ ⟨⟩, permitted.more⟩

theorem acquire_asks (between : Between self now sh.granted sh.guarded)
    (ran : self.acquire waiting i called now tokens sh = some (t, sh')) :
    Asks self now tokens sh t sh' := by
  simp only [acquire] at ran
  split_ifs at ran with invalid large
  · cases ran
    exact ⟨between, rfl, by rintro _ ⟨⟩, [], by simp⟩
  · cases ran
    exact ⟨between, rfl, by rintro _ ⟨⟩, [], by simp⟩
  · exact attempt_asks between ran

end ProviderRateLimiter

namespace EmbeddingHttp

open EmbeddingHttpClient

variable {self : EmbeddingHttpClient} {str : PyJson → String} {correlationId : String}

/-! ### The limiter -/

/-- The requests of the batch, as the limiter counts them. -/
def Wire.sent (w : Wire) : List Entry := w.requests.map fun request => (request.2.1, 1)

/-- Every request was granted at the time at which it was sent. -/
def Granted (self : EmbeddingHttpClient) (w : Wire) : Prop :=
  ∀ limiter ∈ self.rateLimiter, Between limiter.1 w.limiter.clock w.limiter.granted w.limiter.guarded ∧
    w.sent.Sublist w.limiter.granted

section Granted

variable {i : Nat} {text : String} {w w' : Wire} {limiter : ProviderRateLimiter} {waiting : Waiting}
  {step : Step} {sh : Clocked} {t : Acquiring} {now : ℚ}

variable (self correlationId) in
theorem executeEmbeddingRequest_cases (i : Nat) (text : String) (w : Wire) :
    (self.executeEmbeddingRequest correlationId i text w).2 = w ∨
      (self.executeEmbeddingRequest correlationId i text w).2 = { w with
        requests := w.requests ++ [(i, w.limiter.clock, self.buildEnvelope correlationId text)] } := by
  rw [executeEmbeddingRequest]
  split
  · exact .inr rfl
  · exact .inl rfl

theorem acquired_granted (limited : self.rateLimiter = some (limiter, waiting))
    (sent : w.sent.Sublist w.limiter.granted)
    (asks : ProviderRateLimiter.Asks limiter w.limiter.clock 1 w.limiter t sh)
    (ran : self.acquired correlationId i text w (t, sh) = some step) : Granted self step.2 := by
  obtain ⟨between, clock, granted, new, more⟩ := asks
  intro other mem
  obtain rfl : (limiter, waiting) = other := Option.some.inj (limited.symm.trans mem)
  rw [← clock] at between
  have kept : w.sent.Sublist sh.granted := by
    rw [more]
    exact sent.trans (List.sublist_append_left _ _)
  cases t with
  | returned answer =>
    obtain rfl := Option.some.inj ran
    rcases executeEmbeddingRequest_cases self correlationId i text { w with limiter := sh } with
      same | request
    · rw [same]
      exact ⟨between, kept⟩
    · rw [request]
      refine ⟨between, ?_⟩
      rw [granted answer rfl, ← clock]
      simpa [Wire.sent] using sent.append (List.Sublist.refl [(sh.clock, (1 : ℤ))])
  | raised message =>
    obtain rfl := Option.some.inj ran
    exact ⟨between, kept⟩
  | sleeps called tokens pause wake =>
    obtain rfl := Option.some.inj ran
    exact ⟨between, kept⟩
  | _ => cases ran

theorem acquire_granted (granted : Granted self w) :
    Granted self (self.acquire correlationId i text w).2 := by
  rw [EmbeddingHttpClient.acquire]
  split
  · rename_i none
    intro limiter mem
    rw [none] at mem
    cases mem
  · rename_i limiter waiting limited
    obtain ⟨between, sent⟩ := granted _ limited
    cases ran : limiter.acquire waiting i w.limiter.clock w.limiter.clock 1 w.limiter with
    | none => simpa [ran] using granted
    | some out =>
      obtain ⟨t, sh⟩ := out
      have asks := ProviderRateLimiter.acquire_asks between ran
      cases goes : self.acquired correlationId i text w (t, sh) with
      | none => simpa [ran, goes] using granted
      | some step => simpa [ran, goes] using acquired_granted limited sent asks goes

theorem getEmbedding_granted (granted : Granted self w) :
    Granted self (self.getEmbedding correlationId i text w).2 := by
  rw [getEmbedding]
  split
  · exact granted
  · split
    · exact acquire_granted granted
    · exact granted

theorem resume_granted (granted : Granted self w) {ch : Choice} {pc : Pc}
    (resumed : self.resume str correlationId i ch text pc w = some step) : Granted self step.2 := by
  cases ch with
  | initialized =>
    cases pc with
    | initializing =>
      obtain rfl := Option.some.inj resumed
      exact acquire_granted granted
    | _ => cases resumed
  | initializeRaised message =>
    cases pc with
    | initializing => exact Option.some.inj resumed ▸ granted
    | _ => cases resumed
  | wakes =>
    cases pc with
    | locked called =>
      obtain rfl := Option.some.inj resumed
      exact acquire_granted granted
    | sleeping called pause wake =>
      unfold EmbeddingHttpClient.resume at resumed
      dsimp only at resumed
      split at resumed
      · cases resumed
      · rename_i limiter waiting limited
        split at resumed
        · obtain ⟨between, sent⟩ := granted _ limited
          obtain ⟨⟨t, sh⟩, ran, goes⟩ := Option.bind_eq_some_iff.mp resumed
          exact acquired_granted limited sent (ProviderRateLimiter.attempt_asks between ran) goes
        · cases resumed
    | _ => cases resumed
  | answers reply =>
    cases pc with
    | requesting => exact Option.some.inj resumed ▸ granted
    | _ => cases resumed
  | cancelled =>
    cases pc with
    | requesting => cases resumed
    | _ => exact Option.some.inj resumed ▸ granted

theorem change_granted (granted : Granted self w) (c : Change) : Granted self (self.change c w) := by
  cases c with
  | ticks now =>
    intro limiter mem
    obtain ⟨between, sent⟩ := granted limiter mem
    exact ⟨⟨between.lock, between.keeps.later (le_max_left _ _)⟩, sent⟩
  | tryAcquires tokens =>
    simp only [EmbeddingHttpClient.change]
    split
    · exact granted
    · rename_i limiter waiting limited
      obtain ⟨between, sent⟩ := granted _ limited
      have permitted := ProviderRateLimiter.permit_permitted 0 tokens between
      obtain ⟨new, more⟩ := permitted.more
      intro other mem
      obtain rfl : (limiter, waiting) = other := Option.some.inj (limited.symm.trans mem)
      refine ⟨?_, ?_⟩
      · show Between limiter (limiter.permit 0 w.limiter.clock tokens w.limiter).2.clock _ _
        rw [permitted.clock]
        exact permitted.between
      · show w.sent.Sublist (limiter.permit 0 w.limiter.clock tokens w.limiter).2.granted
        rw [more]
        exact sent.trans (List.sublist_append_left _ _)
  | _ => exact granted

theorem leaves_granted {j : Nat} (granted : Granted self w)
    (leaves : (self.embedding str correlationId).Leaves j w w') : Granted self w' := by
  cases leaves with
  | enter text => exact getEmbedding_granted granted
  | resume resumed => exact resume_granted granted resumed

end Granted

/-! ### The requests -/

/-- What is left when `get_embedding` has ended with its requests and replies. -/
inductive Ended (self : EmbeddingHttpClient) (str : PyJson → String) (correlationId text : String) :
    List Envelope → List Reply → Except EmbeddingError (List PyJson) → Prop where
  | empty (blank : isBlank text = true) :
    Ended self str correlationId text [] [] (.error (.embeddingClientError "Text cannot be empty"))
  | notInitialized (some : isBlank text = false) :
    Ended self str correlationId text [] []
      (.error (.embeddingClientError "Client not initialized - call initialize() first"))
  | raised (message : String) : Ended self str correlationId text [] [] (.error (.other message))
  | served (some : isBlank text = false) (reply : Reply) :
    Ended self str correlationId text [self.buildEnvelope correlationId text] [reply]
      (self.judge str correlationId false reply)

/-- The requests of a task. -/
def requestsOf (i : Nat) (w : Wire) : List Envelope := (ofTask i w.requests).map Prod.snd

/-- A task that has sent nothing. -/
def Unsent (i : Nat) (w : Wire) : Prop := requestsOf i w = [] ∧ ofTask i w.replies = []

/-- A task that has come to its text. -/
def Sent (self : EmbeddingHttpClient) (str : PyJson → String) (correlationId : String) (i : Nat)
    (text : String) (step : Pc ⊕ Except EmbeddingError (List PyJson)) (w : Wire) : Prop :=
  match step with
  | .inl .requesting => isBlank text = false ∧
      requestsOf i w = [self.buildEnvelope correlationId text] ∧ ofTask i w.replies = []
  | .inl _ => isBlank text = false ∧ Unsent i w
  | .inr out => Ended self str correlationId text (requestsOf i w) (ofTask i w.replies) out

section Sent

variable {i j : Nat} {text : String} {w w' : Wire} {step : Step} {out : Acquiring × Clocked}

theorem Unsent.ends {e : EmbeddingError} (unsent : Unsent i w)
    (ended : Ended self str correlationId text [] [] (.error e)) :
    Sent self str correlationId i text (.inr (.error e)) w := by
  obtain ⟨requests, replies⟩ := unsent
  rw [Sent, requests, replies]
  exact ended

theorem executeEmbeddingRequest_sent (some : isBlank text = false) (unsent : Unsent i w) :
    Sent self str correlationId i text (self.executeEmbeddingRequest correlationId i text w).1
      (self.executeEmbeddingRequest correlationId i text w).2 := by
  rw [executeEmbeddingRequest]
  split
  · obtain ⟨requests, replies⟩ := unsent
    refine ⟨some, ?_, replies⟩
    simp only [requestsOf] at requests ⊢
    simp [requests]
  · exact unsent.ends (.notInitialized some)

theorem acquired_sent (some : isBlank text = false) (unsent : Unsent i w)
    (goes : self.acquired correlationId i text w out = Option.some step) :
    Sent self str correlationId i text step.1 step.2 := by
  obtain ⟨t, sh⟩ := out
  cases t with
  | returned answer =>
    obtain rfl := Option.some.inj goes
    exact executeEmbeddingRequest_sent some unsent
  | raised message =>
    obtain rfl := Option.some.inj goes
    exact Unsent.ends unsent (.raised message)
  | sleeps called tokens pause wake =>
    obtain rfl := Option.some.inj goes
    exact ⟨some, unsent⟩
  | _ => cases goes

theorem acquire_sent (some : isBlank text = false) (unsent : Unsent i w) :
    Sent self str correlationId i text (self.acquire correlationId i text w).1
      (self.acquire correlationId i text w).2 := by
  rw [EmbeddingHttpClient.acquire]
  split
  · exact executeEmbeddingRequest_sent some unsent
  · rename_i limiter waiting limited
    cases goes : (limiter.acquire waiting i w.limiter.clock w.limiter.clock 1 w.limiter).bind
        (self.acquired correlationId i text w) with
    | none =>
      simp only [goes, Option.getD_none]
      exact ⟨some, unsent⟩
    | some step =>
      obtain ⟨out, -, ended⟩ := Option.bind_eq_some_iff.mp goes
      simpa [goes] using acquired_sent some unsent ended

theorem getEmbedding_sent (unsent : Unsent i w) :
    Sent self str correlationId i text (self.getEmbedding correlationId i text w).1
      (self.getEmbedding correlationId i text w).2 := by
  rw [getEmbedding]
  split
  · exact unsent.ends (.empty ‹_›)
  · rename_i some
    have some : isBlank text = false := by simpa using some
    split
    · exact acquire_sent some unsent
    · exact ⟨some, unsent⟩

theorem resume_sent {ch : Choice} {pc : Pc} (sent : Sent self str correlationId i text (.inl pc) w)
    (resumed : self.resume str correlationId i ch text pc w = some step) :
    Sent self str correlationId i text step.1 step.2 := by
  cases ch with
  | initialized =>
    cases pc with
    | initializing =>
      obtain rfl := Option.some.inj resumed
      exact acquire_sent sent.1 sent.2
    | _ => cases resumed
  | initializeRaised message =>
    cases pc with
    | initializing =>
      obtain rfl := Option.some.inj resumed
      exact sent.2.ends (.raised message)
    | _ => cases resumed
  | wakes =>
    cases pc with
    | locked called =>
      obtain rfl := Option.some.inj resumed
      exact acquire_sent sent.1 sent.2
    | sleeping called pause wake =>
      unfold EmbeddingHttpClient.resume at resumed
      dsimp only at resumed
      split at resumed
      · cases resumed
      · split at resumed
        · obtain ⟨out, -, ended⟩ := Option.bind_eq_some_iff.mp resumed
          exact acquired_sent sent.1 sent.2 ended
        · cases resumed
    | _ => cases resumed
  | answers reply =>
    cases pc with
    | requesting =>
      obtain ⟨some, requests, replies⟩ := sent
      obtain rfl := Option.some.inj resumed
      show Ended self str correlationId text (requestsOf i w) (ofTask i (w.replies ++ [(i, reply)])) _
      rw [requests, ofTask_concat_self, replies]
      exact .served some reply
    | _ => cases resumed
  | cancelled =>
    cases pc with
    | requesting => cases resumed
    | _ =>
      obtain rfl := Option.some.inj resumed
      exact sent.2.ends (.raised "CancelledError")

/-- What a task finds of its own requests and replies. -/
def Same (i : Nat) (w w' : Wire) : Prop :=
  ofTask i w'.requests = ofTask i w.requests ∧ ofTask i w'.replies = ofTask i w.replies

theorem executeEmbeddingRequest_same (apart : i ≠ j) (text : String) (w : Wire) :
    Same i w (self.executeEmbeddingRequest correlationId j text w).2 := by
  rcases executeEmbeddingRequest_cases self correlationId j text w with same | request
  · rw [same]
    exact ⟨rfl, rfl⟩
  · rw [request]
    exact ⟨ofTask_concat_other apart, rfl⟩

theorem acquired_same (apart : i ≠ j) (goes : self.acquired correlationId j text w out = some step) :
    Same i w step.2 := by
  obtain ⟨t, sh⟩ := out
  cases t with
  | returned answer =>
    obtain rfl := Option.some.inj goes
    exact executeEmbeddingRequest_same apart text { w with limiter := sh }
  | raised message => exact Option.some.inj goes ▸ ⟨rfl, rfl⟩
  | sleeps called tokens pause wake => exact Option.some.inj goes ▸ ⟨rfl, rfl⟩
  | _ => cases goes

variable (self correlationId) in
theorem acquire_same (apart : i ≠ j) (text : String) (w : Wire) :
    Same i w (self.acquire correlationId j text w).2 := by
  rw [EmbeddingHttpClient.acquire]
  split
  · exact executeEmbeddingRequest_same apart text w
  · rename_i limiter waiting limited
    cases goes : (limiter.acquire waiting j w.limiter.clock w.limiter.clock 1 w.limiter).bind
        (self.acquired correlationId j text w) with
    | none => exact ⟨by simp [goes], by simp [goes]⟩
    | some step =>
      obtain ⟨out, -, ended⟩ := Option.bind_eq_some_iff.mp goes
      simpa [goes] using acquired_same apart ended

/-- Only a task itself sends its requests and gets its replies. -/
theorem leaves_same (apart : i ≠ j) (leaves : (self.embedding str correlationId).Leaves j w w') :
    Same i w w' := by
  cases leaves with
  | enter text =>
    show Same i w (self.getEmbedding correlationId j text w).2
    rw [getEmbedding]
    split
    · exact ⟨rfl, rfl⟩
    · split
      · exact acquire_same self correlationId apart text w
      · exact ⟨rfl, rfl⟩
  | @resume ch text pc step _ resumed =>
    have resumed : self.resume str correlationId j ch text pc w = some (step, w') := resumed
    cases ch with
    | initialized =>
      cases pc with
      | initializing =>
        have same := acquire_same self correlationId apart text
          { w with initialized := true, handler := true }
        rw [Option.some.inj resumed] at same
        exact same
      | _ => cases resumed
    | initializeRaised message =>
      cases pc with
      | initializing => cases resumed; exact ⟨rfl, rfl⟩
      | _ => cases resumed
    | wakes =>
      cases pc with
      | locked called =>
        have same := acquire_same self correlationId apart text w
        rw [Option.some.inj resumed] at same
        exact same
      | sleeping called pause wake =>
        unfold EmbeddingHttpClient.resume at resumed
        dsimp only at resumed
        split at resumed
        · cases resumed
        · split at resumed
          · obtain ⟨out, -, ended⟩ := Option.bind_eq_some_iff.mp resumed
            exact acquired_same apart ended
          · cases resumed
      | _ => cases resumed
    | answers reply =>
      cases pc with
      | requesting => cases resumed; exact ⟨rfl, ofTask_concat_other apart⟩
      | _ => cases resumed
    | cancelled =>
      cases pc with
      | requesting => cases resumed
      | _ => cases resumed; exact ⟨rfl, rfl⟩

theorem change_same (c : Change) (w : Wire) : Same i w (self.change c w) := by
  cases c with
  | tryAcquires tokens =>
    simp only [EmbeddingHttpClient.change]
    split <;> exact ⟨rfl, rfl⟩
  | _ => exact ⟨rfl, rfl⟩

theorem Same.unsent (same : Same i w w') (unsent : Unsent i w) : Unsent i w' := by
  simp only [Unsent, requestsOf, same.1, same.2] at unsent ⊢
  exact unsent

theorem Same.sent {step : Pc ⊕ Except EmbeddingError (List PyJson)} (same : Same i w w')
    (sent : Sent self str correlationId i text step w) : Sent self str correlationId i text step w' := by
  cases step with
  | inl pc =>
    cases pc with
    | requesting =>
      simp only [Sent, requestsOf, same.1, same.2] at sent ⊢
      exact sent
    | _ => exact ⟨sent.1, same.unsent sent.2⟩
  | inr out =>
    simp only [Sent, requestsOf, same.1, same.2] at sent ⊢
    exact sent

theorem embedding_keeps : (self.embedding str correlationId).Keeps
    (fun i w => Granted self w ∧ Unsent i w)
    (fun i text step w => Granted self w ∧ Sent self str correlationId i text step w) where
  enter fine := ⟨getEmbedding_granted fine.1, getEmbedding_sent fine.2⟩
  resume fine resumed := ⟨resume_granted fine.1 resumed, resume_sent fine.2 resumed⟩
  cancelled fine := ⟨fine.1, fine.2.ends (.raised "CancelledError")⟩
  others := by
    intro i j w w' apart leaves
    have same := leaves_same apart leaves
    exact ⟨fun fine => ⟨leaves_granted fine.1 leaves, same.unsent fine.2⟩,
      fun text step fine => ⟨leaves_granted fine.1 leaves, same.sent fine.2⟩⟩
  change := by
    intro i c w
    have same : Same i w (self.change c w) := change_same c w
    exact ⟨fun fine => ⟨change_granted fine.1 c, same.unsent fine.2⟩,
      fun text step fine => ⟨change_granted fine.1 c, same.sent fine.2⟩⟩

end Sent

/-! ### The batch -/

/-- A result from which an embedding is taken. -/
structure Accepts (self : EmbeddingHttpClient) (result : PyJson) (embedding : List PyJson) : Prop where
  response : ∃ resultDict payload, result = .dict resultDict ∧
    EntityData.get resultDict "status" .null = .str "success" ∧
    EntityData.get resultDict "payload" (.dict []) = .dict payload ∧
    atLeast400 (EntityData.get payload "status_code" (.int 0)) = .ok false ∧
    embeddingOf (EntityData.get payload "body" .null) = .list embedding
  dimension : self.config.strictDimensionValidation = true →
    embedding.length = self.config.embeddingDimension

theorem extractEmbedding_ok {body : PyJson} {embedding : List PyJson}
    (ok : self.extractEmbedding correlationId body false = .ok embedding) :
    embeddingOf body = .list embedding ∧ (self.config.strictDimensionValidation = true →
      embedding.length = self.config.embeddingDimension) := by
  rw [extractEmbedding] at ok
  split at ok
  · cases ok
  · rename_i items found
    split at ok
    · cases ok
    · rename_i fits
      obtain rfl := Except.ok.inj ok
      refine ⟨found, fun strict => ?_⟩
      simpa [strict] using fits
  · cases ok

theorem isSuccess_iff {status : PyJson} : isSuccess status = true ↔ status = .str "success" := by
  cases status with
  | str s => simp [isSuccess]
  | _ => simp [isSuccess]

theorem parseResponse_ok {result : PyJson} {embedding : List PyJson}
    (ok : self.parseResponse str correlationId result false = .ok embedding) :
    Accepts self result embedding := by
  cases result with
  | dict resultDict =>
    simp only [parseResponse] at ok
    split at ok
    · cases ok
    · rename_i success
      split at ok
      · rename_i payload there
        rw [parsePayload] at ok
        split at ok
        · cases ok
        · cases ok
        · rename_i below
          obtain ⟨found, dimension⟩ := extractEmbedding_ok ok
          have success : isSuccess (EntityData.get resultDict "status" .null) = true := by
            simpa using success
          exact ⟨⟨resultDict, payload, rfl, isSuccess_iff.mp success, there, below, found⟩, dimension⟩
      · cases ok
  | _ => cases ok

theorem judge_ok {reply : Reply} {embedding : List PyJson}
    (ok : self.judge str correlationId false reply = .ok embedding) :
    ∃ result, reply = .result result ∧ Accepts self result embedding := by
  cases reply with
  | result result => exact ⟨result, rfl, parseResponse_ok ok⟩
  | _ => cases ok

section Ended

variable {text : String} {envelopes : List Envelope} {answers : List Reply}

theorem Ended.requests {out : Except EmbeddingError (List PyJson)}
    (ended : Ended self str correlationId text envelopes answers out) :
    envelopes = [] ∨ isBlank text = false ∧ envelopes = [self.buildEnvelope correlationId text] := by
  cases ended with
  | served some => exact .inr ⟨some, rfl⟩
  | _ => exact .inl rfl

theorem Ended.accepts {embedding : List PyJson}
    (ended : Ended self str correlationId text envelopes answers (.ok embedding)) :
    ∃ result, envelopes = [self.buildEnvelope correlationId text] ∧ answers = [.result result] ∧
      Accepts self result embedding := by
  generalize ok : (Except.ok embedding : Except EmbeddingError (List PyJson)) = out at ended
  cases ended with
  | served some reply =>
    obtain ⟨result, rfl, accepts⟩ := judge_ok ok.symm
    exact ⟨result, rfl, rfl, accepts⟩
  | _ => cases ok

end Ended

section Batch

variable {texts : List String} {maxConcurrency : Int} {initialized handler : Bool} {limiter : Clocked}
  {begun s : Batch} {n : Nat}

theorem gathering_eq
    (begins : getEmbeddingsBatch texts maxConcurrency initialized handler limiter = .gathering begun) :
    1 ≤ maxConcurrency ∧ begun = gathers ⟨⟨maxConcurrency.toNat, []⟩,
      ⟨initialized, handler, limiter, [], []⟩, []⟩ texts := by
  rw [getEmbeddingsBatch] at begins
  split at begins
  · cases begins
  · split at begins
    · cases begins
    · cases begins
      exact ⟨by omega, rfl⟩

/-- The semaphore and the wire of a new batch. -/
def New (limit : Nat) (sh : Limited Wire (List PyJson) EmbeddingError) : Prop :=
  sh.semaphore = ⟨limit, []⟩ ∧ sh.ended = [] ∧ Unused sh.data.limiter ∧
    sh.data.requests = [] ∧ sh.data.replies = []

theorem granted_unused {w : Wire} (unused : Unused w.limiter) (none : w.requests = []) :
    Granted self w := by
  intro limiter _
  refine ⟨?_, ?_⟩
  · rw [unused.1, unused.2]
    exact ⟨rfl, .nil⟩
  · rw [Wire.sent, none]
    exact List.nil_sublist _

/-- What holds of the tasks of the batch between steps. -/
theorem batch_reached
    (begins : getEmbeddingsBatch texts maxConcurrency initialized handler limiter = .gathering begun)
    (unused : Unused limiter) (goes : Goes (self.embedding str correlationId) begun n s) :
    Balanced maxConcurrency.toNat s ∧ s.tasks.map Job.arg = texts ∧
      ∀ (i : Nat) (t : Job String Pc (List PyJson) EmbeddingError), s.tasks[i]? = some t →
        t.Fine (fun i w => Granted self w ∧ Unsent i w)
          (fun i text step w => Granted self w ∧ Sent self str correlationId i text step w)
          i s.shared.data := by
  obtain ⟨-, rfl⟩ := gathering_eq begins
  have reach : (self.embedding str correlationId).limited.Reach (New maxConcurrency.toNat)
      (fun _ _ => True) s := goes.reach ⟨rfl, rfl, unused, rfl, rfl⟩
  refine ⟨balanced_of_reach (fun sh new => ⟨new.1, new.2.1⟩) reach, goes.args, fun i t task => ?_⟩
  refine embedding_keeps.of_reach (fun sh new i => ?_) reach task
  obtain ⟨-, -, unused, requests, replies⟩ := new
  exact ⟨granted_unused unused requests, by simp [requestsOf, requests], by simp [replies]⟩

theorem granted_of_reached (goes : Goes (self.embedding str correlationId) begun n s)
    (begins : getEmbeddingsBatch texts maxConcurrency initialized handler limiter = .gathering begun)
    (unused : Unused limiter) : Granted self s.shared.data := by
  obtain ⟨-, args, fine⟩ := batch_reached begins unused goes
  cases tasks : s.tasks with
  | nil =>
    rw [tasks] at args
    rw [← args] at begins
    cases begins
  | cons t ts =>
    have fine := fine 0 t (by rw [tasks]; rfl)
    cases t with
    | _ => exact fine.1

/-- The requests of the batch to which there is no reply yet. -/
def inFlight (s : Batch) : Nat :=
  s.count fun
    | .inside _ .requesting => true
    | _ => false

/-- A client of a server of its own that is asked once a minute, for embeddings of one number. -/
def perMinute : ModelEmbeddingHttpClientConfig where
  provider := .localServer
  baseUrl := "http://embed"
  model := "gte-qwen2"
  timeoutSeconds := 30
  embeddingDimension := 1
  strictDimensionValidation := true
  rateLimitRpm := 1
  rateLimitTpm := 0
  authHeader := none
  embedEndpointPath := none
  embeddingDimension_pos := Nat.one_pos
  embeddingDimension_le := Nat.le_of_ble_eq_true rfl
  rateLimitRpm_le := Nat.le_of_ble_eq_true rfl
  rateLimitTpm_le := Nat.le_of_ble_eq_true rfl
  rateLimit := fun _ => Nat.one_pos

def client : EmbeddingHttpClient := .init perMinute none

def numberOf (n : Int) : Reply :=
  .result (.dict [("status", .str "success"),
    ("payload", .dict [("status_code", .int 200), ("body", .dict [("embedding", .list [.int n])])])])

def twoTexts : Batch :=
  gathers ⟨⟨2, []⟩, ⟨true, true, ⟨0, ProviderRateLimiter.initial, []⟩, [], []⟩, []⟩ ["a", "b"]

/-- The second text is sent when the first is a minute old. -/
def oneByOne : List (Nat × Move Choice Change) :=
  [(0, .go), (1, .go), (0, .inner (.answers (numberOf 1))), (1, .change (.ticks 1)), (1, .inner .wakes),
    (1, .change (.ticks 61)), (1, .inner .wakes), (1, .inner (.answers (numberOf 2)))]

theorem oneByOne_goes : ∃ n s, Goes (client.embedding typeOf "id") twoTexts n s ∧
    s.shared.data.sent = [(0, 1), (61, 1)] ∧
    (gathered s).map (·.toOption.map (·.map List.length)) = some (some [1, 1]) := by
  have played : ((client.embedding typeOf "id").play twoTexts oneByOne).any (fun s =>
      s.shared.data.sent == [(0, 1), (61, 1)] &&
        (gathered s).map (·.toOption.map (·.map List.length)) == some (some [1, 1])) = true := by
    decide +kernel
  obtain ⟨s, played, results⟩ := (Option.any_eq_true _ _).mp played
  obtain ⟨n, goes⟩ := Goes.refl.play played
  obtain ⟨sent, results⟩ := (Bool.and_eq_true _ _).mp results
  exact ⟨n, s, goes, eq_of_beq sent, eq_of_beq results⟩

/-- In every interleaving of a batch, and whatever other tasks do with the client and its limiter: as few
requests are under way as allowed, each text is sent at most once, as it is, a blank one never, and every
request has a grant of its own from the limiter, of the time at which it was sent; the grants of every
minute are within the limits. -/
theorem getEmbeddingsBatch_granted
    (begins : getEmbeddingsBatch texts maxConcurrency initialized handler limiter = .gathering begun)
    (unused : Unused limiter) (goes : Goes (self.embedding str correlationId) begun n s) :
    (inFlight s : ℤ) ≤ maxConcurrency ∧
    (∀ i text, texts[i]? = some text → requestsOf i s.shared.data = [] ∨ isBlank text = false ∧
      requestsOf i s.shared.data = [self.buildEnvelope correlationId text]) ∧
    ∀ limiter ∈ self.rateLimiter, Limits limiter.1 s.shared.data.limiter.granted ∧
      s.shared.data.sent.Sublist s.shared.data.limiter.granted := by
  obtain ⟨balanced, args, fine⟩ := batch_reached begins unused goes
  refine ⟨?_, fun i text here => ?_, fun limiter mem => ?_⟩
  · have pos := (gathering_eq begins).1
    have few : inFlight s ≤ maxConcurrency.toNat := by
      refine balanced.count_le fun t flies => ?_
      cases t with
      | inside text pc => rfl
      | _ => cases flies
    omega
  · rw [← args, List.getElem?_map] at here
    obtain ⟨t, task, rfl⟩ := Option.map_eq_some_iff.mp here
    have fine := fine i t task
    cases t with
    | ready text => exact .inl fine.2.1
    | waiting text => exact .inl fine.2.1
    | inside text pc =>
      have sent : Sent self str correlationId i text (.inl pc) s.shared.data := fine.2
      cases pc with
      | requesting => exact .inr ⟨sent.1, sent.2.1⟩
      | _ => exact .inl sent.2.1
    | left text out =>
      have ended : Ended self str correlationId text (requestsOf i s.shared.data)
        (ofTask i s.shared.data.replies) out := fine.2
      exact ended.requests
  · obtain ⟨between, sent⟩ := granted_of_reached goes begins unused limiter mem
    exact ⟨between.keeps.limits, sent⟩

theorem getEmbeddingsBatch_granted_oneByOne : ∃ n s, Goes (client.embedding typeOf "id") twoTexts n s ∧
    s.shared.data.sent = [(0, 1), (61, 1)] ∧
    (inFlight s : ℤ) ≤ 2 ∧
    (∀ i text, ["a", "b"][i]? = some text → requestsOf i s.shared.data = [] ∨ isBlank text = false ∧
      requestsOf i s.shared.data = [client.buildEnvelope "id" text]) ∧
    ∀ limiter ∈ client.rateLimiter, Limits limiter.1 s.shared.data.limiter.granted ∧
      s.shared.data.sent.Sublist s.shared.data.limiter.granted := by
  obtain ⟨n, s, goes, sent, -⟩ := oneByOne_goes
  have begins : getEmbeddingsBatch ["a", "b"] 2 true true ⟨0, ProviderRateLimiter.initial, []⟩ =
      .gathering twoTexts := rfl
  exact ⟨n, s, goes, sent, getEmbeddingsBatch_granted begins ⟨rfl, rfl⟩ goes⟩

/-- When `gather` has the results of a batch, they are those that the handler gave for the texts, in their
order, each from a successful response and of the dimension that is asked for when it is strict; when it
has an exception, a text has ended with it. -/
theorem getEmbeddingsBatch_returns
    (begins : getEmbeddingsBatch texts maxConcurrency initialized handler limiter = .gathering begun)
    (unused : Unused limiter) (goes : Goes (self.embedding str correlationId) begun n s) :
    (∀ rows, gathered s = some (.ok rows) → rows.length = texts.length ∧
      ∀ i row, rows[i]? = some row → ∃ text result, texts[i]? = some text ∧
        requestsOf i s.shared.data = [self.buildEnvelope correlationId text] ∧
        ofTask i s.shared.data.replies = [.result result] ∧ Accepts self result row) ∧
    ∀ e, gathered s = some (.error e) → ∃ i text, texts[i]? = some text ∧
      Ended self str correlationId text (requestsOf i s.shared.data) (ofTask i s.shared.data.replies)
        (.error e) := by
  obtain ⟨balanced, args, fine⟩ := batch_reached begins unused goes
  obtain ⟨results, raised⟩ := balanced.gathered_fine args fine
  refine ⟨fun rows rows_eq => ?_, fun e e_eq => ?_⟩
  · obtain ⟨length, answered⟩ := results rows rows_eq
    refine ⟨length, fun i row here => ?_⟩
    obtain ⟨text, here, -, sent⟩ := answered i row here
    have ended : Ended self str correlationId text (requestsOf i s.shared.data)
      (ofTask i s.shared.data.replies) (.ok row) := sent
    obtain ⟨result, requests, replies, accepts⟩ := ended.accepts
    exact ⟨text, result, here, requests, replies, accepts⟩
  · obtain ⟨i, text, here, sent⟩ := raised e e_eq
    exact ⟨i, text, here, sent.2⟩

theorem getEmbeddingsBatch_returns_oneByOne : ∃ n s, Goes (client.embedding typeOf "id") twoTexts n s ∧
    (gathered s).map (·.toOption.map (·.map List.length)) = some (some [1, 1]) ∧
    (∀ rows, gathered s = some (.ok rows) → rows.length = ["a", "b"].length ∧
      ∀ i row, rows[i]? = some row → ∃ text result, ["a", "b"][i]? = some text ∧
        requestsOf i s.shared.data = [client.buildEnvelope "id" text] ∧
        ofTask i s.shared.data.replies = [.result result] ∧ Accepts client result row) ∧
    ∀ e, gathered s = some (.error e) → ∃ i text, ["a", "b"][i]? = some text ∧
      Ended client typeOf "id" text (requestsOf i s.shared.data) (ofTask i s.shared.data.replies)
        (.error e) := by
  obtain ⟨n, s, goes, -, results⟩ := oneByOne_goes
  have begins : getEmbeddingsBatch ["a", "b"] 2 true true ⟨0, ProviderRateLimiter.initial, []⟩ =
      .gathering twoTexts := rfl
  exact ⟨n, s, goes, results, getEmbeddingsBatch_returns begins ⟨rfl, rfl⟩ goes⟩

end Batch

end EmbeddingHttp

end OmniMemory
