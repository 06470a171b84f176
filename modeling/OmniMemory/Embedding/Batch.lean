import Mathlib.Data.List.Forall2
import Mathlib.Tactic.NormNum
import OmniMemory.Embedding.EmbeddingClient

/-! What a batch of embeddings comes to. However the tasks of a batch interleave, and whatever the server
answers and other tasks do to the client: no more requests are under way than allowed, each text is sent
as often as its own replies call for, each task ends as the loop on its own replies does, and the batch
returns the embeddings in the order of the texts. No task goes on for ever, and with a permit none is
stuck. -/

namespace OmniMemory

open Interleave Asyncio Attempts

namespace Embedding

variable {self : ModelEmbeddingClientConfig}

section OfTask

variable {α : Type} {i j : Nat} {a : α} {l : List (Nat × α)}

@[simp] theorem ofTask_nil : ofTask i ([] : List (Nat × α)) = [] := rfl

@[simp] theorem ofTask_concat_self : ofTask i (l ++ [(i, a)]) = ofTask i l ++ [a] := by
  simp [ofTask]

theorem ofTask_concat_other (apart : i ≠ j) : ofTask i (l ++ [(j, a)]) = ofTask i l := by
  simp [ofTask, apart.symm]

end OfTask

/-- What is left when `get_embedding` has ended with the replies. -/
inductive Ended (config : ModelEmbeddingClientConfig) (text : String) (replies : List Reply) :
    Except EmbeddingError (List Json.Value) → Prop where
  | empty (blank : isBlank text = true) (none : replies = []) :
    Ended config text replies (.error (.embeddingClientError "Text cannot be empty"))
  | served {out : Except EmbeddingError (List Json.Value)} (some : isBlank text = false)
      (ends : Ends config.judge config.maxRetries replies out) : Ended config text replies out
  | notConnected (some : isBlank text = false) (awaits : run config.judge config.maxRetries replies = none) :
    Ended config text replies (.error (.embeddingClientError "Client not connected"))
  | cancelled (awaits : run config.judge config.maxRetries replies = none)
      (blank : isBlank text = true → replies = []) :
    Ended config text replies (.error (.other "CancelledError"))

/-- A task that has not come to its text. -/
def Unsent (i : Nat) (w : Wire) : Prop := ofTask i w.requests = [] ∧ ofTask i w.replies = []

/-- A task that has come to its text. -/
def Sent (config : ModelEmbeddingClientConfig) (i : Nat) (text : String)
    (step : Pc config.maxRetries ⊕ Except EmbeddingError (List Json.Value)) (w : Wire) : Prop :=
  match step with
  | .inl (.requesting attempt) => isBlank text = false ∧
      ofTask i w.requests = List.replicate (attempt + 1) ⟨config.embedUrl, text⟩ ∧
      (ofTask i w.replies).length = attempt ∧ run config.judge config.maxRetries (ofTask i w.replies) = none
  | .inl (.sleeping attempt) => isBlank text = false ∧
      ofTask i w.requests = List.replicate (attempt + 1) ⟨config.embedUrl, text⟩ ∧
      (ofTask i w.replies).length = attempt + 1 ∧
      run config.judge config.maxRetries (ofTask i w.replies) = none
  | .inr out =>
      ofTask i w.requests = List.replicate (ofTask i w.replies).length ⟨config.embedUrl, text⟩ ∧
        Ended config text (ofTask i w.replies) out

section Section

variable {i j : Nat} {text : String} {w w' : Wire} {attempt : Fin (self.maxRetries + 1)}

theorem request_sent (some : isBlank text = false)
    (requests : ofTask i w.requests = List.replicate attempt ⟨self.embedUrl, text⟩)
    (replies : (ofTask i w.replies).length = attempt)
    (awaits : run self.judge self.maxRetries (ofTask i w.replies) = none) :
    Sent self i text (self.request i attempt text w).1 (self.request i attempt text w).2 := by
  rw [ModelEmbeddingClientConfig.request]
  split
  · refine ⟨some, ?_, replies, awaits⟩
    rw [ofTask_concat_self, requests, ← List.replicate_succ']
  · refine ⟨?_, .notConnected some awaits⟩
    rw [requests, replies]

theorem getEmbedding_sent (unsent : Unsent i w) :
    Sent self i text (self.getEmbedding i text w).1 (self.getEmbedding i text w).2 := by
  obtain ⟨requests, replies⟩ := unsent
  rw [ModelEmbeddingClientConfig.getEmbedding]
  split
  · refine ⟨?_, .empty ‹_› replies⟩
    rw [requests, replies]
    rfl
  · rename_i some
    refine request_sent (by simpa using some) requests ?_ ?_
    · simp [replies]
    · simp [replies, run]

theorem resume_sent {ch : Choice} {pc : Pc self.maxRetries}
    {step : Pc self.maxRetries ⊕ Except EmbeddingError (List Json.Value)}
    (sent : Sent self i text (.inl pc) w) (resumed : self.resume i ch text pc w = some (step, w')) :
    Sent self i text step w' := by
  cases ch with
  | answers reply =>
    cases pc with
    | sleeping attempt => cases resumed
    | requesting attempt =>
      obtain ⟨text_some, requests, replies, awaits⟩ := sent
      have more := run_concat (r := reply) awaits
      have length : (ofTask i (w.replies ++ [(i, reply)])).length = attempt + 1 := by simp [replies]
      have ends : ∀ out, run self.judge self.maxRetries (ofTask i w.replies ++ [reply]) = some out →
          Sent self i text (.inr out) { w with replies := w.replies ++ [(i, reply)] } := by
        intro out ran
        refine ⟨by rw [length]; exact requests, .served text_some ⟨_, reply, ofTask_concat_self, awaits, ?_⟩⟩
        rw [ofTask_concat_self, ran]
      unfold ModelEmbeddingClientConfig.resume at resumed
      dsimp only at resumed
      cases verdict : self.judge reply with
      | done out =>
        rw [verdict] at resumed more
        cases resumed
        exact ends out more
      | again e =>
        rw [verdict, Verdict.out?, replies] at more
        simp only [verdict] at resumed
        split at resumed
        · rename_i left
          cases resumed
          refine ⟨text_some, requests, length, ?_⟩
          rw [ofTask_concat_self, more]
          simp [left]
        · rename_i spent
          cases resumed
          refine ends _ ?_
          rw [more]
          simp [spent]
  | wakes =>
    cases pc with
    | requesting attempt => cases resumed
    | sleeping attempt =>
      obtain ⟨text_some, requests, replies, awaits⟩ := sent
      have sent : Sent self i text (self.request i attempt.succ text w).1 (self.request i attempt.succ text w).2 :=
        request_sent text_some (by simpa using requests) (by simpa using replies) awaits
      rw [Option.some.inj resumed] at sent
      exact sent
  | cancelled =>
    cases pc with
    | requesting attempt => cases resumed
    | sleeping attempt =>
      obtain ⟨some, requests, replies, awaits⟩ := sent
      cases resumed
      refine ⟨?_, .cancelled awaits (by simp [some])⟩
      rw [requests, replies]

/-- Only a task itself sends requests and gets replies. -/
theorem leaves_apart (apart : i ≠ j) (leaves : self.embedding.Leaves j w w') :
    ofTask i w'.requests = ofTask i w.requests ∧ ofTask i w'.replies = ofTask i w.replies := by
  have request : ∀ (attempt : Fin (self.maxRetries + 1)) (text : String) (w : Wire),
      ofTask i (self.request j attempt text w).2.requests = ofTask i w.requests ∧
        ofTask i (self.request j attempt text w).2.replies = ofTask i w.replies := by
    intro attempt text w
    rw [ModelEmbeddingClientConfig.request]
    split
    · exact ⟨ofTask_concat_other apart, rfl⟩
    · exact ⟨rfl, rfl⟩
  cases leaves with
  | enter text =>
    show ofTask i (self.getEmbedding j text w).2.requests = _ ∧
      ofTask i (self.getEmbedding j text w).2.replies = _
    rw [ModelEmbeddingClientConfig.getEmbedding]
    split
    · exact ⟨rfl, rfl⟩
    · exact request 0 text _
  | @resume ch text pc step _ resumed =>
    cases ch with
    | answers reply =>
      cases pc with
      | sleeping attempt => cases resumed
      | requesting attempt =>
        have same : w'.requests = w.requests ∧ w'.replies = w.replies ++ [(j, reply)] := by
          unfold ModelEmbeddingClientConfig.embedding ModelEmbeddingClientConfig.resume at resumed
          dsimp only at resumed
          split at resumed
          · cases resumed
            exact ⟨rfl, rfl⟩
          · split at resumed <;> cases resumed <;> exact ⟨rfl, rfl⟩
        rw [same.1, same.2]
        exact ⟨rfl, ofTask_concat_other apart⟩
    | wakes =>
      cases pc with
      | requesting attempt => cases resumed
      | sleeping attempt =>
        have same := request attempt.succ text w
        rw [Option.some.inj resumed] at same
        exact same
    | cancelled =>
      cases pc with
      | requesting attempt => cases resumed
      | sleeping attempt =>
        cases resumed
        exact ⟨rfl, rfl⟩

theorem sent_congr {step : Pc self.maxRetries ⊕ Except EmbeddingError (List Json.Value)}
    (requests : ofTask i w'.requests = ofTask i w.requests)
    (replies : ofTask i w'.replies = ofTask i w.replies) (sent : Sent self i text step w) :
    Sent self i text step w' := by
  cases step with
  | inl pc =>
    cases pc <;> (simp only [Sent, requests, replies] at sent ⊢; exact sent)
  | inr out =>
    simp only [Sent, requests, replies] at sent ⊢
    exact sent

theorem embedding_keeps : self.embedding.Keeps Unsent (Sent self) where
  enter := getEmbedding_sent
  resume := resume_sent
  cancelled := by
    rintro i text w ⟨requests, replies⟩
    refine ⟨by rw [requests, replies]; rfl, .cancelled ?_ fun _ => replies⟩
    simp [replies, run]
  others := by
    intro i j w w' apart leaves
    obtain ⟨requests, replies⟩ := leaves_apart apart leaves
    refine ⟨fun unsent => ?_, fun text step sent => sent_congr requests replies sent⟩
    rw [Unsent, requests, replies]
    exact unsent
  change := by
    intro i c w
    cases c <;> exact ⟨id, fun _ _ => sent_congr rfl rfl⟩

/-- How often a task goes on in its section at most. -/
def rank {maxRetries : Nat} : Pc maxRetries → Nat
  | .requesting attempt => 2 * (maxRetries - attempt)
  | .sleeping attempt => 2 * (maxRetries - attempt) - 1

theorem request_rank {attempt : Fin (self.maxRetries + 1)} {pc : Pc self.maxRetries}
    (requests : self.request i attempt text w = (.inl pc, w')) : pc = .requesting attempt := by
  rw [ModelEmbeddingClientConfig.request] at requests
  split at requests <;> cases requests
  rfl

theorem embedding_ranked : self.embedding.Ranked rank (2 * self.maxRetries + 1) where
  enter := by
    intro i text w pc w' entered
    have entered : self.getEmbedding i text w = (.inl pc, w') := entered
    rw [ModelEmbeddingClientConfig.getEmbedding] at entered
    split at entered
    · cases entered
    · rw [request_rank entered, rank]
      show 2 * (self.maxRetries - 0) < _
      omega
  resume := by
    intro i ch text pc w pc' w' resumed
    have resumed : self.resume i ch text pc w = some (.inl pc', w') := resumed
    cases ch with
    | answers reply =>
      cases pc with
      | sleeping attempt => cases resumed
      | requesting attempt =>
        unfold ModelEmbeddingClientConfig.resume at resumed
        dsimp only at resumed
        split at resumed
        · cases resumed
        · split at resumed
          · cases resumed
            simp only [rank]
            omega
          · cases resumed
    | wakes =>
      cases pc with
      | requesting attempt => cases resumed
      | sleeping attempt =>
        obtain ⟨a, bound⟩ := attempt
        rw [request_rank (Option.some.inj resumed)]
        simp only [rank, Fin.succ_mk]
        omega
    | cancelled => cases pc <;> cases resumed

end Section

section Batch

variable {texts : List String} {maxConcurrency : Int} {connection : Connection}
  {begun s : Batch self.maxRetries} {n : Nat}

theorem gathering_eq (begins : self.getEmbeddingsBatch texts maxConcurrency connection = .gathering begun) :
    0 ≤ maxConcurrency ∧
      begun = gathers ⟨⟨maxConcurrency.toNat, []⟩, ⟨connection.connect, [], []⟩, []⟩ texts := by
  rw [ModelEmbeddingClientConfig.getEmbeddingsBatch] at begins
  split at begins
  · cases begins
  · split at begins
    · cases begins
    · cases begins
      exact ⟨by omega, rfl⟩

/-- The semaphore and the wire of a new batch. -/
def New (limit : Nat) (sh : Limited Wire (List Json.Value) EmbeddingError) : Prop :=
  sh.semaphore = ⟨limit, []⟩ ∧ sh.ended = [] ∧ sh.data.requests = [] ∧ sh.data.replies = []

/-- A task of the batch, as `Sent` and the semaphore have it. -/
theorem batch_reached
    (begins : self.getEmbeddingsBatch texts maxConcurrency connection = .gathering begun)
    (goes : Goes self.embedding begun n s) :
    Balanced maxConcurrency.toNat s ∧ s.tasks.map Job.arg = texts ∧
      ∀ (i : Nat) (t : Job String (Pc self.maxRetries) (List Json.Value) EmbeddingError),
        s.tasks[i]? = some t → t.Fine Unsent (Sent self) i s.shared.data := by
  obtain ⟨-, rfl⟩ := gathering_eq begins
  have reach : self.embedding.limited.Reach (New maxConcurrency.toNat) (fun _ _ => True) s :=
    goes.reach ⟨rfl, rfl, rfl, rfl⟩
  refine ⟨balanced_of_reach (fun sh new => ⟨new.1, new.2.1⟩) reach, goes.args, fun i t task => ?_⟩
  refine embedding_keeps.of_reach (fun sh new i => ?_) reach task
  simp [Unsent, new.2.2.1, new.2.2.2]

/-- The requests of the batch for which the server has no reply yet. -/
def inFlight (s : Batch self.maxRetries) : Nat :=
  s.count fun
    | .inside _ (.requesting _) => true
    | _ => false

theorem Sent.requests {i : Nat} {text : String}
    {step : Pc self.maxRetries ⊕ Except EmbeddingError (List Json.Value)} {w : Wire}
    (sent : Sent self i text step w) :
    ∃ k ≤ self.maxRetries + 1, ofTask i w.requests = List.replicate k ⟨self.embedUrl, text⟩ ∧
      (isBlank text = true → k = 0) := by
  cases step with
  | inl pc =>
    cases pc with
    | requesting attempt =>
      obtain ⟨some, requests, -⟩ := sent
      refine ⟨_, ?_, requests, by simp [some]⟩
      omega
    | sleeping attempt =>
      obtain ⟨some, requests, -⟩ := sent
      refine ⟨_, ?_, requests, by simp [some]⟩
      omega
  | inr out =>
    obtain ⟨requests, ended⟩ := sent
    refine ⟨_, ?_, requests, fun blank => ?_⟩
    · cases ended with
      | empty _ none => simp [none]
      | served _ ends => exact ends.length_le
      | notConnected _ awaits => exact (run_eq_none.mp awaits).1.trans (Nat.le_succ _)
      | cancelled awaits _ => exact (run_eq_none.mp awaits).1.trans (Nat.le_succ _)
    · cases ended with
      | empty _ none => simp [none]
      | served some => simp [some] at blank
      | notConnected some => simp [some] at blank
      | cancelled _ none => simp [none blank]

theorem judge_ok {r : Reply} {embedding : List Json.Value} (ok : self.judge r = .done (.ok embedding)) :
    ∃ statusCode text, r = .response statusCode text ∧ 200 ≤ statusCode ∧ statusCode < 300 ∧
      embeddingOf text = .ok embedding := by
  cases r with
  | response statusCode text =>
    simp only [ModelEmbeddingClientConfig.judge] at ok
    split at ok
    · rename_i success
      exact ⟨statusCode, text, rfl, success.1, success.2, (Verdict.done.inj ok)⟩
    · split at ok <;> cases ok
  | timeoutException message => cases ok
  | connectError message => cases ok
  | raised message => cases ok

/-- The server has answered with the embedding, after replies that called for another attempt. -/
def Answered (config : ModelEmbeddingClientConfig) (replies : List Reply) (embedding : List Json.Value) :
    Prop :=
  ∃ before statusCode text, replies = before ++ [.response statusCode text] ∧
    before.length ≤ config.maxRetries ∧ (∀ r ∈ before, (config.judge r).isAgain = true) ∧
    200 ≤ statusCode ∧ statusCode < 300 ∧ embeddingOf text = .ok embedding

theorem Ended.answered {text : String} {replies : List Reply} {embedding : List Json.Value}
    (ended : Ended self text replies (.ok embedding)) : Answered self replies embedding := by
  cases ended with
  | served _ ends =>
    obtain ⟨before, last, rfl, few, again, value⟩ := ends.ok
    obtain ⟨statusCode, text, rfl, success⟩ := judge_ok value
    exact ⟨before, statusCode, text, rfl, few, again, success⟩

/-- In every interleaving of a batch, and whatever the server and other tasks do: as few requests are
under way as asked for, each text is sent at most once and `max_retries` times more, a blank one never,
and when `gather` has the results, they are those with which the server answered the texts, in their
order; when it has an exception, a text has ended with it. -/
theorem getEmbeddingsBatch_serves
    (begins : self.getEmbeddingsBatch texts maxConcurrency connection = .gathering begun)
    (goes : Goes self.embedding begun n s) :
    (inFlight s : ℤ) ≤ maxConcurrency ∧
    (∀ i text, texts[i]? = some text → ∃ k ≤ self.maxRetries + 1,
      ofTask i s.shared.data.requests = List.replicate k ⟨self.embedUrl, text⟩ ∧
        (isBlank text = true → k = 0)) ∧
    (∀ rows, gathered s = some (.ok rows) → rows.length = texts.length ∧
      ∀ i row, rows[i]? = some row → Answered self (ofTask i s.shared.data.replies) row) ∧
    ∀ e, gathered s = some (.error e) → ∃ i text, texts[i]? = some text ∧
      Ended self text (ofTask i s.shared.data.replies) (.error e) := by
  obtain ⟨balanced, args, fine⟩ := batch_reached begins goes
  obtain ⟨results, raised⟩ := balanced.gathered_fine args fine
  refine ⟨?_, fun i text here => ?_, fun rows rows_eq => ?_, fun e e_eq => ?_⟩
  · have nonneg := (gathering_eq begins).1
    have few : inFlight s ≤ maxConcurrency.toNat := by
      refine balanced.count_le fun t flies => ?_
      cases t with
      | inside text pc => rfl
      | _ => cases flies
    omega
  · rw [← args, List.getElem?_map] at here
    obtain ⟨t, task, rfl⟩ := Option.map_eq_some_iff.mp here
    have fine := fine i t task
    cases t with
    | ready text => exact ⟨0, Nat.zero_le _, fine.1, fun _ => rfl⟩
    | waiting text => exact ⟨0, Nat.zero_le _, fine.1, fun _ => rfl⟩
    | inside text pc =>
      have sent : Sent self i text (.inl pc) s.shared.data := fine
      exact sent.requests
    | left text out =>
      have sent : Sent self i text (.inr out) s.shared.data := fine
      exact sent.requests
  · obtain ⟨length, answered⟩ := results rows rows_eq
    refine ⟨length, fun i row here => ?_⟩
    obtain ⟨text, -, sent⟩ := answered i row here
    exact Ended.answered sent.2
  · obtain ⟨i, text, here, sent⟩ := raised e e_eq
    exact ⟨i, text, here, sent.2⟩

theorem five_seconds : (0 : ℚ) < 5 := by norm_num

theorem one_retry : 1 ≤ 10 := by omega

/-- A client that makes one more attempt, and a batch of two texts with one permit: the first times out
once, and both are answered. -/
def oneRetry : ModelEmbeddingClientConfig := ⟨"http://mlx/", 5, five_seconds, 1, one_retry⟩

def twoTexts : Batch oneRetry.maxRetries :=
  gathers ⟨⟨1, []⟩, ⟨⟨true, true⟩, [], []⟩, []⟩ ["a", "b"]

def answerBoth : List (Nat × Move Choice Change) :=
  [(0, .go), (1, .go), (0, .inner (.answers (.timeoutException "slow"))), (0, .inner .wakes),
    (0, .inner (.answers (.response 200 "[1]"))), (1, .change .closes), (1, .change .connects), (1, .go),
    (1, .inner (.answers (.response 200 "[2]")))]

theorem answerBoth_goes : ∃ n s, Goes oneRetry.embedding twoTexts n s ∧
    (gathered s).map (·.toOption.map (·.map List.length)) = some (some [1, 1]) := by
  have played : (oneRetry.embedding.play twoTexts answerBoth).any (fun s =>
      (gathered s).map (·.toOption.map (·.map List.length)) == some (some [1, 1])) = true := by
    decide +kernel
  obtain ⟨s, played, results⟩ := (Option.any_eq_true _ _).mp played
  obtain ⟨n, goes⟩ := Goes.refl.play played
  exact ⟨n, s, goes, by simpa using results⟩

theorem getEmbeddingsBatch_serves_two : ∃ n s, Goes oneRetry.embedding twoTexts n s ∧
    (gathered s).map (·.toOption.map (·.map List.length)) = some (some [1, 1]) ∧
    (inFlight s : ℤ) ≤ 1 ∧
    (∀ i text, ["a", "b"][i]? = some text → ∃ k ≤ oneRetry.maxRetries + 1,
      ofTask i s.shared.data.requests = List.replicate k ⟨oneRetry.embedUrl, text⟩ ∧
        (isBlank text = true → k = 0)) ∧
    (∀ rows, gathered s = some (.ok rows) → rows.length = ["a", "b"].length ∧
      ∀ i row, rows[i]? = some row → Answered oneRetry (ofTask i s.shared.data.replies) row) ∧
    ∀ e, gathered s = some (.error e) → ∃ i text, ["a", "b"][i]? = some text ∧
      Ended oneRetry text (ofTask i s.shared.data.replies) (.error e) := by
  obtain ⟨n, s, goes, results⟩ := answerBoth_goes
  have begins : oneRetry.getEmbeddingsBatch ["a", "b"] 1 ⟨false, false⟩ = .gathering twoTexts := rfl
  exact ⟨n, s, goes, results, getEmbeddingsBatch_serves begins goes⟩

/-- A task inside its section can go on. -/
theorem embedding_goes (i : Nat) (text : String) (pc : Pc self.maxRetries) (w : Wire) :
    ∃ ch, (self.resume i ch text pc w).isSome := by
  cases pc with
  | requesting attempt =>
    refine ⟨.answers (.raised ""), ?_⟩
    rfl
  | sleeping attempt =>
    refine ⟨.wakes, ?_⟩
    rfl

theorem requests_idle
    (begins : self.getEmbeddingsBatch texts maxConcurrency connection = .gathering begun)
    (none : maxConcurrency = 0) (goes : Goes self.embedding begun n s) :
    s.shared.data.requests = [] := by
  have step : ∀ {n : Nat} {s s' : Batch self.maxRetries} {i : Nat} {move : Move Choice Change},
      Goes self.embedding begun n s → self.embedding.limited.next s (.resume i move) = some s' →
      s.shared.data.requests = [] → s'.shared.data.requests = [] := by
    intro n s s' i move goes next empty
    obtain ⟨balanced, -, -⟩ := batch_reached begins goes
    obtain ⟨t, t', sh, task, ran, rfl⟩ := Machine.next_resume.mp next
    rw [none] at balanced
    rcases balanced.idle task (Section.steps ran) with same | ⟨c, changed⟩
    · rw [System.shared_put, same, empty]
    · rw [System.shared_put, changed]
      cases c <;> exact empty
  induction goes with
  | refl =>
    obtain ⟨-, rfl⟩ := gathering_eq begins
    rfl
  | go goes _ next ih => exact step goes next ih
  | change goes next ih => exact step goes next ih

end Batch

end Embedding

end OmniMemory
