import OmniMemory.Embedding.EmbeddingClient
import OmniMemory.Lib.Floats
import OmniMemory.RateLimit.Acquire
import OmniMemory.Semantic.LlmEntities

/-! `EmbeddingHttpClient`: `get_embedding`, which waits for the rate limiter and then sends one request,
as a section that is suspended in `initialize`, in `acquire` and in the request, and
`get_embeddings_batch`, which gathers such sections under a semaphore. The handler that sends requests,
the clock, and the other tasks that use the client and its limiter are choices of the surroundings. -/

namespace OmniMemory

open Interleave Asyncio
open OmniMemory.Embedding (EmbeddingError)
open ProviderRateLimiter (Acquiring Clocked Waiting)
open Semantic (EntityData PyJson)

namespace EmbeddingHttp

inductive EnumEmbeddingProviderType where
  | localServer
  | openai
  | vllm
deriving DecidableEq

def EnumEmbeddingProviderType.value : EnumEmbeddingProviderType → String
  | localServer => "local"
  | openai => "openai"
  | vllm => "vllm"

/-- The URL and the path are as the validators leave them. -/
structure ModelEmbeddingHttpClientConfig where
  provider : EnumEmbeddingProviderType
  baseUrl : String
  model : String
  timeoutSeconds : ℚ
  embeddingDimension : Nat
  strictDimensionValidation : Bool
  rateLimitRpm : Nat
  rateLimitTpm : Nat
  authHeader : Option String
  embedEndpointPath : Option String
  embeddingDimension_pos : 0 < embeddingDimension
  embeddingDimension_le : embeddingDimension ≤ 8192
  rateLimitRpm_le : rateLimitRpm ≤ 10000
  rateLimitTpm_le : rateLimitTpm ≤ 10000000
  /-- `validate_rate_limit_configuration` -/
  rateLimit : 0 < rateLimitTpm → 0 < rateLimitRpm

def ModelEmbeddingHttpClientConfig.embedEndpoint (self : ModelEmbeddingHttpClientConfig) : String :=
  match self.embedEndpointPath with
  | some path => self.baseUrl ++ path
  | none =>
    if self.provider = .openai then self.baseUrl ++ "/v1/embeddings"
    else self.baseUrl ++ "/embed"

structure EmbeddingHttpClient where
  config : ModelEmbeddingHttpClientConfig
  rateLimiter : Option (ProviderRateLimiter × Waiting)

theorem burst_ge : (1 : ℚ) ≤ 1 := le_refl 1

theorem burst_le : (1 : ℚ) ≤ 10 := by norm_num

/-- `__init__`. -/
def EmbeddingHttpClient.init (config : ModelEmbeddingHttpClientConfig)
    (rateLimiter : Option (ProviderRateLimiter × Waiting)) : EmbeddingHttpClient :=
  match rateLimiter with
  | some rateLimiter => ⟨config, some rateLimiter⟩
  | none =>
    if rpm : config.rateLimitRpm > 0 then
      ⟨config, some (⟨⟨config.rateLimitRpm, config.rateLimitTpm, 1, rpm, config.rateLimitRpm_le,
        config.rateLimitTpm_le, burst_ge, burst_le⟩⟩, .default config.provider.value config.model)⟩
    else ⟨config, none⟩

/-- What is sent, with the operation `http.post` and an id of its own. -/
structure Envelope where
  url : String
  headers : List (String × String)
  body : List (String × String)
  correlationId : String

/-- How `handler.execute` ends: with a result, or with an exception, which may also be that the task was
cancelled. -/
inductive Reply where
  | result (result : PyJson)
  | infraConnectionError (message : String)
  | infraTimeoutError (message : String)
  | raised (message : String)

/-- `str(type(value))`. -/
def typeOf : PyJson → String
  | .null => "<class 'NoneType'>"
  | .bool _ => "<class 'bool'>"
  | .int _ => "<class 'int'>"
  | .float _ | .negativeZero => "<class 'float'>"
  | .str _ => "<class 'str'>"
  | .list _ => "<class 'list'>"
  | .dict _ => "<class 'dict'>"

def isSuccess : PyJson → Bool
  | .str status => status == "success"
  | _ => false

/-- `value >= 400`. -/
def atLeast400 (value : PyJson) : Except EmbeddingError Bool :=
  match value.number with
  | some (.inl n) => .ok (400 ≤ n)
  | some (.inr x) => .ok (Binary64.Value.le (.finite 400) x)
  | none => .error (.other "TypeError")

/-- The embedding of a response body, before its type is checked. -/
def embeddingOf : PyJson → PyJson
  | .list items => .list items
  | .dict members =>
    if (members.find? (·.1 = "data")).isSome then
      match EntityData.get members "data" .null with
      | .list (.dict firstItem :: _) => EntityData.get firstItem "embedding" .null
      | _ => .null
    else EntityData.get members "embedding" .null
  | _ => .null

/-- Where `get_embedding` is suspended: in `initialize`, in `acquire` before the lock of the limiter or in
its sleep, or in the request. -/
inductive Pc where
  | initializing
  | locked (called : ℚ)
  | sleeping (called pause wake : ℚ)
  | requesting

/-- The client and its limiter, and the requests and replies of the batch so far, each with the task that
it is of. Requests stand with the time at which they were sent. -/
structure Wire where
  initialized : Bool
  /-- Whether there is a `_handler`. -/
  handler : Bool
  limiter : Clocked
  requests : List (Nat × ℚ × Envelope)
  replies : List (Nat × Reply)

inductive Choice where
  | initialized
  | initializeRaised (message : String)
  | wakes
  | answers (reply : Reply)
  | cancelled

/-- What time and other tasks do: those that use the client, and those that use its limiter. -/
inductive Change where
  | ticks (now : ℚ)
  | makesHandler
  | initializes
  | shutsDown
  | tryAcquires (tokens : ℤ)

/-- A step of `get_embedding`. -/
abbrev Step : Type := (Pc ⊕ Except EmbeddingError (List PyJson)) × Wire

namespace EmbeddingHttpClient

variable (self : EmbeddingHttpClient) (str : PyJson → String) (correlationId : String)

/-- `_extract_embedding`. -/
def extractEmbedding (body : PyJson) (skipDimensionValidation : Bool) :
    Except EmbeddingError (List PyJson) :=
  match embeddingOf body with
  | .null => .error (.embeddingClientError
      (s!"Could not extract embedding from response " ++ s!"(correlation_id={correlationId})"))
  | .list embedding =>
    if !skipDimensionValidation && embedding.length ≠ self.config.embeddingDimension &&
        self.config.strictDimensionValidation then
      .error (.embeddingClientError
        (s!"Embedding dimension mismatch: expected {self.config.embeddingDimension}, " ++
          s!"got {embedding.length} (correlation_id={correlationId})"))
    else .ok embedding
  | embedding => .error (.embeddingClientError
      (s!"Expected list for embedding, got {typeOf embedding} " ++ s!"(correlation_id={correlationId})"))

/-- `_parse_response` from the payload on. -/
def parsePayload (payload : EntityData) (skipDimensionValidation : Bool) :
    Except EmbeddingError (List PyJson) :=
  let statusCode := EntityData.get payload "status_code" (.int 0)
  match atLeast400 statusCode with
  | .error e => .error e
  | .ok true =>
    let errorMsg :=
      match EntityData.get payload "body" (.dict []) with
      | .dict body => str (EntityData.get body "error" (.str (str (.dict body))))
      | body => str body
    .error (.embeddingClientError
      (s!"HTTP {str statusCode}: {errorMsg} (correlation_id={correlationId})"))
  | .ok false =>
    self.extractEmbedding correlationId (EntityData.get payload "body" .null) skipDimensionValidation

/-- `_parse_response`. -/
def parseResponse (result : PyJson) (skipDimensionValidation : Bool) :
    Except EmbeddingError (List PyJson) :=
  match result with
  | .dict resultDict =>
    let status := EntityData.get resultDict "status" .null
    if !isSuccess status then
      .error (.embeddingClientError
        (s!"Request failed with status={str status} " ++ s!"(correlation_id={correlationId})"))
    else
      match EntityData.get resultDict "payload" (.dict []) with
      | .dict payload => self.parsePayload str correlationId payload skipDimensionValidation
      | _ => .error (.embeddingClientError
          s!"Invalid payload structure (correlation_id={correlationId})")
  | _ => .error (.embeddingClientError
      ("Invalid response: result is not a dict " ++ s!"(correlation_id={correlationId})"))

/-- `_execute_embedding_request` from the reply on. -/
def judge (skipDimensionValidation : Bool) : Reply → Except EmbeddingError (List PyJson)
  | .result result => self.parseResponse str correlationId result skipDimensionValidation
  | .infraConnectionError message => .error (.embeddingConnectionError
      s!"Connection failed to {self.config.baseUrl}: {message}")
  | .infraTimeoutError message => .error (.embeddingTimeoutError self.config.timeoutSeconds message)
  | .raised message => .error (.other message)

/-- `_build_envelope`. -/
def buildEnvelope (text : String) : Envelope where
  url := self.config.embedEndpoint
  headers := ("Content-Type", "application/json") ::
    match self.config.authHeader with
    | none | some "" => []
    | some authHeader => [("Authorization", authHeader)]
  body :=
    if self.config.provider = .openai then [("input", text), ("model", self.config.model)]
    else [("text", text)]
  correlationId := correlationId

/-- `_execute_embedding_request`, up to the reply. -/
def executeEmbeddingRequest (i : Nat) (text : String) (w : Wire) : Step :=
  if w.handler then
    (.inl .requesting,
      { w with requests := w.requests ++ [(i, w.limiter.clock, self.buildEnvelope correlationId text)] })
  else
    (.inr (.error (.embeddingClientError "Client not initialized - call initialize() first")), w)

/-- `get_embedding`, when `acquire` has returned, raised or come to its sleep. -/
def acquired (i : Nat) (text : String) (w : Wire) : Acquiring × Clocked → Option Step
  | (.returned _, limiter) =>
    some (self.executeEmbeddingRequest correlationId i text { w with limiter })
  | (.raised message, limiter) => some (.inr (.error (.other message)), { w with limiter })
  | (.sleeps called _ pause wake, limiter) =>
    some (.inl (.sleeping called pause wake), { w with limiter })
  | _ => none

/-- `get_embedding`, from `acquire` on. -/
def acquire (i : Nat) (text : String) (w : Wire) : Step :=
  match self.rateLimiter with
  | none => self.executeEmbeddingRequest correlationId i text w
  | some (limiter, waiting) =>
    let called := w.limiter.clock
    ((limiter.acquire waiting i called called 1 w.limiter).bind (self.acquired correlationId i text w)).getD
      (.inl (.locked called), w)

/-- `get_embedding`, from its start. -/
def getEmbedding (i : Nat) (text : String) (w : Wire) : Step :=
  if isBlank text then (.inr (.error (.embeddingClientError "Text cannot be empty")), w)
  else if w.initialized then self.acquire correlationId i text w
  else (.inl .initializing, w)

/-- `get_embedding`, from where it is suspended. -/
def resume (i : Nat) (ch : Choice) (text : String) (pc : Pc) (w : Wire) : Option Step :=
  match ch, pc with
  | .initialized, .initializing =>
    some (self.acquire correlationId i text { w with initialized := true, handler := true })
  | .initializeRaised message, .initializing => some (.inr (.error (.other message)), w)
  | .wakes, .locked _ => some (self.acquire correlationId i text w)
  | .wakes, .sleeping called pause wake =>
    match self.rateLimiter with
    | none => none
    | some (limiter, waiting) =>
      if wake ≤ w.limiter.clock then
        (limiter.attempt waiting i called w.limiter.clock 1 pause w.limiter).bind
          (self.acquired correlationId i text w)
      else none
  | .answers reply, .requesting =>
    some (.inr (self.judge str correlationId false reply), { w with replies := w.replies ++ [(i, reply)] })
  | .cancelled, .initializing | .cancelled, .locked _ | .cancelled, .sleeping .. =>
    some (.inr (.error (.other "CancelledError")), w)
  | _, _ => none

/-- Time does not go back. -/
def change (c : Change) (w : Wire) : Wire :=
  match c with
  | .ticks now => { w with limiter := { w.limiter with clock := max w.limiter.clock now } }
  | .makesHandler => { w with handler := true }
  | .initializes => { w with initialized := true, handler := true }
  | .shutsDown => { w with initialized := false, handler := false }
  | .tryAcquires tokens =>
    match self.rateLimiter with
    | none => w
    | some (limiter, _) => { w with limiter := (limiter.permit 0 w.limiter.clock tokens w.limiter).2 }

/-- `embed_with_semaphore`. -/
def embedding : Section Wire String Pc (List PyJson) EmbeddingError Choice Change where
  enter := self.getEmbedding correlationId
  resume := self.resume str correlationId
  cancelled := .other "CancelledError"
  change := self.change

end EmbeddingHttpClient

/-- The tasks of a batch, and what they share. -/
abbrev Batch : Type :=
  System (Limited Wire (List PyJson) EmbeddingError) (Job String Pc (List PyJson) EmbeddingError)

/-- `get_embeddings_batch`, up to `gather`. -/
inductive Begun where
  | returned (embeddings : List (List PyJson))
  | valueError (message : String)
  | gathering (s : Batch)

/-- `get_embeddings_batch`, when its `initialize` leaves the client and its limiter so. -/
def getEmbeddingsBatch (texts : List String) (maxConcurrency : Int) (initialized handler : Bool)
    (limiter : Clocked) : Begun :=
  if texts = [] then .returned []
  else if maxConcurrency < 1 then
    .valueError s!"max_concurrency must be positive (>= 1), got {maxConcurrency}"
  else .gathering (gathers ⟨⟨maxConcurrency.toNat, []⟩, ⟨initialized, handler, limiter, [], []⟩, []⟩ texts)

end EmbeddingHttp

end OmniMemory
