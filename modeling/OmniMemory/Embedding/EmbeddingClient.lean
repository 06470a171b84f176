import Mathlib.Algebra.Order.Ring.Rat
import OmniMemory.Lib.Attempts
import OmniMemory.Lib.Json
import OmniMemory.Lib.Limited
import OmniMemory.Python

/-! `EmbeddingClient`: `get_embedding` with its retries, as a section that waits for the server and
sleeps, and `get_embeddings_batch`, which gathers such sections under a semaphore. What the server
answers, when sleeps end, and when other tasks connect and close the client are choices of the
surroundings. -/

namespace OmniMemory

open Interleave Asyncio Attempts

namespace Embedding

structure ModelEmbeddingClientConfig where
  baseUrl : String
  timeoutSeconds : ℚ
  timeoutSeconds_gt : 0 < timeoutSeconds
  maxRetries : Nat
  maxRetries_le : maxRetries ≤ 10

/-- The exceptions, with their messages; that of a timeout shows the configured seconds and the cause,
and `other` is an exception that goes through as it is. -/
inductive EmbeddingError where
  | embeddingClientError (message : String)
  | embeddingConnectionError (message : String)
  | embeddingTimeoutError (timeoutSeconds : ℚ) (cause : String)
  | other (message : String)

/-- How `post` ends: with a response, its status code and text, or with an exception, which may also be
that the task was cancelled. -/
inductive Reply where
  | response (statusCode : Nat) (text : String)
  | timeoutException (message : String)
  | connectError (message : String)
  | raised (message : String)

structure Request where
  url : String
  text : String

/-- `str(type(value))` for what `json.loads` gives. -/
def typeOf : Json.Value → String
  | .null => "<class 'NoneType'>"
  | .bool _ => "<class 'bool'>"
  | .number token => if token.all fun c => c.isDigit || c == '-' then "<class 'int'>" else "<class 'float'>"
  | .string _ => "<class 'str'>"
  | .array _ => "<class 'list'>"
  | .object _ => "<class 'dict'>"

/-- The embedding of a response with the text; of members with one name the last counts. -/
def embeddingOf (text : String) : Except EmbeddingError (List Json.Value) :=
  match Json.read text with
  | none => .error (.other "JSONDecodeError")
  | some (.array items) => .ok items
  | some (.object members) =>
    match members.reverse.lookup "embedding" with
    | some (.array items) => .ok items
    | some value => .error (.embeddingClientError ("Expected list for embedding, got " ++ typeOf value))
    | none => .error (.embeddingClientError
        ("Unexpected response format from embedding server: " ++ typeOf (.object members)))
  | some data => .error (.embeddingClientError
      ("Unexpected response format from embedding server: " ++ typeOf data))

namespace ModelEmbeddingClientConfig

variable (self : ModelEmbeddingClientConfig)

def embedUrl : String :=
  String.ofList (self.baseUrl.toList.reverse.dropWhile (· == '/')).reverse ++ "/embed"

/-- `_execute_request` from the reply on, and the clauses of the `try` around it. -/
def judge : Reply → Verdict (List Json.Value) EmbeddingError
  | .response statusCode text =>
    if 200 ≤ statusCode ∧ statusCode < 300 then .done (embeddingOf text)
    else if 400 ≤ statusCode ∧ statusCode < 500 then
      .done (.error (.embeddingClientError
        ("Embedding server returned client error: " ++ toString statusCode ++ " - " ++ text)))
    else .again (.embeddingClientError ("Embedding server error: " ++ toString statusCode))
  | .timeoutException message => .again (.embeddingTimeoutError self.timeoutSeconds message)
  | .connectError message =>
    .again (.embeddingConnectionError ("Connection failed to " ++ self.baseUrl ++ ": " ++ message))
  | .raised message => .done (.error (.other message))

end ModelEmbeddingClientConfig

/-- Whether `_connected` is set, and whether there is a `_client`. -/
structure Connection where
  connected : Bool
  client : Bool

namespace Connection

def connect (c : Connection) : Connection := if c.connected then c else ⟨true, true⟩

/-- `close`, once the client is closed. -/
def closed : Connection := ⟨false, false⟩

end Connection

/-- The connection, and the requests and replies so far, each with the task that it is of. -/
structure Wire where
  connection : Connection
  requests : List (Nat × Request)
  replies : List (Nat × Reply)

/-- What is of the task `i`. -/
def ofTask {α : Type} (i : Nat) (l : List (Nat × α)) : List α :=
  l.filterMap fun (j, a) => if j = i then some a else none

/-- Where the loop of `get_embedding` is suspended. -/
inductive Pc (maxRetries : Nat) where
  | requesting (attempt : Fin (maxRetries + 1))
  /-- after the attempt -/
  | sleeping (attempt : Fin maxRetries)

inductive Choice where
  | answers (reply : Reply)
  | wakes
  | cancelled

/-- What other tasks do to the client. -/
inductive Change where
  | connects
  | closes

def Change.apply (w : Wire) : Change → Wire
  | connects => { w with connection := w.connection.connect }
  | closes => { w with connection := .closed }

namespace ModelEmbeddingClientConfig

variable (self : ModelEmbeddingClientConfig)

/-- `_execute_request`, up to the reply. -/
def request (i : Nat) (attempt : Fin (self.maxRetries + 1)) (text : String) (w : Wire) :
    (Pc self.maxRetries ⊕ Except EmbeddingError (List Json.Value)) × Wire :=
  if w.connection.client then
    (.inl (.requesting attempt), { w with requests := w.requests ++ [(i, ⟨self.embedUrl, text⟩)] })
  else (.inr (.error (.embeddingClientError "Client not connected")), w)

/-- `get_embedding`, from its start. -/
def getEmbedding (i : Nat) (text : String) (w : Wire) :
    (Pc self.maxRetries ⊕ Except EmbeddingError (List Json.Value)) × Wire :=
  if isBlank text then (.inr (.error (.embeddingClientError "Text cannot be empty")), w)
  else self.request i 0 text { w with connection := w.connection.connect }

/-- `get_embedding`, from where it is suspended. -/
def resume (i : Nat) (ch : Choice) (text : String) (pc : Pc self.maxRetries) (w : Wire) :
    Option ((Pc self.maxRetries ⊕ Except EmbeddingError (List Json.Value)) × Wire) :=
  match ch, pc with
  | .answers reply, .requesting attempt =>
    let w := { w with replies := w.replies ++ [(i, reply)] }
    match self.judge reply with
    | .done out => some (.inr out, w)
    | .again e =>
      if h : attempt.val < self.maxRetries then some (.inl (.sleeping ⟨attempt.val, h⟩), w)
      else some (.inr (.error e), w)
  | .wakes, .sleeping attempt => some (self.request i attempt.succ text w)
  | .cancelled, .sleeping _ => some (.inr (.error (.other "CancelledError")), w)
  | _, _ => none

/-- `embed_with_semaphore`. -/
def embedding : Section Wire String (Pc self.maxRetries) (List Json.Value) EmbeddingError Choice Change where
  enter := self.getEmbedding
  resume := self.resume
  cancelled := .other "CancelledError"
  change c w := c.apply w

end ModelEmbeddingClientConfig

/-- The tasks of a batch, and what they share. -/
abbrev Batch (maxRetries : Nat) : Type :=
  System (Limited Wire (List Json.Value) EmbeddingError)
    (Job String (Pc maxRetries) (List Json.Value) EmbeddingError)

/-- `get_embeddings_batch`, up to `gather`. -/
inductive Begun (maxRetries : Nat) where
  | returned (embeddings : List (List Json.Value))
  | valueError (message : String)
  | gathering (s : Batch maxRetries)

def ModelEmbeddingClientConfig.getEmbeddingsBatch (self : ModelEmbeddingClientConfig) (texts : List String)
    (maxConcurrency : Int) (connection : Connection) : Begun self.maxRetries :=
  if texts = [] then .returned []
  else if maxConcurrency < 0 then .valueError "Semaphore initial value must be >= 0"
  else .gathering (gathers ⟨⟨maxConcurrency.toNat, []⟩, ⟨connection.connect, [], []⟩, []⟩ texts)

end Embedding

end OmniMemory
