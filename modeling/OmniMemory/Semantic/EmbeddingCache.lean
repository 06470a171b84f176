import OmniMemory.Lib.Automaton
import OmniMemory.Lib.Lru
import OmniMemory.Sha256

/-! The embedding cache of `HandlerSemanticCompute`. A key is a part of the SHA-256 digest of a text
that is made of the model and the content, or is the content alone, as the policy says. -/

namespace OmniMemory

open Interleave Sequential

namespace Semantic

/-- The settings of the policy that `embed` reads. -/
structure ModelSemanticComputePolicyConfig where
  maxContentLength : Nat := 100000
  cacheEmbeddings : Bool := true
  cacheKeyIncludeModel : Bool := true
  defaultEmbeddingModel : String := "gte-qwen2"
  maxContentLength_bounds : 100 ≤ maxContentLength ∧ maxContentLength ≤ 10000000 := by decide

structure ModelHandlerSemanticComputeConfig where
  policyConfig : ModelSemanticComputePolicyConfig
  enableCaching : Bool := true
  maxCacheSize : Nat := 1000
  maxCacheSize_bound : maxCacheSize ≤ 100000 := by decide

abbrev Embedding := List Float

/-- What the provider returns for a model and a content. -/
abbrev Provider := (model content : String) → Embedding

/-- A call of `embed`, with what `_execute_with_retry` raises in the end if the provider fails. -/
structure EmbedCall where
  content : String
  model : Option String
  raised : Option PyError := none

/-- `_MIN_CACHE_SIZE`. -/
def minCacheSize : Nat := 1

namespace ModelHandlerSemanticComputeConfig

variable (self : ModelHandlerSemanticComputeConfig)

abbrev effectiveCacheSize : Nat := max self.maxCacheSize minCacheSize

/-- The cache of an initialized handler. -/
abbrev EmbeddingCache := Lru String Embedding self.effectiveCacheSize

/-- `model or default_embedding_model`. -/
def effectiveModel : Option String → String
  | some model => if model = "" then self.policyConfig.defaultEmbeddingModel else model
  | none => self.policyConfig.defaultEmbeddingModel

/-- The text whose digest is the cache key. -/
def keyText (content : String) (model : Option String) : String :=
  if self.policyConfig.cacheKeyIncludeModel then s!"{self.effectiveModel model}:{content}"
  else content

/-- `hashlib.sha256(text.encode()).hexdigest()[:32]`. -/
def digestKey (text : String) : String :=
  String.ofList ((sha256 (encodeUtf8 text)).hex.toList.take 32)

/-- `_compute_cache_key`. -/
def computeCacheKey (content : String) (model : Option String) : String :=
  digestKey (self.keyText content model)

def shouldCacheEmbedding (content : String) : Bool :=
  self.policyConfig.cacheEmbeddings && (10 ≤ content.length &&
    content.length ≤ self.policyConfig.maxContentLength)

/-- `embed`, with what it returns or raises and the cache after it. -/
def embed (provider : Provider) (cache : self.EmbeddingCache) (call : EmbedCall) :
    Except PyError Embedding × self.EmbeddingCache :=
  if isBlank call.content then (.error (.valueError "Content cannot be empty"), cache)
  else if self.policyConfig.maxContentLength < call.content.length then
    (.error (.valueError (s!"Content length ({call.content.length}) exceeds " ++
      s!"maximum ({self.policyConfig.maxContentLength})")), cache)
  else
    let cacheKey := self.computeCacheKey call.content call.model
    match if self.enableCaching then cache.find? cacheKey else none with
    | some embedding => (.ok embedding, cache.touch cacheKey)
    | none =>
      match call.raised with
      | some e => (.error e, cache)
      | none =>
        let embedding := provider (self.effectiveModel call.model) call.content
        if self.enableCaching && self.shouldCacheEmbedding call.content then
          (.ok embedding, cache.put cacheKey embedding)
        else (.ok embedding, cache)

def embedding (provider : Provider) :
    Automaton EmbedCall (Except PyError Embedding) self.EmbeddingCache where
  step := self.embed provider

end ModelHandlerSemanticComputeConfig

open ModelHandlerSemanticComputeConfig

variable (self : ModelHandlerSemanticComputeConfig) (provider : Provider)

def EmbedCall.text (call : EmbedCall) : String := self.keyText call.content call.model

/-- What the provider gives for the effective model and the content of a call. -/
def EmbedCall.own (call : EmbedCall) : Embedding :=
  provider (self.effectiveModel call.model) call.content

/-- No two texts of the calls have the same key. -/
def NoCollision (calls : List EmbedCall) : Prop :=
  ∀ a ∈ calls, ∀ b ∈ calls, digestKey (a.text self) = digestKey (b.text self) →
    a.text self = b.text self

/-- No two calls have the same text `model:content` for different models and contents. -/
def Unambiguous (calls : List EmbedCall) : Prop :=
  self.policyConfig.cacheKeyIncludeModel = true → ∀ a ∈ calls, ∀ b ∈ calls,
    a.text self = b.text self →
      self.effectiveModel a.model = self.effectiveModel b.model ∧ a.content = b.content

/-- What a call may come to after others. A vector is the one for the call, or, when keys leave
out the model, the one for the model of an earlier call with the same content. -/
inductive Returns (earlier : List EmbedCall) (call : EmbedCall) :
    Except PyError Embedding → Prop where
  | invalid {text : String}
      (bad : isBlank call.content = true ∨
        self.policyConfig.maxContentLength < call.content.length) :
      Returns earlier call (.error (.valueError text))
  | raised {e : PyError} (failed : call.raised = some e) : Returns earlier call (.error e)
  | own : Returns earlier call (.ok (call.own self provider))
  | shared {other : EmbedCall} (mem : other ∈ earlier) (same : other.content = call.content)
      (caching : self.enableCaching = true ∧ self.shouldCacheEmbedding call.content = true)
      (withoutModel : self.policyConfig.cacheKeyIncludeModel = false) :
      Returns earlier call (.ok (other.own self provider))

/-- An entry is what an earlier call got. -/
def Filled (earlier : List EmbedCall) (entry : String × Embedding) : Prop :=
  ∃ call ∈ earlier, (self.enableCaching = true ∧ self.shouldCacheEmbedding call.content = true) ∧
    entry = (digestKey (call.text self), call.own self provider)

variable {self provider}

theorem Filled.mono {earlier : List EmbedCall} {entry : String × Embedding}
    (filled : Filled self provider earlier entry) (call : EmbedCall) :
    Filled self provider (earlier ++ [call]) entry := by
  obtain ⟨filler, mem, caching, same⟩ := filled
  exact ⟨filler, List.mem_append_left _ mem, caching, same⟩

/-- The entries after a call: those before it, and its own. -/
theorem mem_embed {cache : self.EmbeddingCache} {call : EmbedCall} {entry : String × Embedding}
    (mem : entry ∈ (self.embed provider cache call).2.entries) :
    entry ∈ cache.entries ∨
      (self.enableCaching = true ∧ self.shouldCacheEmbedding call.content = true) ∧
        entry = (digestKey (call.text self), call.own self provider) := by
  unfold embed at mem
  split at mem
  · exact .inl mem
  split at mem
  · exact .inl mem
  dsimp only at mem
  split at mem
  · exact .inl (Lru.mem_touch mem)
  split at mem
  · exact .inl mem
  split at mem
  · rename_i caching
    rcases Lru.mem_put mem with rfl | kept
    · exact .inr ⟨by simpa using caching, rfl⟩
    · exact .inl kept
  · exact .inl mem

theorem filled_run (earlier : List EmbedCall) :
    ∀ entry ∈ ((self.embedding provider).run Lru.empty earlier).entries,
      Filled self provider earlier entry := by
  induction earlier using List.reverseRecOn with
  | nil => simp
  | append_singleton earlier call ih =>
    intro entry mem
    rw [Automaton.run_concat] at mem
    rcases mem_embed mem with kept | ⟨caching, same⟩
    · exact (ih entry kept).mono call
    · exact ⟨call, by simp, caching, same⟩

/-- What a call comes to when every entry of the cache is what an earlier call got. -/
theorem returns_embed {earlier : List EmbedCall} {cache : self.EmbeddingCache} {call : EmbedCall}
    (filled : ∀ entry ∈ cache.entries, Filled self provider earlier entry)
    (free : NoCollision self (earlier ++ [call]))
    (unambiguous : Unambiguous self (earlier ++ [call])) :
    Returns self provider earlier call (self.embed provider cache call).1 := by
  unfold embed
  split
  · exact .invalid (.inl ‹_›)
  split
  · exact .invalid (.inr ‹_›)
  dsimp only
  split
  · rename_i embedding hit
    have found : cache.find? (self.computeCacheKey call.content call.model) = some embedding := by
      split at hit
      · exact hit
      · contradiction
    obtain ⟨filler, mem, caching, entry⟩ := filled _ (Lru.mem_of_find? found)
    obtain ⟨key, rfl⟩ := Prod.mk.inj entry
    have inside : filler ∈ earlier ++ [call] := List.mem_append_left _ mem
    have text := free filler inside call (by simp) key.symm
    cases model : self.policyConfig.cacheKeyIncludeModel with
    | true =>
      obtain ⟨models, contents⟩ := unambiguous model filler inside call (by simp) text
      have same : filler.own self provider = call.own self provider := by
        rw [EmbedCall.own, EmbedCall.own, models, contents]
      rw [same]
      exact .own
    | false =>
      have contents : filler.content = call.content := by
        simpa [EmbedCall.text, keyText, model] using text
      exact .shared mem contents (contents ▸ caching) model
  · split
    · exact .raised ‹_›
    · split
      · exact .own
      · exact .own

/-- The content is neither blank nor too long. -/
def EmbedCall.Valid (self : ModelHandlerSemanticComputeConfig) (call : EmbedCall) : Prop :=
  isBlank call.content = false ∧ call.content.length ≤ self.policyConfig.maxContentLength

theorem embed_hit {cache : self.EmbeddingCache} {call : EmbedCall} {embedding : Embedding}
    (valid : call.Valid self) (caching : self.enableCaching = true)
    (found : cache.find? (digestKey (call.text self)) = some embedding) :
    (self.embed provider cache call).1 = .ok embedding := by
  have found : cache.find? (self.computeCacheKey call.content call.model) = some embedding := found
  simp [embed, valid.1, Nat.not_lt.mpr valid.2, caching, found]

theorem embed_miss {cache : self.EmbeddingCache} {call : EmbedCall} (valid : call.Valid self)
    (caching : self.enableCaching = true ∧ self.shouldCacheEmbedding call.content = true)
    (missing : cache.find? (digestKey (call.text self)) = none) (raised : call.raised = none) :
    (self.embed provider cache call).2 =
      cache.put (digestKey (call.text self)) (call.own self provider) := by
  have missing : cache.find? (self.computeCacheKey call.content call.model) = none := missing
  simp [embed, valid.1, Nat.not_lt.mpr valid.2, caching, missing, raised]
  rfl

def plainCall (model : String) : EmbedCall where
  content := "Test content for caching."
  model := some model

/-- The default configuration, but for what keys include. -/
def plainConfig (includeModel : Bool) : ModelHandlerSemanticComputeConfig where
  policyConfig := { cacheKeyIncludeModel := includeModel }

/-- One model gives an empty vector, and the others do not. -/
def plainProvider : Provider := fun model _ => if model = "gte-qwen2" then [] else [0.5]

theorem plainCall_valid (includeModel : Bool) (model : String) :
    (plainCall model).Valid (plainConfig includeModel) := by
  have blank : isBlank "Test content for caching." = false := by decide +kernel
  have short : "Test content for caching.".length ≤ 100000 := by decide +kernel
  exact ⟨blank, short⟩

end Semantic

end OmniMemory
