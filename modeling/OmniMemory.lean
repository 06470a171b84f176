import OmniMemory.Lifecycle.OptimisticLock
import OmniMemory.Lifecycle.OrphanSafety
import OmniMemory.Lifecycle.ArchiveIntegrity
import OmniMemory.Lifecycle.ExpirePool
import OmniMemory.Kreuzberg.TextIntegrity
import OmniMemory.Crawl.Convergence
import OmniMemory.Crawl.LostEvents
import OmniMemory.Crawl.Removal
import OmniMemory.Crawl.MtimeSound
import OmniMemory.Subscription.Delivery
import OmniMemory.Subscription.Listing
import OmniMemory.Subscription.Rebuild
import OmniMemory.Subscription.Pages
import OmniMemory.Subscription.RoundTrip
import OmniMemory.Subscription.TopicGrammar
import OmniMemory.Concurrency.LockSafety
import OmniMemory.Concurrency.FairSemaphore
import OmniMemory.Concurrency.PoolDeadlock
import OmniMemory.Concurrency.PoolBound
import OmniMemory.Concurrency.PoolLifecycle
import OmniMemory.Concurrency.ResourcePool
import OmniMemory.Concurrency.CircuitBreaker
import OmniMemory.Concurrency.BreakerLaw
import OmniMemory.Concurrency.ManagedResource
import OmniMemory.Concurrency.SimplePool
import OmniMemory.Intent.StorageBreaker
import OmniMemory.Health.ResourceHealth
import OmniMemory.Lib.Binary64
import OmniMemory.Lib.SlidingWindow
import OmniMemory.RateLimit.ProviderRateLimiter
import OmniMemory.Runtime.Ownership
import OmniMemory.Runtime.Generation
import OmniMemory.Runtime.Release
import OmniMemory.Runtime.DispatchCallback
import OmniMemory.Runtime.LifecycleBridge
import OmniMemory.Navigation.Containment
import OmniMemory.Navigation.Retry
import OmniMemory.Crawl.ScopeMapping
import OmniMemory.Crawl.LinearScope
import OmniMemory.Retrieval.Qdrant
import OmniMemory.Retrieval.Reindex
import OmniMemory.Retrieval.Search
import OmniMemory.Retrieval.Chunking
import OmniMemory.Retrieval.GraphTraversal
import OmniMemory.Graph.FindRelated
import OmniMemory.Storage.Filesystem
import OmniMemory.Storage.Refinement
import OmniMemory.Lib.Lru
import OmniMemory.Semantic.EmbeddingCache
import OmniMemory.Kreuzberg.Terminal
import OmniMemory.Foundation.Conservation
import OmniMemory.Foundation.MetricsCache
import OmniMemory.Foundation.TrustBounds
import OmniMemory.Foundation.TrustViolation
import OmniMemory.Pii.Masking
import OmniMemory.Sanitizer.Dict
import OmniMemory.Sanitizer.Credential
import OmniMemory.Sanitizer.DbUrl
import OmniMemory.RetryUtils.RetryManager
import OmniMemory.Persona.Snapshots
import OmniMemory.Persona.Conservatism
import OmniMemory.Persona.Frame
import OmniMemory.Persona.Drift
import OmniMemory.Semantic.EntitySpans
import OmniMemory.Semantic.Topics
import OmniMemory.Semantic.LlmEntities
import OmniMemory.Calendar
import OmniMemory.Intent.SessionIntents
import OmniMemory.Intent.TimeWindow
import OmniMemory.Lifecycle.OrphanComplete
import OmniMemory.Lifecycle.Retry
import OmniMemory.Lifecycle.Breakers
import OmniMemory.Lifecycle.Confinement
import OmniMemory.Metrics.ObserveOperation
import OmniMemory.Foundation.TypedCollections
import OmniMemory.Foundation.Tags
import OmniMemory.Protocols.ChainErrors
import OmniMemory.Similarity.Laws
import OmniMemory.Navigation.WriterPool
import OmniMemory.Lifecycle.TickRuns
import OmniMemory.Lifecycle.TickRounds
import OmniMemory.RateLimit.Acquire
import OmniMemory.RateLimit.Registry
import OmniMemory.Retrieval.MemoryRetrieval
import OmniMemory.Embedding.Batch
import OmniMemory.Embedding.HttpBatch
import OmniMemory.Subscription.Valkey
import OmniMemory.Metrics.Tracing
