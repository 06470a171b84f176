import OmniMemory.Metrics.Histogram

/-! The metrics of handlers, in one registry: a counter of operations, a histogram of latencies for
those that store and one for those that retrieve, and a gauge of health. -/

namespace OmniMemory

open Interleave

namespace Metrics

section Values

variable (self : Metric) (values : Values ℕ) (gauge : Values ℚ) (labels : Labels)

/-- `Counter.inc`. -/
def inc (amount : ℕ) : Except PyError Unit × Values ℕ := self.record 0 (· + amount) values labels

/-- `Gauge.set`. -/
def set (value : ℚ) : Except PyError Unit × Values ℚ := self.record 0 (fun _ => value) gauge labels

end Values

/-- The count that is stored for a key. -/
def Values.total (values : Values ℕ) (key : Key) : ℕ := (values.find? key).elim 0 Prod.snd

/-- The value of a gauge that is stored for a key. -/
def Values.level (values : Values ℚ) (key : Key) : ℚ := (values.find? key).elim 0 Prod.snd

def memoryOperationTotal : Metric where
  name := "memory_operation_total"
  labelNames := ["operation", "status", "handler"]

def latency (name : String) : Histogram where
  name := name
  labelNames := ["operation", "handler"]
  buckets := defaultLatencyBuckets
  nonempty := by decide
  positive := by decide +kernel
  ascending := by decide +kernel

def memoryStorageLatencyMs : Histogram := latency "memory_storage_latency_ms"

def memoryRetrievalLatencyMs : Histogram := latency "memory_retrieval_latency_ms"

def handlerHealthStatus : Metric where
  name := "handler_health_status"
  labelNames := ["handler"]

/-- `MetricsRegistry`: what is stored for each of its metrics. -/
structure Registry where
  total : Values ℕ
  storage : memoryStorageLatencyMs.Stored
  retrieval : memoryRetrievalLatencyMs.Stored
  health : Values ℚ

inductive Status where
  | success
  | failure

def Status.text : Status → String
  | success => "success"
  | failure => "failure"

/-- The health that a status stands for. -/
def Status.health : Status → ℚ
  | success => 1
  | failure => 0

/-- The labels of an operation, without a status or with one. -/
def latencyLabels (operation handler : String) : Labels :=
  ⟨[("operation", operation), ("handler", handler)], by simp⟩

def totalLabels (operation : String) (status : Status) (handler : String) : Labels :=
  ⟨[("operation", operation), ("status", status.text), ("handler", handler)], by simp⟩

def handlerLabels (handler : String) : Labels := ⟨[("handler", handler)], by simp⟩

/-- `_record_metrics`, of the wrapper of a handler. -/
def recordMetrics (handler operation : String) (status : Status) (latencyMs : ℚ)
    (self : Registry) : Except PyError Unit × Registry :=
  let (counted, total) :=
    inc memoryOperationTotal self.total (totalLabels operation status handler) 1
  let self := { self with total }
  match counted with
  | .error e => (.error e, self)
  | .ok () =>
    -- An operation of no known name counts as one that stores.
    let (observed, self) :=
      if operation ∈ ["retrieve", "list", "search"] then
        let (observed, retrieval) := memoryRetrievalLatencyMs.observe self.retrieval latencyMs
          (latencyLabels operation handler)
        (observed, { self with retrieval })
      else
        let (observed, storage) := memoryStorageLatencyMs.observe self.storage latencyMs
          (latencyLabels operation handler)
        (observed, { self with storage })
    match observed with
    | .error e => (.error e, self)
    | .ok () =>
      let (set, health) := set handlerHealthStatus self.health (handlerLabels handler) status.health
      (set, { self with health })

/-- The key of an operation with a status. -/
def totalKey (operation : String) (status : Status) (handler : String) : Key :=
  [operation, status.text, handler]

/-- What an operation changes: one more is counted for its status, other counts are kept or dropped,
and the health of the handler is what the status stands for. -/
structure Recorded (handler operation : String) (status : Status) (r r' : Registry) : Prop where
  counted : r'.total.total (totalKey operation status handler) =
    r.total.total (totalKey operation status handler) + 1
  others : ∀ key ≠ totalKey operation status handler, ∀ n,
    r'.total.find? key = some (key, n) → r.total.find? key = some (key, n)
  level : r'.health.level [handler] = status.health

section Recording

variable {handler operation : String} {status : Status}

theorem labelsToKey_totalLabels :
    memoryOperationTotal.labelsToKey (totalLabels operation status handler) =
      totalKey operation status handler := rfl

theorem labelsToKey_handlerLabels :
    handlerHealthStatus.labelsToKey (handlerLabels handler) = [handler] := rfl

/-- A latency is always observed. -/
theorem observe_latency (name : String) (values : (latency name).Stored) (latencyMs : ℚ)
    (labels : Labels) : ((latency name).observe values latencyMs labels).1 = .ok () :=
  (Metric.record_ok _ _ _ _ _ rfl (show (0 : Int) < 10000 by decide)).1

theorem inc_total (operation : String) (status : Status) (handler : String) (values : Values ℕ) :
    ∃ values', inc memoryOperationTotal values (totalLabels operation status handler) 1 =
      (.ok (), values') ∧
      values'.total (totalKey operation status handler) =
        values.total (totalKey operation status handler) + 1 ∧
      ∀ key ≠ totalKey operation status handler, ∀ n,
        values'.find? key = some (key, n) → values.find? key = some (key, n) := by
  obtain ⟨counted, stored⟩ := Metric.record_ok memoryOperationTotal 0 (· + 1) values
    (totalLabels operation status handler) rfl (by decide)
  rw [labelsToKey_totalLabels] at stored
  refine ⟨_, Prod.ext counted rfl, ?_, fun key other n found => ?_⟩
  · rw [Values.total, inc, stored]
    rfl
  · rw [← labelsToKey_totalLabels] at other
    exact Metric.find?_record_of_ne other found

theorem set_health (handler : String) (gauge : Values ℚ) (value : ℚ) :
    ∃ gauge', set handlerHealthStatus gauge (handlerLabels handler) value = (.ok (), gauge') ∧
      gauge'.level [handler] = value := by
  obtain ⟨done, stored⟩ := Metric.record_ok handlerHealthStatus 0 (fun _ => value) gauge
    (handlerLabels handler) rfl (by decide)
  rw [labelsToKey_handlerLabels] at stored
  refine ⟨_, Prod.ext done rfl, ?_⟩
  rw [Values.level, set, stored]
  rfl

/-- The metrics are always recorded. -/
theorem recordMetrics_recorded (handler operation : String) (status : Status) (latencyMs : ℚ)
    (r : Registry) : ∃ r', recordMetrics handler operation status latencyMs r = (.ok (), r') ∧
      Recorded handler operation status r r' := by
  obtain ⟨total, inc, counted, others⟩ := inc_total operation status handler r.total
  obtain ⟨health, set, level⟩ := set_health handler r.health status.health
  have retrieved := observe_latency "memory_retrieval_latency_ms" r.retrieval latencyMs
    (latencyLabels operation handler)
  have stored := observe_latency "memory_storage_latency_ms" r.storage latencyMs
    (latencyLabels operation handler)
  unfold recordMetrics
  rw [inc]
  by_cases retrieves : operation ∈ ["retrieve", "list", "search"]
  · simp only [if_pos retrieves]
    simp only [memoryRetrievalLatencyMs, retrieved, set]
    exact ⟨_, rfl, counted, others, level⟩
  · simp only [if_neg retrieves]
    simp only [memoryStorageLatencyMs, stored, set]
    exact ⟨_, rfl, counted, others, level⟩

end Recording

end Metrics

end OmniMemory
