/-!
# Metrics

The metrics that a run can report. Each has a tag by which settings refer to it, a heading for
display, and a polarity that says which direction is an improvement.
-/

namespace ServingTuner

/-- Whether a greater or a smaller value is an improvement. -/
inductive Polarity where
  | higherIsBetter
  | lowerIsBetter
  deriving DecidableEq

/-- What a run can report. -/
inductive Metric where
  | throughput
  | latencyAverage
  | latencyP90
  | latencyP95
  | latencyP99
  | clientResponseWait
  | serverQueue
  | serverComputeInfer
  | gpuUsedMemory
  | gpuUtilization
  | gpuPowerUsage
  | cpuUsedRam
  deriving DecidableEq

namespace Metric

/-- All metrics, in the order of the table. -/
def all : List Metric :=
  [throughput, latencyAverage, latencyP90, latencyP95, latencyP99, clientResponseWait,
    serverQueue, serverComputeInfer, gpuUsedMemory, gpuUtilization, gpuPowerUsage, cpuUsedRam]

/-- The tag by which settings refer to a metric. -/
def tag : Metric → String
  | throughput => "perf_throughput"
  | latencyAverage => "perf_latency_avg"
  | latencyP90 => "perf_latency_p90"
  | latencyP95 => "perf_latency_p95"
  | latencyP99 => "perf_latency_p99"
  | clientResponseWait => "perf_client_response_wait"
  | serverQueue => "perf_server_queue"
  | serverComputeInfer => "perf_server_compute_infer"
  | gpuUsedMemory => "gpu_used_memory"
  | gpuUtilization => "gpu_utilization"
  | gpuPowerUsage => "gpu_power_usage"
  | cpuUsedRam => "cpu_used_ram"

/-- The heading of a metric's column. -/
def header : Metric → String
  | throughput => "Throughput (infer/sec)"
  | latencyAverage => "Avg Latency (ms)"
  | latencyP90 => "p90 Latency (ms)"
  | latencyP95 => "p95 Latency (ms)"
  | latencyP99 => "p99 Latency (ms)"
  | clientResponseWait => "Response Wait Time (ms)"
  | serverQueue => "Server Queue Time (ms)"
  | serverComputeInfer => "Server Compute Infer time (ms)"
  | gpuUsedMemory => "GPU Memory Usage (MB)"
  | gpuUtilization => "GPU Utilization (%)"
  | gpuPowerUsage => "GPU Power Usage (W)"
  | cpuUsedRam => "RAM Usage (MB)"

/-- Throughput and utilization should be high; times, memory and power should be low. -/
def polarity : Metric → Polarity
  | throughput | gpuUtilization => .higherIsBetter
  | _ => .lowerIsBetter

/-- Whether a metric is reported as the greatest value over several devices. -/
def aggregated : Metric → Bool
  | gpuUsedMemory | gpuUtilization | gpuPowerUsage => true
  | _ => false

/-- The metric of a tag. -/
def ofTag? (tag : String) : Option Metric := all.find? (·.tag == tag)

/-- The heading, marked as a maximum for an aggregated metric when `marked`. -/
def heading (metric : Metric) (marked : Bool) : String :=
  if marked && metric.aggregated then "Max " ++ metric.header else metric.header

theorem ofTag?_tag (metric : Metric) : ofTag? metric.tag = some metric := by
  cases metric <;> rfl

/-- No two metrics have one tag. -/
theorem tag_injective {a b : Metric} (h : a.tag = b.tag) : a = b := by
  have found := ofTag?_tag a
  rw [h, ofTag?_tag b] at found
  exact (Option.some.inj found).symm

end Metric

end ServingTuner
