import PerfMonitor.Manager.HostLogs

/-!
# Metrics exporter

The `/metrics` page, from `prometheus_metrics` in
`manager/src/rpc/metrics_exporter.cpp`.  The page is a list of lines, one
constructor per shape of line the source writes, and a rendering of these lines
to text.  Label values are spliced into the text as they are.  How a `double` is
printed is left open; integers are printed in decimal.
-/

namespace PerfMonitor
namespace Manager

open Foundation

inductive Metric where
  | hostCount
  | hostHealthScore
  | cpuLoad1m
  | cpuUsedPct
  | memUsedPct
  | diskIops
  | netRxMbps
  | netTxMbps
  | observeProcExec
  | observeProcExit
  | observeTcpFlows
  | observeTcpBytesSent
  | observeTcpBytesRecv
  | diagnoseEventCount
  | diagnoseEvent
deriving DecidableEq, Repr

namespace Metric

def name : Metric -> Str
  | hostCount => "monitor_host_count".toList
  | hostHealthScore => "monitor_host_health_score".toList
  | cpuLoad1m => "monitor_cpu_load_1m".toList
  | cpuUsedPct => "monitor_cpu_used_pct".toList
  | memUsedPct => "monitor_mem_used_pct".toList
  | diskIops => "monitor_disk_iops".toList
  | netRxMbps => "monitor_net_rx_mbps".toList
  | netTxMbps => "monitor_net_tx_mbps".toList
  | observeProcExec => "monitor_observe_proc_exec".toList
  | observeProcExit => "monitor_observe_proc_exit".toList
  | observeTcpFlows => "monitor_observe_tcp_flows".toList
  | observeTcpBytesSent => "monitor_observe_tcp_bytes_sent".toList
  | observeTcpBytesRecv => "monitor_observe_tcp_bytes_recv".toList
  | diagnoseEventCount => "monitor_diagnose_event_count".toList
  | diagnoseEvent => "monitor_diagnose_event".toList

def help : Metric -> Str
  | hostCount => "Number of active hosts".toList
  | hostHealthScore => "Host health score 0-100".toList
  | cpuLoad1m => "CPU load 1-minute average".toList
  | cpuUsedPct => "CPU usage percentage".toList
  | memUsedPct => "Memory usage percentage".toList
  | diskIops => "Disk IOPS".toList
  | netRxMbps => "Network RX Mbps".toList
  | netTxMbps => "Network TX Mbps".toList
  | observeProcExec => "Process exec events (cumulative)".toList
  | observeProcExit => "Process exit events (cumulative)".toList
  | observeTcpFlows => "Active TCP flows tracked".toList
  | observeTcpBytesSent => "TCP bytes sent (cumulative)".toList
  | observeTcpBytesRecv => "TCP bytes received (cumulative)".toList
  | diagnoseEventCount => "Total diagnose records kept".toList
  | diagnoseEvent => "Diagnose event CPU%% at trigger".toList

end Metric

/-- A printed value: a `double`, an `int64_t` or a `size_t`. -/
inductive MetricValue where
  | double (value : Rat)
  | int64 (value : Int)
  | size (value : Nat)
deriving DecidableEq, Repr

inductive MetricLine where
  | help (metric : Metric)
  | type (metric : Metric)
  | sample (metric : Metric) (labels : List (Str × Str)) (value : MetricValue)
deriving DecidableEq, Repr

namespace MetricsExporter

def gauge (metric : Metric) (labels : List (Str × Str)) (value : MetricValue) :
    List MetricLine :=
  [.help metric, .type metric, .sample metric labels value]

def hostLabel (snap : HostSnapshot) : List (Str × Str) :=
  [("host".toList, snap.hostname)]

def diagnoseLabel (snap : HostSnapshot) (de : DiagnoseRecord) : List (Str × Str) :=
  [("host".toList, snap.hostname), ("type".toList, de.type),
   ("process".toList, de.processName), ("file".toList, de.filePath)]

def hostLines (h : HostSnapshot) : List MetricLine :=
  gauge .hostHealthScore (hostLabel h) (.double h.healthScore) ++
  gauge .cpuLoad1m (hostLabel h) (.double h.load1m) ++
  gauge .cpuUsedPct (hostLabel h) (.double h.cpuUsedPct) ++
  gauge .memUsedPct (hostLabel h) (.double h.memUsedPct) ++
  gauge .diskIops (hostLabel h) (.double h.diskIops) ++
  gauge .netRxMbps (hostLabel h) (.double h.netRxMbps) ++
  gauge .netTxMbps (hostLabel h) (.double h.netTxMbps) ++
  gauge .observeProcExec (hostLabel h) (.int64 h.procExecCount) ++
  gauge .observeProcExit (hostLabel h) (.int64 h.procExitCount) ++
  gauge .observeTcpFlows (hostLabel h) (.int64 h.tcpFlowCount) ++
  gauge .observeTcpBytesSent (hostLabel h) (.int64 h.tcpBytesSent) ++
  gauge .observeTcpBytesRecv (hostLabel h) (.int64 h.tcpBytesRecv) ++
  gauge .diagnoseEventCount (hostLabel h) (.size h.diagnoseEvents.length) ++
  h.diagnoseEvents.flatMap
    (fun de => gauge .diagnoseEvent (diagnoseLabel h de) (.double de.cpuPercent))

/-- `prometheus_metrics` on the vector returned by `GetAll`. -/
def prometheusMetrics (hosts : List HostSnapshot) : List MetricLine :=
  gauge .hostCount [] (.size hosts.length) ++ hosts.flatMap hostLines

/-!
## Rendering
-/

def renderLabel (label : Str × Str) : Str :=
  label.1 ++ "=\"".toList ++ label.2 ++ "\"".toList

def renderLabels : List (Str × Str) -> Str
  | [] => []
  | labels =>
      "\x7b".toList ++ ",".toList.intercalate (labels.map renderLabel) ++ "\x7d".toList

def renderValue (showDouble : Rat -> Str) : MetricValue -> Str
  | .double value => showDouble value
  | .int64 value => (toString value).toList
  | .size value => (toString value).toList

/-- How a `double` with a small whole value is printed. -/
def showWhole (value : Rat) : Str :=
  (toString value.num).toList

def renderLine (showDouble : Rat -> Str) : MetricLine -> Str
  | .help metric => "# HELP ".toList ++ metric.name ++ " ".toList ++ metric.help ++ ['\n']
  | .type metric => "# TYPE ".toList ++ metric.name ++ " gauge".toList ++ ['\n']
  | .sample metric labels value =>
      metric.name ++ renderLabels labels ++ " ".toList ++
        renderValue showDouble value ++ ['\n']

def render (showDouble : Rat -> Str) (lines : List MetricLine) : Str :=
  lines.flatMap (renderLine showDouble)

/-!
## Exported values

The values that a page exports for a host under a metric are those of the sample
lines whose only label is that host.
-/

def exportedValue (metric : Metric) (h : Str) : MetricLine -> Option MetricValue
  | .sample m labels value =>
      if m = metric ∧ labels = [("host".toList, h)] then some value else none
  | _ => none

def exported (lines : List MetricLine) (metric : Metric) (h : Str) :
    List MetricValue :=
  lines.filterMap (exportedValue metric h)

/-- The value of a snapshot under each metric that has one line per host. -/
def hostValue (snap : HostSnapshot) : Metric -> List MetricValue
  | .hostCount => []
  | .hostHealthScore => [.double snap.healthScore]
  | .cpuLoad1m => [.double snap.load1m]
  | .cpuUsedPct => [.double snap.cpuUsedPct]
  | .memUsedPct => [.double snap.memUsedPct]
  | .diskIops => [.double snap.diskIops]
  | .netRxMbps => [.double snap.netRxMbps]
  | .netTxMbps => [.double snap.netTxMbps]
  | .observeProcExec => [.int64 snap.procExecCount]
  | .observeProcExit => [.int64 snap.procExitCount]
  | .observeTcpFlows => [.int64 snap.tcpFlowCount]
  | .observeTcpBytesSent => [.int64 snap.tcpBytesSent]
  | .observeTcpBytesRecv => [.int64 snap.tcpBytesRecv]
  | .diagnoseEventCount => [.size snap.diagnoseEvents.length]
  | .diagnoseEvent => []

theorem exported_append (first second : List MetricLine) (metric : Metric) (h : Str) :
    exported (first ++ second) metric h =
      exported first metric h ++ exported second metric h :=
  List.filterMap_append

theorem exported_flatMap {α : Type*} (l : List α) (lines : α -> List MetricLine)
    (metric : Metric) (h : Str) :
    exported (l.flatMap lines) metric h =
      l.flatMap (fun a => exported (lines a) metric h) := by
  induction l with
  | nil => rfl
  | cons a rest ih =>
      rw [List.flatMap_cons, List.flatMap_cons, exported_append, ih]

theorem exported_gauge (m metric : Metric) (labels : List (Str × Str))
    (value : MetricValue) (h : Str) :
    exported (gauge m labels value) metric h =
      if m = metric ∧ labels = [("host".toList, h)] then [value] else [] := by
  unfold exported gauge
  simp only [List.filterMap_cons, List.filterMap_nil, exportedValue]
  split
  · rename_i hnone
    rw [if_neg (by intro hpos; rw [if_pos hpos] at hnone; cases hnone)]
  · rename_i v hsome
    by_cases hpos : m = metric ∧ labels = [("host".toList, h)]
    · rw [if_pos hpos] at hsome ⊢
      cases hsome
      rfl
    · rw [if_neg hpos] at hsome
      cases hsome

theorem exported_hostGauge (m metric : Metric) (snap : HostSnapshot)
    (value : MetricValue) (h : Str) :
    exported (gauge m (hostLabel snap) value) metric h =
      if m = metric ∧ snap.hostname = h then [value] else [] := by
  rw [exported_gauge]
  have hlabel : hostLabel snap = [("host".toList, h)] <-> snap.hostname = h := by
    constructor
    · intro heq
      injection heq with hpair _htail
      exact congrArg Prod.snd hpair
    · intro heq
      rw [← heq]
      rfl
  simp only [hlabel]

/-- A diagnose line has four labels, so it exports no value of a host alone. -/
theorem exported_diagnose (snap : HostSnapshot) (metric : Metric) (h : Str) :
    exported (snap.diagnoseEvents.flatMap (fun de =>
        gauge .diagnoseEvent (diagnoseLabel snap de) (.double de.cpuPercent)))
      metric h = [] := by
  rw [exported_flatMap, List.flatMap_eq_nil_iff]
  intro de _hde
  rw [exported_gauge, if_neg]
  intro hpos
  have hlen := congrArg List.length hpos.right
  simp [diagnoseLabel] at hlen

theorem exported_hostLines (snap : HostSnapshot) (metric : Metric) (h : Str) :
    exported (hostLines snap) metric h =
      if snap.hostname = h then hostValue snap metric else [] := by
  unfold hostLines
  simp only [exported_append, exported_hostGauge, exported_diagnose]
  by_cases hh : snap.hostname = h
  · simp only [hh, and_true, if_true]
    cases metric <;> simp only [reduceCtorEq, if_false, if_true, List.nil_append,
      List.append_nil, hostValue]
  · simp only [hh, and_false, if_false, List.append_nil]

theorem exported_hostCount (hosts : List HostSnapshot) (metric : Metric) (h : Str) :
    exported (gauge .hostCount [] (.size hosts.length)) metric h = [] := by
  rw [exported_gauge, if_neg]
  intro hpos
  cases hpos.right

theorem exported_prometheusMetrics (hosts : List HostSnapshot) (metric : Metric)
    (h : Str) :
    exported (prometheusMetrics hosts) metric h =
      (hosts.filter (fun snap => decide (snap.hostname = h))).flatMap
        (fun snap => hostValue snap metric) := by
  unfold prometheusMetrics
  rw [exported_append, exported_hostCount, List.nil_append, exported_flatMap]
  induction hosts with
  | nil => rw [List.filter_nil, List.flatMap_nil, List.flatMap_nil]
  | cons snap rest ih =>
      rw [List.flatMap_cons, ih, exported_hostLines]
      by_cases hh : snap.hostname = h
      · rw [if_pos hh, List.filter_cons_of_pos (by simpa using hh), List.flatMap_cons]
      · rw [if_neg hh, List.filter_cons_of_neg (by simpa using hh), List.nil_append]

theorem exported_of_refines {mgr : HostManager} {logs : HostLogs}
    (href : Refines mgr logs) {hosts : List HostSnapshot}
    (hperm : hosts.Perm mgr.getAll) {h : Str} {log : HostLog}
    (hlog : logs h = some log) (metric : Metric) :
    exported (prometheusMetrics hosts) metric h =
      hostValue (HostLog.snapshot h log) metric := by
  have hall := getAll_of_refines href h
  rw [hlog] at hall
  have hone : hosts.filter (fun snap => decide (snap.hostname = h)) =
      [HostLog.snapshot h log] := by
    apply List.perm_singleton.mp
    have hfilter := hperm.filter (fun snap => decide (snap.hostname = h))
    rw [hall] at hfilter
    exact hfilter
  rw [exported_prometheusMetrics, hone, List.flatMap_cons, List.flatMap_nil,
    List.append_nil]

end MetricsExporter

end Manager
end PerfMonitor
