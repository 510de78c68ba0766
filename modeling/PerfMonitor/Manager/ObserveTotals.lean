import PerfMonitor.Manager.MetricsExporter

/-!
# Exported observe counters against running totals

The page calls the process and byte counters cumulative.  The totals they are
compared with are those of the host's log: all observe batches committed since
the host was last absent.  `Update` overwrites the counters with those of the
last report, so the two agree only while every earlier report of the log
contributed nothing.  This module states the agreement for all scrapes of a run
and proves exactly when it holds.
-/

namespace PerfMonitor
namespace Manager

open Foundation
open Proto

/-!
## Totals of a log
-/

def cumulativeMetrics : List Metric :=
  [.observeProcExec, .observeProcExit, .observeTcpBytesSent, .observeTcpBytesRecv]

def batchTotal (batch : ObserveBatch) : Metric -> Nat
  | .observeProcExec => batch.processEvents.countP GrpcServer.isExec
  | .observeProcExit => batch.processEvents.countP (fun pe => !GrpcServer.isExec pe)
  | .observeTcpBytesSent => GrpcServer.sentTotal batch.flowEvents
  | .observeTcpBytesRecv => GrpcServer.recvTotal batch.flowEvents
  | _ => 0

def requestTotal (request : MonitorInfo) (metric : Metric) : Nat :=
  match request.observeBatch with
  | none => 0
  | some batch => batchTotal batch metric

def total (reports : List Report) (metric : Metric) : Nat :=
  (reports.map (fun report => requestTotal report.request metric)).sum

def priorTotal (log? : Option HostLog) (metric : Metric) : Nat :=
  (log?.map (fun log => total log.reports metric)).getD 0

theorem total_commit (log? : Option HostLog) (report : Report) (metric : Metric) :
    total (HostLog.commit log? report).reports metric =
      priorTotal log? metric + requestTotal report.request metric := by
  cases log? with
  | none => simp [HostLog.commit, HostLog.reports, total, priorTotal]
  | some log =>
      simp [HostLog.commit, HostLog.reports, total, priorTotal, Nat.add_assoc]

theorem total_mono {first second : List Report} (hpre : first <+: second)
    (metric : Metric) : total first metric ≤ total second metric := by
  rcases hpre with ⟨rest, rfl⟩
  simp [total]

/-!
## The exported value of a log
-/

/-- What the page shows for a cumulative metric after a request: a count, or a
sum of bytes reduced to `int64_t`. -/
def requestValue (request : MonitorInfo) (metric : Metric) : Int :=
  match metric with
  | .observeTcpBytesSent => wrap64 (requestTotal request .observeTcpBytesSent)
  | .observeTcpBytesRecv => wrap64 (requestTotal request .observeTcpBytesRecv)
  | metric => requestTotal request metric

theorem hostValue_snapshot (h : Str) (log : HostLog) {metric : Metric}
    (hmetric : metric ∈ cumulativeMetrics) :
    MetricsExporter.hostValue (HostLog.snapshot h log) metric =
      [.int64 (requestValue log.last.request metric)] := by
  have hcounters :=
    GrpcServer.counters_snapshot log.last.now log.last.request
  have hsnap : GrpcServer.counters (HostLog.snapshot h log) =
      GrpcServer.batchCounters log.last.request.observeBatch := hcounters
  have hexec := congrArg GrpcServer.Counters.execs hsnap
  have hexit := congrArg GrpcServer.Counters.exits hsnap
  have hsent := congrArg GrpcServer.Counters.sent hsnap
  have hrecv := congrArg GrpcServer.Counters.recv hsnap
  simp only [GrpcServer.counters] at hexec hexit hsent hrecv
  simp only [cumulativeMetrics, List.mem_cons, List.not_mem_nil, or_false] at hmetric
  rcases hmetric with rfl | rfl | rfl | rfl
  all_goals
    simp only [MetricsExporter.hostValue, requestValue, requestTotal,
      hexec, hexit, hsent, hrecv]
    cases log.last.request.observeBatch with
    | none => simp [GrpcServer.batchCounters]
    | some batch => simp only [GrpcServer.batchCounters, batchTotal]

theorem wrap64_eq_add_iff (prior n : Nat) :
    wrap64 n = ((prior + n : Nat) : Int) <-> prior = 0 ∧ n < 2 ^ 63 := by
  unfold wrap64
  rw [Int.bmod_def]
  constructor
  · intro h
    split at h <;> omega
  · intro h
    split <;> omega

/-!
## When the counters are cumulative
-/

def ExportsTotals (mgr : HostManager) (h : Str) (log : HostLog) : Prop :=
  forall hosts, hosts.Perm mgr.getAll -> forall metric, metric ∈ cumulativeMetrics ->
    MetricsExporter.exported (MetricsExporter.prometheusMetrics hosts) metric h =
      [.int64 (total log.reports metric)]

def NotDecreasing (mgr later : HostManager) (h : Str) : Prop :=
  forall hosts laterHosts, hosts.Perm mgr.getAll -> laterHosts.Perm later.getAll ->
    forall metric, metric ∈ cumulativeMetrics -> forall a b : Int,
      MetricsExporter.exported (MetricsExporter.prometheusMetrics hosts) metric h =
        [.int64 a] ->
      MetricsExporter.exported (MetricsExporter.prometheusMetrics laterHosts) metric h =
        [.int64 b] ->
      a ≤ b

/-- At every scrape of the run the counters of a present host are the totals of
its log, and they do not decrease while the host is not erased. -/
def Cumulative (ops : List ManagerOp) (h : Str) : Prop :=
  (forall first second log, ops = first ++ second ->
    HostLogs.run first h = some log -> ExportsTotals (ManagerOp.run first) h log) ∧
  (forall first middle last, ops = first ++ middle ++ last ->
    Throughout HostLogs.step (fun logs => (logs h).isSome = true)
      (HostLogs.run first) middle ->
    NotDecreasing (ManagerOp.run first) (ManagerOp.run (first ++ middle)) h)

/-- A report of the host is committed only while the reports before it in the
log contributed nothing, and its byte sums fit an `int64_t`. -/
def NothingBefore (h : Str) (logs : HostLogs) : ManagerOp -> Prop
  | .setMonitorInfo _ request =>
      request.hostname = h ->
        (forall metric, metric ∈ cumulativeMetrics -> priorTotal (logs h) metric = 0) ∧
        requestTotal request .observeTcpBytesSent < 2 ^ 63 ∧
        requestTotal request .observeTcpBytesRecv < 2 ^ 63
  | _ => True

def ShowsTotals (h : Str) (logs : HostLogs) : Prop :=
  forall log, logs h = some log -> forall metric, metric ∈ cumulativeMetrics ->
    requestValue log.last.request metric = (total log.reports metric : Int)

theorem exportsTotals_iff {mgr : HostManager} {logs : HostLogs}
    (href : Refines mgr logs) {h : Str} {log : HostLog} (hlog : logs h = some log) :
    ExportsTotals mgr h log <->
      forall metric, metric ∈ cumulativeMetrics ->
        requestValue log.last.request metric = (total log.reports metric : Int) := by
  constructor
  · intro hexports metric hmetric
    have hvalue := hexports mgr.getAll (List.Perm.refl _) metric hmetric
    rw [MetricsExporter.exported_of_refines href (List.Perm.refl _) hlog,
      hostValue_snapshot h log hmetric] at hvalue
    injection hvalue with hvalue _htail
    injection hvalue
  · intro hshow hosts hperm metric hmetric
    rw [MetricsExporter.exported_of_refines href hperm hlog,
      hostValue_snapshot h log hmetric, hshow metric hmetric]

theorem requestValue_commit_iff (log? : Option HostLog) (report : Report) :
    (forall metric, metric ∈ cumulativeMetrics ->
      requestValue report.request metric =
        (total (HostLog.commit log? report).reports metric : Int)) <->
      (forall metric, metric ∈ cumulativeMetrics -> priorTotal log? metric = 0) ∧
        requestTotal report.request .observeTcpBytesSent < 2 ^ 63 ∧
        requestTotal report.request .observeTcpBytesRecv < 2 ^ 63 := by
  simp only [total_commit, cumulativeMetrics, List.forall_mem_cons,
    List.not_mem_nil, requestValue, wrap64_eq_add_iff]
  constructor
  · rintro ⟨hexec, hexit, ⟨hsent, hsentFits⟩, ⟨hrecv, hrecvFits⟩, _⟩
    refine ⟨⟨by omega, by omega, hsent, hrecv, ?_⟩, hsentFits, hrecvFits⟩
    intro metric hmetric
    cases hmetric
  · rintro ⟨⟨hexec, hexit, hsent, hrecv, _⟩, hsentFits, hrecvFits⟩
    refine ⟨by omega, by omega, ⟨hsent, hsentFits⟩, ⟨hrecv, hrecvFits⟩, ?_⟩
    intro metric hmetric
    cases hmetric

theorem showsTotals_step (h : Str) (logs : HostLogs) (op : ManagerOp)
    (hshow : ShowsTotals h logs) (hquiet : NothingBefore h logs op) :
    ShowsTotals h (HostLogs.step logs op) := by
  intro log hlog
  cases op with
  | setMonitorInfo now request =>
      simp only [HostLogs.step] at hlog
      by_cases hh : h = request.hostname
      · rw [if_pos hh] at hlog
        injection hlog with hlog
        rw [← hlog, last_commit]
        exact (requestValue_commit_iff (logs h) { now := now, request := request }).mpr
          (hquiet hh.symm)
      · rw [if_neg hh] at hlog
        exact hshow log hlog
  | removeExpired now maxAgeS =>
      exact hshow log (Option.filter_eq_some_iff.mp hlog).left
  | getMonitorInfo request => exact hshow log hlog
  | getAll => exact hshow log hlog

theorem nothingBefore_of_showsTotals (h : Str) (logs : HostLogs) (op : ManagerOp)
    (hshow : ShowsTotals h (HostLogs.step logs op)) : NothingBefore h logs op := by
  cases op with
  | setMonitorInfo now request =>
      intro hh
      have hlog : HostLogs.step logs (.setMonitorInfo now request) h =
          some (HostLog.commit (logs h) { now := now, request := request }) := by
        simp only [HostLogs.step]
        rw [if_pos hh.symm]
      have hvalues := hshow _ hlog
      rw [last_commit] at hvalues
      exact (requestValue_commit_iff (logs h) { now := now, request := request }).mp
        hvalues
  | removeExpired now maxAgeS => trivial
  | getMonitorInfo request => trivial
  | getAll => trivial

theorem reports_prefix_of_present (h : Str) (ops : List ManagerOp) {logs : HostLogs}
    (hpresent : Throughout HostLogs.step (fun logs => (logs h).isSome = true) logs ops)
    {log later : HostLog} (hlog : logs h = some log)
    (hlater : runFrom HostLogs.step logs ops h = some later) :
    log.reports <+: later.reports := by
  induction ops generalizing logs log with
  | nil =>
      have heq : log = later := by
        rw [runFrom_nil, hlog] at hlater
        injection hlater
      subst heq
      exact List.prefix_rfl
  | cons op rest ih =>
      have hnext : exists next, HostLogs.step logs op h = some next ∧
          log.reports <+: next.reports := by
        have hsome := throughout_start hpresent.right
        cases op with
        | setMonitorInfo now request =>
            simp only [HostLogs.step]
            by_cases hh : h = request.hostname
            · rw [if_pos hh, hlog]
              exact ⟨_, rfl, List.prefix_append _ _⟩
            · rw [if_neg hh]
              exact ⟨log, hlog, List.prefix_rfl⟩
        | removeExpired now maxAgeS =>
            rcases Option.isSome_iff_exists.mp hsome with ⟨next, hnext⟩
            have hkept := (Option.filter_eq_some_iff.mp hnext).left
            rw [hlog] at hkept
            injection hkept with hkept
            rw [hkept]
            exact ⟨next, hnext, List.prefix_rfl⟩
        | getMonitorInfo request => exact ⟨log, hlog, List.prefix_rfl⟩
        | getAll => exact ⟨log, hlog, List.prefix_rfl⟩
      rcases hnext with ⟨next, hnext, hpre⟩
      exact hpre.trans (ih hpresent.right hnext hlater)

theorem throughout_showsTotals_iff (ops : List ManagerOp) (h : Str) :
    Throughout HostLogs.step (ShowsTotals h) HostLogs.empty ops <->
      forall first second log, ops = first ++ second ->
        HostLogs.run first h = some log -> ExportsTotals (ManagerOp.run first) h log := by
  rw [throughout_iff_prefixes]
  constructor
  · intro hall first second log heq hlog
    exact (exportsTotals_iff (refines_run first) hlog).mpr (hall first second heq log hlog)
  · intro hall first second heq log hlog
    exact (exportsTotals_iff (refines_run first) hlog).mp
      (hall first second log heq hlog)

theorem notDecreasing_of_exportsTotals {first middle : List ManagerOp} {h : Str}
    {log later : HostLog}
    (hpre : log.reports <+: later.reports)
    (hfirst : ExportsTotals (ManagerOp.run first) h log)
    (hmiddle : ExportsTotals (ManagerOp.run (first ++ middle)) h later) :
    NotDecreasing (ManagerOp.run first) (ManagerOp.run (first ++ middle)) h := by
  intro hosts laterHosts hperm hlaterPerm metric hmetric a b ha hb
  rw [hfirst hosts hperm metric hmetric] at ha
  rw [hmiddle laterHosts hlaterPerm metric hmetric] at hb
  injection ha with ha _
  injection hb with hb _
  injection ha with ha
  injection hb with hb
  rw [← ha, ← hb]
  exact_mod_cast total_mono hpre metric

/-- The exported observe counters of a host are cumulative over a run exactly
when every report of the host is committed on a log whose earlier reports
contributed nothing, with byte sums below `2 ^ 63`. -/
theorem cumulative_iff_nothingBefore (ops : List ManagerOp) (h : Str) :
    Cumulative ops h <->
      EachStep HostLogs.step (NothingBefore h) HostLogs.empty ops := by
  have hrun : Throughout HostLogs.step (ShowsTotals h) HostLogs.empty ops <->
      EachStep HostLogs.step (NothingBefore h) HostLogs.empty ops := by
    apply throughout_iff_eachStep (showsTotals_step h)
    · intro logs op _ hshow
      exact nothingBefore_of_showsTotals h logs op hshow
    · intro logs hshow
      exact hshow
    · intro log hlog
      cases hlog
  rw [← hrun, throughout_showsTotals_iff]
  constructor
  · intro hcumulative
    exact hcumulative.left
  · intro hexports
    refine ⟨hexports, ?_⟩
    intro first middle last heq hpresent
    have hsome := throughout_start hpresent
    have hsomeLater := throughout_final hpresent
    rcases Option.isSome_iff_exists.mp hsome with ⟨log, hlog⟩
    rcases Option.isSome_iff_exists.mp hsomeLater with ⟨later, hlater⟩
    have hpre := reports_prefix_of_present h middle hpresent hlog hlater
    have hlaterRun : HostLogs.run (first ++ middle) h = some later := by
      unfold HostLogs.run
      rw [runFrom_append]
      exact hlater
    exact notDecreasing_of_exportsTotals hpre
      (hexports first (middle ++ last) log (by rw [heq, List.append_assoc]) hlog)
      (hexports (first ++ middle) last later heq hlaterRun)

def twoExecReports : List ManagerOp :=
  let request : MonitorInfo :=
    { hostname := "a".toList
      observeBatch := some { processEvents := [{ event := "exec".toList }] } }
  [.setMonitorInfo 100 request, .setMonitorInfo 110 request]

/-- After the second of two equal reports the page still shows one exec. -/
theorem twoExecReports_not_cumulative : ¬ Cumulative twoExecReports "a".toList := by
  intro hcumulative
  have hrun : exists log, HostLogs.run twoExecReports "a".toList = some log ∧
      total log.reports .observeProcExec = 2 := by
    refine ⟨_, rfl, ?_⟩
    decide
  rcases hrun with ⟨log, hlog, htotal⟩
  have hexports := hcumulative.left twoExecReports [] log (by simp) hlog
    _ (List.Perm.refl _) .observeProcExec (by simp [cumulativeMetrics])
  rw [htotal] at hexports
  revert hexports
  decide

end Manager
end PerfMonitor
