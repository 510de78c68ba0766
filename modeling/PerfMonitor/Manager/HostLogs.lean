import PerfMonitor.Foundation.Run
import PerfMonitor.Manager.GrpcServer
import Mathlib.Tactic.Ring

/-!
# Host manager as a log per host

What the store is for: it remembers, for every host, the reports committed
since the host was last absent.  The abstract state keeps exactly these reports,
and the concrete store is shown to be a function of them after every run of
requests and sweeps.  A host's entry is therefore determined by its own reports
and the sweeps, whatever the other hosts send and however the requests are
interleaved.
-/

namespace PerfMonitor
namespace Manager

open Foundation
open Proto

/-!
## Runs of the store
-/

/-- One call into the Manager.  A report carries the value its handler read from
the clock; a sweep carries its own clock value. -/
inductive ManagerOp where
  | setMonitorInfo (now : Int) (request : MonitorInfo)
  | removeExpired (now maxAgeS : Int)
  | getMonitorInfo (request : GetRequest)
  | getAll
deriving DecidableEq

namespace ManagerOp

def step (mgr : HostManager) : ManagerOp -> HostManager
  | setMonitorInfo now request => (GrpcServer.setMonitorInfo mgr now request).1
  | removeExpired now maxAgeS => mgr.removeExpired now maxAgeS
  | getMonitorInfo _ => mgr
  | getAll => mgr

def run (ops : List ManagerOp) : HostManager :=
  runFrom step HostManager.empty ops

/-- The calls that can matter to a host: its own reports and the sweeps. -/
def concerns (h : Str) : ManagerOp -> Bool
  | setMonitorInfo _ request => decide (request.hostname = h)
  | removeExpired _ _ => true
  | getMonitorInfo _ => false
  | getAll => false

end ManagerOp

/-!
## Logs
-/

structure Report where
  now : Int
  request : MonitorInfo
deriving DecidableEq

/-- The reports of a present host since it was last absent.  There is always a
last one. -/
structure HostLog where
  earlier : List Report
  last : Report
deriving DecidableEq

namespace HostLog

def reports (log : HostLog) : List Report :=
  log.earlier ++ [log.last]

def commit : Option HostLog -> Report -> HostLog
  | none, report => { earlier := [], last := report }
  | some log, report => { earlier := log.reports, last := report }

def diagnoseEvents (log : HostLog) : List DiagnoseRecord :=
  log.reports.flatMap
    (fun report => report.request.diagnoseEvents.map GrpcServer.toRecord)

def snapshot (h : Str) (log : HostLog) : HostSnapshot :=
  let snap := GrpcServer.snapshot log.last.now log.last.request
  { snap with
    hostname := h
    healthScore := HostManager.computeHealth snap
    diagnoseEvents := log.diagnoseEvents.rtake 20 }

end HostLog

abbrev HostLogs := Str -> Option HostLog

namespace HostLogs

def empty : HostLogs :=
  fun _ => none

def step (logs : HostLogs) : ManagerOp -> HostLogs
  | .setMonitorInfo now request => fun h =>
      if h = request.hostname then
        some (HostLog.commit (logs h) { now := now, request := request })
      else
        logs h
  | .removeExpired now maxAgeS => fun h =>
      (logs h).filter (fun log => !decide (now - log.last.now > maxAgeS))
  | .getMonitorInfo _ => logs
  | .getAll => logs

def run (ops : List ManagerOp) : HostLogs :=
  runFrom step empty ops

end HostLogs

/-!
## Refinement
-/

def Refines (mgr : HostManager) (logs : HostLogs) : Prop :=
  forall h, mgr.hosts.lookup h = (logs h).map (HostLog.snapshot h)

theorem lastUpdate_snapshot (now : Int) (request : MonitorInfo) :
    (GrpcServer.snapshot now request).lastUpdate = now := by
  rw [GrpcServer.snapshot_eq]
  rfl

theorem diagnoseEvents_snapshot (now : Int) (request : MonitorInfo) :
    (GrpcServer.snapshot now request).diagnoseEvents =
      request.diagnoseEvents.map GrpcServer.toRecord :=
  rfl

theorem diagnoseEvents_commit (log? : Option HostLog) (report : Report) :
    (HostLog.commit log? report).diagnoseEvents =
      (log?.map HostLog.diagnoseEvents).getD [] ++
        report.request.diagnoseEvents.map GrpcServer.toRecord := by
  cases log? with
  | none => simp [HostLog.commit, HostLog.diagnoseEvents, HostLog.reports]
  | some log => simp [HostLog.commit, HostLog.diagnoseEvents, HostLog.reports]

theorem last_commit (log? : Option HostLog) (report : Report) :
    (HostLog.commit log? report).last = report := by
  cases log? <;> rfl

theorem get_diagnoseEvents {mgr : HostManager} {logs : HostLogs}
    (href : Refines mgr logs) (h : Str) :
    (mgr.get h).diagnoseEvents =
      ((logs h).map HostLog.diagnoseEvents |>.getD []).rtake 20 := by
  unfold HostManager.get
  rw [href h]
  cases logs h with
  | none => rfl
  | some log => rfl

theorem refines_empty : Refines HostManager.empty HostLogs.empty := by
  intro h
  rfl

theorem refines_setMonitorInfo {mgr : HostManager} {logs : HostLogs}
    (href : Refines mgr logs) (now : Int) (request : MonitorInfo) :
    Refines (ManagerOp.step mgr (.setMonitorInfo now request))
      (HostLogs.step logs (.setMonitorInfo now request)) := by
  intro h
  show (mgr.update request.hostname (GrpcServer.snapshot now request)).hosts.lookup h =
    (if h = request.hostname then
      some (HostLog.commit (logs h) { now := now, request := request })
      else logs h).map (HostLog.snapshot h)
  by_cases hh : h = request.hostname
  · subst hh
    rw [if_pos rfl, HostManager.lookup_update_self, get_diagnoseEvents href,
      diagnoseEvents_snapshot, rtake_rtake_append]
    simp only [Option.map_some, HostLog.snapshot, last_commit, diagnoseEvents_commit]
  · rw [if_neg hh, HostManager.lookup_update_ne mgr _ hh]
    exact href h

theorem refines_removeExpired {mgr : HostManager} {logs : HostLogs}
    (href : Refines mgr logs) (now maxAgeS : Int) :
    Refines (ManagerOp.step mgr (.removeExpired now maxAgeS))
      (HostLogs.step logs (.removeExpired now maxAgeS)) := by
  intro h
  show (mgr.removeExpired now maxAgeS).hosts.lookup h = _
  rw [HostManager.lookup_removeExpired, href h]
  have hage : forall log : HostLog,
      HostManager.expired now maxAgeS (HostLog.snapshot h log) =
        decide (now - log.last.now > maxAgeS) := by
    intro log
    show decide (now - (GrpcServer.snapshot log.last.now log.last.request).lastUpdate >
      maxAgeS) = _
    rw [lastUpdate_snapshot]
  show ((logs h).map (HostLog.snapshot h)).filter
      (fun snap => !HostManager.expired now maxAgeS snap) =
    ((logs h).filter (fun log => !decide (now - log.last.now > maxAgeS))).map
      (HostLog.snapshot h)
  cases logs h with
  | none => rfl
  | some log =>
      simp only [Option.map_some, Option.filter_some, hage]
      split <;> rfl

theorem refines_step (mgr : HostManager) (logs : HostLogs) (op : ManagerOp)
    (href : Refines mgr logs) :
    Refines (ManagerOp.step mgr op) (HostLogs.step logs op) := by
  cases op with
  | setMonitorInfo now request => exact refines_setMonitorInfo href now request
  | removeExpired now maxAgeS => exact refines_removeExpired href now maxAgeS
  | getMonitorInfo request => exact href
  | getAll => exact href

theorem refines_run (ops : List ManagerOp) :
    Refines (ManagerOp.run ops) (HostLogs.run ops) :=
  runFrom_simulates refines_step refines_empty ops

theorem hostname_of_refines {mgr : HostManager} {logs : HostLogs}
    (href : Refines mgr logs) :
    forall e, e ∈ mgr.hosts.entries -> e.2.hostname = e.1 := by
  intro e he
  rcases e with ⟨h, snap⟩
  have hlookup : mgr.hosts.lookup h = some snap := AList.mem_lookup_iff.mpr he
  rw [href h] at hlookup
  rcases Option.map_eq_some_iff.mp hlookup with ⟨log, _hlog, hsnap⟩
  rw [← hsnap]
  rfl

theorem getAll_of_refines {mgr : HostManager} {logs : HostLogs}
    (href : Refines mgr logs) (h : Str) :
    mgr.getAll.filter (fun snap => decide (snap.hostname = h)) =
      ((logs h).map (HostLog.snapshot h)).toList := by
  rw [← href h]
  exact Table.filter_values mgr.hosts (hostname_of_refines href) h

/-!
## No interference between hosts
-/

def actOnEntry (h : Str) (entry : Option HostSnapshot) :
    ManagerOp -> Option HostSnapshot
  | .setMonitorInfo now request =>
      let snap := GrpcServer.snapshot now request
      some { snap with
        hostname := h
        healthScore := HostManager.computeHealth snap
        diagnoseEvents :=
          ((entry.getD {}).diagnoseEvents ++ snap.diagnoseEvents).rtake 20 }
  | .removeExpired now maxAgeS =>
      entry.filter (fun snap => !HostManager.expired now maxAgeS snap)
  | .getMonitorInfo _ => entry
  | .getAll => entry

theorem lookup_step_of_concerns (h : Str) (mgr : HostManager) (op : ManagerOp)
    (hop : ManagerOp.concerns h op = true) :
    (ManagerOp.step mgr op).hosts.lookup h =
      actOnEntry h (mgr.hosts.lookup h) op := by
  cases op with
  | setMonitorInfo now request =>
      have hh : request.hostname = h := of_decide_eq_true hop
      subst hh
      exact HostManager.lookup_update_self mgr _ _
  | removeExpired now maxAgeS =>
      exact HostManager.lookup_removeExpired mgr now maxAgeS h
  | getMonitorInfo request => cases hop
  | getAll => cases hop

theorem lookup_step_of_not_concerns (h : Str) (mgr : HostManager) (op : ManagerOp)
    (hop : ManagerOp.concerns h op = false) :
    (ManagerOp.step mgr op).hosts.lookup h = mgr.hosts.lookup h := by
  cases op with
  | setMonitorInfo now request =>
      have hh : ¬ request.hostname = h := of_decide_eq_false hop
      exact HostManager.lookup_update_ne mgr _ (fun heq => hh heq.symm)
  | removeExpired now maxAgeS => cases hop
  | getMonitorInfo request => rfl
  | getAll => rfl

theorem lookup_run_filter (ops : List ManagerOp) (h : Str) :
    (ManagerOp.run ops).hosts.lookup h =
      (ManagerOp.run (ops.filter (ManagerOp.concerns h))).hosts.lookup h :=
  runFrom_project (fun mgr : HostManager => mgr.hosts.lookup h)
    (lookup_step_of_concerns h) (lookup_step_of_not_concerns h)
    HostManager.empty ops

/-!
## The whole contract
-/

/-- What the store remembers of a present host: the tail of its diagnose events,
and for everything else its last report. -/
structure Remembers (mgr : HostManager) (h : Str) (log : HostLog) : Prop where
  stored : mgr.hosts.lookup h = some (mgr.get h)
  hostname : (mgr.get h).hostname = h
  diagnoseEvents : (mgr.get h).diagnoseEvents = log.diagnoseEvents.rtake 20
  lastUpdate : (mgr.get h).lastUpdate = log.last.now
  load1m : (mgr.get h).load1m = log.last.request.cpuLoad.load1m
  cpuUsedPct : (mgr.get h).cpuUsedPct = 100 - log.last.request.cpuStat.idlePct
  memUsedPct : (mgr.get h).memUsedPct = log.last.request.mem.usedPct
  diskIops : (mgr.get h).diskIops = (log.last.request.disks.map DiskInfo.iops).sum
  netRxMbps : (mgr.get h).netRxMbps = (log.last.request.nets.map NetInfo.rxMbps).sum
  netTxMbps : (mgr.get h).netTxMbps = (log.last.request.nets.map NetInfo.txMbps).sum
  netRxDropped : (mgr.get h).netRxDropped =
    (log.last.request.nets.map (fun n => (n.rxDropped.toNat : Rat))).sum
  counters : GrpcServer.counters (mgr.get h) =
    GrpcServer.batchCounters log.last.request.observeBatch
  answer : GrpcServer.getMonitorInfo mgr { hostname := h } =
    { hostname := h
      timestamp := log.last.now
      cpuLoad := { load1m := log.last.request.cpuLoad.load1m }
      cpuStat := { idlePct := log.last.request.cpuStat.idlePct }
      mem := { usedPct := log.last.request.mem.usedPct } }

theorem remembers_of_refines {mgr : HostManager} {logs : HostLogs}
    (href : Refines mgr logs) {h : Str} {log : HostLog} (hlog : logs h = some log) :
    Remembers mgr h log := by
  have hstored : mgr.hosts.lookup h = some (HostLog.snapshot h log) := by
    rw [href h, hlog]
    rfl
  have hget : mgr.get h = HostLog.snapshot h log := by
    unfold HostManager.get
    rw [hstored]
    rfl
  have hsnap := GrpcServer.snapshot_eq log.last.now log.last.request
  have hidle : forall idle : Rat, 100 - (100 - idle) = idle := by
    intro idle
    ring
  constructor
  case stored => rw [hstored, hget]
  case hostname => rw [hget]; rfl
  case diagnoseEvents => rw [hget]; rfl
  case answer =>
    unfold GrpcServer.getMonitorInfo
    simp only [hget, HostLog.snapshot, hsnap, GrpcServer.withCounters, hidle]
  all_goals
    rw [hget]
    simp only [HostLog.snapshot, hsnap]
    rfl

def expiryRun : List ManagerOp :=
  [.setMonitorInfo 100 { hostname := "a".toList },
   .setMonitorInfo 105 { hostname := "b".toList, diagnoseEvents := [{ timestamp := 7 }] },
   .removeExpired 165 60]

end Manager
end PerfMonitor
