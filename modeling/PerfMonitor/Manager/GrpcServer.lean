import PerfMonitor.Manager.HostManager

/-!
# gRPC handlers

The two handlers of `MonitorService`, from `manager/src/rpc/grpc_server.cpp`.
`SetMonitorInfo` reads the clock, turns the request into a snapshot and commits
it with one `Update`; `GetMonitorInfo` answers from the stored snapshot.
-/

namespace PerfMonitor
namespace Manager

open Proto

namespace GrpcServer

/-- `a += b` for an `int64_t` accumulator and a `uint64` operand: the sum is
taken modulo `2 ^ 64` and read back as a signed value. -/
def addUInt64 (a : Int) (b : UInt64) : Int :=
  wrap64 (a + b.toNat)

def countProcess (snap : HostSnapshot) (pe : ProcessEvent) : HostSnapshot :=
  if pe.event = "exec".toList then
    { snap with procExecCount := snap.procExecCount + 1 }
  else
    { snap with procExitCount := snap.procExitCount + 1 }

def countFlow (snap : HostSnapshot) (fe : FlowEvent) : HostSnapshot :=
  { snap with
    tcpFlowCount := snap.tcpFlowCount + 1
    tcpBytesSent := addUInt64 snap.tcpBytesSent fe.bytesSent
    tcpBytesRecv := addUInt64 snap.tcpBytesRecv fe.bytesRecv }

def consumeObserve (snap : HostSnapshot) : Option ObserveBatch -> HostSnapshot
  | none => snap
  | some batch =>
      batch.flowEvents.foldl countFlow (batch.processEvents.foldl countProcess snap)

def toRecord (de : DiagnoseEvent) : DiagnoseRecord where
  type := de.type
  processName := de.processName
  filePath := de.filePath
  timestamp := de.timestamp
  cpuPercent := de.cpuPercent

/-- The snapshot that `SetMonitorInfo` builds from a request at a clock value. -/
def snapshot (now : Int) (request : MonitorInfo) : HostSnapshot :=
  let snap : HostSnapshot :=
    { lastUpdate := now
      load1m := request.cpuLoad.load1m
      cpuUsedPct := 100 - request.cpuStat.idlePct
      memUsedPct := request.mem.usedPct
      diskIops := request.disks.foldl (fun total d => total + d.iops) 0
      netRxMbps := request.nets.foldl (fun rx n => rx + n.rxMbps) 0
      netTxMbps := request.nets.foldl (fun tx n => tx + n.txMbps) 0
      netRxDropped :=
        request.nets.foldl (fun dropped n => dropped + (n.rxDropped.toNat : Rat)) 0 }
  let snap := consumeObserve snap request.observeBatch
  { snap with diagnoseEvents := request.diagnoseEvents.map toRecord }

/-- `SetMonitorInfo`: commit the snapshot under the request's host name. -/
def setMonitorInfo (mgr : HostManager) (now : Int) (request : MonitorInfo) :
    HostManager × SetResponse :=
  (mgr.update request.hostname (snapshot now request),
    { ok := true, message := "OK".toList })

/-- `GetMonitorInfo`: answer from the stored snapshot. -/
def getMonitorInfo (mgr : HostManager) (request : GetRequest) : MonitorInfo :=
  let snap := mgr.get request.hostname
  { hostname := request.hostname
    timestamp := snap.lastUpdate
    cpuLoad := { load1m := snap.load1m }
    cpuStat := { idlePct := 100 - snap.cpuUsedPct }
    mem := { usedPct := snap.memUsedPct } }

/-!
## Observe counters

The observe loops touch nothing but the five counters, and each counter is a
count or a sum over the batch.
-/

structure Counters where
  execs : Int
  exits : Int
  flows : Int
  sent : Int
  recv : Int
deriving DecidableEq, Repr

def counters (snap : HostSnapshot) : Counters where
  execs := snap.procExecCount
  exits := snap.procExitCount
  flows := snap.tcpFlowCount
  sent := snap.tcpBytesSent
  recv := snap.tcpBytesRecv

def withCounters (snap : HostSnapshot) (c : Counters) : HostSnapshot :=
  { snap with
    procExecCount := c.execs
    procExitCount := c.exits
    tcpFlowCount := c.flows
    tcpBytesSent := c.sent
    tcpBytesRecv := c.recv }

def isExec (pe : ProcessEvent) : Bool :=
  decide (pe.event = "exec".toList)

def sentTotal (events : List FlowEvent) : Nat :=
  (events.map (fun fe => fe.bytesSent.toNat)).sum

def recvTotal (events : List FlowEvent) : Nat :=
  (events.map (fun fe => fe.bytesRecv.toNat)).sum

theorem isExec_iff (pe : ProcessEvent) :
    isExec pe = true <-> pe.event = "exec".toList :=
  decide_eq_true_iff

theorem addUInt64_wrap64 (n : Int) (b : UInt64) :
    addUInt64 (wrap64 n) b = wrap64 (n + b.toNat) :=
  wrap64_add_left n b.toNat

theorem foldl_countProcess (events : List ProcessEvent) (snap : HostSnapshot) :
    events.foldl countProcess snap =
      { snap with
        procExecCount := snap.procExecCount + events.countP isExec
        procExitCount :=
          snap.procExitCount + events.countP (fun pe => !isExec pe) } := by
  induction events generalizing snap with
  | nil => simp
  | cons pe rest ih =>
      rw [List.foldl_cons, ih]
      cases hp : isExec pe with
      | true =>
          rw [countProcess, if_pos ((isExec_iff pe).mp hp)]
          simp [hp]
          omega
      | false =>
          have hne : ¬ pe.event = "exec".toList := by
            intro hexec
            rw [(isExec_iff pe).mpr hexec] at hp
            cases hp
          rw [countProcess, if_neg hne]
          simp [hp]
          omega

theorem foldl_countFlow (events : List FlowEvent) (snap : HostSnapshot)
    (sent recv : Int) (hsent : snap.tcpBytesSent = wrap64 sent)
    (hrecv : snap.tcpBytesRecv = wrap64 recv) :
    events.foldl countFlow snap =
      { snap with
        tcpFlowCount := snap.tcpFlowCount + events.length
        tcpBytesSent :=
          wrap64 (sent + sentTotal events)
        tcpBytesRecv :=
          wrap64 (recv + recvTotal events) } := by
  induction events generalizing snap sent recv with
  | nil =>
      simp only [List.foldl_nil, List.length_nil, sentTotal, recvTotal,
        List.map_nil, List.sum_nil, Nat.cast_zero, Int.add_zero]
      rw [← hsent, ← hrecv]
  | cons fe rest ih =>
      have hsent' : (countFlow snap fe).tcpBytesSent =
          wrap64 (sent + fe.bytesSent.toNat) := by
        show addUInt64 snap.tcpBytesSent fe.bytesSent = _
        rw [hsent, addUInt64_wrap64]
      have hrecv' : (countFlow snap fe).tcpBytesRecv =
          wrap64 (recv + fe.bytesRecv.toNat) := by
        show addUInt64 snap.tcpBytesRecv fe.bytesRecv = _
        rw [hrecv, addUInt64_wrap64]
      rw [List.foldl_cons, ih (countFlow snap fe) _ _ hsent' hrecv']
      simp only [countFlow, sentTotal, recvTotal, List.length_cons,
        List.map_cons, List.sum_cons, Nat.cast_add, Nat.cast_one, Int.add_assoc]
      rw [Int.add_comm 1 (rest.length : Int)]

def batchCounters : Option ObserveBatch -> Counters
  | none => { execs := 0, exits := 0, flows := 0, sent := 0, recv := 0 }
  | some batch =>
      { execs := batch.processEvents.countP isExec
        exits := batch.processEvents.countP (fun pe => !isExec pe)
        flows := batch.flowEvents.length
        sent := wrap64 (sentTotal batch.flowEvents)
        recv := wrap64 (recvTotal batch.flowEvents) }

theorem consumeObserve_eq (snap : HostSnapshot) (batch? : Option ObserveBatch)
    (hzero : counters snap = batchCounters none) :
    consumeObserve snap batch? = withCounters snap (batchCounters batch?) := by
  have hexec : snap.procExecCount = 0 := congrArg Counters.execs hzero
  have hexit : snap.procExitCount = 0 := congrArg Counters.exits hzero
  have hflow : snap.tcpFlowCount = 0 := congrArg Counters.flows hzero
  have hsent : snap.tcpBytesSent = 0 := congrArg Counters.sent hzero
  have hrecv : snap.tcpBytesRecv = 0 := congrArg Counters.recv hzero
  cases batch? with
  | none =>
      show snap = withCounters snap (batchCounters none)
      rw [← hzero]
      rfl
  | some batch =>
      show batch.flowEvents.foldl countFlow
          (batch.processEvents.foldl countProcess snap) = _
      rw [foldl_countProcess,
        foldl_countFlow batch.flowEvents _ 0 0 (by simp [hsent]) (by simp [hrecv])]
      simp [withCounters, batchCounters, hexec, hexit, hflow]

theorem counters_snapshot (now : Int) (request : MonitorInfo) :
    counters (snapshot now request) = batchCounters request.observeBatch := by
  unfold snapshot
  simp only
  rw [consumeObserve_eq _ _ rfl]
  rfl

/-- The snapshot of a request, field by field: the observe loops do not disturb
the metrics assigned before them. -/
theorem snapshot_eq (now : Int) (request : MonitorInfo) :
    snapshot now request =
      withCounters
        { lastUpdate := now
          load1m := request.cpuLoad.load1m
          cpuUsedPct := 100 - request.cpuStat.idlePct
          memUsedPct := request.mem.usedPct
          diskIops := (request.disks.map DiskInfo.iops).sum
          netRxMbps := (request.nets.map NetInfo.rxMbps).sum
          netTxMbps := (request.nets.map NetInfo.txMbps).sum
          netRxDropped := (request.nets.map (fun n => (n.rxDropped.toNat : Rat))).sum
          diagnoseEvents := request.diagnoseEvents.map toRecord }
        (batchCounters request.observeBatch) := by
  unfold snapshot
  simp only
  rw [consumeObserve_eq _ _ rfl]
  simp only [withCounters, List.sum_eq_foldl, List.foldl_map]

/-- The snapshot that the manager holds for the host of a request right after it. -/
def storedSnapshot (mgr : HostManager) (now : Int) (request : MonitorInfo) : HostSnapshot :=
  (setMonitorInfo mgr now request).1.get request.hostname

theorem storedSnapshot_eq (mgr : HostManager) (now : Int) (request : MonitorInfo) :
    storedSnapshot mgr now request =
      { snapshot now request with
        hostname := request.hostname
        healthScore := HostManager.computeHealth (snapshot now request)
        diagnoseEvents := ((mgr.get request.hostname).diagnoseEvents ++
          (snapshot now request).diagnoseEvents).rtake 20 } := by
  unfold storedSnapshot setMonitorInfo
  show ((HostManager.update mgr _ _).hosts.lookup _).getD {} = _
  rw [HostManager.lookup_update_self]
  rfl

end GrpcServer

end Manager
end PerfMonitor
