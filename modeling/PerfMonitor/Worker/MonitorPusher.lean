import PerfMonitor.Foundation.Run
import PerfMonitor.Worker.BpfDiagnoser
import PerfMonitor.Worker.MonitorStructs
import PerfMonitor.Worker.ObserveCollector

/-!
# Monitor pusher

`do_push` of `worker/src/rpc/monitor_pusher.cpp`: collect all layers, build one
report from what they hold, drain the event lists, and send the report if there
is a stub.  What the monitors and the diagnosers contribute to one push is an
input of the step; the event lists between pushes are its state.
-/

namespace PerfMonitor
namespace Worker

open Foundation

/-- What the first-layer monitors publish after `metrics_.Collect()`. -/
structure Metrics where
  hostname : Str := []
  ip : Str := []
  cpuLoad : CpuLoad := {}
  cpuStat : CpuStatPct := {}
  mem : MemUsage := {}
  disks : List DiskStats := []
  interfaces : List NetStats := []
deriving DecidableEq, Repr

/-- What one `do_push` meets: the monitors' values, the callbacks its polls run,
the events the diagnosers append before they are read, the clock, and the status
of the call. -/
structure PushInput where
  metrics : Metrics := {}
  callbacks : List ObserveCollector.Callback := []
  bpfCollected : List CppDiagnoseEvent := []
  perfCollected : List CppDiagnoseEvent := []
  now : Int := 0
  statusOk : Bool := true
deriving DecidableEq

inductive SendOutcome where
  | noStub
  | ok
  | failed
deriving DecidableEq, Repr

structure MonitorPusher where
  observer : ObserveCollector := {}
  bpfEvents : List CppDiagnoseEvent := []
  perfEvents : List CppDiagnoseEvent := []
  stub : Bool := false
deriving DecidableEq

namespace MonitorPusher

def toProcessMessage (pe : CppProcessEvent) : Proto.ProcessEvent where
  comm := pe.comm
  pid := pe.pid
  ppid := pe.ppid
  filename := pe.filename
  event := pe.event
  tsNs := pe.tsNs

def toFlowMessage (fe : CppFlowEvent) : Proto.FlowEvent where
  pid := fe.pid
  comm := fe.comm
  ppidComm := fe.ppidComm
  exe := fe.exe
  srcIp := fe.srcIp
  srcPort := fe.srcPort
  dstIp := fe.dstIp
  dstPort := fe.dstPort
  bytesSent := fe.bytesSent
  bytesRecv := fe.bytesRecv
  connectLatencyNs := fe.connectLatencyNs
  state := fe.state
  startNs := fe.startNs
  lastNs := fe.lastNs

def toDiagnoseMessage (ev : CppDiagnoseEvent) : Proto.DiagnoseEvent where
  type := ev.type
  processName := ev.processName
  threadName := ev.threadName
  filePath := ev.filePath
  timestamp := ev.timestamp
  cpuPercent := ev.cpuPercent

def toDiskMessage (d : DiskStats) : Proto.DiskInfo where
  device := d.device
  readMbps := d.readMbps
  writeMbps := d.writeMbps
  iops := d.iops
  ioLatencyMs := d.ioLatencyMs

def toNetMessage (n : NetStats) : Proto.NetInfo where
  iface := n.iface
  rxMbps := n.rxMbps
  txMbps := n.txMbps
  rxPackets := n.rxPackets
  txPackets := n.txPackets
  rxDropped := n.rxDropped
  txDropped := n.txDropped
  rxErrors := n.rxErrors
  txErrors := n.txErrors

/-- The `Collect` calls at the head of `do_push`: they only add events. -/
def collect (p : MonitorPusher) (inp : PushInput) : MonitorPusher :=
  { p with
    observer := p.observer.collect inp.callbacks
    bpfEvents := p.bpfEvents ++ inp.bpfCollected
    perfEvents := p.perfEvents ++ inp.perfCollected }

def report (p : MonitorPusher) (inp : PushInput) : Proto.MonitorInfo where
  hostname := inp.metrics.hostname
  ip := inp.metrics.ip
  timestamp := inp.now
  cpuLoad :=
    { load1m := inp.metrics.cpuLoad.load1m
      load5m := inp.metrics.cpuLoad.load5m
      load15m := inp.metrics.cpuLoad.load15m
      nrCores := inp.metrics.cpuLoad.nrCores }
  cpuStat :=
    { userPct := inp.metrics.cpuStat.user
      systemPct := inp.metrics.cpuStat.system
      idlePct := inp.metrics.cpuStat.idle
      iowaitPct := inp.metrics.cpuStat.iowait
      stealPct := inp.metrics.cpuStat.steal
      softirqPct := inp.metrics.cpuStat.softirq }
  mem :=
    { totalGb := inp.metrics.mem.totalGb
      usedGb := inp.metrics.mem.usedGb
      freeGb := inp.metrics.mem.freeGb
      availableGb := inp.metrics.mem.availableGb
      cachedGb := inp.metrics.mem.cachedGb
      buffersGb := inp.metrics.mem.buffersGb
      swapTotalGb := inp.metrics.mem.swapTotalGb
      swapUsedGb := inp.metrics.mem.swapUsedGb
      usedPct := inp.metrics.mem.usedPct }
  disks := inp.metrics.disks.map toDiskMessage
  nets := inp.metrics.interfaces.map toNetMessage
  observeBatch := some
    { processEvents := p.observer.processEvents.map toProcessMessage
      flowEvents := p.observer.flowEvents.map toFlowMessage }
  diagnoseEvents :=
    p.bpfEvents.map toDiagnoseMessage ++ p.perfEvents.map toDiagnoseMessage

/-- The three `Reset` calls, made before the report is sent. -/
def drain (p : MonitorPusher) : MonitorPusher :=
  { p with
    observer := p.observer.reset
    bpfEvents := []
    perfEvents := [] }

/-- The send at the end of `do_push`: skipped without a stub; a bad status is only
logged. -/
def send (p : MonitorPusher) (inp : PushInput) : SendOutcome :=
  if p.stub then (if inp.statusOk then .ok else .failed) else .noStub

/-- `do_push`: the new state, the report, and what became of it. -/
def doPush (p : MonitorPusher) (inp : PushInput) :
    MonitorPusher × Proto.MonitorInfo × SendOutcome :=
  let collected := p.collect inp
  let drained := collected.drain
  (drained, collected.report inp, drained.send inp)

/-- `Impl::connect`: a stub is created if the channel connects in time. -/
def connect (p : MonitorPusher) (connected : Bool) : MonitorPusher :=
  if connected then { p with stub := true } else p

end MonitorPusher

/-!
## Runs of the push thread
-/

/-- A step of the push thread: a connection attempt, a callback outside a push,
or a push. -/
inductive PusherOp where
  | connect (connected : Bool)
  | callback (cb : ObserveCollector.Callback)
  | push (inp : PushInput)
deriving DecidableEq

/-- A report that was built, how many of its diagnose events were copied from
`bpf_diagnoser_.events`, and what became of it. -/
structure SentReport where
  info : Proto.MonitorInfo
  bpfCount : Nat
  outcome : SendOutcome
deriving DecidableEq

structure PushHistory where
  pusher : MonitorPusher := {}
  sent : List SentReport := []
deriving DecidableEq

namespace PushHistory

def sentReport (p : MonitorPusher) (inp : PushInput) : SentReport where
  info := (p.doPush inp).2.1
  bpfCount := (p.collect inp).bpfEvents.length
  outcome := (p.doPush inp).2.2

def step (s : PushHistory) : PusherOp -> PushHistory
  | .connect connected => { s with pusher := s.pusher.connect connected }
  | .callback cb =>
      { s with pusher := { s.pusher with observer := s.pusher.observer.onEvent cb } }
  | .push inp =>
      { pusher := (s.pusher.doPush inp).1
        sent := s.sent ++ [sentReport s.pusher inp] }

def run (ops : List PusherOp) : PushHistory :=
  runFrom step {} ops

def delivered (s : PushHistory) : List SentReport :=
  s.sent.filter (fun sent => decide (sent.outcome = .ok))

end PushHistory

def PusherOp.callbacks : PusherOp -> List ObserveCollector.Callback
  | .connect _ => []
  | .callback cb => [cb]
  | .push inp => inp.callbacks

/-- The diagnose events that a step's `Collect` appends to `bpf_diagnoser_.events`. -/
def PusherOp.bpfCollected : PusherOp -> List CppDiagnoseEvent
  | .connect _ => []
  | .callback _ => []
  | .push inp => inp.bpfCollected

end Worker
end PerfMonitor
