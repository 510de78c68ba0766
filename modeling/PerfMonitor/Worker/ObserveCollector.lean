import Mathlib.Data.List.Basic
import PerfMonitor.Ebpf.ObserveEvents

/-!
# Observe collector

The perf-buffer callbacks of `worker/src/observe/observe_collector.cpp` and the
two event lists they fill.  A callback receives the event struct and the number
of bytes the kernel delivered; an undersized delivery is dropped before the
struct is read.
-/

namespace PerfMonitor
namespace Worker

structure CppProcessEvent where
  comm : Str := []
  pid : UInt32 := 0
  ppid : UInt32 := 0
  filename : Str := []
  event : Str := []
  tsNs : Int := 0
deriving DecidableEq, Repr

structure CppFlowEvent where
  pid : UInt32 := 0
  comm : Str := []
  ppidComm : Str := []
  exe : Str := []
  srcIp : Str := []
  dstIp : Str := []
  srcPort : UInt32 := 0
  dstPort : UInt32 := 0
  bytesSent : UInt64 := 0
  bytesRecv : UInt64 := 0
  connectLatencyNs : UInt64 := 0
  state : Str := []
  startNs : UInt64 := 0
  lastNs : UInt64 := 0
deriving DecidableEq, Repr

structure ObserveCollector where
  processEvents : List CppProcessEvent := []
  flowEvents : List CppFlowEvent := []
deriving DecidableEq, Repr

namespace ObserveCollector

def bpfStateStr (state : UInt8) : Str :=
  match state.toNat with
  | 1 => "ESTABLISHED".toList
  | 2 => "SYN_SENT".toList
  | 3 => "SYN_RECV".toList
  | 4 => "FIN_WAIT1".toList
  | 5 => "FIN_WAIT2".toList
  | 6 => "TIME_WAIT".toList
  | 7 => "CLOSE".toList
  | 8 => "CLOSE_WAIT".toList
  | 9 => "LAST_ACK".toList
  | 10 => "LISTEN".toList
  | 11 => "CLOSING".toList
  | _ => "UNKNOWN".toList

/-- The string of a character array: up to the first NUL, at most `n` long. -/
def fixedStr (n : Nat) (chars : Str) : Str :=
  (chars.take n).takeWhile (fun c => c ≠ '\x00')

/-- `inet_ntop` for an IPv4 address word: its bytes in memory order. -/
def inetNtop (addr : UInt32) : Str :=
  let byte (i : Nat) : Str := (toString (addr.toNat / 256 ^ i % 256)).toList
  byte 0 ++ ['.'] ++ byte 1 ++ ['.'] ++ byte 2 ++ ['.'] ++ byte 3

def bpfToProcess (raw : Ebpf.ProcessEvent) : CppProcessEvent where
  pid := raw.pid
  ppid := raw.ppid
  comm := fixedStr Ebpf.maxCommLen raw.comm
  filename := fixedStr Ebpf.maxFilenameLen raw.filename
  event := if raw.eventType = 0 then "exec".toList else "exit".toList
  tsNs := wrap64 raw.tsNs.toNat

def bpfToFlow (raw : Ebpf.FlowEvent) : CppFlowEvent where
  pid := raw.pid
  comm := fixedStr Ebpf.maxCommLen raw.comm
  ppidComm := fixedStr Ebpf.maxCommLen raw.ppidComm
  exe := fixedStr Ebpf.maxFilenameLen raw.exe
  srcPort := raw.sport.toUInt32
  dstPort := raw.dport.toUInt32
  srcIp := inetNtop raw.saddr
  dstIp := inetNtop raw.daddr
  bytesSent := raw.bytesSent
  bytesRecv := raw.bytesRecv
  connectLatencyNs := raw.connectLatencyNs
  state := bpfStateStr raw.state
  startNs := raw.startNs
  lastNs := raw.lastNs

inductive Callback where
  | process (data : Ebpf.ProcessEvent) (sz : Nat)
  | flow (data : Ebpf.FlowEvent) (sz : Nat)
deriving DecidableEq, Repr

def onProcessEvent (self : ObserveCollector) (data : Ebpf.ProcessEvent) (sz : Nat) :
    ObserveCollector :=
  if sz < Ebpf.sizeofProcessEvent then self
  else { self with processEvents := self.processEvents ++ [bpfToProcess data] }

def onFlowEvent (self : ObserveCollector) (data : Ebpf.FlowEvent) (sz : Nat) :
    ObserveCollector :=
  if sz < Ebpf.sizeofFlowEvent then self
  else { self with flowEvents := self.flowEvents ++ [bpfToFlow data] }

def onEvent (self : ObserveCollector) : Callback -> ObserveCollector
  | .process data sz => onProcessEvent self data sz
  | .flow data sz => onFlowEvent self data sz

/-- `Collect`: the polls run the callbacks of the queued events. -/
def collect (self : ObserveCollector) (queued : List Callback) : ObserveCollector :=
  queued.foldl onEvent self

def reset (_self : ObserveCollector) : ObserveCollector where
  processEvents := []
  flowEvents := []

/-!
## Accepted callbacks
-/

def acceptedProcess : Callback -> Option Ebpf.ProcessEvent
  | .process data sz => if sz < Ebpf.sizeofProcessEvent then none else some data
  | .flow _ _ => none

def acceptedFlow : Callback -> Option Ebpf.FlowEvent
  | .process _ _ => none
  | .flow data sz => if sz < Ebpf.sizeofFlowEvent then none else some data

theorem processEvents_onEvent (self : ObserveCollector) (cb : Callback) :
    (onEvent self cb).processEvents =
      self.processEvents ++ (acceptedProcess cb).toList.map bpfToProcess := by
  cases cb with
  | process data sz =>
      unfold onEvent onProcessEvent acceptedProcess
      by_cases hsz : sz < Ebpf.sizeofProcessEvent
      · simp [hsz]
      · simp [hsz]
  | flow data sz =>
      unfold onEvent onFlowEvent acceptedProcess
      by_cases hsz : sz < Ebpf.sizeofFlowEvent
      · simp [hsz]
      · simp [hsz]

theorem flowEvents_onEvent (self : ObserveCollector) (cb : Callback) :
    (onEvent self cb).flowEvents =
      self.flowEvents ++ (acceptedFlow cb).toList.map bpfToFlow := by
  cases cb with
  | process data sz =>
      unfold onEvent onProcessEvent acceptedFlow
      by_cases hsz : sz < Ebpf.sizeofProcessEvent
      · simp [hsz]
      · simp [hsz]
  | flow data sz =>
      unfold onEvent onFlowEvent acceptedFlow
      by_cases hsz : sz < Ebpf.sizeofFlowEvent
      · simp [hsz]
      · simp [hsz]

/-- A list that a callback only appends its accepted event to holds, after the
polls, all accepted events in callback order. -/
theorem collect_appends {α β : Type} (look : ObserveCollector -> List β)
    {accepted : Callback -> Option α} {convert : α -> β}
    (hlook : forall self cb,
      look (onEvent self cb) = look self ++ (accepted cb).toList.map convert)
    (self : ObserveCollector) (queued : List Callback) :
    look (collect self queued) = look self ++ (queued.filterMap accepted).map convert := by
  have hfold : look (collect self queued) =
      queued.foldl (fun acc cb => acc ++ (accepted cb).toList.map convert) (look self) :=
    (List.foldl_hom look (fun self cb => (hlook self cb).symm)).symm
  rw [hfold, List.foldl_append_eq_append, ← List.flatMap_def,
    List.filterMap_eq_flatMap_toList, List.map_flatMap]

theorem processEvents_collect (self : ObserveCollector) (queued : List Callback) :
    (collect self queued).processEvents =
      self.processEvents ++ (queued.filterMap acceptedProcess).map bpfToProcess :=
  collect_appends processEvents processEvents_onEvent self queued

theorem flowEvents_collect (self : ObserveCollector) (queued : List Callback) :
    (collect self queued).flowEvents =
      self.flowEvents ++ (queued.filterMap acceptedFlow).map bpfToFlow :=
  collect_appends flowEvents flowEvents_onEvent self queued

end ObserveCollector

end Worker
end PerfMonitor
