import Mathlib.Algebra.Ring.Int.Defs
import Mathlib.Algebra.Ring.Nat
import Mathlib.Data.Rat.Defs

/-!
# Wire messages

The protobuf messages that the Worker sends and the Manager receives, from
`proto/*.proto`.  A `double` is an exact rational, a `string` is its sequence
of characters, and fixed-width unsigned fields keep their width.  A submessage
whose presence nobody asks for is represented by its value, the default value
standing for an absent one, because the generated accessor returns the default
instance in that case; only `observe_batch` is tested for presence.
-/

namespace PerfMonitor

/-- A `std::string`: its sequence of characters. -/
abbrev Str := List Char

instance : LawfulBEq Str :=
  inferInstance

/-- Reduction modulo `2 ^ 64` to the range of `int64_t`. -/
def wrap64 (n : Int) : Int :=
  n.bmod (2 ^ 64)

@[simp] theorem wrap64_zero : wrap64 0 = 0 := by
  decide

theorem wrap64_add_left (a b : Int) : wrap64 (wrap64 a + b) = wrap64 (a + b) :=
  Int.bmod_add_bmod

namespace Proto

structure CpuLoad where
  load1m : Rat := 0
  load5m : Rat := 0
  load15m : Rat := 0
  nrCores : Int := 0
deriving DecidableEq, Repr

structure CpuStat where
  userPct : Rat := 0
  systemPct : Rat := 0
  idlePct : Rat := 0
  iowaitPct : Rat := 0
  stealPct : Rat := 0
  softirqPct : Rat := 0
deriving DecidableEq, Repr

structure MemInfo where
  totalGb : Rat := 0
  usedGb : Rat := 0
  freeGb : Rat := 0
  availableGb : Rat := 0
  cachedGb : Rat := 0
  buffersGb : Rat := 0
  swapTotalGb : Rat := 0
  swapUsedGb : Rat := 0
  usedPct : Rat := 0
deriving DecidableEq, Repr

structure DiskInfo where
  device : Str := []
  readMbps : Rat := 0
  writeMbps : Rat := 0
  iops : Rat := 0
  ioLatencyMs : Rat := 0
deriving DecidableEq, Repr

structure NetInfo where
  iface : Str := []
  rxMbps : Rat := 0
  txMbps : Rat := 0
  rxPackets : UInt64 := 0
  txPackets : UInt64 := 0
  rxDropped : UInt64 := 0
  txDropped : UInt64 := 0
  rxErrors : UInt64 := 0
  txErrors : UInt64 := 0
deriving DecidableEq, Repr

structure ProcessEvent where
  comm : Str := []
  pid : UInt32 := 0
  ppid : UInt32 := 0
  filename : Str := []
  event : Str := []
  tsNs : Int := 0
deriving DecidableEq, Repr

structure FlowEvent where
  pid : UInt32 := 0
  comm : Str := []
  ppidComm : Str := []
  exe : Str := []
  srcIp : Str := []
  srcPort : UInt32 := 0
  dstIp : Str := []
  dstPort : UInt32 := 0
  bytesSent : UInt64 := 0
  bytesRecv : UInt64 := 0
  connectLatencyNs : UInt64 := 0
  state : Str := []
  startNs : UInt64 := 0
  lastNs : UInt64 := 0
deriving DecidableEq, Repr

structure ObserveBatch where
  processEvents : List ProcessEvent := []
  flowEvents : List FlowEvent := []
deriving DecidableEq, Repr

structure DiagnoseEvent where
  type : Str := []
  processName : Str := []
  threadName : Str := []
  filePath : Str := []
  timestamp : Int := 0
  cpuPercent : Rat := 0
deriving DecidableEq, Repr

/-- One report of a Worker, and the answer of `GetMonitorInfo`. -/
structure MonitorInfo where
  hostname : Str := []
  ip : Str := []
  timestamp : Int := 0
  cpuLoad : CpuLoad := {}
  cpuStat : CpuStat := {}
  mem : MemInfo := {}
  disks : List DiskInfo := []
  nets : List NetInfo := []
  observeBatch : Option ObserveBatch := none
  diagnoseEvents : List DiagnoseEvent := []
deriving DecidableEq, Repr

structure SetResponse where
  ok : Bool := false
  message : Str := []
deriving DecidableEq, Repr

structure GetRequest where
  hostname : Str := []
deriving DecidableEq, Repr

end Proto
end PerfMonitor
