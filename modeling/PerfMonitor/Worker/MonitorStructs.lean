import PerfMonitor.Proto.Messages

/-!
# What the monitors publish

The structures that the first-layer monitors of the worker fill at every
`Collect`, and that `do_push` copies into its report.
-/

namespace PerfMonitor
namespace Worker

structure CpuStatPct where
  user : Rat := 0
  system : Rat := 0
  idle : Rat := 0
  iowait : Rat := 0
  steal : Rat := 0
  softirq : Rat := 0
deriving DecidableEq, Repr

structure CpuLoad where
  load1m : Rat := 0
  load5m : Rat := 0
  load15m : Rat := 0
  nrCores : Int := 1
deriving DecidableEq, Repr

structure MemUsage where
  totalGb : Rat := 0
  usedGb : Rat := 0
  freeGb : Rat := 0
  availableGb : Rat := 0
  cachedGb : Rat := 0
  buffersGb : Rat := 0
  swapTotalGb : Rat := 0
  swapUsedGb : Rat := 0
  usedPct : Rat := 0
deriving DecidableEq, Repr

structure DiskStats where
  device : Str := []
  readMbps : Rat := 0
  writeMbps : Rat := 0
  iops : Rat := 0
  ioLatencyMs : Rat := 0
deriving DecidableEq, Repr

structure NetStats where
  iface : Str := []
  rxMbps : Rat := 0
  txMbps : Rat := 0
  rxPackets : UInt64 := 0
  txPackets : UInt64 := 0
  rxDropped : UInt64 := 0
  txDropped : UInt64 := 0
  rxErrors : UInt64 := 0
  txErrors : UInt64 := 0
deriving DecidableEq, Repr

end Worker
end PerfMonitor
