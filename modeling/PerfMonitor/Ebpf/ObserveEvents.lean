import PerfMonitor.Proto.Messages

/-!
# Events shared between kernel and collector

The two structs of `worker/src/ebpf/observe_events.h`.  Character arrays are the
sequence of their elements; of the four address words only the first is ever
written or read.
-/

namespace PerfMonitor
namespace Ebpf

def maxCommLen : Nat := 16

def maxFilenameLen : Nat := 128

structure ProcessEvent where
  pid : UInt32 := 0
  ppid : UInt32 := 0
  comm : Str := []
  filename : Str := []
  eventType : UInt32 := 0
  tsNs : UInt64 := 0
deriving DecidableEq, Repr

/-- `sizeof(struct process_event)`: 4 + 4 + 16 + 128 + 4, four bytes of padding,
and 8. -/
def sizeofProcessEvent : Nat := 168

structure FlowEvent where
  pid : UInt32 := 0
  comm : Str := []
  ppidComm : Str := []
  exe : Str := []
  saddr : UInt32 := 0
  daddr : UInt32 := 0
  sport : UInt16 := 0
  dport : UInt16 := 0
  family : UInt16 := 0
  protocol : UInt8 := 0
  state : UInt8 := 0
  bytesSent : UInt64 := 0
  bytesRecv : UInt64 := 0
  connectLatencyNs : UInt64 := 0
  startNs : UInt64 := 0
  lastNs : UInt64 := 0
deriving DecidableEq, Repr

/-- `sizeof(struct flow_event)`: 4 + 16 + 16 + 128 + 16 + 16 + 2 + 2 + 2 + 1 + 1,
four bytes of padding, and five times 8. -/
def sizeofFlowEvent : Nat := 248

end Ebpf
end PerfMonitor
