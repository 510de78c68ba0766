import PerfMonitor.Foundation.Containers
import PerfMonitor.Foundation.StreamFields
import PerfMonitor.Worker.MonitorStructs

/-!
# Network monitor

`Init` and `Collect` of `worker/src/monitor/net_monitor.cpp` over the text of
`/proc/net/dev`.  The counters of the last sample are kept in a map from interface
names; a `Collect` joins the new map with it and publishes the differences.  The
map is hashed, so the order of the published interfaces is left open.
-/

namespace PerfMonitor
namespace Worker

open Foundation

structure NetRaw where
  rxBytes : UInt64 := 0
  rxPackets : UInt64 := 0
  rxErrors : UInt64 := 0
  rxDropped : UInt64 := 0
  txBytes : UInt64 := 0
  txPackets : UInt64 := 0
  txErrors : UInt64 := 0
  txDropped : UInt64 := 0
deriving DecidableEq, Repr

structure NetMonitor where
  prevNetMap : Table Str NetRaw := ∅
  interfaces : List NetStats := []

namespace NetMonitor

def isBlank (c : Char) : Bool :=
  c == ' ' || c == '\t'

def ifaceName (line : Str) : Str :=
  let iface := line.takeWhile (fun c => c ≠ ':')
  if iface.all isBlank then iface else iface.dropWhile isBlank

def skipCounters : Nat -> InputStream -> InputStream
  | 0, ls => ls
  | n + 1, ls => skipCounters n (ls.getUInt64 0).2

/-- The extractions from one line; `Init` has a `std::ws` between the receive
counters and those that are skipped. -/
def readCounters (between : InputStream -> InputStream) (ls : InputStream) : NetRaw :=
  let (rxBytes, ls) := ls.getUInt64 0
  let (rxPackets, ls) := ls.getUInt64 0
  let (rxErrors, ls) := ls.getUInt64 0
  let (rxDropped, ls) := ls.getUInt64 0
  -- fifo, frame, compressed and multicast
  let ls := skipCounters 4 (between ls)
  let (txBytes, ls) := ls.getUInt64 0
  let (txPackets, ls) := ls.getUInt64 0
  let (txErrors, ls) := ls.getUInt64 0
  let (txDropped, _) := ls.getUInt64 0
  { rxBytes := rxBytes, rxPackets := rxPackets, rxErrors := rxErrors, rxDropped := rxDropped,
    txBytes := txBytes, txPackets := txPackets, txErrors := txErrors, txDropped := txDropped }

def parseLine (between : InputStream -> InputStream) (line : Str) : Option (Str × NetRaw) :=
  if ':' ∈ line then
    some (ifaceName line,
      readCounters between { rest := (line.dropWhile (fun c => c ≠ ':')).drop 1 })
  else none

def readNetDev (between : InputStream -> InputStream) (content : Str) : List (Str × NetRaw) :=
  ((lines content).drop 2).filterMap (parseLine between)

def init (m : NetMonitor) (content : Str) : NetMonitor :=
  { m with
    prevNetMap := m.prevNetMap.insertAll (readNetDev InputStream.skipSpace content) }

def mbps (cur prev : UInt64) : Rat :=
  ((cur - prev).toNat : Rat) * 8 / (1024 * 1024)

def netStats (iface : Str) (prev cur : NetRaw) : NetStats where
  iface := iface
  rxMbps := mbps cur.rxBytes prev.rxBytes
  txMbps := mbps cur.txBytes prev.txBytes
  rxPackets := cur.rxPackets - prev.rxPackets
  txPackets := cur.txPackets - prev.txPackets
  rxDropped := cur.rxDropped - prev.rxDropped
  txDropped := cur.txDropped - prev.txDropped
  rxErrors := cur.rxErrors - prev.rxErrors
  txErrors := cur.txErrors - prev.txErrors

def publish (prevNetMap : Table Str NetRaw) (iface : Str) (cur : NetRaw) : Option NetStats :=
  if iface = "lo".toList then none
  else (prevNetMap.lookup iface).map (fun prev => netStats iface prev cur)

def collect (m : NetMonitor) (content : Str) : NetMonitor :=
  let curMap := (∅ : Table Str NetRaw).insertAll (readNetDev id content)
  { prevNetMap := curMap
    interfaces := curMap.entries.filterMap (fun e => publish m.prevNetMap e.1 e.2) }

end NetMonitor

end Worker
end PerfMonitor
