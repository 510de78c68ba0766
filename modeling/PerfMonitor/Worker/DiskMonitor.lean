import PerfMonitor.Foundation.Containers
import PerfMonitor.Foundation.StreamFields
import PerfMonitor.Worker.MonitorStructs

/-!
# Disk monitor

`ParseDiskStatsLine`, `Init` and `Collect` of `worker/src/monitor/disk_monitor.cpp`
over the text of `/proc/diskstats`.  As in the network monitor the last sample is a
hashed map, so the order of the published devices is left open.
-/

namespace PerfMonitor
namespace Worker

open Foundation

structure DiskRaw where
  readsDone : UInt64 := 0
  writesDone : UInt64 := 0
  readSectors : UInt64 := 0
  writeSectors : UInt64 := 0
  ioTicks : UInt64 := 0
deriving DecidableEq, Repr

structure DiskMonitor where
  prevMap : Table Str DiskRaw := ∅
  disks : List DiskStats := []

namespace DiskMonitor

/-- `ParseDiskStatsLine`: thirteen extractions, and whether none of them failed. -/
def parseDiskStatsLine (line : Str) : Option (Str × DiskRaw) :=
  let ls : InputStream := { rest := line }
  let (_major, ls) := ls.getInt 0
  let (_minor, ls) := ls.getInt 0
  let (dev, ls) := ls.getWord []
  let (readsDone, ls) := ls.getUInt64 0
  let (_readsMerged, ls) := ls.getUInt64 0
  let (readSectors, ls) := ls.getUInt64 0
  let (_readTimeMs, ls) := ls.getUInt64 0
  let (writesDone, ls) := ls.getUInt64 0
  let (_writesMerged, ls) := ls.getUInt64 0
  let (writeSectors, ls) := ls.getUInt64 0
  let (_writeTimeMs, ls) := ls.getUInt64 0
  let (_iosInProgress, ls) := ls.getUInt64 0
  let (ioTicks, ls) := ls.getUInt64 0
  if ls.ok then
    some (dev, { readsDone := readsDone, writesDone := writesDone, readSectors := readSectors,
                 writeSectors := writeSectors, ioTicks := ioTicks })
  else none

/-- `dev.find(name) == 0`. -/
def startsWith (name dev : Str) : Bool :=
  name.isPrefixOf dev

def init (m : DiskMonitor) (content : Str) : DiskMonitor :=
  { m with
    prevMap := m.prevMap.insertAll (((lines content).filterMap parseDiskStatsLine).filter
      (fun e => !e.1.isEmpty && !startsWith "loop".toList e.1 && !startsWith "ram".toList e.1)) }

def diskStats (dev : Str) (prev cur : DiskRaw) : DiskStats where
  device := dev
  readMbps := ((cur.readSectors - prev.readSectors).toNat : Rat) * 512 / (1024 * 1024)
  writeMbps := ((cur.writeSectors - prev.writeSectors).toNat : Rat) * 512 / (1024 * 1024)
  iops :=
    (((cur.readsDone + cur.writesDone) - (prev.readsDone + prev.writesDone)).toNat : Rat)
  ioLatencyMs := ((cur.ioTicks - prev.ioTicks).toNat : Rat) * 1

def publish (prevMap : Table Str DiskRaw) (dev : Str) (cur : DiskRaw) : Option DiskStats :=
  (prevMap.lookup dev).map (fun prev => diskStats dev prev cur)

def collect (m : DiskMonitor) (content : Str) : DiskMonitor :=
  let curMap := (∅ : Table Str DiskRaw).insertAll
    (((lines content).filterMap parseDiskStatsLine).filter
      (fun e => !(e.1.isEmpty || startsWith "loop".toList e.1 || startsWith "ram".toList e.1)))
  { prevMap := curMap
    disks := curMap.entries.filterMap (fun e => publish m.prevMap e.1 e.2) }

end DiskMonitor

end Worker
end PerfMonitor
