import PerfMonitor.Foundation.StreamState
import PerfMonitor.Worker.DiskMonitor
import PerfMonitor.Worker.NetMonitor

/-!
# Seeding and sampling

`Init` and `Collect` of the network and of the disk monitor parse the same file
with code of their own.  Here their extractions are written once more, on streams
with state bits, where the `std::ws` in `NetMonitor::Init` can set `eofbit` and
`failbit`.  They read what the monitors above read, and on any content at all the
map that `Init` makes of it is the one that `Collect` makes of it.
-/

namespace PerfMonitor
namespace Worker

open Foundation

namespace NetMonitor

def skipCountersBits : Nat -> StreamState -> StreamState
  | 0, ls => ls
  | n + 1, ls => skipCountersBits n (ls.getUInt64 0).2

/-- `readCounters` on a stream with state bits. -/
def readCountersBits (between : StreamState -> StreamState) (ls : StreamState) : NetRaw :=
  let (rxBytes, ls) := ls.getUInt64 0
  let (rxPackets, ls) := ls.getUInt64 0
  let (rxErrors, ls) := ls.getUInt64 0
  let (rxDropped, ls) := ls.getUInt64 0
  let ls := skipCountersBits 4 (between ls)
  let (txBytes, ls) := ls.getUInt64 0
  let (txPackets, ls) := ls.getUInt64 0
  let (txErrors, ls) := ls.getUInt64 0
  let (txDropped, _) := ls.getUInt64 0
  { rxBytes := rxBytes, rxPackets := rxPackets, rxErrors := rxErrors, rxDropped := rxDropped,
    txBytes := txBytes, txPackets := txPackets, txErrors := txErrors, txDropped := txDropped }

def parseLineBits (between : StreamState -> StreamState) (line : Str) : Option (Str × NetRaw) :=
  if ':' ∈ line then
    some (ifaceName line,
      readCountersBits between { rest := (line.dropWhile (fun c => c ≠ ':')).drop 1 })
  else none

def readNetDevBits (between : StreamState -> StreamState) (content : Str) : List (Str × NetRaw) :=
  ((lines content).drop 2).filterMap (parseLineBits between)

def initBits (m : NetMonitor) (content : Str) : NetMonitor :=
  { m with
    prevNetMap := m.prevNetMap.insertAll (readNetDevBits StreamState.ws content) }

def collectBits (m : NetMonitor) (content : Str) : NetMonitor :=
  let curMap := (∅ : Table Str NetRaw).insertAll (readNetDevBits id content)
  { prevNetMap := curMap
    interfaces := curMap.entries.filterMap (fun e => publish m.prevNetMap e.1 e.2) }

/-!
## Both levels read the same counters
-/

def KeepsShows (f : StreamState -> StreamState) (g : InputStream -> InputStream) : Prop :=
  forall s t, StreamState.Shows s t -> StreamState.Shows (f s) (g t)

theorem keepsShows_id : KeepsShows id id :=
  fun _ _ h => h

theorem keepsShows_ws : KeepsShows StreamState.ws id :=
  fun _ _ h => StreamState.shows_ws h

theorem keepsShows_ws_skipSpace : KeepsShows StreamState.ws InputStream.skipSpace :=
  fun _ t h => (StreamState.shows_ws h).trans t.sentry_skipSpace.symm

theorem shows_skipCounters (n : Nat) {s : StreamState} {t : InputStream}
    (h : StreamState.Shows s t) :
    StreamState.Shows (skipCountersBits n s) (skipCounters n t) := by
  induction n generalizing s t with
  | zero => exact h
  | succ n ih => exact ih (StreamState.agrees_getUInt64 h 0).shows

section Reading

variable {f : StreamState -> StreamState} {g : InputStream -> InputStream}
  (hbetween : KeepsShows f g)

include hbetween

theorem readCountersBits_eq {s : StreamState} {t : InputStream} (h : StreamState.Shows s t) :
    readCountersBits f s = readCounters g t := by
  have hrxBytes := StreamState.agrees_getUInt64 h 0
  have hrxPackets := StreamState.agrees_getUInt64 hrxBytes.shows 0
  have hrxErrors := StreamState.agrees_getUInt64 hrxPackets.shows 0
  have hrxDropped := StreamState.agrees_getUInt64 hrxErrors.shows 0
  have hskipped := shows_skipCounters 4 (hbetween _ _ hrxDropped.shows)
  have htxBytes := StreamState.agrees_getUInt64 hskipped 0
  have htxPackets := StreamState.agrees_getUInt64 htxBytes.shows 0
  have htxErrors := StreamState.agrees_getUInt64 htxPackets.shows 0
  have htxDropped := StreamState.agrees_getUInt64 htxErrors.shows 0
  unfold readCountersBits readCounters
  dsimp only
  rw [hrxBytes.value, hrxPackets.value, hrxErrors.value, hrxDropped.value, htxBytes.value,
    htxPackets.value, htxErrors.value, htxDropped.value]

theorem readNetDevBits_eq (content : Str) : readNetDevBits f content = readNetDev g content := by
  unfold readNetDevBits readNetDev
  congr 1
  funext line
  unfold parseLineBits parseLine
  rw [readCountersBits_eq hbetween (StreamState.shows_start _)]

end Reading

theorem initBits_eq (m : NetMonitor) (content : Str) : m.initBits content = m.init content := by
  unfold initBits init
  rw [readNetDevBits_eq keepsShows_ws_skipSpace]

theorem collectBits_eq (m : NetMonitor) (content : Str) :
    m.collectBits content = m.collect content := by
  unfold collectBits collect
  rw [readNetDevBits_eq keepsShows_id]

/-!
## The same map
-/

/-- The `std::ws` of `Init` makes no difference to any line. -/
theorem readNetDevBits_ws (content : Str) :
    readNetDevBits StreamState.ws content = readNetDevBits id content :=
  (readNetDevBits_eq keepsShows_ws content).trans (readNetDevBits_eq keepsShows_id content).symm

theorem prevNetMap_initBits (m m' : NetMonitor) (content : Str) :
    ({ m with prevNetMap := ∅ }.initBits content).prevNetMap =
      (m'.collectBits content).prevNetMap := by
  show (∅ : Table Str NetRaw).insertAll (readNetDevBits StreamState.ws content) = _
  rw [readNetDevBits_ws]
  rfl

theorem mbps_self (bytes : UInt64) : mbps bytes bytes = 0 := by
  have hzero : ((0 : Nat) : Rat) = 0 := rfl
  unfold mbps
  rw [UInt64.sub_self, UInt64.toNat_zero, hzero, Rat.zero_mul, Rat.div_def, Rat.zero_mul]

theorem netStats_self (iface : Str) (raw : NetRaw) :
    netStats iface raw raw = { iface := iface } := by
  unfold netStats
  simp only [mbps_self, UInt64.sub_self]

theorem collectBits_unchanged {m : NetMonitor} {content : Str}
    (hm : m.prevNetMap = (m.collectBits content).prevNetMap) {ns : NetStats}
    (hns : ns ∈ (m.collectBits content).interfaces) : ns = { iface := ns.iface } := by
  rcases Table.mem_filterMap_entries.mp hns with ⟨iface, cur, hcur, hpublished⟩
  have hprev : m.prevNetMap.lookup iface = some cur := by
    rw [hm]
    exact hcur
  unfold publish at hpublished
  split at hpublished
  · cases hpublished
  · rw [hprev, Option.map_some, netStats_self] at hpublished
    injection hpublished with heq
    rw [← heq]

end NetMonitor

namespace DiskMonitor

/-- `ParseDiskStatsLine` on a stream with state bits. -/
def parseDiskStatsLineBits (line : Str) : Option (Str × DiskRaw) :=
  let ls : StreamState := { rest := line }
  let (_major, ls) := ls.getInt 0
  let (_minor, ls) := ls.getInt 0
  let (dev, ls) := ls.getWord []
  let (readsDone, ls) := ls.getUInt64 0
  let (_readsMerged, ls) := ls.getUInt64 0
  let (readSectors, ls) := ls.getUInt64 0
  let (_readTimeMs, ls) := ls.getUInt64 0
  let (writesDone, ls) := ls.getUInt64 0
  let (_writesMerged, ls) := ls.getUInt64 0
  let (writeSectors, ls) := ls.getUInt64 0
  let (_writeTimeMs, ls) := ls.getUInt64 0
  let (_iosInProgress, ls) := ls.getUInt64 0
  let (ioTicks, ls) := ls.getUInt64 0
  if ls.failbit then none
  else
    some (dev, { readsDone := readsDone, writesDone := writesDone, readSectors := readSectors,
                 writeSectors := writeSectors, ioTicks := ioTicks })

def initBits (m : DiskMonitor) (content : Str) : DiskMonitor :=
  { m with
    prevMap := m.prevMap.insertAll (((lines content).filterMap parseDiskStatsLineBits).filter
      (fun e => !e.1.isEmpty && !startsWith "loop".toList e.1 && !startsWith "ram".toList e.1)) }

def collectBits (m : DiskMonitor) (content : Str) : DiskMonitor :=
  let curMap := (∅ : Table Str DiskRaw).insertAll
    (((lines content).filterMap parseDiskStatsLineBits).filter
      (fun e => !(e.1.isEmpty || startsWith "loop".toList e.1 || startsWith "ram".toList e.1)))
  { prevMap := curMap
    disks := curMap.entries.filterMap (fun e => publish m.prevMap e.1 e.2) }

theorem parseDiskStatsLineBits_eq (line : Str) :
    parseDiskStatsLineBits line = parseDiskStatsLine line := by
  have hmajor := StreamState.agrees_getInt (StreamState.shows_start line) 0
  have hminor := StreamState.agrees_getInt hmajor.shows 0
  have hdev := StreamState.agrees_getWord hminor.shows []
  have hreadsDone := StreamState.agrees_getUInt64 hdev.shows 0
  have hreadsMerged := StreamState.agrees_getUInt64 hreadsDone.shows 0
  have hreadSectors := StreamState.agrees_getUInt64 hreadsMerged.shows 0
  have hreadTimeMs := StreamState.agrees_getUInt64 hreadSectors.shows 0
  have hwritesDone := StreamState.agrees_getUInt64 hreadTimeMs.shows 0
  have hwritesMerged := StreamState.agrees_getUInt64 hwritesDone.shows 0
  have hwriteSectors := StreamState.agrees_getUInt64 hwritesMerged.shows 0
  have hwriteTimeMs := StreamState.agrees_getUInt64 hwriteSectors.shows 0
  have hiosInProgress := StreamState.agrees_getUInt64 hwriteTimeMs.shows 0
  have hioTicks := StreamState.agrees_getUInt64 hiosInProgress.shows 0
  unfold parseDiskStatsLineBits parseDiskStatsLine
  dsimp only
  rw [hdev.value, hreadsDone.value, hreadSectors.value, hwritesDone.value, hwriteSectors.value,
    hioTicks.value, hioTicks.failbit]
  split
  next hfail => rw [if_neg (by simpa using hfail)]
  next hok => rw [if_pos (by simpa using hok)]

theorem initBits_eq (m : DiskMonitor) (content : Str) : m.initBits content = m.init content := by
  unfold initBits init
  rw [funext parseDiskStatsLineBits_eq]

theorem collectBits_eq (m : DiskMonitor) (content : Str) :
    m.collectBits content = m.collect content := by
  unfold collectBits collect
  rw [funext parseDiskStatsLineBits_eq]

theorem prevMap_initBits (m m' : DiskMonitor) (content : Str) :
    ({ m with prevMap := ∅ }.initBits content).prevMap = (m'.collectBits content).prevMap := by
  unfold initBits collectBits
  simp only [Bool.not_or]

theorem diskStats_self (dev : Str) (raw : DiskRaw) : diskStats dev raw raw = { device := dev } := by
  have hzero : ((0 : Nat) : Rat) = 0 := rfl
  unfold diskStats
  simp only [UInt64.sub_self, UInt64.toNat_zero, hzero, Rat.zero_mul, Rat.div_def]

theorem collectBits_unchanged {m : DiskMonitor} {content : Str}
    (hm : m.prevMap = (m.collectBits content).prevMap) {ds : DiskStats}
    (hds : ds ∈ (m.collectBits content).disks) : ds = { device := ds.device } := by
  rcases Table.mem_filterMap_entries.mp hds with ⟨dev, cur, hcur, hpublished⟩
  have hprev : m.prevMap.lookup dev = some cur := by
    rw [hm]
    exact hcur
  unfold publish at hpublished
  rw [hprev, Option.map_some, diskStats_self] at hpublished
  injection hpublished with heq
  rw [← heq]

end DiskMonitor

/-!
## Collecting what was seeded
-/

/-- On any content, seeding from an empty map leaves the map that sampling leaves,
and sampling right after seeding lists entries without deltas only. -/
theorem seeding_parses_as_sampling (content : Str) :
    (forall m m' : NetMonitor,
      let seeded := { m with prevNetMap := ∅ }.initBits content
      seeded.prevNetMap = (m'.collectBits content).prevNetMap ∧
        forall ns, ns ∈ (seeded.collectBits content).interfaces -> ns = { iface := ns.iface }) ∧
    forall m m' : DiskMonitor,
      let seeded := { m with prevMap := ∅ }.initBits content
      seeded.prevMap = (m'.collectBits content).prevMap ∧
        forall ds, ds ∈ (seeded.collectBits content).disks -> ds = { device := ds.device } := by
  constructor
  · intro m m'
    refine ⟨NetMonitor.prevNetMap_initBits m m' content, ?_⟩
    intro ns hns
    exact NetMonitor.collectBits_unchanged (NetMonitor.prevNetMap_initBits m _ content) hns
  · intro m m'
    refine ⟨DiskMonitor.prevMap_initBits m m' content, ?_⟩
    intro ds hds
    exact DiskMonitor.collectBits_unchanged (DiskMonitor.prevMap_initBits m _ content) hds

end Worker
end PerfMonitor
