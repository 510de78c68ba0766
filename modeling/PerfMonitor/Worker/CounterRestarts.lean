import Mathlib.Algebra.Order.Field.Rat
import Mathlib.Tactic.FieldSimp
import PerfMonitor.Foundation.Counters
import PerfMonitor.Foundation.Run
import PerfMonitor.Worker.DiskMonitor
import PerfMonitor.Worker.NetMonitor

/-!
# Counters that restart

An interface or a device that is removed and created again under its name comes back
with smaller counters.  The monitors subtract the old counters all the same, so the
published difference is larger than the counter itself: it stays below the counter
exactly when the counter did not decrease.
-/

namespace PerfMonitor
namespace Worker

open Foundation

namespace NetMonitor

def publishedDeltas : List ((NetStats -> Rat) × (NetRaw -> UInt64)) :=
  [(fun ns => ns.rxMbps * (1024 * 1024) / 8, NetRaw.rxBytes),
    (fun ns => ns.txMbps * (1024 * 1024) / 8, NetRaw.txBytes),
    (fun ns => (ns.rxPackets.toNat : Rat), NetRaw.rxPackets),
    (fun ns => (ns.txPackets.toNat : Rat), NetRaw.txPackets),
    (fun ns => (ns.rxDropped.toNat : Rat), NetRaw.rxDropped),
    (fun ns => (ns.txDropped.toNat : Rat), NetRaw.txDropped),
    (fun ns => (ns.rxErrors.toNat : Rat), NetRaw.rxErrors),
    (fun ns => (ns.txErrors.toNat : Rat), NetRaw.txErrors)]

/-- Every difference that the `Collect` publishes is at most the current value of the
counter that it was computed from. -/
def DeltasBounded (m : NetMonitor) (content : Str) : Prop :=
  forall ns, ns ∈ (m.collect content).interfaces ->
    exists cur, (m.collect content).prevNetMap.lookup ns.iface = some cur ∧
      forall d, d ∈ publishedDeltas -> d.1 ns ≤ ((d.2 cur).toNat : Rat)

/-- No published counter of an interface that is in both samples restarts. -/
def NoRestart (m : NetMonitor) (content : Str) : Prop :=
  forall iface prev cur, iface ≠ "lo".toList -> m.prevNetMap.lookup iface = some prev ->
    (m.collect content).prevNetMap.lookup iface = some cur ->
      forall d, d ∈ publishedDeltas -> d.2 prev ≤ d.2 cur

theorem mem_interfaces_collect {m : NetMonitor} {content : Str} {ns : NetStats} :
    ns ∈ (m.collect content).interfaces <->
      exists iface prev cur, iface ≠ "lo".toList ∧ m.prevNetMap.lookup iface = some prev ∧
        (m.collect content).prevNetMap.lookup iface = some cur ∧
        ns = netStats iface prev cur := by
  constructor
  · intro h
    rcases Table.mem_filterMap_entries.mp h with ⟨iface, cur, hcur, hns⟩
    unfold publish at hns
    split at hns
    · cases hns
    next hlo =>
      rcases Option.map_eq_some_iff.mp hns with ⟨prev, hprev, heq⟩
      exact ⟨iface, prev, cur, hlo, hprev, hcur, heq.symm⟩
  · rintro ⟨iface, prev, cur, hlo, hprev, hcur, heq⟩
    apply Table.mem_filterMap_entries.mpr
    refine ⟨iface, cur, hcur, ?_⟩
    show publish m.prevNetMap iface cur = some ns
    unfold publish
    rw [if_neg hlo, hprev, heq]
    rfl

theorem mbps_in_bytes (cur prev : UInt64) :
    mbps cur prev * (1024 * 1024) / 8 = ((cur - prev).toNat : Rat) := by
  unfold mbps
  field_simp

theorem delta_netStats (iface : Str) (prev cur : NetRaw) :
    forall d, d ∈ publishedDeltas ->
      d.1 (netStats iface prev cur) = ((d.2 cur - d.2 prev).toNat : Rat) := by
  intro d hd
  simp only [publishedDeltas, List.mem_cons, List.not_mem_nil, or_false] at hd
  rcases hd with rfl | rfl | hd
  · exact mbps_in_bytes cur.rxBytes prev.rxBytes
  · exact mbps_in_bytes cur.txBytes prev.txBytes
  · rcases hd with rfl | rfl | rfl | rfl | rfl | rfl
    all_goals rfl

theorem deltasBounded_iff (m : NetMonitor) (content : Str) :
    m.DeltasBounded content <-> m.NoRestart content := by
  constructor
  · intro hbounded iface prev cur hlo hprev hcur d hd
    have hns := mem_interfaces_collect.mpr ⟨iface, prev, cur, hlo, hprev, hcur, rfl⟩
    rcases hbounded _ hns with ⟨cur', hcur', hall⟩
    rw [show (netStats iface prev cur).iface = iface from rfl, hcur] at hcur'
    injection hcur' with hsame
    have hle := hall d hd
    rw [← hsame, delta_netStats iface prev cur d hd, Nat.cast_le] at hle
    exact (toNat_sub_le_iff _ _).mp hle
  · intro hkept ns hns
    rcases mem_interfaces_collect.mp hns with ⟨iface, prev, cur, hlo, hprev, hcur, rfl⟩
    refine ⟨cur, hcur, ?_⟩
    intro d hd
    rw [delta_netStats iface prev cur d hd, Nat.cast_le]
    exact (toNat_sub_le_iff _ _).mpr (hkept iface prev cur hlo hprev hcur d hd)

end NetMonitor

namespace DiskMonitor

def publishedDeltas : List ((DiskStats -> Rat) × (DiskRaw -> UInt64)) :=
  [(fun ds => ds.readMbps * (1024 * 1024) / 512, DiskRaw.readSectors),
    (fun ds => ds.writeMbps * (1024 * 1024) / 512, DiskRaw.writeSectors),
    (DiskStats.ioLatencyMs, DiskRaw.ioTicks)]

def operations (raw : DiskRaw) : Nat :=
  raw.readsDone.toNat + raw.writesDone.toNat

/-- Every difference that the `Collect` publishes is at most the current value of the
counter that it was computed from, and the operations are at most those of both current
counters. -/
def DeltasBounded (m : DiskMonitor) (content : Str) : Prop :=
  forall ds, ds ∈ (m.collect content).disks ->
    exists cur, (m.collect content).prevMap.lookup ds.device = some cur ∧
      (forall d, d ∈ publishedDeltas -> d.1 ds ≤ ((d.2 cur).toNat : Rat)) ∧
      ds.iops ≤ (operations cur : Rat)

def OperationsKept (prev cur : DiskRaw) : Prop :=
  operations prev ≤ operations cur ∨
    (2 ^ 64 ≤ operations prev ∧ operations prev ≤ operations cur + 2 ^ 64)

/-- No published counter of a device that is in both samples restarts. -/
def NoRestart (m : DiskMonitor) (content : Str) : Prop :=
  forall dev prev cur, m.prevMap.lookup dev = some prev ->
    (m.collect content).prevMap.lookup dev = some cur ->
      (forall d, d ∈ publishedDeltas -> d.2 prev ≤ d.2 cur) ∧ OperationsKept prev cur

theorem mem_disks_collect {m : DiskMonitor} {content : Str} {ds : DiskStats} :
    ds ∈ (m.collect content).disks <->
      exists dev prev cur, m.prevMap.lookup dev = some prev ∧
        (m.collect content).prevMap.lookup dev = some cur ∧ ds = diskStats dev prev cur := by
  constructor
  · intro h
    rcases Table.mem_filterMap_entries.mp h with ⟨dev, cur, hcur, hds⟩
    rcases Option.map_eq_some_iff.mp hds with ⟨prev, hprev, heq⟩
    exact ⟨dev, prev, cur, hprev, hcur, heq.symm⟩
  · rintro ⟨dev, prev, cur, hprev, hcur, heq⟩
    apply Table.mem_filterMap_entries.mpr
    refine ⟨dev, cur, hcur, ?_⟩
    show publish m.prevMap dev cur = some ds
    unfold publish
    rw [hprev, heq]
    rfl

theorem delta_diskStats (dev : Str) (prev cur : DiskRaw) :
    forall d, d ∈ publishedDeltas ->
      d.1 (diskStats dev prev cur) = ((d.2 cur - d.2 prev).toNat : Rat) := by
  intro d hd
  simp only [publishedDeltas, List.mem_cons, List.not_mem_nil, or_false] at hd
  rcases hd with rfl | rfl | rfl
  · show ((cur.readSectors - prev.readSectors).toNat : Rat) * 512 / (1024 * 1024) *
      (1024 * 1024) / 512 = _
    field_simp
  · show ((cur.writeSectors - prev.writeSectors).toNat : Rat) * 512 / (1024 * 1024) *
      (1024 * 1024) / 512 = _
    field_simp
  · exact mul_one _

theorem iops_le_iff (dev : Str) (prev cur : DiskRaw) :
    (diskStats dev prev cur).iops ≤ (operations cur : Rat) <-> OperationsKept prev cur := by
  show (((cur.readsDone + cur.writesDone) - (prev.readsDone + prev.writesDone)).toNat : Rat) ≤
    (operations cur : Rat) <-> _
  rw [Nat.cast_le]
  exact toNat_sub_add_le_iff _ _ _ _

theorem deltasBounded_iff (m : DiskMonitor) (content : Str) :
    m.DeltasBounded content <-> m.NoRestart content := by
  constructor
  · intro hbounded dev prev cur hprev hcur
    have hds := mem_disks_collect.mpr ⟨dev, prev, cur, hprev, hcur, rfl⟩
    rcases hbounded _ hds with ⟨cur', hcur', hall, hiops⟩
    rw [show (diskStats dev prev cur).device = dev from rfl, hcur] at hcur'
    injection hcur' with hsame
    rw [← hsame] at hall hiops
    refine ⟨?_, (iops_le_iff dev prev cur).mp hiops⟩
    intro d hd
    have hle := hall d hd
    rw [delta_diskStats dev prev cur d hd, Nat.cast_le] at hle
    exact (toNat_sub_le_iff _ _).mp hle
  · intro hkept ds hds
    rcases mem_disks_collect.mp hds with ⟨dev, prev, cur, hprev, hcur, rfl⟩
    rcases hkept dev prev cur hprev hcur with ⟨hall, hoperations⟩
    refine ⟨cur, hcur, ?_, (iops_le_iff dev prev cur).mpr hoperations⟩
    intro d hd
    rw [delta_diskStats dev prev cur d hd, Nat.cast_le]
    exact (toNat_sub_le_iff _ _).mpr (hall d hd)

end DiskMonitor

/-- Over any sequences of texts, every published difference is at most the counter that
it was computed from exactly when no counter restarts between two samples. -/
theorem deltasBounded_iff_noRestart (netDev diskstats : Str) (nets disks : List Str) :
    (EachStep NetMonitor.collect NetMonitor.DeltasBounded (({} : NetMonitor).init netDev) nets <->
      EachStep NetMonitor.collect NetMonitor.NoRestart (({} : NetMonitor).init netDev) nets) ∧
    (EachStep DiskMonitor.collect DiskMonitor.DeltasBounded
        (({} : DiskMonitor).init diskstats) disks <->
      EachStep DiskMonitor.collect DiskMonitor.NoRestart
        (({} : DiskMonitor).init diskstats) disks) := by
  constructor
  · exact eachStep_congr NetMonitor.deltasBounded_iff _ nets
  · exact eachStep_congr DiskMonitor.deltasBounded_iff _ disks

def netDevCounting (packets : String) : Str :=
  ("Inter-|   Receive\n face |bytes\n eth0: 1 " ++ packets ++
    " 0 0 0 0 0 0 1 1 0 0 0 0 0 0\n").toList

def diskstatsCounting (ticks : String) : Str :=
  ("8 0 sda 1 0 1 0 1 0 1 0 0 " ++ ticks ++ " 0\n").toList

/-- An interface and a device that come back with a counter of 5 after 100. -/
theorem restart_not_deltasBounded :
    ¬ EachStep NetMonitor.collect NetMonitor.DeltasBounded
        (({} : NetMonitor).init (netDevCounting "100")) [netDevCounting "5"] ∧
      ¬ EachStep DiskMonitor.collect DiskMonitor.DeltasBounded
        (({} : DiskMonitor).init (diskstatsCounting "100")) [diskstatsCounting "5"] := by
  constructor
  · intro h
    have hkept := (NetMonitor.deltasBounded_iff _ _).mp h.left
    have hle := hkept "eth0".toList
      { rxBytes := 1, rxPackets := 100, txBytes := 1, txPackets := 1 }
      { rxBytes := 1, rxPackets := 5, txBytes := 1, txPackets := 1 }
      (by decide) (by decide) (by decide)
      (fun ns => (ns.rxPackets.toNat : Rat), NetRaw.rxPackets)
      (by simp [NetMonitor.publishedDeltas])
    exact absurd hle (by decide)
  · intro h
    have hkept := (DiskMonitor.deltasBounded_iff _ _).mp h.left
    have hle := (hkept "sda".toList
      { readsDone := 1, writesDone := 1, readSectors := 1, writeSectors := 1, ioTicks := 100 }
      { readsDone := 1, writesDone := 1, readSectors := 1, writeSectors := 1, ioTicks := 5 }
      (by decide) (by decide)).left (DiskStats.ioLatencyMs, DiskRaw.ioTicks)
      (by simp [DiskMonitor.publishedDeltas])
    exact absurd hle (by decide)

end Worker
end PerfMonitor
