import Mathlib.Algebra.Order.Field.Rat
import Mathlib.Tactic.FieldSimp
import Mathlib.Tactic.Linarith
import PerfMonitor.Manager.GrpcServer
import PerfMonitor.Worker.DiskDeltas
import PerfMonitor.Worker.MonitorPusher
import PerfMonitor.Worker.NetDeltas

/-!
# Throughput and the push interval

The monitors publish differences between two consecutive samples under names of
rates.  The samples are taken one push interval apart, and nothing divides by it:
the values are rates per second exactly when the interval is one second, or nothing
moved.
-/

namespace PerfMonitor
namespace EndToEnd

open Foundation Worker Manager

/-!
## Rates per second
-/

def netRate (interval : Nat) (prev cur : NetSample) (name : Str) (i : Fin 16) : Rat :=
  8 * (((cur.counter name i).toNat : Rat) - ((prev.counter name i).toNat : Rat)) /
    (2 ^ 20 * (interval : Rat))

def diskCount (s : DiskSample LacksFields) (name : Str) (i : Fin 11) : Nat :=
  ((s.find name).map (fun r => (r.stat i).toNat)).getD 0

def sectorRate (interval : Nat) (prev cur : DiskSample LacksFields) (name : Str) (i : Fin 11) :
    Rat :=
  512 * ((diskCount cur name i : Rat) - (diskCount prev name i : Rat)) /
    (2 ^ 20 * (interval : Rat))

def operationRate (interval : Nat) (prev cur : DiskSample LacksFields) (name : Str) : Rat :=
  (((diskCount cur name 0 : Rat) - (diskCount prev name 0 : Rat)) +
    ((diskCount cur name 4 : Rat) - (diskCount prev name 4 : Rat))) / (interval : Rat)

/-- Two consecutive samples of both files, one push interval apart. -/
structure SamplePair where
  prevNet : NetSample
  curNet : NetSample
  prevDisk : DiskSample LacksFields
  curDisk : DiskSample LacksFields

/-- No counter of an interface or a device that is in both samples decreases. -/
structure SamplePair.Rises (s : SamplePair) : Prop where
  net : forall p c, p ∈ s.prevNet.rows -> c ∈ s.curNet.rows -> p.name = c.name ->
    forall i, p.counters i ≤ c.counters i
  disk : forall p c, p ∈ s.prevDisk.rows -> c ∈ s.curDisk.rows -> p.name = c.name ->
    forall i, p.stat i ≤ c.stat i

/-- Every published value is the rate per second, and the sums that the manager
stores for any report that carries them are sums of rates per second. -/
structure RatesPerSecond (interval : Nat) (s : SamplePair) (interfaces : List NetStats)
    (disks : List DiskStats) : Prop where
  rx : forall ns, ns ∈ interfaces -> ns.rxMbps = netRate interval s.prevNet s.curNet ns.iface 0
  tx : forall ns, ns ∈ interfaces -> ns.txMbps = netRate interval s.prevNet s.curNet ns.iface 8
  iops : forall ds, ds ∈ disks ->
    ds.iops = operationRate interval s.prevDisk s.curDisk ds.device
  read : forall ds, ds ∈ disks ->
    ds.readMbps = sectorRate interval s.prevDisk s.curDisk ds.device 2
  write : forall ds, ds ∈ disks ->
    ds.writeMbps = sectorRate interval s.prevDisk s.curDisk ds.device 6
  stored : forall (mgr : HostManager) (now : Int) (p : MonitorPusher) (inp : PushInput),
    inp.metrics.interfaces = interfaces -> inp.metrics.disks = disks ->
    (GrpcServer.storedSnapshot mgr now (p.report inp)).netRxMbps =
        (interfaces.map (fun ns => netRate interval s.prevNet s.curNet ns.iface 0)).sum ∧
      (GrpcServer.storedSnapshot mgr now (p.report inp)).netTxMbps =
        (interfaces.map (fun ns => netRate interval s.prevNet s.curNet ns.iface 8)).sum ∧
      (GrpcServer.storedSnapshot mgr now (p.report inp)).diskIops =
        (disks.map (fun ds => operationRate interval s.prevDisk s.curDisk ds.device)).sum

/-!
## When differences are rates
-/

def operations (p c : DiskRow) : Nat :=
  ((c.stat 0).toNat - (p.stat 0).toNat) + ((c.stat 4).toNat - (p.stat 4).toNat)

/-- A difference of operations is its own rate: the interval is one second, or there
were none.  The sum of reads and writes is taken modulo `2 ^ 64`, so from there on it
can only be the rate where what is left after the carry happens to be the quotient. -/
def OperationsFit (interval count : Nat) : Prop :=
  if count < 2 ^ 64 then interval = 1 ∨ count = 0
  else (interval - 1) * (count - 2 ^ 64) = 2 ^ 64

structure OneSecondOrIdle (interval : Nat) (s : SamplePair) : Prop where
  bytes : forall p c, p ∈ s.prevNet.rows -> c ∈ s.curNet.rows -> p.name = c.name ->
    c.name ≠ "lo".toList ->
    interval = 1 ∨ (c.counters 0 = p.counters 0 ∧ c.counters 8 = p.counters 8)
  sectors : forall p c, p ∈ s.prevDisk.rows -> c ∈ s.curDisk.rows -> p.name = c.name ->
    Shown c.name -> interval = 1 ∨ (c.stat 2 = p.stat 2 ∧ c.stat 6 = p.stat 6)
  operations : forall p c, p ∈ s.prevDisk.rows -> c ∈ s.curDisk.rows -> p.name = c.name ->
    Shown c.name -> OperationsFit interval (operations p c)

theorem eq_div_self_iff {x : Rat} {n : Nat} (hn : 1 ≤ n) : x = x / (n : Rat) <-> n = 1 ∨ x = 0 := by
  have hpos : (0 : Rat) < (n : Rat) := Nat.cast_pos.mpr hn
  rw [eq_div_iff hpos.ne', mul_right_eq_self₀, Nat.cast_eq_one]

/-- A difference of a counter, in some unit, is the rate exactly at an interval of
one second or when the counter did not move. -/
theorem difference_eq_rate_iff {prev cur : UInt64} (h : prev ≤ cur) {interval : Nat}
    (hinterval : 1 ≤ interval) {unit : Rat} (hunit : unit ≠ 0) :
    ((cur - prev).toNat : Rat) * unit / (1024 * 1024) =
        unit * ((cur.toNat : Rat) - (prev.toNat : Rat)) / (2 ^ 20 * (interval : Rat)) <->
      interval = 1 ∨ cur = prev := by
  have hpos : (0 : Rat) < (interval : Rat) := Nat.cast_pos.mpr hinterval
  have hleft : ((cur - prev).toNat : Rat) * unit / (1024 * 1024) =
      unit * ((cur.toNat : Rat) - (prev.toNat : Rat)) / 2 ^ 20 := by
    rw [toNat_sub_cast h]
    ring
  rw [hleft, ← div_div, eq_div_self_iff hinterval]
  have hzero : unit * ((cur.toNat : Rat) - (prev.toNat : Rat)) / 2 ^ 20 = 0 <-> cur = prev := by
    rw [div_eq_zero_iff, mul_eq_zero, sub_eq_zero, Nat.cast_inj, UInt64.toNat_inj]
    simp [hunit]
  rw [hzero]

theorem operations_eq_rate_iff {interval count : Nat} (hinterval : 1 ≤ interval)
    (hcount : count < 2 ^ 65) :
    ((count % 2 ^ 64 : Nat) : Rat) = (count : Rat) / (interval : Rat) <->
      OperationsFit interval count := by
  have hpos : (0 : Rat) < (interval : Rat) := Nat.cast_pos.mpr hinterval
  rw [eq_div_iff hpos.ne', ← Nat.cast_mul, Nat.cast_inj]
  unfold OperationsFit
  by_cases hsmall : count < 2 ^ 64
  · rw [if_pos hsmall, Nat.mod_eq_of_lt hsmall, mul_right_eq_self₀]
  · rcases Nat.exists_eq_add_of_le (Nat.le_of_not_lt hsmall) with ⟨left, hleft⟩
    rcases Nat.exists_eq_add_of_le hinterval with ⟨more, hmore⟩
    have hmod : count % 2 ^ 64 = left := by
      rw [hleft, Nat.add_mod_left, Nat.mod_eq_of_lt]
      omega
    rw [if_neg hsmall, hmod, hleft, hmore, Nat.add_sub_cancel_left, Nat.add_sub_cancel_left,
      Nat.mul_add, Nat.mul_one, Nat.mul_comm left more]
    omega

/-!
## The published values
-/

theorem toNat_operations {p c : DiskRow} (hrises : forall i, p.stat i ≤ c.stat i) :
    ((c.stat 0 + c.stat 4) - (p.stat 0 + p.stat 4)).toNat = operations p c % 2 ^ 64 := by
  have hreads := UInt64.le_iff_toNat_le.mp (hrises 0)
  have hwrites := UInt64.le_iff_toNat_le.mp (hrises 4)
  have hreadsLt := (c.stat 0).toNat_lt
  have hwritesLt := (c.stat 4).toNat_lt
  rw [UInt64.toNat_sub, UInt64.toNat_add, UInt64.toNat_add]
  unfold operations
  omega

section Values

variable {interval : Nat} (hinterval : 1 ≤ interval)

include hinterval

theorem net_rates_iff {prev cur : NetSample} {name : Str} {p c : NetRow}
    (hp : prev.find name = some p) (hc : cur.find name = some c)
    (hrises : forall i, p.counters i ≤ c.counters i) :
    ((NetMonitor.netStats name p.raw c.raw).rxMbps = netRate interval prev cur name 0 ∧
        (NetMonitor.netStats name p.raw c.raw).txMbps = netRate interval prev cur name 8) <->
      interval = 1 ∨ (c.counters 0 = p.counters 0 ∧ c.counters 8 = p.counters 8) := by
  have hcounter : forall i,
      cur.counter name i = c.counters i ∧ prev.counter name i = p.counters i := by
    intro i
    simp [NetSample.counter, hp, hc]
  have height : (8 : Rat) ≠ 0 := by norm_num
  unfold netRate
  rw [(hcounter 0).left, (hcounter 0).right, (hcounter 8).left, (hcounter 8).right]
  show ((c.counters 0 - p.counters 0).toNat : Rat) * 8 / (1024 * 1024) = _ ∧
    ((c.counters 8 - p.counters 8).toNat : Rat) * 8 / (1024 * 1024) = _ <-> _
  rw [difference_eq_rate_iff (hrises 0) hinterval height,
    difference_eq_rate_iff (hrises 8) hinterval height]
  exact or_and_left.symm

theorem sector_rates_iff {prev cur : DiskSample LacksFields} {name : Str} {p c : DiskRow}
    (hp : prev.find name = some p) (hc : cur.find name = some c)
    (hrises : forall i, p.stat i ≤ c.stat i) :
    ((DiskMonitor.diskStats name p.raw c.raw).readMbps = sectorRate interval prev cur name 2 ∧
        (DiskMonitor.diskStats name p.raw c.raw).writeMbps =
          sectorRate interval prev cur name 6) <->
      interval = 1 ∨ (c.stat 2 = p.stat 2 ∧ c.stat 6 = p.stat 6) := by
  have hcount : forall i, diskCount cur name i = (c.stat i).toNat ∧
      diskCount prev name i = (p.stat i).toNat := by
    intro i
    simp [diskCount, hp, hc]
  have hsector : (512 : Rat) ≠ 0 := by norm_num
  unfold sectorRate
  rw [(hcount 2).left, (hcount 2).right, (hcount 6).left, (hcount 6).right]
  show ((c.stat 2 - p.stat 2).toNat : Rat) * 512 / (1024 * 1024) = _ ∧
    ((c.stat 6 - p.stat 6).toNat : Rat) * 512 / (1024 * 1024) = _ <-> _
  rw [difference_eq_rate_iff (hrises 2) hinterval hsector,
    difference_eq_rate_iff (hrises 6) hinterval hsector]
  exact or_and_left.symm

theorem operation_rate_iff {prev cur : DiskSample LacksFields} {name : Str} {p c : DiskRow}
    (hp : prev.find name = some p) (hc : cur.find name = some c)
    (hrises : forall i, p.stat i ≤ c.stat i) :
    (DiskMonitor.diskStats name p.raw c.raw).iops = operationRate interval prev cur name <->
      OperationsFit interval (operations p c) := by
  have hcount : forall i, (diskCount cur name i : Rat) - (diskCount prev name i : Rat) =
      (((c.stat i).toNat - (p.stat i).toNat : Nat) : Rat) := by
    intro i
    rw [Nat.cast_sub (UInt64.le_iff_toNat_le.mp (hrises i))]
    simp [diskCount, hp, hc]
  have hbound : operations p c < 2 ^ 65 := by
    have hreads := (c.stat 0).toNat_lt
    have hwrites := (c.stat 4).toNat_lt
    unfold operations
    omega
  unfold operationRate
  rw [hcount, hcount, ← Nat.cast_add]
  show (((c.stat 0 + c.stat 4) - (p.stat 0 + p.stat 4)).toNat : Rat) = _ <-> _
  rw [toNat_operations hrises]
  exact operations_eq_rate_iff hinterval hbound

end Values

theorem stored_report (mgr : HostManager) (now : Int) (p : MonitorPusher) (inp : PushInput) :
    (GrpcServer.storedSnapshot mgr now (p.report inp)).netRxMbps =
        (inp.metrics.interfaces.map NetStats.rxMbps).sum ∧
      (GrpcServer.storedSnapshot mgr now (p.report inp)).netTxMbps =
        (inp.metrics.interfaces.map NetStats.txMbps).sum ∧
      (GrpcServer.storedSnapshot mgr now (p.report inp)).diskIops =
        (inp.metrics.disks.map DiskStats.iops).sum := by
  rw [GrpcServer.storedSnapshot_eq, GrpcServer.snapshot_eq]
  simp only [GrpcServer.withCounters, MonitorPusher.report, List.map_map]
  exact ⟨rfl, rfl, rfl⟩

section Collect

variable {interval : Nat} (hinterval : 1 ≤ interval) {s : SamplePair} (hrises : s.Rises)

include hinterval hrises

theorem net_collect_iff {net : NetMonitor} (hnet : net.Keeps s.prevNet) :
    (forall ns, ns ∈ (net.collect s.curNet.text).interfaces ->
        ns.rxMbps = netRate interval s.prevNet s.curNet ns.iface 0 ∧
          ns.txMbps = netRate interval s.prevNet s.curNet ns.iface 8) <->
      forall p c, p ∈ s.prevNet.rows -> c ∈ s.curNet.rows -> p.name = c.name ->
        c.name ≠ "lo".toList ->
        interval = 1 ∨ (c.counters 0 = p.counters 0 ∧ c.counters 8 = p.counters 8) := by
  constructor
  · intro h p c hp hc hname hlo
    have hprev : s.prevNet.find c.name = some p := by
      rw [← hname]
      exact s.prevNet.find_of_mem hp
    have hcur := s.curNet.find_of_mem hc
    have hmem : NetMonitor.netStats c.name p.raw c.raw ∈
        (net.collect s.curNet.text).interfaces := by
      apply (NetMonitor.mem_interfaces_iff hnet s.curNet).mpr
      exact NetMonitor.published_eq_some_iff.mpr ⟨hlo, p, c, hprev, hcur, rfl⟩
    exact (net_rates_iff hinterval hprev hcur (hrises.net p c hp hc hname)).mp (h _ hmem)
  · intro h ns hns
    have hpublished := (NetMonitor.mem_interfaces_iff hnet s.curNet).mp hns
    rcases NetMonitor.published_eq_some_iff.mp hpublished with ⟨hlo, p, c, hp, hc, heq⟩
    rcases mem_of_find?_key hp with ⟨hprow, hpname⟩
    rcases mem_of_find?_key hc with ⟨hcrow, hcname⟩
    have hname : p.name = c.name := hpname.trans hcname.symm
    rw [← hcname] at hlo
    have hboth := (net_rates_iff hinterval hp hc (hrises.net p c hprow hcrow hname)).mpr
      (h p c hprow hcrow hname hlo)
    rw [← heq] at hboth
    exact hboth

theorem disk_collect_iff {disk : DiskMonitor} (hdisk : disk.Keeps s.prevDisk) :
    (forall ds, ds ∈ (disk.collect s.curDisk.text).disks ->
        (ds.readMbps = sectorRate interval s.prevDisk s.curDisk ds.device 2 ∧
          ds.writeMbps = sectorRate interval s.prevDisk s.curDisk ds.device 6) ∧
        ds.iops = operationRate interval s.prevDisk s.curDisk ds.device) <->
      forall p c, p ∈ s.prevDisk.rows -> c ∈ s.curDisk.rows -> p.name = c.name -> Shown c.name ->
        (interval = 1 ∨ (c.stat 2 = p.stat 2 ∧ c.stat 6 = p.stat 6)) ∧
          OperationsFit interval (operations p c) := by
  constructor
  · intro h p c hp hc hname hshown
    have hprev : s.prevDisk.find c.name = some p := by
      rw [← hname] at hshown ⊢
      exact s.prevDisk.find_of_mem hp hshown
    have hcur := s.curDisk.find_of_mem hc hshown
    have hrise := hrises.disk p c hp hc hname
    have hmem : DiskMonitor.diskStats c.name p.raw c.raw ∈
        (disk.collect s.curDisk.text).disks := by
      apply (DiskMonitor.mem_disks_iff hdisk s.curDisk).mpr
      exact DiskMonitor.published_eq_some_iff.mpr ⟨p, c, hprev, hcur, rfl⟩
    have hvalues := h _ hmem
    exact ⟨(sector_rates_iff hinterval hprev hcur hrise).mp hvalues.left,
      (operation_rate_iff hinterval hprev hcur hrise).mp hvalues.right⟩
  · intro h ds hds
    have hpublished := (DiskMonitor.mem_disks_iff hdisk s.curDisk).mp hds
    rcases DiskMonitor.published_eq_some_iff.mp hpublished with ⟨p, c, hp, hc, heq⟩
    rcases DiskSample.mem_of_find hp with ⟨⟨hprow, hpname⟩, _⟩
    rcases DiskSample.mem_of_find hc with ⟨⟨hcrow, hcname⟩, hshown⟩
    have hname : p.name = c.name := hpname.trans hcname.symm
    rw [← hcname] at hshown
    have hrise := hrises.disk p c hprow hcrow hname
    have hcond := h p c hprow hcrow hname hshown
    have hsectors := (sector_rates_iff hinterval hp hc hrise).mpr hcond.left
    have hops := (operation_rate_iff hinterval hp hc hrise).mpr hcond.right
    rw [← heq] at hsectors hops
    exact ⟨hsectors, hops⟩

theorem ratesPerSecond_collect_iff {net : NetMonitor} (hnet : net.Keeps s.prevNet)
    {disk : DiskMonitor} (hdisk : disk.Keeps s.prevDisk) :
    RatesPerSecond interval s (net.collect s.curNet.text).interfaces
        (disk.collect s.curDisk.text).disks <->
      OneSecondOrIdle interval s := by
  constructor
  · intro h
    have hnets := (net_collect_iff hinterval hrises hnet).mp
      (fun ns hns => ⟨h.rx ns hns, h.tx ns hns⟩)
    have hdisks := (disk_collect_iff hinterval hrises hdisk).mp
      (fun ds hds => ⟨⟨h.read ds hds, h.write ds hds⟩, h.iops ds hds⟩)
    exact ⟨hnets, fun p c hp hc hname hshown => (hdisks p c hp hc hname hshown).left,
      fun p c hp hc hname hshown => (hdisks p c hp hc hname hshown).right⟩
  · intro h
    have hnets := (net_collect_iff hinterval hrises hnet).mpr h.bytes
    have hdisks := (disk_collect_iff hinterval hrises hdisk).mpr
      (fun p c hp hc hname hshown =>
        ⟨h.sectors p c hp hc hname hshown, h.operations p c hp hc hname hshown⟩)
    constructor
    · exact fun ns hns => (hnets ns hns).left
    · exact fun ns hns => (hnets ns hns).right
    · exact fun ds hds => (hdisks ds hds).right
    · exact fun ds hds => (hdisks ds hds).left.left
    · exact fun ds hds => (hdisks ds hds).left.right
    · intro mgr now p inp hinterfaces hpublished
      rcases stored_report mgr now p inp with ⟨hrx, htx, hiops⟩
      rw [hrx, htx, hiops, hinterfaces, hpublished]
      refine ⟨?_, ?_, ?_⟩
      · exact congrArg List.sum (List.map_congr_left (fun ns hns => (hnets ns hns).left))
      · exact congrArg List.sum (List.map_congr_left (fun ns hns => (hnets ns hns).right))
      · exact congrArg List.sum (List.map_congr_left (fun ds hds => (hdisks ds hds).right))

end Collect

/-- After any number of earlier rounds, the published values and the sums stored at
the manager are rates per second exactly when the push interval is one second or the
counters did not move. -/
theorem ratesPerSecond_iff_oneSecondOrIdle (interval : Nat) (hinterval : 1 ≤ interval)
    (firstNet lastNet : NetSample) (middleNet : List NetSample)
    (firstDisk lastDisk : DiskSample LacksFields) (middleDisk : List (DiskSample LacksFields))
    (hrises : SamplePair.Rises
      ⟨NetMonitor.lastSample firstNet middleNet, lastNet,
        DiskMonitor.lastSample firstDisk middleDisk, lastDisk⟩) :
    RatesPerSecond interval
        ⟨NetMonitor.lastSample firstNet middleNet, lastNet,
          DiskMonitor.lastSample firstDisk middleDisk, lastDisk⟩
        (runFrom NetMonitor.collectSample (({} : NetMonitor).init firstNet.text)
          (middleNet ++ [lastNet])).interfaces
        (runFrom DiskMonitor.collectSample (({} : DiskMonitor).init firstDisk.text)
          (middleDisk ++ [lastDisk])).disks <->
      OneSecondOrIdle interval
        ⟨NetMonitor.lastSample firstNet middleNet, lastNet,
          DiskMonitor.lastSample firstDisk middleDisk, lastDisk⟩ := by
  rw [runFrom_concat, runFrom_concat]
  exact ratesPerSecond_collect_iff hinterval hrises (NetMonitor.run_keeps firstNet middleNet)
    (DiskMonitor.run_keeps firstDisk middleDisk)

def sdaRow (value : UInt64) : DiskRow where
  indent := 1
  major := 8
  minorGap := 1
  minor := 0
  nameGap := 1
  name := "sda".toList
  stats := List.replicate 11 (1, value)
  trail := []
  majorFits := by decide
  minorFits := by decide
  named := by decide
  valid := by
    intro c hc
    have hall : "sda".toList.all (fun c => !isSpace c) = true := rfl
    have hword := List.all_eq_true.mp hall c hc
    rw [Bool.not_eq_true'] at hword
    exact hword
  enough := Nat.le_of_eq List.length_replicate.symm
  minorSpaced := Nat.one_pos
  nameSpaced := Nat.one_pos
  spaced := by
    intro col hcol
    rw [List.eq_of_mem_replicate hcol]
    exact Nat.one_pos
  trailSpaced := stopsAt_nil _
  trailLine := newline_notMem_blanks 0

def sdaSample (value : UInt64) : DiskSample LacksFields where
  lines := [.device (sdaRow value)]
  distinct := List.nodup_singleton _

theorem rises_moved : SamplePair.Rises
    ⟨NetMonitor.etherSample 1000, NetMonitor.etherSample 3000, sdaSample 1000, sdaSample 3000⟩ := by
  constructor
  · intro p c hp hc _ i
    rw [List.mem_singleton.mp hp, List.mem_singleton.mp hc]
    show (1000 : UInt64) ≤ 3000
    decide
  · intro p c hp hc _ i
    rw [List.mem_singleton.mp hp, List.mem_singleton.mp hc]
    revert i
    decide

theorem oneSecond_rates :
    RatesPerSecond 1
      ⟨NetMonitor.etherSample 1000, NetMonitor.etherSample 3000, sdaSample 1000, sdaSample 3000⟩
      (runFrom NetMonitor.collectSample
        (({} : NetMonitor).init (NetMonitor.etherSample 1000).text)
        ([] ++ [NetMonitor.etherSample 3000])).interfaces
      (runFrom DiskMonitor.collectSample (({} : DiskMonitor).init (sdaSample 1000).text)
        ([] ++ [sdaSample 3000])).disks := by
  apply (ratesPerSecond_iff_oneSecondOrIdle 1 (Nat.le_refl 1) (NetMonitor.etherSample 1000)
    (NetMonitor.etherSample 3000) [] (sdaSample 1000) (sdaSample 3000) [] rises_moved).mpr
  constructor
  · exact fun _ _ _ _ _ _ => Or.inl rfl
  · exact fun _ _ _ _ _ _ => Or.inl rfl
  · intro p c hp hc _ _
    rw [List.mem_singleton.mp hp, List.mem_singleton.mp hc]
    exact Or.inl rfl

/-- With the default interval of ten seconds the same samples are published as ten
times their rates. -/
theorem tenSeconds_not_rates :
    ¬ RatesPerSecond 10
      ⟨NetMonitor.etherSample 1000, NetMonitor.etherSample 3000, sdaSample 1000, sdaSample 3000⟩
      (runFrom NetMonitor.collectSample
        (({} : NetMonitor).init (NetMonitor.etherSample 1000).text)
        ([] ++ [NetMonitor.etherSample 3000])).interfaces
      (runFrom DiskMonitor.collectSample (({} : DiskMonitor).init (sdaSample 1000).text)
        ([] ++ [sdaSample 3000])).disks := by
  intro h
  rw [runFrom_concat, runFrom_concat] at h
  have hcond := (ratesPerSecond_collect_iff (by decide) rises_moved
    (NetMonitor.run_keeps (NetMonitor.etherSample 1000) [])
    (DiskMonitor.run_keeps (sdaSample 1000) [])).mp h
  have hbytes := hcond.bytes (NetMonitor.etherRow 1000) (NetMonitor.etherRow 3000)
    List.mem_cons_self List.mem_cons_self rfl (by decide)
  rcases hbytes with hten | ⟨hequal, _⟩
  · exact absurd hten (by decide)
  · have hnumbers : (3000 : UInt64) = 1000 := hequal
    exact absurd hnumbers (by decide)

end EndToEnd
end PerfMonitor
