import Mathlib.Algebra.Order.Field.Rat
import Mathlib.Tactic.Linarith
import Mathlib.Tactic.Positivity
import PerfMonitor.Foundation.Run
import PerfMonitor.Manager.GrpcServer
import PerfMonitor.Worker.CpuStatMonitor
import PerfMonitor.Worker.MonitorPusher

/-!
# Range of the CPU percentages

A field that decreased is published as zero, but the total difference by which the
other fields are divided still contains the decrease.  So the percentages stay
between 0 and 100 over a run exactly when no counter that rises is set against a
fall of the other seven.
-/

namespace PerfMonitor
namespace EndToEnd

open Foundation Worker Manager

def InRange (x : Rat) : Prop :=
  0 ≤ x ∧ x ≤ 100

/-- Every published percentage is in range, and so is the usage that the manager
stores for any report that carries them. -/
structure PercentagesInRange (m : CpuStatMonitor) : Prop where
  published : forall f, InRange (m.pct.get f)
  stored : forall (mgr : HostManager) (now : Int) (p : MonitorPusher) (inp : PushInput),
    inp.metrics.cpuStat = m.pct ->
    InRange (GrpcServer.storedSnapshot mgr now (p.report inp)).cpuUsedPct

/-- The change of the seven counters other than a field, modulo `2 ^ 64`. -/
def othersDelta (f : CpuField) (prev cur : CpuStatRaw) : UInt64 :=
  (cur.total - cur.get f) - (prev.total - prev.get f)

/-- The total is the saved one, or the rise of every reported field and the change
of the other counters add up without a carry: the other seven did not fall, or they
fell by more than the field rose. -/
def RisesFit (m : CpuStatMonitor) (content : Str) : Prop :=
  let cur := CpuStatMonitor.readStat {} content
  cur.total = m.prev.total ∨
    forall f, (cur.get f - m.prev.get f).toNat < 2 ^ 63 ->
      (cur.get f - m.prev.get f).toNat + (othersDelta f m.prev cur).toNat < 2 ^ 64

/-!
## One percentage
-/

theorem totalDelta_eq (f : CpuField) (prev cur : CpuStatRaw) :
    cur.total - prev.total = (cur.get f - prev.get f) + othersDelta f prev cur := by
  unfold othersDelta
  grind

theorem inRange_share {d total : UInt64} (htotal : total ≠ 0) :
    InRange (100 * (d.toNat : Rat) / (total.toNat : Rat)) <-> d ≤ total := by
  have hne : total.toNat ≠ 0 := fun h => htotal (UInt64.toNat_inj.mp h)
  have hpos : (0 : Rat) < (total.toNat : Rat) := Nat.cast_pos.mpr (Nat.pos_of_ne_zero hne)
  rw [UInt64.le_iff_toNat_le]
  constructor
  · intro h
    have hle : 100 * (d.toNat : Rat) ≤ 100 * (total.toNat : Rat) := (div_le_iff₀ hpos).mp h.right
    exact Nat.cast_le.mp (le_of_mul_le_mul_left hle (by norm_num))
  · intro h
    have hle : 100 * (d.toNat : Rat) ≤ 100 * (total.toNat : Rat) :=
      mul_le_mul_of_nonneg_left (Nat.cast_le.mpr h) (by norm_num)
    exact ⟨by positivity, (div_le_iff₀ hpos).mpr hle⟩

theorem inRange_zero : InRange 0 := by
  unfold InRange
  norm_num

theorem inRange_calcPct {f : CpuField} {prev cur : CpuStatRaw} (htotal : cur.total ≠ prev.total) :
    InRange (CpuStatMonitor.calcPct (cur.total - prev.total) (cur.get f) (prev.get f)) <->
      ((cur.get f - prev.get f).toNat < 2 ^ 63 ->
        (cur.get f - prev.get f).toNat + (othersDelta f prev cur).toNat < 2 ^ 64) := by
  have hdelta : cur.total - prev.total ≠ 0 := fun h => htotal (sub_eq_zero_iff_eq.mp h)
  rw [CpuStatMonitor.calcPct_eq]
  by_cases hrise : (cur.get f - prev.get f).toNat < 2 ^ 63
  · rw [if_pos hrise, inRange_share hdelta, totalDelta_eq f, le_add_iff_lt]
    exact ⟨fun h _ => h, fun h => h hrise⟩
  · rw [if_neg hrise]
    exact ⟨fun _ h => absurd h hrise, fun _ => inRange_zero⟩

/-!
## Whole runs
-/

theorem cpuUsedPct_report (mgr : HostManager) (now : Int) (p : MonitorPusher)
    (inp : PushInput) :
    (GrpcServer.storedSnapshot mgr now (p.report inp)).cpuUsedPct =
      100 - inp.metrics.cpuStat.idle := by
  rw [GrpcServer.storedSnapshot_eq, GrpcServer.snapshot_eq]
  rfl

theorem percentagesInRange_iff (m : CpuStatMonitor) :
    PercentagesInRange m <-> forall f, InRange (m.pct.get f) := by
  constructor
  · exact fun h => h.published
  · intro h
    refine ⟨h, ?_⟩
    intro mgr now p inp hpct
    have hidle : InRange m.pct.idle := h .idle
    rw [cpuUsedPct_report, hpct]
    constructor
    · linarith [hidle.right]
    · linarith [hidle.left]

theorem percentagesInRange_collect {m : CpuStatMonitor} (h : PercentagesInRange m)
    (content : Str) : PercentagesInRange (m.collect content) <-> RisesFit m content := by
  unfold RisesFit
  by_cases htotal : (CpuStatMonitor.readStat {} content).total = m.prev.total
  · rw [CpuStatMonitor.collect_of_total_eq htotal]
    exact ⟨fun _ => Or.inl htotal, fun _ => h⟩
  · rw [percentagesInRange_iff]
    simp only [CpuStatMonitor.pct_collect htotal, inRange_calcPct htotal, htotal, false_or]

/-- After `Init` on any text, the percentages stay in range over a sequence of
`Collect`s exactly when in each of them every rise fits into the total. -/
theorem percentagesInRange_iff_risesFit (first : Str) (contents : List Str) :
    Throughout CpuStatMonitor.collect PercentagesInRange
        (({} : CpuStatMonitor).init first) contents <->
      EachStep CpuStatMonitor.collect RisesFit (({} : CpuStatMonitor).init first) contents := by
  have hstart : PercentagesInRange (({} : CpuStatMonitor).init first) := by
    rw [percentagesInRange_iff]
    intro f
    have hzero : (({} : CpuStatMonitor).init first).pct.get f = 0 := by
      cases f with
      | user => rfl
      | system => rfl
      | idle => rfl
      | iowait => rfl
      | steal => rfl
      | softirq => rfl
    rw [hzero]
    exact inRange_zero
  apply throughout_iff_eachStep
  · intro m content h hfits
    exact (percentagesInRange_collect h content).mpr hfits
  · intro m content h hafter
    exact (percentagesInRange_collect h content).mp hafter
  · exact fun m h => h
  · exact hstart

/-- Between the two snapshots `iowait` falls by 50 and `idle` rises by 60. -/
def fallingIowait : Str × Str :=
  ("cpu  100 0 100 1000 500 0 0 0\n".toList, "cpu  100 0 100 1060 450 0 0 0\n".toList)

/-- The total rises by 10 only, so `idle` is published as 600 percent. -/
theorem fallingIowait_out_of_range :
    ¬ Throughout CpuStatMonitor.collect PercentagesInRange
        (({} : CpuStatMonitor).init fallingIowait.1) [fallingIowait.2] := by
  intro h
  have hidle := (throughout_final h).published .idle
  have htotal : (CpuStatMonitor.readStat {} fallingIowait.2).total ≠
      (({} : CpuStatMonitor).init fallingIowait.1).prev.total := by
    decide
  rw [runFrom_cons, runFrom_nil, CpuStatMonitor.pct_collect htotal, inRange_calcPct htotal] at hidle
  exact absurd (hidle (by decide)) (by decide)

end EndToEnd
end PerfMonitor
