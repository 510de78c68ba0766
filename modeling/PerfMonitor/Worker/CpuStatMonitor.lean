import PerfMonitor.Foundation.Counters
import PerfMonitor.Foundation.StreamFields
import PerfMonitor.Worker.MonitorStructs

/-!
# CPU monitor

`Init` and `Collect` of `worker/src/monitor/cpu_stat_monitor.cpp` over the text of
`/proc/stat`.  The counters of the last accepted snapshot are kept; a `Collect`
publishes what share of the total difference each field has, and leaves everything
alone when the totals are equal.
-/

namespace PerfMonitor
namespace Worker

open Foundation

structure CpuStatRaw where
  user : UInt64 := 0
  nice : UInt64 := 0
  system : UInt64 := 0
  idle : UInt64 := 0
  iowait : UInt64 := 0
  irq : UInt64 := 0
  softirq : UInt64 := 0
  steal : UInt64 := 0
deriving DecidableEq, Repr

def CpuStatRaw.total (r : CpuStatRaw) : UInt64 :=
  r.user + r.nice + r.system + r.idle + r.iowait + r.irq + r.softirq + r.steal

structure CpuStatMonitor where
  prev : CpuStatRaw := {}
  pct : CpuStatPct := {}
deriving DecidableEq

namespace CpuStatMonitor

/-- `line.rfind("cpu ", 0) == 0`. -/
def isCpuLine (line : Str) : Bool :=
  "cpu ".toList.isPrefixOf line

/-- The eight extractions.  A field that cannot be read, and those after it, keep
what `raw` has, except that a field without digits becomes zero. -/
def readCounters (raw : CpuStatRaw) (ls : InputStream) : CpuStatRaw :=
  let (user, ls) := ls.getUInt64 raw.user
  let (nice, ls) := ls.getUInt64 raw.nice
  let (system, ls) := ls.getUInt64 raw.system
  let (idle, ls) := ls.getUInt64 raw.idle
  let (iowait, ls) := ls.getUInt64 raw.iowait
  let (irq, ls) := ls.getUInt64 raw.irq
  let (softirq, ls) := ls.getUInt64 raw.softirq
  let (steal, _) := ls.getUInt64 raw.steal
  { user := user, nice := nice, system := system, idle := idle, iowait := iowait, irq := irq,
    softirq := softirq, steal := steal }

/-- The reading loop: it ends at the first line that starts with `cpu` and a blank. -/
def readStat (raw : CpuStatRaw) (content : Str) : CpuStatRaw :=
  match (lines content).find? isCpuLine with
  | none => raw
  | some line => readCounters raw { rest := line.drop 4 }

def init (m : CpuStatMonitor) (content : Str) : CpuStatMonitor :=
  { m with prev := readStat m.prev content }

/-- The lambda `calc`.  The signed difference is taken modulo `2 ^ 64`. -/
def calcPct (totalDelta val prev : UInt64) : Rat :=
  let d := val.toInt64 - prev.toInt64
  if d < 0 then 0 else 100 * (d.toInt : Rat) / (totalDelta.toNat : Rat)

def collect (m : CpuStatMonitor) (content : Str) : CpuStatMonitor :=
  let cur := readStat {} content
  let totalDelta := cur.total - m.prev.total
  if totalDelta = 0 then m
  else
    { prev := cur
      pct :=
        { user := calcPct totalDelta cur.user m.prev.user
          system := calcPct totalDelta cur.system m.prev.system
          idle := calcPct totalDelta cur.idle m.prev.idle
          iowait := calcPct totalDelta cur.iowait m.prev.iowait
          steal := calcPct totalDelta cur.steal m.prev.steal
          softirq := calcPct totalDelta cur.softirq m.prev.softirq } }

end CpuStatMonitor

/-!
## The reported fields
-/

inductive CpuField where
  | user
  | system
  | idle
  | iowait
  | steal
  | softirq
deriving DecidableEq, Repr

def CpuStatRaw.get (r : CpuStatRaw) : CpuField -> UInt64
  | .user => r.user
  | .system => r.system
  | .idle => r.idle
  | .iowait => r.iowait
  | .steal => r.steal
  | .softirq => r.softirq

def CpuStatPct.get (p : CpuStatPct) : CpuField -> Rat
  | .user => p.user
  | .system => p.system
  | .idle => p.idle
  | .iowait => p.iowait
  | .steal => p.steal
  | .softirq => p.softirq

namespace CpuStatMonitor

theorem collect_of_total_eq {m : CpuStatMonitor} {content : Str}
    (h : (readStat {} content).total = m.prev.total) : m.collect content = m := by
  unfold collect
  exact if_pos (sub_eq_zero_iff_eq.mpr h)

section Accepted

variable {m : CpuStatMonitor} {content : Str}
  (h : (readStat {} content).total ≠ m.prev.total)

include h

theorem prev_collect : (m.collect content).prev = readStat {} content := by
  unfold collect
  simp only [sub_eq_zero_iff_eq]
  rw [if_neg h]

theorem pct_collect (f : CpuField) :
    (m.collect content).pct.get f =
      calcPct ((readStat {} content).total - m.prev.total) ((readStat {} content).get f)
        (m.prev.get f) := by
  unfold collect
  simp only [sub_eq_zero_iff_eq]
  rw [if_neg h]
  cases f with
  | user => rfl
  | system => rfl
  | idle => rfl
  | iowait => rfl
  | steal => rfl
  | softirq => rfl

end Accepted

theorem calcPct_eq (totalDelta val prev : UInt64) :
    calcPct totalDelta val prev =
      if (val - prev).toNat < 2 ^ 63 then
        100 * ((val - prev).toNat : Rat) / (totalDelta.toNat : Rat)
      else 0 := by
  have hsub : val.toInt64 - prev.toInt64 = (val - prev).toInt64 :=
    (UInt64.toInt64_sub val prev).symm
  unfold calcPct
  simp only [hsub]
  by_cases hsmall : (val - prev).toNat < 2 ^ 63
  · have hint := toInt_toInt64_of_lt hsmall
    have hnonneg : ¬ (val - prev).toInt64 < 0 := by
      rw [Int64.lt_iff_toInt_lt, hint]
      exact Int.not_lt.mpr (Int.natCast_nonneg _)
    rw [if_neg hnonneg, if_pos hsmall, hint]
    rfl
  · rw [if_pos (toInt64_neg_of_le (Nat.le_of_not_lt hsmall)), if_neg hsmall]

end CpuStatMonitor

end Worker
end PerfMonitor
