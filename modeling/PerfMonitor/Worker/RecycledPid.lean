import Mathlib.Algebra.Order.Field.Basic
import PerfMonitor.Worker.CpuPercent

/-!
# A pid that is used again

The stored samples are kept by pid and never removed.  When the system gives the pid of
an earlier process to a new one of the same name, the ticks of the new process are
subtracted from with those of the old one.  The percentage then exceeds what all the
ticks of the new process could account for, exactly when there are fewer of them than
in the stored sample.
-/

namespace PerfMonitor
namespace Worker

open Foundation

/-!
## One percentage
-/

def PctBounded (content : Option Str) (deltaMs : UInt64) (pct : Rat) : Prop :=
  pct = -1 ∨ exists times, times ∈ statTimes content ∧
    pct ≤ 100 * ((times.1.toNat : Rat) + (times.2.toNat : Rat)) / (deltaMs.toNat : Rat)

def ProcSample.ticks (sample : ProcSample) : Nat :=
  sample.utime.toNat + sample.stime.toNat

def ProcSample.ReachedBy (sample : ProcSample) (times : UInt64 × UInt64) : Prop :=
  sample.ticks ≤ times.1.toNat + times.2.toNat ∨
    (2 ^ 64 ≤ sample.ticks ∧ sample.ticks ≤ times.1.toNat + times.2.toNat + 2 ^ 64)

section Percentage

variable {content : Option Str} {prev : ProcSample} {deltaMs : UInt64}

theorem readProcCpuPct_of_times {utime stime : UInt64}
    (htimes : statTimes content = some (utime, stime)) (hstored : prev.totalTime ≠ 0) :
    readProcCpuPct content prev deltaMs =
      some ((((utime + stime) - (prev.utime + prev.stime)).toNat : Rat) * 100 /
        (deltaMs.toNat : Rat)) := by
  unfold statTimes at htimes
  unfold readProcCpuPct
  cases hfields : statFields content with
  | unreadable =>
      rw [hfields] at htimes
      cases htimes
  | outOfRange =>
      rw [hfields] at htimes
      cases htimes
  | fields stream =>
      simp only [hfields] at htimes ⊢
      split at htimes
      next hok =>
        injection htimes with htimes
        injection htimes with hutime hstime
        rw [if_pos hok, if_neg hstored, hutime, hstime]
      · cases htimes

theorem pct_le_iff (hdelta : 0 < deltaMs) (utime stime : UInt64) :
    (((utime + stime) - (prev.utime + prev.stime)).toNat : Rat) * 100 / (deltaMs.toNat : Rat) ≤
        100 * ((utime.toNat : Rat) + (stime.toNat : Rat)) / (deltaMs.toNat : Rat) <->
      prev.ReachedBy (utime, stime) := by
  have hspan : (0 : Rat) < (deltaMs.toNat : Rat) :=
    Nat.cast_pos.mpr (UInt64.lt_iff_toNat_lt.mp hdelta)
  rw [div_le_div_iff_of_pos_right hspan, mul_comm, mul_le_mul_iff_right₀ (by norm_num),
    ← Nat.cast_add, Nat.cast_le]
  exact toNat_sub_add_le_iff prev.utime prev.stime utime stime

theorem readProcCpuPct_bounded_iff :
    (forall pct, readProcCpuPct content prev deltaMs = some pct ->
        PctBounded content deltaMs pct) <->
      (prev.totalTime ≠ 0 -> 0 < deltaMs -> forall times, statTimes content = some times ->
        prev.ReachedBy times) := by
  constructor
  · rintro hbounded hstored hdelta ⟨utime, stime⟩ htimes
    rcases hbounded _ (readProcCpuPct_of_times htimes hstored) with hminus | ⟨times, hmem, hle⟩
    · have hnonneg : (0 : Rat) ≤
          (((utime + stime) - (prev.utime + prev.stime)).toNat : Rat) * 100 /
            (deltaMs.toNat : Rat) := by positivity
      rw [hminus] at hnonneg
      exact absurd hnonneg (by norm_num)
    · rw [Option.mem_def, htimes] at hmem
      injection hmem with hmem
      subst hmem
      exact (pct_le_iff hdelta utime stime).mp hle
  · intro hreached pct hreturned
    rcases readProcCpuPct_cases hreturned with hminus | ⟨utime, stime, htimes, hstored, heq⟩
    · exact Or.inl hminus
    · right
      refine ⟨(utime, stime), htimes, ?_⟩
      rw [heq]
      rcases UInt64.lt_or_eq_of_le (UInt64.zero_le (a := deltaMs)) with hdelta | hzero
      · exact (pct_le_iff hdelta utime stime).mpr (hreached hstored hdelta _ htimes)
      · rw [← hzero]
        simp

end Percentage

/-!
## Every percentage of a run
-/

namespace PerfDiagnoser

def step (w : World) (mode : Handover) (d : PerfDiagnoser) : PerfOp -> PerfDiagnoser
  | .beginLoop nowWall => d.beginLoop w nowWall
  | .scan inp => (d.scan w mode inp).1
  | .reset => d.reset
  | .output path st => { d with disk := d.disk.insert path st }

def scannedPid (d : PerfDiagnoser) (inp : ScanInput) : Option Pid :=
  match d.todo with
  | [] => none
  | procName :: _ =>
      let pid := inp.proc.readPidByName procName
      if d.alive = true ∧ tagOf procName ∉ d.triggeredTags ∧ pid ≠ 0 then some pid else none

/-- What `read_proc_cpu_pct` returns to a scan, unless it throws. -/
def returnedPct (d : PerfDiagnoser) (inp : ScanInput) : Option Rat :=
  (d.scannedPid inp).bind
    (fun pid => readProcCpuPct inp.statFirst (d.prevSamples pid) d.deltaMs)

def PctsBounded (d : PerfDiagnoser) : PerfOp -> Prop
  | .beginLoop _ => True
  | .scan inp => forall pct, d.returnedPct inp = some pct -> PctBounded inp.statFirst d.deltaMs pct
  | .reset => True
  | .output _ _ => True

def TicksReached (d : PerfDiagnoser) : PerfOp -> Prop
  | .beginLoop _ => True
  | .scan inp => forall pid, d.scannedPid inp = some pid ->
      (d.prevSamples pid).totalTime ≠ 0 -> 0 < d.deltaMs ->
        forall times, statTimes inp.statFirst = some times -> (d.prevSamples pid).ReachedBy times
  | .reset => True
  | .output _ _ => True

theorem returnedPct_of_validSample {d : PerfDiagnoser} {inp : ScanInput} {procName : Str}
    {cpuPct : Rat} (h : d.validSample inp = some (procName, cpuPct)) :
    exists pct, d.returnedPct inp = some pct ∧ ¬ pct < 0 ∧ cpuPct = scaleHz inp.hz pct := by
  rcases scan_of_sample { fork := fun _ => -1 } .copy d inp h with ⟨rest, _, _, htodo, _⟩
  rcases validSample_eq h with ⟨pct, hpct, hvalid, hvalue⟩
  refine ⟨pct, ?_, hvalid, hvalue⟩
  unfold validSample at h
  unfold returnedPct scannedPid
  rw [htodo] at h ⊢
  dsimp only at h ⊢
  split at h
  next hready =>
    rw [if_pos hready]
    exact hpct
  · cases h

theorem pctsBounded_iff (d : PerfDiagnoser) (op : PerfOp) :
    d.PctsBounded op <-> d.TicksReached op := by
  cases op with
  | beginLoop nowWall => exact Iff.rfl
  | scan inp =>
      change (forall pct, d.returnedPct inp = some pct -> _) <->
        (forall pid, d.scannedPid inp = some pid -> _)
      unfold returnedPct
      cases d.scannedPid inp with
      | none =>
          constructor
          · intro _ pid hsome
            cases hsome
          · intro _ pct hsome
            cases hsome
      | some scanned =>
          constructor
          · intro hbounded pid hsome
            injection hsome with hsame
            subst hsame
            exact readProcCpuPct_bounded_iff.mp hbounded
          · intro hreached
            exact readProcCpuPct_bounded_iff.mpr (hreached scanned rfl)
  | reset => exact Iff.rfl
  | output path st => exact Iff.rfl

/-- In every run, the percentages are within what the stat files account for exactly when
no stat file has fewer ticks than the stored sample of its pid. -/
theorem pctsBounded_iff_ticksReached (w : World) (mode : Handover) (settings : PerfSettings)
    (disk : Disk) (ops : List PerfOp) :
    EachStep (step w mode) PctsBounded { settings := settings, disk := disk } ops <->
      EachStep (step w mode) TicksReached { settings := settings, disk := disk } ops :=
  eachStep_congr pctsBounded_iff _ ops

/-- The process `a` under the pid 7 ends with 1000 ticks, and the next process `a` gets
its pid. -/
def recycledRun : List PerfOp :=
  [.beginLoop 1000, .scan (CpuTrace.running "1000"), .beginLoop 6000, .scan (CpuTrace.running "5")]

theorem recycledRun_not_pctsBounded :
    ¬ EachStep (step CpuTrace.noFork .transfer) PctsBounded { settings := CpuTrace.watched }
      recycledRun := by
  intro h
  have hlast := h.right.right.right.left ((2 ^ 64 - 995) * 100 / 5000) (by decide +kernel)
  rcases hlast with hminus | ⟨times, htimes, hle⟩
  · exact absurd hminus (by norm_num)
  · have hfive : times = (5, 0) := by
      have hread : statTimes (CpuTrace.running "5").statFirst = some (5, 0) := by decide +kernel
      rw [Option.mem_def, hread] at htimes
      injection htimes with htimes
      exact htimes.symm
    rw [hfive] at hle
    revert hle
    decide +kernel

end PerfDiagnoser

end Worker
end PerfMonitor
