import Mathlib.Tactic.FieldSimp
import Mathlib.Tactic.Linarith
import PerfMonitor.Foundation.Counters
import PerfMonitor.Foundation.StreamFields
import PerfMonitor.Worker.PerfRecordings

/-!
# CPU percentages

A percentage divides the ticks used since the stored sample of the process by the
milliseconds since the last iteration of the loop.  This module writes down from
which iteration the stored sample of a pid is, and at what time each iteration was.
The two spans are the same exactly when the sample was stored one iteration ago.
-/

namespace PerfMonitor
namespace Worker

open Foundation

/-!
## The ticks in a stat file
-/

/-- `utime` and `stime`, if both can be read. -/
def statTimes (content : Option Str) : Option (UInt64 × UInt64) :=
  match statFields content with
  | .unreadable => none
  | .outOfRange => none
  | .fields stream =>
      let stream := InputStream.skipWords 11 stream
      let (utime, stream) := stream.getUInt64 0
      let (stime, stream) := stream.getUInt64 0
      if stream.ok then some (utime, stime) else none

/-- `utime + stime`, if both can be read. -/
def procTicks (content : Option Str) : Option UInt64 :=
  (statTimes content).map (fun times => times.1 + times.2)

theorem readProcCpuPct_cases {content : Option Str} {prev : ProcSample} {deltaMs : UInt64}
    {pct : Rat} (h : readProcCpuPct content prev deltaMs = some pct) :
    pct = -1 ∨ exists utime stime, statTimes content = some (utime, stime) ∧
      prev.totalTime ≠ 0 ∧
      pct = (((utime + stime) - (prev.utime + prev.stime)).toNat : Rat) * 100 /
        (deltaMs.toNat : Rat) := by
  unfold readProcCpuPct at h
  unfold statTimes
  cases hfields : statFields content with
  | unreadable =>
      simp only [hfields] at h
      injection h with h
      exact Or.inl h.symm
  | outOfRange =>
      simp only [hfields] at h
      cases h
  | fields stream =>
      simp only [hfields] at h ⊢
      split at h
      next hok =>
        rw [if_pos hok]
        split at h
        · injection h with h
          exact Or.inl h.symm
        next hstored =>
          injection h with h
          exact Or.inr ⟨_, _, rfl, hstored, h.symm⟩
      · injection h with h
        exact Or.inl h.symm

theorem readProcCpuPct_of_nonneg {content : Option Str} {prev : ProcSample} {deltaMs : UInt64}
    {pct : Rat} (h : readProcCpuPct content prev deltaMs = some pct) (hpct : ¬ pct < 0) :
    exists ticks, procTicks content = some ticks ∧
      pct = ((ticks - (prev.utime + prev.stime)).toNat : Rat) * 100 / (deltaMs.toNat : Rat) := by
  rcases readProcCpuPct_cases h with hminus | ⟨utime, stime, htimes, _, hvalue⟩
  · rw [hminus] at hpct
    exact absurd (by norm_num) hpct
  · refine ⟨utime + stime, ?_, hvalue⟩
    unfold procTicks
    rw [htimes]
    rfl

theorem refreshSample_of_ticks {content : Option Str} {ticks : UInt64}
    (h : procTicks content = some ticks) (prev : ProcSample) :
    exists sample, refreshSample content prev = some sample ∧
      sample.utime + sample.stime = ticks := by
  unfold procTicks statTimes at h
  unfold refreshSample
  cases hfields : statFields content with
  | unreadable =>
      rw [hfields] at h
      cases h
  | outOfRange =>
      rw [hfields] at h
      cases h
  | fields stream =>
      rw [hfields] at h
      dsimp only at h ⊢
      split at h
      next hok =>
        injection h with h
        refine ⟨_, rfl, ?_⟩
        have hutime := InputStream.getUInt64_target (InputStream.skipWords 11 stream) 0 prev.utime
        have hstime := InputStream.getUInt64_target
          ((InputStream.skipWords 11 stream).getUInt64 0).2 0 prev.stime
        dsimp only
        rw [← h, ← hutime.left, ← hutime.right (InputStream.ok_of_getUInt64 hok),
          ← hstime.right hok]
      · cases h

/-!
## Stored samples and computed percentages
-/

structure Baseline where
  iteration : Int
  ticks : UInt64
deriving DecidableEq, Repr

structure PctRecord where
  processName : Str
  pid : Pid
  since : Int
  iteration : Int
  wallSince : UInt64
  wall : UInt64
  ticksSince : UInt64
  ticks : UInt64
  hz : Int
  value : Rat
deriving DecidableEq, Repr

def PctRecord.exact (r : PctRecord) : Rat :=
  100 * 1000 / (r.hz : Rat) * ((r.ticks.toNat : Rat) - (r.ticksSince.toNat : Rat)) /
    ((r.wall.toNat : Rat) - (r.wallSince.toNat : Rat))

/-- The loop with the times of its iterations, the origins of the stored samples and
the percentages computed so far. -/
structure CpuTrace where
  diag : PerfDiagnoser := {}
  iteration : Int := 0
  walls : Int -> UInt64 := fun _ => 0
  baselines : Pid -> Option Baseline := fun _ => none
  computed : List PctRecord := []

namespace CpuTrace

def pctRecord (s : CpuTrace) (inp : ScanInput) : Option PctRecord :=
  match s.diag.validSample inp with
  | none => none
  | some (procName, cpuPct) =>
      let pid := inp.proc.readPidByName procName
      match s.baselines pid, procTicks inp.statFirst with
      | some base, some ticks =>
          some
            { processName := procName, pid := pid, since := base.iteration,
              iteration := s.iteration, wallSince := s.walls base.iteration,
              wall := s.walls s.iteration, ticksSince := base.ticks, ticks := ticks,
              hz := inp.hz, value := cpuPct }
      | _, _ => none

/-- The origins after a scan.  A stat file without fields leaves the stored sample;
one whose ticks cannot be read leaves nothing that counts as a sample. -/
def baselinesAfter (s : CpuTrace) (inp : ScanInput) : Pid -> Option Baseline :=
  match s.diag.refreshed inp, statFields inp.statSecond with
  | some (pid, _), .fields _ =>
      Function.update s.baselines pid ((procTicks inp.statSecond).map (Baseline.mk s.iteration))
  | _, _ => s.baselines

def step (w : World) (mode : Handover) (s : CpuTrace) : PerfOp -> CpuTrace
  | .beginLoop nowWall =>
      if s.diag.alive = true ∧ s.diag.todo = [] then
        { s with
          diag := s.diag.beginLoop w nowWall
          iteration := s.iteration + 1
          walls := Function.update s.walls (s.iteration + 1) nowWall }
      else { s with diag := s.diag.beginLoop w nowWall }
  | .scan inp =>
      { s with
        diag := (s.diag.scan w mode inp).1
        baselines := s.baselinesAfter inp
        computed := s.computed ++ (s.pctRecord inp).toList }
  | .reset => { s with diag := s.diag.reset }
  | .output path st => { s with diag := { s.diag with disk := s.diag.disk.insert path st } }

def fresh (settings : PerfSettings) (disk : Disk) : CpuTrace where
  diag := { settings := settings, disk := disk }

/-- What the loop may rely on: the steady clock advances from one iteration to the
next, the clock tick is positive, and the stat file does not change between its two
reads. -/
def Steady (s : CpuTrace) : PerfOp -> Prop
  | .beginLoop nowWall => s.diag.prevWall < nowWall
  | .scan inp => 0 < inp.hz ∧ inp.statFirst = inp.statSecond
  | .reset => True
  | .output _ _ => True

/-- Every percentage computed from the stored sample of an earlier iteration, of a
process whose ticks did not decrease, is that of the time between the samples. -/
def MatchesSpan (s : CpuTrace) : Prop :=
  forall r, r ∈ s.computed -> r.since < r.iteration -> r.ticksSince ≤ r.ticks -> r.value = r.exact

/-- The stored sample that a scan uses is from the iteration before, or the process
has used no CPU since. -/
def SampleRecent (s : CpuTrace) : PerfOp -> Prop
  | .beginLoop _ => True
  | .scan inp =>
      forall r, r ∈ s.pctRecord inp -> r.since < r.iteration -> r.ticksSince ≤ r.ticks ->
        r.since + 1 = r.iteration ∨ r.ticksSince = r.ticks
  | .reset => True
  | .output _ _ => True

instance (s : CpuTrace) (op : PerfOp) : Decidable (s.Steady op) :=
  match op with
  | .beginLoop nowWall => inferInstanceAs (Decidable (s.diag.prevWall < nowWall))
  | .scan inp => inferInstanceAs (Decidable (0 < inp.hz ∧ inp.statFirst = inp.statSecond))
  | .reset => isTrue trivial
  | .output _ _ => isTrue trivial

instance (s : CpuTrace) (op : PerfOp) : Decidable (s.SampleRecent op) :=
  match op with
  | .beginLoop _ => isTrue trivial
  | .scan inp =>
      inferInstanceAs (Decidable (forall r, r ∈ s.pctRecord inp -> r.since < r.iteration ->
        r.ticksSince ≤ r.ticks -> r.since + 1 = r.iteration ∨ r.ticksSince = r.ticks))
  | .reset => isTrue trivial
  | .output _ _ => isTrue trivial

structure Invariant (s : CpuTrace) : Prop where
  started : 0 ≤ s.iteration
  waiting : s.diag.todo ≠ [] -> 0 < s.iteration
  prevWall : s.diag.prevWall = s.walls s.iteration
  origin : s.walls 0 = 0
  increasing : forall i j, 0 ≤ i -> i < j -> j ≤ s.iteration -> s.walls i < s.walls j
  deltaMs : 2 ≤ s.iteration ->
    s.diag.deltaMs = s.walls s.iteration - s.walls (s.iteration - 1)
  baseline : forall pid base, s.baselines pid = some base ->
    0 < base.iteration ∧ base.iteration ≤ s.iteration ∧
      (s.diag.prevSamples pid).utime + (s.diag.prevSamples pid).stime = base.ticks

section Steps

variable (w : World) (mode : Handover)

theorem invariant_beginLoop {s : CpuTrace} (h : s.Invariant) {nowWall : UInt64}
    (hclock : s.diag.prevWall < nowWall) : (s.step w mode (.beginLoop nowWall)).Invariant := by
  unfold step PerfDiagnoser.beginLoop
  by_cases hready : s.diag.alive = true ∧ s.diag.todo = []
  · simp only [if_pos hready]
    have hkeeps : forall i, i ≤ s.iteration ->
        Function.update s.walls (s.iteration + 1) nowWall i = s.walls i := by
      intro i hi
      exact Function.update_of_ne (by omega) _ _
    constructor
    · exact Int.le_add_one h.started
    · intro _
      exact Int.lt_add_one_of_le h.started
    · show nowWall = Function.update s.walls (s.iteration + 1) nowWall (s.iteration + 1)
      rw [Function.update_self]
    · exact (hkeeps 0 h.started).trans h.origin
    · intro i j hi hij hj
      dsimp only at hj ⊢
      rw [hkeeps i (by omega)]
      rcases lt_or_eq_of_le hj with hlt | hlast
      · rw [hkeeps j (by omega)]
        exact h.increasing i j hi hij (by omega)
      · rw [hlast, Function.update_self]
        rcases lt_or_eq_of_le (Int.lt_add_one_iff.mp (hlast ▸ hij)) with hbefore | hcurrent
        · have hlt := h.increasing i s.iteration hi hbefore (le_refl _)
          rw [← h.prevWall] at hlt
          exact UInt64.lt_trans hlt hclock
        · rw [hcurrent, ← h.prevWall]
          exact hclock
    · intro htwo
      dsimp only at htwo ⊢
      have hpositive : 0 < s.diag.prevWall := by
        rw [h.prevWall, ← h.origin]
        exact h.increasing 0 s.iteration (le_refl _) (by omega) (le_refl _)
      rw [if_pos hpositive, Function.update_self, add_sub_cancel_right, hkeeps _ (le_refl _),
        h.prevWall]
    · intro pid base hbase
      rcases h.baseline pid base hbase with ⟨hfirst, hlast, hticks⟩
      refine ⟨hfirst, by dsimp only; omega, ?_⟩
      dsimp only
      rw [(PerfDiagnoser.checkRunner_frame w s.diag).right.right]
      exact hticks
  · simp only [if_neg hready]
    exact h

theorem baseline_scan {s : CpuTrace} (h : s.Invariant) {inp : ScanInput} {pid : Pid}
    {base : Baseline} (hbase : s.baselinesAfter inp pid = some base) :
    0 < base.iteration ∧ base.iteration ≤ s.iteration ∧
      ((s.diag.scan w mode inp).1.prevSamples pid).utime +
        ((s.diag.scan w mode inp).1.prevSamples pid).stime = base.ticks := by
  rw [(PerfDiagnoser.scan_samples w mode s.diag inp).right.right]
  unfold baselinesAfter at hbase
  cases hrefreshed : s.diag.refreshed inp with
  | none =>
      rw [hrefreshed] at hbase
      exact h.baseline pid base hbase
  | some stored =>
      rcases stored with ⟨pid', sample⟩
      rw [hrefreshed] at hbase
      rcases PerfDiagnoser.refreshed_eq hrefreshed with ⟨htodo, hsample⟩
      cases hfields : statFields inp.statSecond with
      | unreadable =>
          -- the stored sample is written back
          rw [hfields] at hbase
          have hsame : sample = s.diag.prevSamples pid' := by
            simp only [refreshSample, hfields] at hsample
            injection hsample with hsample
            exact hsample.symm
          rw [hsame]
          dsimp only
          rw [Function.update_eq_self]
          exact h.baseline pid base hbase
      | outOfRange =>
          simp only [refreshSample, hfields] at hsample
          cases hsample
      | fields stream =>
          rw [hfields] at hbase
          dsimp only at hbase ⊢
          by_cases hpid : pid = pid'
          · rw [hpid, Function.update_self] at hbase
            rcases Option.map_eq_some_iff.mp hbase with ⟨ticks, hticks, heq⟩
            rcases refreshSample_of_ticks hticks (s.diag.prevSamples pid') with
              ⟨sample', hsample', hsum⟩
            rw [hsample] at hsample'
            injection hsample' with hsample'
            rw [← heq, hpid, Function.update_self, hsample']
            exact ⟨h.waiting htodo, le_refl _, hsum⟩
          · rw [Function.update_of_ne hpid] at hbase ⊢
            exact h.baseline pid base hbase

theorem todo_scan (d : PerfDiagnoser) (inp : ScanInput) (h : (d.scan w mode inp).1.todo ≠ []) :
    d.todo ≠ [] := by
  intro hnil
  apply h
  unfold PerfDiagnoser.scan
  rw [hnil]
  exact hnil

theorem invariant_step (s : CpuTrace) (op : PerfOp) (h : s.Invariant) (hsteady : s.Steady op) :
    (s.step w mode op).Invariant := by
  cases op with
  | beginLoop nowWall => exact invariant_beginLoop w mode h hsteady
  | scan inp =>
      rcases PerfDiagnoser.scan_samples w mode s.diag inp with ⟨hwall, hdelta, _⟩
      constructor
      · exact h.started
      · intro htodo
        exact h.waiting (todo_scan w mode s.diag inp htodo)
      · exact hwall.trans h.prevWall
      · exact h.origin
      · exact h.increasing
      · intro htwo
        exact hdelta.trans (h.deltaMs htwo)
      · intro pid base hbase
        exact baseline_scan w mode h hbase
  | reset => exact ⟨h.started, h.waiting, h.prevWall, h.origin, h.increasing, h.deltaMs, h.baseline⟩
  | output path st =>
      exact ⟨h.started, h.waiting, h.prevWall, h.origin, h.increasing, h.deltaMs, h.baseline⟩

end Steps

/-!
## When the spans agree
-/

theorem pctRecord_eq {s : CpuTrace} (h : s.Invariant) {inp : ScanInput} {r : PctRecord}
    (hr : s.pctRecord inp = some r) :
    0 < r.since ∧ r.since ≤ s.iteration ∧ r.iteration = s.iteration ∧
      r.wallSince = s.walls r.since ∧ r.wall = s.walls s.iteration ∧ r.hz = inp.hz ∧
      r.value = PerfDiagnoser.scaleHz inp.hz
        (((r.ticks - r.ticksSince).toNat : Rat) * 100 / (s.diag.deltaMs.toNat : Rat)) := by
  unfold pctRecord at hr
  split at hr
  · cases hr
  next procName cpuPct hsample =>
    dsimp only at hr
    split at hr
    next base ticks hbase hticks =>
      injection hr with hr
      rcases h.baseline _ base hbase with ⟨hfirst, hlast, hstored⟩
      rcases PerfDiagnoser.validSample_eq hsample with ⟨pct, hpct, hvalid, hvalue⟩
      rcases readProcCpuPct_of_nonneg hpct hvalid with ⟨ticks', hticks', heq⟩
      rw [hticks] at hticks'
      injection hticks' with hticks'
      rw [hstored, ← hticks'] at heq
      rw [← hr]
      refine ⟨hfirst, hlast, rfl, rfl, rfl, rfl, ?_⟩
      dsimp only
      rw [hvalue, heq]
    · cases hr

/-- Two spans give one percentage only if they are the same or nothing was used. -/
theorem percent_eq_iff {used span span' hz : Rat} (hspan : 0 < span) (hspan' : 0 < span')
    (hhz : 0 < hz) :
    used * 100 / span * 1000 / hz = 100 * 1000 / hz * used / span' <-> span = span' ∨ used = 0 := by
  have hne := ne_of_gt hspan
  have hne' := ne_of_gt hspan'
  have hhz' := ne_of_gt hhz
  constructor
  · intro h
    field_simp at h
    by_cases hused : used = 0
    · exact Or.inr hused
    · left
      have hcancel := mul_left_cancel₀ hused h
      linarith
  · rintro (h | h)
    · rw [h]
      field_simp
    · rw [h]
      simp

theorem value_eq_exact_iff {s : CpuTrace} (h : s.Invariant) {inp : ScanInput} (hhz : 0 < inp.hz)
    {r : PctRecord} (hr : s.pctRecord inp = some r) (hearlier : r.since < r.iteration)
    (hticks : r.ticksSince ≤ r.ticks) :
    r.value = r.exact <-> r.since + 1 = r.iteration ∨ r.ticksSince = r.ticks := by
  rcases pctRecord_eq h hr with ⟨hfirst, hlast, hiteration, hwallSince, hwall, hhz', hvalue⟩
  rw [hiteration] at hearlier
  have hdelta := h.deltaMs (by omega)
  have hbefore : s.walls (s.iteration - 1) < s.walls s.iteration :=
    h.increasing _ _ (by omega) (by omega) (le_refl _)
  have hsince : s.walls r.since < s.walls s.iteration :=
    h.increasing _ _ (le_of_lt hfirst) hearlier (le_refl _)
  have hspan : (s.diag.deltaMs.toNat : Rat) =
      ((s.walls s.iteration).toNat : Rat) - ((s.walls (s.iteration - 1)).toNat : Rat) := by
    rw [hdelta]
    exact toNat_sub_cast (UInt64.le_of_lt hbefore)
  have hbefore' : ((s.walls (s.iteration - 1)).toNat : Rat) < ((s.walls s.iteration).toNat : Rat) :=
    Nat.cast_lt.mpr (UInt64.lt_iff_toNat_lt.mp hbefore)
  have hsince' : ((s.walls r.since).toNat : Rat) < ((s.walls s.iteration).toNat : Rat) :=
    Nat.cast_lt.mpr (UInt64.lt_iff_toNat_lt.mp hsince)
  have hexact : r.value = r.exact <->
      s.walls (s.iteration - 1) = s.walls r.since ∨ r.ticksSince = r.ticks := by
    rw [hvalue, PerfDiagnoser.scaleHz, if_pos hhz, PctRecord.exact, hwall, hwallSince, hhz', hspan,
      toNat_sub_cast hticks, percent_eq_iff (by linarith) (by linarith) (by exact_mod_cast hhz)]
    apply or_congr
    · rw [sub_right_inj, Nat.cast_inj, UInt64.toNat_inj]
    · rw [sub_eq_zero, Nat.cast_inj, UInt64.toNat_inj]
      exact eq_comm
  rw [hexact, hiteration]
  apply or_congr_left
  constructor
  · intro heq
    by_contra hne
    -- the clock tells different iterations apart
    have hlt := h.increasing r.since (s.iteration - 1) (le_of_lt hfirst) (by omega) (by omega)
    rw [heq] at hlt
    exact absurd hlt (UInt64.lt_irrefl _)
  · intro heq
    rw [← heq, add_sub_cancel_right]

section Runs

variable (w : World) (mode : Handover)

theorem matchesSpan_step_iff (s : CpuTrace) (op : PerfOp) (h : s.Invariant)
    (hsteady : s.Steady op) (hmatches : s.MatchesSpan) :
    (s.step w mode op).MatchesSpan <-> s.SampleRecent op := by
  cases op with
  | beginLoop nowWall =>
      have hcomputed : (s.step w mode (.beginLoop nowWall)).computed = s.computed := by
        dsimp only [step]
        split
        · rfl
        · rfl
      refine ⟨fun _ => trivial, fun _ => ?_⟩
      unfold MatchesSpan
      rw [hcomputed]
      exact hmatches
  | scan inp =>
      constructor
      · intro hafter r hr hearlier hticks
        have hmem : r ∈ (s.step w mode (.scan inp)).computed :=
          List.mem_append_right _ (Option.mem_toList.mpr hr)
        exact (value_eq_exact_iff h hsteady.left hr hearlier hticks).mp
          (hafter r hmem hearlier hticks)
      · intro hrecent r hmem hearlier hticks
        rcases List.mem_append.mp hmem with hold | hnew
        · exact hmatches r hold hearlier hticks
        · have hr := Option.mem_toList.mp hnew
          exact (value_eq_exact_iff h hsteady.left hr hearlier hticks).mpr
            (hrecent r hr hearlier hticks)
  | reset => exact ⟨fun _ => trivial, fun _ => hmatches⟩
  | output path st => exact ⟨fun _ => trivial, fun _ => hmatches⟩

theorem invariant_fresh (settings : PerfSettings) (disk : Disk) :
    (fresh settings disk).Invariant := by
  refine ⟨le_refl _, fun htodo => absurd rfl htodo, rfl, rfl, ?_, ?_, ?_⟩
  · intro i j hi hij hj
    change j ≤ 0 at hj
    omega
  · intro htwo
    change 2 ≤ (0 : Int) at htwo
    omega
  · intro pid base hbase
    cases hbase

/-- With a steady clock and stat files that do not change between the two reads, all
percentages are those of the time between their samples exactly when every stored
sample that is used is from the iteration before or no CPU was used since. -/
theorem matchesSpan_iff_sampleRecent (settings : PerfSettings) (disk : Disk) (ops : List PerfOp)
    (hsteady : EachStep (step w mode) Steady (fresh settings disk) ops) :
    Throughout (step w mode) MatchesSpan (fresh settings disk) ops <->
      EachStep (step w mode) SampleRecent (fresh settings disk) ops := by
  apply throughout_iff_eachStep_of_env (invariant_step w mode) (matchesSpan_step_iff w mode)
    (invariant_fresh settings disk) _ hsteady
  intro r hr
  cases hr

end Runs

/-!
## A process that is looked up again after a pause
-/

/-- A `/proc` in which the process `a` has the pid 7 and has used some ticks. -/
def running (ticks : String) : ScanInput where
  proc := { names := some [['7']], comm := fun _ => some ['a'] }
  statFirst := some ("7 (a) S 1 1 1 0 0 0 0 0 0 0 ".toList ++ ticks.toList ++ " 0".toList)
  statSecond := some ("7 (a) S 1 1 1 0 0 0 0 0 0 0 ".toList ++ ticks.toList ++ " 0".toList)

def watched : PerfSettings where
  targetProcesses := [['a']]

def noFork : World where
  fork := fun _ => -1

def everyIteration : List PerfOp :=
  [.beginLoop 1000, .scan (running "3"), .beginLoop 6000, .scan (running "13"),
    .beginLoop 11000, .scan (running "23")]

theorem everyIteration_matches :
    Throughout (step noFork .transfer) MatchesSpan (fresh watched ∅) everyIteration :=
  (matchesSpan_iff_sampleRecent noFork .transfer watched ∅ everyIteration (by decide +kernel)).mpr
    (by decide +kernel)

def afterPause : List PerfOp :=
  [.beginLoop 1000, .scan (running "3"), .beginLoop 6000, .scan {},
    .beginLoop 11000, .scan (running "13")]

theorem afterPause_not_matches :
    EachStep (step noFork .transfer) Steady (fresh watched ∅) afterPause ∧
      ¬ Throughout (step noFork .transfer) MatchesSpan (fresh watched ∅) afterPause := by
  refine ⟨by decide +kernel, ?_⟩
  intro h
  have hlast := throughout_final h
  revert hlast
  unfold MatchesSpan
  decide +kernel

end CpuTrace

end Worker
end PerfMonitor
