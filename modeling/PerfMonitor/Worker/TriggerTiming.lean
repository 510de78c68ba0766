import Mathlib.Data.List.DropRight
import PerfMonitor.Worker.Debounce
import PerfMonitor.Worker.StatLine

/-!
# When a recording is attempted

The valid samples of one target, in the order of their scans, decide when
`worker_loop` attempts a recording of it: at the sample that completes a series of
samples above the threshold, and the series starts anew after an attempt.  Whether
the attempt succeeds does not matter, and neither do the samples of other targets.
This module writes down every valid sample with whether its scan called `fork`.  The
timers are multiples of five of the type `int`, and so they reach every duration up to
`2 ^ 31 - 3`; the two longer ones they pass by.
-/

namespace PerfMonitor
namespace Worker

open Foundation

/-- A valid sample, and whether its scan attempted to start a recording. -/
structure JudgedSample where
  procName : Str
  cpuPct : Rat
  attempted : Bool
deriving DecidableEq, Repr

structure PerfSampling where
  diag : PerfDiagnoser := {}
  judged : List JudgedSample := []

namespace PerfSampling

def step (w : World) (mode : Handover) (s : PerfSampling) : PerfOp -> PerfSampling
  | .beginLoop nowWall => { s with diag := s.diag.beginLoop w nowWall }
  | .scan inp =>
      let after := (s.diag.scan w mode inp).1
      { diag := after
        judged := s.judged ++
          ((s.diag.validSample inp).map (fun sample =>
            { procName := sample.1
              cpuPct := sample.2
              attempted := decide (s.diag.os.forks < after.os.forks) })).toList }
  | .reset => { s with diag := s.diag.reset }
  | .output path st => { s with diag := { s.diag with disk := s.diag.disk.insert path st } }

def fresh (settings : PerfSettings) (disk : Disk) : PerfSampling where
  diag := { settings := settings, disk := disk }

def judgedOf (s : PerfSampling) (procName : Str) : List JudgedSample :=
  s.judged.filter (fun x => decide (x.procName = procName))

def continues (settings : PerfSettings) (x : JudgedSample) : Bool :=
  decide ((settings.cpuThresholdPct : Rat) ≤ x.cpuPct) && !x.attempted

def streak (settings : PerfSettings) (earlier : List JudgedSample) : Nat :=
  (earlier.rtakeWhile (continues settings)).length

def samplesNeeded (settings : PerfSettings) : Int :=
  ⌈(settings.overflowDurationS : Rat) / 5⌉

structure FiresOnTime (settings : PerfSettings) (s : PerfSampling) : Prop where
  onTime : forall procName before x, before ++ [x] <+: s.judgedOf procName ->
    (x.attempted = true <->
      (settings.cpuThresholdPct : Rat) ≤ x.cpuPct ∧
        (streak settings before : Int) + 1 = samplesNeeded settings)
  /-- There are no attempts but those at valid samples. -/
  forks : s.diag.os.forks = s.judged.countP JudgedSample.attempted

/-!
## Series of samples
-/

section Series

variable (settings : PerfSettings)

theorem streak_concat (earlier : List JudgedSample) (x : JudgedSample) :
    streak settings (earlier ++ [x]) =
      if continues settings x then streak settings earlier + 1 else 0 := by
  unfold streak
  rw [List.rtakeWhile_concat]
  cases continues settings x with
  | true => exact List.length_append
  | false => rfl

theorem succ_eq_samplesNeeded_iff {n : Nat}
    (hrunning : 5 * (n : Int) < settings.overflowDurationS) :
    (n : Int) + 1 = samplesNeeded settings <-> settings.overflowDurationS ≤ 5 * (n : Int) + 5 := by
  have hbelow : (n : Rat) < (settings.overflowDurationS : Rat) / 5 := by
    rw [lt_div_iff₀ (by norm_num)]
    exact_mod_cast (by omega : (n : Int) * 5 < settings.overflowDurationS)
  unfold samplesNeeded
  rw [eq_comm, Int.ceil_eq_iff]
  constructor
  · rintro ⟨_, habove⟩
    rw [div_le_iff₀ (by norm_num)] at habove
    have hint : settings.overflowDurationS ≤ ((n : Int) + 1) * 5 := by exact_mod_cast habove
    omega
  · intro hdue
    constructor
    · push_cast
      linarith
    · rw [div_le_iff₀ (by norm_num)]
      exact_mod_cast (by omega : settings.overflowDurationS ≤ ((n : Int) + 1) * 5)

theorem bmod_timer {n : Nat} (hfits : settings.overflowDurationS ≤ 2 ^ 31 - 3)
    (hrunning : 5 * (n : Int) < settings.overflowDurationS) :
    Int.bmod (5 * (n : Int) + 5) (2 ^ 32) = 5 * (n : Int) + 5 := by
  apply Int.bmod_eq_of_le
  · omega
  · omega

end Series

/-!
## The series of each target
-/

structure Invariant (settings : PerfSettings) (s : PerfSampling) : Prop where
  settings_eq : s.diag.settings = settings
  timers : forall procName, s.diag.overflowTimers (PerfDiagnoser.tagOf procName) =
    5 * (streak settings (s.judgedOf procName) : Int)
  running : forall procName,
    5 * (streak settings (s.judgedOf procName) : Int) < settings.overflowDurationS
  onTime : FiresOnTime settings s

section Steps

variable (w : World) (mode : Handover) {settings : PerfSettings} {s : PerfSampling}

theorem invariant_of_same (h : s.Invariant settings) {diag : PerfDiagnoser}
    (hsettings : diag.settings = s.diag.settings)
    (htimers : diag.overflowTimers = s.diag.overflowTimers)
    (hforks : diag.os.forks = s.diag.os.forks) :
    Invariant settings { s with diag := diag } := by
  refine ⟨hsettings.trans h.settings_eq, ?_, h.running, ?_⟩
  · intro procName
    rw [htimers]
    exact h.timers procName
  · exact ⟨h.onTime.onTime, hforks.trans h.onTime.forks⟩

theorem judgedOf_concat (diag : PerfDiagnoser) (x : JudgedSample) (procName : Str) :
    judgedOf { s with diag := diag, judged := s.judged ++ [x] } procName =
      if x.procName = procName then s.judgedOf procName ++ [x] else s.judgedOf procName := by
  unfold judgedOf
  rw [List.filter_append]
  split
  next hname => simp [hname]
  next hname => simp [hname]

theorem due_iff (h : s.Invariant settings) (hpositive : 0 < settings.overflowDurationS)
    (hfits : settings.overflowDurationS ≤ 2 ^ 31 - 3) (procName : Str) (cpuPct : Rat) :
    s.diag.settings.overflowDurationS ≤
        s.diag.nextTimer (PerfDiagnoser.tagOf procName) cpuPct <->
      (settings.cpuThresholdPct : Rat) ≤ cpuPct ∧
        (streak settings (s.judgedOf procName) : Int) + 1 = samplesNeeded settings := by
  unfold PerfDiagnoser.nextTimer
  rw [h.settings_eq, h.timers procName, bmod_timer settings hfits (h.running procName),
    succ_eq_samplesNeeded_iff settings (h.running procName)]
  split
  next hhigh =>
    constructor
    · intro hdue
      exact ⟨hhigh, hdue⟩
    · intro hdue
      exact hdue.right
  next hlow =>
    constructor
    · intro hdue
      exact absurd hdue (Int.not_le.mpr hpositive)
    · intro hdue
      exact absurd hdue.left hlow

theorem step_scan_of_sample {inp : ScanInput} {procName : Str} {cpuPct : Rat}
    (hsome : s.diag.validSample inp = some (procName, cpuPct)) :
    s.step w mode (.scan inp) =
      { diag := (s.diag.scan w mode inp).1
        judged := s.judged ++
          [{ procName := procName
             cpuPct := cpuPct
             attempted := decide (s.diag.settings.overflowDurationS ≤
               s.diag.nextTimer (PerfDiagnoser.tagOf procName) cpuPct) }] } := by
  unfold step
  simp only [hsome, Option.map_some, Option.toList_some]
  rw [PerfDiagnoser.forks_scan_of_sample w mode s.diag inp hsome]
  split
  next hdue => simp only [hdue, Nat.lt_succ_self]
  next hdue => simp only [hdue, Nat.lt_irrefl]

theorem timerAfter_eq (h : s.Invariant settings) (hpositive : 0 < settings.overflowDurationS)
    (hfits : settings.overflowDurationS ≤ 2 ^ 31 - 3) {x : JudgedSample}
    (hattempted : x.attempted = decide (s.diag.settings.overflowDurationS ≤
      s.diag.nextTimer (PerfDiagnoser.tagOf x.procName) x.cpuPct)) :
    s.diag.timerAfter (PerfDiagnoser.tagOf x.procName) x.cpuPct =
        5 * (streak settings (s.judgedOf x.procName ++ [x]) : Int) ∧
      5 * (streak settings (s.judgedOf x.procName ++ [x]) : Int) < settings.overflowDurationS := by
  rw [streak_concat]
  unfold PerfDiagnoser.timerAfter continues
  rw [hattempted]
  by_cases hdue : s.diag.settings.overflowDurationS ≤
      s.diag.nextTimer (PerfDiagnoser.tagOf x.procName) x.cpuPct
  · rw [if_pos hdue, decide_eq_true hdue, Bool.not_true, Bool.and_false]
    exact ⟨rfl, hpositive⟩
  · rw [if_neg hdue, decide_eq_false hdue, Bool.not_false, Bool.and_true]
    have hbelow := Int.not_le.mp hdue
    revert hbelow
    unfold PerfDiagnoser.nextTimer
    rw [h.settings_eq, h.timers x.procName, bmod_timer settings hfits (h.running x.procName)]
    split
    next hhigh =>
      intro hbelow
      rw [decide_eq_true hhigh, if_pos rfl]
      omega
    next hlow =>
      intro _
      rw [decide_eq_false hlow]
      exact ⟨rfl, hpositive⟩

theorem firesOnTime_concat (h : FiresOnTime settings s) {diag : PerfDiagnoser} {x : JudgedSample}
    (hx : x.attempted = true <-> (settings.cpuThresholdPct : Rat) ≤ x.cpuPct ∧
      (streak settings (s.judgedOf x.procName) : Int) + 1 = samplesNeeded settings)
    (hforks : diag.os.forks = s.diag.os.forks + if x.attempted then 1 else 0) :
    FiresOnTime settings { diag := diag, judged := s.judged ++ [x] } := by
  constructor
  · intro procName before y hprefix
    change _ <+: judgedOf { s with diag := diag, judged := s.judged ++ [x] } procName at hprefix
    rw [judgedOf_concat] at hprefix
    split at hprefix
    next hname =>
      subst hname
      rcases List.prefix_concat_iff.mp hprefix with hlast | hearlier
      · rcases List.append_inj' hlast rfl with ⟨hbefore, hsample⟩
        injection hsample with hsample
        rw [hbefore, hsample]
        exact hx
      · exact h.onTime x.procName before y hearlier
    next => exact h.onTime procName before y hprefix
  · show diag.os.forks = (s.judged ++ [x]).countP JudgedSample.attempted
    rw [hforks, h.forks, List.countP_append, List.countP_singleton]

theorem invariant_scan (hpositive : 0 < settings.overflowDurationS)
    (hfits : settings.overflowDurationS ≤ 2 ^ 31 - 3) (h : s.Invariant settings)
    (inp : ScanInput) : (s.step w mode (.scan inp)).Invariant settings := by
  cases hsample : s.diag.validSample inp with
  | none =>
      have hjudged : s.step w mode (.scan inp) = { s with diag := (s.diag.scan w mode inp).1 } := by
        unfold step
        simp only [hsample, Option.map_none, Option.toList_none, List.append_nil]
      rcases PerfDiagnoser.scan_frame_of_noSample w mode s.diag inp hsample with
        ⟨hsettings, htimers, _⟩
      rw [hjudged]
      exact invariant_of_same h hsettings htimers
        (PerfDiagnoser.forks_scan_of_noSample w mode s.diag inp hsample)
  | some sample =>
      rcases sample with ⟨procName, cpuPct⟩
      rcases PerfDiagnoser.scan_frame_of_sample w mode s.diag inp hsample with
        ⟨_, _, _, hsettings, _, htimers, _⟩
      have hforks := PerfDiagnoser.forks_scan_of_sample w mode s.diag inp hsample
      have hdue := due_iff h hpositive hfits procName cpuPct
      rw [step_scan_of_sample w mode hsample]
      generalize hx : (JudgedSample.mk procName cpuPct _) = x
      have hname : x.procName = procName := by rw [← hx]
      have hpct : x.cpuPct = cpuPct := by rw [← hx]
      have hattempted : x.attempted = decide (s.diag.settings.overflowDurationS ≤
          s.diag.nextTimer (PerfDiagnoser.tagOf procName) cpuPct) := by rw [← hx]
      subst hname
      subst hpct
      rcases timerAfter_eq h hpositive hfits hattempted with ⟨htimer, hrunning⟩
      refine ⟨hsettings.trans h.settings_eq, ?_, ?_, ?_⟩
      · intro other
        show _ = 5 * (streak settings (judgedOf { s with
          diag := (s.diag.scan w mode inp).1, judged := s.judged ++ [x] } other) : Int)
        rw [htimers, judgedOf_concat]
        split
        next hsame =>
          rw [← hsame, Function.update_self]
          exact htimer
        next hother =>
          rw [Function.update_of_ne (fun htag =>
            hother (PerfDiagnoser.tagOf_injective htag).symm)]
          exact h.timers other
      · intro other
        show 5 * (streak settings (judgedOf { s with
          diag := (s.diag.scan w mode inp).1, judged := s.judged ++ [x] } other) : Int) < _
        rw [judgedOf_concat]
        split
        next hsame =>
          rw [← hsame]
          exact hrunning
        next => exact h.running other
      · apply firesOnTime_concat h.onTime
        · rw [hattempted, decide_eq_true_iff]
          exact hdue
        · rw [hforks, hattempted]
          split
          next hfires => rw [if_pos (decide_eq_true hfires)]
          next hfires => rw [if_neg (by simpa using hfires)]; rfl

theorem invariant_step (hpositive : 0 < settings.overflowDurationS)
    (hfits : settings.overflowDurationS ≤ 2 ^ 31 - 3) (s : PerfSampling) (op : PerfOp)
    (h : s.Invariant settings) : (s.step w mode op).Invariant settings := by
  cases op with
  | beginLoop nowWall =>
      have hframe := PerfDiagnoser.checkRunner_frame w s.diag
      apply invariant_of_same h
      · unfold PerfDiagnoser.beginLoop
        split
        · exact hframe.left
        · rfl
      · unfold PerfDiagnoser.beginLoop
        split
        · exact hframe.right.left
        · rfl
      · exact PerfDiagnoser.forks_beginLoop w s.diag nowWall
  | scan inp => exact invariant_scan w mode hpositive hfits h inp
  | reset => exact invariant_of_same h rfl rfl rfl
  | output path st => exact invariant_of_same h rfl rfl rfl

theorem invariant_fresh (hpositive : 0 < settings.overflowDurationS) (disk : Disk) :
    (fresh settings disk).Invariant settings := by
  refine ⟨rfl, fun _ => rfl, fun _ => hpositive, ?_, rfl⟩
  intro procName before x hprefix
  have hnil := List.prefix_nil.mp hprefix
  exact absurd hnil (by simp)

/-- In every run with a positive duration up to `2 ^ 31 - 3`, a recording of a target is
attempted exactly at the valid samples that complete a series. -/
theorem firesOnTime_of_positive (settings : PerfSettings) (disk : Disk) (ops : List PerfOp)
    (hpositive : 0 < settings.overflowDurationS)
    (hfits : settings.overflowDurationS ≤ 2 ^ 31 - 3) :
    Throughout (step w mode) (FiresOnTime settings) (fresh settings disk) ops := by
  apply throughout_mono (P := Invariant settings)
  · intro s h
    exact h.onTime
  · exact throughout_of_invariant (invariant_step w mode hpositive hfits)
      (invariant_fresh hpositive disk) ops

end Steps

/-!
## A process that stays busy while every fork fails
-/

def noForks : World where
  fork := fun _ => -1

def busyWithoutForks : List PerfOp :=
  [.beginLoop 1000, .scan (PerfTrace.presentWith "100"),
    .beginLoop 6000, .scan (PerfTrace.presentWith "600"),
    .beginLoop 11000, .scan (PerfTrace.presentWith "1100"),
    .beginLoop 16000, .scan (PerfTrace.presentWith "1600"),
    .beginLoop 21000, .scan (PerfTrace.presentWith "2100")]

theorem busyWithoutForks_firesOnTime :
    Throughout (step noForks .copy) (FiresOnTime PerfTrace.watchA) (fresh PerfTrace.watchA ∅)
        busyWithoutForks ∧
      (runFrom (step noForks .copy) (fresh PerfTrace.watchA ∅) busyWithoutForks).judged.map
        JudgedSample.attempted = [false, true, false, true] := by
  constructor
  · exact firesOnTime_of_positive noForks .copy PerfTrace.watchA ∅ busyWithoutForks (by decide)
      (by decide)
  · decide +kernel

/-!
## The longest duration

A process that does nothing is at a threshold of zero in every iteration.  With the
longest duration that an `int` can hold, the timer passes the largest multiple of five
below it, and wraps.
-/

def idleLine : StatLine where
  pid := 7
  comm := ['a']
  state := 'I'
  before := [1, 1, 1, 0, 0, 0, 0, 0, 0, 0]
  utime := 100
  stime := 0
  rest := []
  after := []
  commLine := by decide
  stateVisible := rfl
  stateOpen := by decide
  beforeLength := rfl
  ended := stopsAt_nil _

def idleScan : ScanInput where
  proc := { names := some [['7']], comm := fun _ => some ['a'] }
  statFirst := some idleLine.file
  statSecond := some idleLine.file

def idleSample : ProcSample :=
  { utime := 100, stime := 0, totalTime := 100 }

def idleFor : Nat -> List PerfOp
  | 0 => []
  | n + 1 => idleFor n ++ [.beginLoop (UInt64.ofNat (5000 * (n + 1))), .scan idleScan]

def watchLongest : PerfSettings where
  cpuThresholdPct := 0
  overflowDurationS := 2 ^ 31 - 1
  targetProcesses := [['a']]

def idleJudged : JudgedSample where
  procName := ['a']
  cpuPct := 0
  attempted := false

structure Idle (s : PerfSampling) (n : Nat) : Prop where
  settings : s.diag.settings = watchLongest
  triggeredTags : s.diag.triggeredTags = []
  alive : s.diag.alive = true
  todo : s.diag.todo = []
  stored : s.diag.prevSamples 7 = idleSample
  timer : s.diag.overflowTimers (PerfDiagnoser.tagOf ['a']) = Int.bmod (5 * n) (2 ^ 32)
  judged : s.judged = List.replicate n idleJudged

section Longest

variable {s : PerfSampling} {n : Nat}

theorem beginLoop_of_idle (h : s.Idle n) (nowWall : UInt64) :
    exists deltaMs, s.diag.beginLoop noForks nowWall =
      { s.diag with prevWall := nowWall, deltaMs := deltaMs, todo := [['a']] } := by
  have hcheck : s.diag.checkRunner noForks = s.diag := if_pos h.triggeredTags
  unfold PerfDiagnoser.beginLoop
  rw [if_pos ⟨h.alive, h.todo⟩, hcheck, h.settings]
  exact ⟨_, rfl⟩

theorem readProcCpuPct_idle (deltaMs : UInt64) :
    readProcCpuPct idleScan.statFirst idleSample deltaMs = some 0 := by
  refine (idleLine.readProcCpuPct_file idleSample deltaMs).trans ?_
  rw [if_neg (by decide)]
  show some (((0 : Nat) : Rat) * 100 / (deltaMs.toNat : Rat)) = some 0
  rw [Nat.cast_zero, zero_mul, zero_div]

theorem idle_early (hn : n < 429496730) :
    ¬ watchLongest.overflowDurationS ≤ Int.bmod (5 * ((n + 1 : Nat) : Int)) (2 ^ 32) := by
  show ¬ (2 ^ 31 - 1 : Int) ≤ _
  rcases Nat.lt_or_ge n 429496729 with hlt | hge
  · rw [Int.bmod_eq_of_le (by omega) (by omega)]
    omega
  · have hlast : n = 429496729 := Nat.le_antisymm (Nat.le_of_lt_succ hn) hge
    rw [hlast]
    decide

theorem idle_scan (h : s.Idle n) (hn : n < 429496730) {d : PerfDiagnoser}
    {deltaMs nowWall : UInt64}
    (hd : d = { s.diag with prevWall := nowWall, deltaMs := deltaMs, todo := [['a']] }) :
    Idle ({ s with diag := d }.step noForks .copy (.scan idleScan)) (n + 1) := by
  have hsettings : d.settings = watchLongest := by rw [hd]; exact h.settings
  have htags : d.triggeredTags = [] := by rw [hd]; exact h.triggeredTags
  have halive : d.alive = true := by rw [hd]; exact h.alive
  have htodo : d.todo = [['a']] := by rw [hd]
  have hstored : d.prevSamples 7 = idleSample := by rw [hd]; exact h.stored
  have hjudged : s.judged = List.replicate n idleJudged := h.judged
  have hpid : idleScan.proc.readPidByName ['a'] = 7 := by decide
  have hpct : readProcCpuPct idleScan.statFirst (d.prevSamples 7) d.deltaMs = some 0 := by
    rw [hstored]
    exact readProcCpuPct_idle d.deltaMs
  have hrefresh : refreshSample idleScan.statSecond (d.prevSamples 7) = some idleSample :=
    idleLine.refreshSample_file _
  have hscale : PerfDiagnoser.scaleHz idleScan.hz 0 = 0 := by decide +kernel
  have hnext : forall d' : PerfDiagnoser, d'.settings = watchLongest ->
      d'.overflowTimers = d.overflowTimers ->
      d'.nextTimer (PerfDiagnoser.tagOf ['a']) 0 =
        Int.bmod (5 * ((n + 1 : Nat) : Int)) (2 ^ 32) := by
    intro d' hsettings' htimers'
    have htimer : d.overflowTimers (PerfDiagnoser.tagOf ['a']) = Int.bmod (5 * n) (2 ^ 32) := by
      rw [hd]
      exact h.timer
    unfold PerfDiagnoser.nextTimer
    rw [hsettings', htimers', htimer, if_pos (by decide +kernel), Int.bmod_add_bmod]
    rfl
  have hsample : d.validSample idleScan = some (['a'], 0) := by
    unfold PerfDiagnoser.validSample
    simp only [htodo, hpid, halive, htags, hpct, hrefresh, hscale, List.not_mem_nil,
      not_false_eq_true, true_and, lt_irrefl, if_false]
    rfl
  have hscan : (d.scan noForks .copy idleScan).1 =
      { d with
        todo := []
        prevSamples := Function.update d.prevSamples 7 idleSample
        overflowTimers := Function.update d.overflowTimers (PerfDiagnoser.tagOf ['a'])
          (Int.bmod (5 * ((n + 1 : Nat) : Int)) (2 ^ 32)) } := by
    unfold PerfDiagnoser.scan PerfDiagnoser.scanTarget
    simp only [htodo, halive, if_true, htags, List.not_mem_nil, if_false, hpid, hpct, hrefresh,
      hscale, lt_irrefl]
    rw [if_neg (by decide)]
    unfold PerfDiagnoser.judge
    dsimp only
    have htimer := hnext
      { d with
        todo := []
        triggeredTags := []
        alive := true
        prevSamples := Function.update d.prevSamples 7 idleSample } hsettings rfl
    rw [htimer, if_neg]
    rw [hsettings]
    exact idle_early hn
  have hstep := step_scan_of_sample noForks .copy (s := { s with diag := d }) hsample
  rw [hstep]
  refine ⟨?_, ?_, ?_, ?_, ?_, ?_, ?_⟩
  · show (d.scan noForks .copy idleScan).1.settings = _
    rw [hscan]
    exact hsettings
  · show (d.scan noForks .copy idleScan).1.triggeredTags = _
    rw [hscan]
    exact htags
  · show (d.scan noForks .copy idleScan).1.alive = _
    rw [hscan]
    exact halive
  · show (d.scan noForks .copy idleScan).1.todo = _
    rw [hscan]
  · show (d.scan noForks .copy idleScan).1.prevSamples 7 = _
    rw [hscan]
    exact Function.update_self 7 idleSample d.prevSamples
  · show (d.scan noForks .copy idleScan).1.overflowTimers _ = _
    rw [hscan]
    simp only [Function.update_self]
  · have hattempted : decide (d.settings.overflowDurationS ≤
        d.nextTimer (PerfDiagnoser.tagOf ['a']) 0) = false := by
      rw [hnext d hsettings rfl, hsettings]
      exact decide_eq_false (idle_early hn)
    show s.judged ++ [_] = _
    rw [hjudged, List.replicate_succ', hattempted]
    rfl

theorem idle_first :
    Idle (runFrom (step noForks .copy) (fresh watchLongest ∅) (idleFor 1)) 0 := by
  constructor
  case settings => rfl
  case triggeredTags => rfl
  case alive => rfl
  case todo => rfl
  case stored => decide +kernel
  case timer => rfl
  case judged => rfl

theorem idle_run (n : Nat) (hn : n ≤ 429496730) :
    Idle (runFrom (step noForks .copy) (fresh watchLongest ∅) (idleFor (n + 1))) n := by
  induction n with
  | zero => exact idle_first
  | succ n ih =>
      have hbefore := ih (Nat.le_of_succ_le hn)
      show Idle (runFrom _ _ (idleFor (n + 1) ++ [_, _])) (n + 1)
      rw [runFrom_append]
      generalize runFrom (step noForks .copy) (fresh watchLongest ∅) (idleFor (n + 1)) = s
        at hbefore ⊢
      rcases beginLoop_of_idle hbefore (UInt64.ofNat (5000 * (n + 1 + 1))) with ⟨deltaMs, hbegin⟩
      exact idle_scan hbefore hn hbegin

theorem not_onTime_of_idle (h : s.Idle (n + 1))
    (hn : (n : Int) + 1 = samplesNeeded watchLongest) : ¬ FiresOnTime watchLongest s := by
  intro hfires
  have hcontinues : continues watchLongest idleJudged = true := by decide +kernel
  have hof : s.judgedOf ['a'] = List.replicate n idleJudged ++ [idleJudged] := by
    unfold judgedOf
    rw [h.judged, ← List.replicate_succ']
    exact List.filter_eq_self.mpr (fun x hx => by rw [List.eq_of_mem_replicate hx]; rfl)
  have hstreak : streak watchLongest (List.replicate n idleJudged) = n := by
    unfold streak
    rw [List.rtakeWhile_eq_self_iff.mpr]
    · exact List.length_replicate
    · intro x hx
      rw [List.eq_of_mem_replicate hx]
      exact hcontinues
  have hlast : List.replicate n idleJudged ++ [idleJudged] <+: s.judgedOf ['a'] :=
    hof ▸ List.prefix_rfl
  have hdue := (hfires.onTime ['a'] (List.replicate n idleJudged) idleJudged hlast).mpr
    ⟨by decide +kernel, by rw [hstreak]; exact hn⟩
  cases hdue

theorem samplesNeeded_longest : samplesNeeded watchLongest = 429496730 := by
  unfold samplesNeeded
  rw [Int.ceil_eq_iff]
  constructor
  · norm_num [watchLongest]
  · norm_num [watchLongest]

theorem not_throughout_idle {needed total : Nat} (htotal : total = needed + 1)
    (hneeded : (needed : Int) = samplesNeeded watchLongest) (hle : needed ≤ 429496730) :
    ¬ Throughout (step noForks .copy) (FiresOnTime watchLongest) (fresh watchLongest ∅)
      (idleFor total) := by
  intro hthroughout
  subst htotal
  cases needed with
  | zero =>
      rw [samplesNeeded_longest] at hneeded
      cases hneeded
  | succ n =>
      exact not_onTime_of_idle (idle_run (n + 1) hle) hneeded (throughout_final hthroughout)

/-- After some 68 years a recording is due, and none is attempted. -/
theorem idleFor_not_onTime :
    ¬ Throughout (step noForks .copy) (FiresOnTime watchLongest) (fresh watchLongest ∅)
      (idleFor 429496731) :=
  not_throughout_idle rfl samplesNeeded_longest.symm (Nat.le_refl _)

end Longest

end PerfSampling

end Worker
end PerfMonitor
