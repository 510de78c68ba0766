import Mathlib.Algebra.Order.Ring.Rat
import Mathlib.Logic.Function.Basic
import PerfMonitor.Foundation.Text
import PerfMonitor.Worker.BpfDiagnoser

/-!
# Perf diagnoser

`worker_loop` of `worker/src/diagnose/perf_diagnoser.cpp`, which watches the CPU
usage of the target processes and starts `perf record` for one that stays above
the threshold.  One iteration of the loop is a head, which looks after the running
recording, followed by one scan for each target; the targets still to be scanned
in the current iteration are part of the state.  Percentages are exact rationals.
An exception that leaves the loop ends the thread.
-/

namespace PerfMonitor
namespace Worker

open Foundation

structure PerfSettings where
  outputDir : Str := []
  perfBin : Str := []
  cpuThresholdPct : Int := 80
  overflowDurationS : Int := 10
  limitFileNum : Int := 3
  targetProcesses : List Str := []
deriving DecidableEq, Repr

structure ProcSample where
  utime : UInt64 := 0
  stime : UInt64 := 0
  totalTime : UInt64 := 0
deriving DecidableEq, Repr

structure PendingPerfEvent where
  pending : Bool := false
  type : Str := []
  processName : Str := []
  filePath : Str := []
  timestamp : Int := 0
  cpuPercent : Rat := 0
deriving DecidableEq, Repr

structure PerfDiagnoser where
  settings : PerfSettings := {}
  events : List CppDiagnoseEvent := []
  perfRunner : CmdRunner := {}
  pendingEv : PendingPerfEvent := {}
  triggeredTags : List Str := []
  overflowTimers : Str -> Int := fun _ => 0
  prevSamples : Pid -> ProcSample := fun _ => {}
  prevWall : UInt64 := 0
  deltaMs : UInt64 := 5000
  todo : List Str := []
  alive : Bool := true
  os : Os := {}
  disk : Disk := ∅

/-- What one scan meets: `/proc`, the two reads of the stat file of the target, and
`sysconf(_SC_CLK_TCK)`. -/
structure ScanInput where
  proc : ProcFs := {}
  statFirst : Option Str := none
  statSecond : Option Str := none
  hz : Int := 100

structure Recording where
  pid : Pid
  tag : Str
  processName : Str
  filePath : Str
  cpuPercent : Rat
  timestamp : Int
deriving DecidableEq, Repr

/-!
## The stat file
-/

/-- What is found in a stat file: nothing usable, a line that ends with the closing
parenthesis, for which `substr` throws, or the stream of the fields after it. -/
inductive StatFields where
  | unreadable
  | outOfRange
  | fields (stream : InputStream)
deriving DecidableEq, Repr

def statFields : Option Str -> StatFields
  | none => .unreadable
  | some content =>
      let line := firstLine content
      match rfind ')' line with
      | none => .unreadable
      | some p =>
          if p + 2 ≤ line.length then .fields { rest := line.drop (p + 2) } else .outOfRange

/-- `read_proc_cpu_pct`; `none` is the exception. -/
def readProcCpuPct (content : Option Str) (prev : ProcSample) (deltaMs : UInt64) : Option Rat :=
  match statFields content with
  | .unreadable => some (-1)
  | .outOfRange => none
  | .fields stream =>
      let stream := InputStream.skipWords 11 stream
      let (utime, stream) := stream.getUInt64 0
      let (stime, stream) := stream.getUInt64 0
      if stream.ok then
        let total := utime + stime
        let delta := total - (prev.utime + prev.stime)
        if prev.totalTime = 0 then some (-1)
        else some ((delta.toNat : Rat) * 100 / (deltaMs.toNat : Rat))
      else some (-1)

def refreshSample (content : Option Str) (prev : ProcSample) : Option ProcSample :=
  match statFields content with
  | .unreadable => some prev
  | .outOfRange => none
  | .fields stream =>
      let stream := InputStream.skipWords 11 stream
      let (utime, stream) := stream.getUInt64 prev.utime
      let (stime, _) := stream.getUInt64 prev.stime
      some { utime := utime, stime := stime, totalTime := utime + stime }

namespace PerfDiagnoser

/-!
## The loop
-/

def perfFiles : Str := "perf_".toList

def pendingEvent (ev : PendingPerfEvent) : CppDiagnoseEvent where
  type := ev.type
  processName := ev.processName
  filePath := ev.filePath
  timestamp := ev.timestamp
  cpuPercent := ev.cpuPercent

def settle (d : PerfDiagnoser) : PerfDiagnoser :=
  if d.pendingEv.pending then
    { d with
      events :=
        if d.disk.hasData d.pendingEv.filePath then d.events ++ [pendingEvent d.pendingEv]
        else d.events
      pendingEv := { d.pendingEv with pending := false }
      disk := d.disk.cleanupFiles d.settings.outputDir d.settings.limitFileNum perfFiles }
  else d

def checkRunner (w : World) (d : PerfDiagnoser) : PerfDiagnoser :=
  if d.triggeredTags = [] then d
  else
    let (running, runner, os) := d.perfRunner.isRunning w d.os
    let d := { d with perfRunner := runner, os := os }
    if running then d else { settle d with triggeredTags := [] }

def beginLoop (w : World) (d : PerfDiagnoser) (nowWall : UInt64) : PerfDiagnoser :=
  if d.alive ∧ d.todo = [] then
    { checkRunner w d with
      deltaMs := if 0 < d.prevWall then nowWall - d.prevWall else 5000
      prevWall := nowWall
      todo := d.settings.targetProcesses }
  else d

def perfArgs (pid : Pid) (out : Str) : List Str :=
  ["record".toList, "-g".toList, "-p".toList, BpfDiagnoser.decimal pid, "-o".toList, out,
    "--".toList, "sleep".toList, "5".toList]

def perfOut (outputDir procName : Str) (now : Int) : Str :=
  outputDir ++ "/perf_".toList ++ procName ++ ['_'] ++ BpfDiagnoser.decimal now ++ ".data".toList

section

variable (w : World) (mode : Handover)

def launchPerf (d : PerfDiagnoser) (tag procName : Str) (pid : Pid) (cpuPct : Rat) :
    PerfDiagnoser × Option Recording :=
  let (now, os) := d.os.time w
  let out := perfOut d.settings.outputDir procName now
  let (ok, runner, os, disk) := CmdRunner.start w {} os d.disk
    { bin := d.settings.perfBin, args := perfArgs pid out, outputFile := [] }
  let d := { d with overflowTimers := Function.update d.overflowTimers tag 0, disk := disk }
  if ok then
    let (timestamp, os) := os.time w
    ({ d with
        perfRunner := runner
        triggeredTags := d.triggeredTags.insert tag
        pendingEv :=
          { pending := true, type := "perf".toList, processName := procName, filePath := out,
            timestamp := timestamp, cpuPercent := cpuPct }
        os := CmdRunner.destroy w .launch os (mode.left runner) },
      some
        { pid := runner.pid, tag := tag, processName := procName, filePath := out,
          cpuPercent := cpuPct, timestamp := timestamp })
  else ({ d with os := CmdRunner.destroy w .launch os runner }, none)

/-- The timers are of the type `int`; past `2 ^ 31 - 1` the sum wraps. -/
def nextTimer (d : PerfDiagnoser) (tag : Str) (cpuPct : Rat) : Int :=
  if (d.settings.cpuThresholdPct : Rat) ≤ cpuPct then
    Int.bmod (d.overflowTimers tag + 5) (2 ^ 32)
  else 0

def judge (d : PerfDiagnoser) (tag procName : Str) (pid : Pid) (cpuPct : Rat) :
    PerfDiagnoser × Option Recording :=
  let timer := d.nextTimer tag cpuPct
  let d := { d with overflowTimers := Function.update d.overflowTimers tag timer }
  if d.settings.overflowDurationS ≤ timer then launchPerf w mode d tag procName pid cpuPct
  else (d, none)

def scaleHz (hz : Int) (cpuPct : Rat) : Rat :=
  if 0 < hz then cpuPct * 1000 / hz else cpuPct

def tagOf (procName : Str) : Str :=
  procName ++ "_proc".toList

def scanTarget (d : PerfDiagnoser) (inp : ScanInput) (procName : Str) :
    PerfDiagnoser × Option Recording :=
  let tag := tagOf procName
  if tag ∈ d.triggeredTags then (d, none)
  else
    let pid := inp.proc.readPidByName procName
    if pid = 0 then (d, none)
    else
      match readProcCpuPct inp.statFirst (d.prevSamples pid) d.deltaMs,
          refreshSample inp.statSecond (d.prevSamples pid) with
      | some cpuPct, some sample =>
          let d := { d with prevSamples := Function.update d.prevSamples pid sample }
          if cpuPct < 0 then (d, none)
          else judge w mode d tag procName pid (scaleHz inp.hz cpuPct)
      | _, _ => ({ d with alive := false }, none)

def scan (d : PerfDiagnoser) (inp : ScanInput) : PerfDiagnoser × Option Recording :=
  match d.todo with
  | [] => (d, none)
  | procName :: rest =>
      if d.alive then scanTarget w mode { d with todo := rest } inp procName else (d, none)

end

def reset (d : PerfDiagnoser) : PerfDiagnoser :=
  { d with events := [] }

/-!
## What one scan does
-/

def validSample (d : PerfDiagnoser) (inp : ScanInput) : Option (Str × Rat) :=
  match d.todo with
  | [] => none
  | procName :: _ =>
      let pid := inp.proc.readPidByName procName
      if d.alive = true ∧ tagOf procName ∉ d.triggeredTags ∧ pid ≠ 0 then
        match readProcCpuPct inp.statFirst (d.prevSamples pid) d.deltaMs,
            refreshSample inp.statSecond (d.prevSamples pid) with
        | some cpuPct, some _ =>
            if cpuPct < 0 then none else some (procName, scaleHz inp.hz cpuPct)
        | _, _ => none
      else none

/-- The scan starts a recording: its sample takes the timer of the target to the
configured duration, and `fork` succeeds. -/
def Records (w : World) (d : PerfDiagnoser) (inp : ScanInput) : Prop :=
  exists procName cpuPct, d.validSample inp = some (procName, cpuPct) ∧
    d.settings.overflowDurationS ≤ d.nextTimer (tagOf procName) cpuPct ∧ 0 < d.os.nextChild w

structure SameRecording (d d' : PerfDiagnoser) : Prop where
  perfRunner : d'.perfRunner = d.perfRunner
  pendingEv : d'.pendingEv = d.pendingEv
  triggeredTags : d'.triggeredTags = d.triggeredTags
  events : d'.events = d.events
  disk : d'.disk = d.disk
  children : d'.os.children = d.os.children

structure Started (w : World) (d d' : PerfDiagnoser) (r : Recording) : Prop where
  fresh : r.pid = d.os.nextChild w
  perfRunner : d'.perfRunner = { pid := r.pid }
  pendingEv : d'.pendingEv =
    { pending := true, type := "perf".toList, processName := r.processName,
      filePath := r.filePath, timestamp := r.timestamp, cpuPercent := r.cpuPercent }
  triggeredTags : d'.triggeredTags = d.triggeredTags.insert r.tag
  events : d'.events = d.events
  disk : d'.disk = d.disk
  children : d'.os.children = r.pid :: d.os.children

section Scan

variable (w : World)

theorem launchPerf_of_noChild (mode : Handover) (d : PerfDiagnoser) (tag procName : Str)
    (pid : Pid) (cpuPct : Rat) (hfork : d.os.nextChild w = -1) :
    (launchPerf w mode d tag procName pid cpuPct).2 = none ∧
      SameRecording d (launchPerf w mode d tag procName pid cpuPct).1 := by
  have hnext : (d.os.time w).2.nextChild w = -1 := hfork
  unfold launchPerf
  dsimp only
  rw [CmdRunner.start_of_noChild hnext]
  exact ⟨rfl, rfl, rfl, rfl, rfl, rfl, rfl⟩

theorem launchPerf_of_child (d : PerfDiagnoser) (tag procName : Str) (pid : Pid)
    (cpuPct : Rat) (hfork : 0 < d.os.nextChild w) :
    exists r, (launchPerf w .transfer d tag procName pid cpuPct).2 = some r ∧ r.tag = tag ∧
      Started w d (launchPerf w .transfer d tag procName pid cpuPct).1 r := by
  have hnext : 0 < (d.os.time w).2.nextChild w := hfork
  unfold launchPerf
  dsimp only
  rw [CmdRunner.start_of_child hnext]
  exact ⟨_, rfl, rfl, rfl, rfl, rfl, rfl, rfl, rfl, rfl⟩

/-- A scan without a valid sample takes its target off the list, if there is one and
the loop is alive; it may store a sample or end the thread, and does nothing else. -/
theorem scan_eq_of_noSample (mode : Handover) (d : PerfDiagnoser) (inp : ScanInput)
    (hnone : d.validSample inp = none) :
    exists samples alive, scan w mode d inp =
      ({ d with
          todo := if d.alive then d.todo.tail else d.todo
          prevSamples := samples
          alive := alive }, none) := by
  unfold validSample at hnone
  unfold scan scanTarget
  cases htodo : d.todo with
  | nil =>
      refine ⟨d.prevSamples, d.alive, ?_⟩
      simp only [List.tail_nil, ite_self]
      rw [← htodo]
  | cons procName rest =>
      simp only [htodo] at hnone
      cases halive : d.alive with
      | false =>
          refine ⟨d.prevSamples, false, ?_⟩
          simp only [Bool.false_eq_true, if_false]
          rw [← htodo, ← halive]
      | true =>
          simp only [if_true, List.tail_cons]
          split
          · exact ⟨d.prevSamples, true, by rw [← halive]⟩
          next htag =>
            split
            · exact ⟨d.prevSamples, true, by rw [← halive]⟩
            next hpid =>
              rw [if_pos ⟨halive, htag, hpid⟩] at hnone
              split
              next cpuPct sample hcpu hsample =>
                simp only [hcpu, hsample] at hnone
                split
                · exact ⟨_, true, by rw [← halive]⟩
                next hvalid =>
                  rw [if_neg hvalid] at hnone
                  cases hnone
              · exact ⟨d.prevSamples, false, rfl⟩

theorem scan_of_noSample (mode : Handover) (d : PerfDiagnoser) (inp : ScanInput)
    (hnone : d.validSample inp = none) :
    (scan w mode d inp).2 = none ∧ SameRecording d (scan w mode d inp).1 := by
  rcases scan_eq_of_noSample w mode d inp hnone with ⟨samples, alive, hscan⟩
  rw [hscan]
  exact ⟨rfl, rfl, rfl, rfl, rfl, rfl, rfl⟩

theorem scan_of_sample (mode : Handover) (d : PerfDiagnoser) (inp : ScanInput) {procName : Str}
    {cpuPct : Rat} (hsome : d.validSample inp = some (procName, cpuPct)) :
    exists rest samples, d.alive = true ∧ d.todo = procName :: rest ∧
      scan w mode d inp = judge w mode { d with todo := rest, prevSamples := samples }
        (tagOf procName) procName (inp.proc.readPidByName procName) cpuPct := by
  unfold validSample at hsome
  cases htodo : d.todo with
  | nil =>
      rw [htodo] at hsome
      cases hsome
  | cons procName' rest =>
      simp only [htodo] at hsome
      split at hsome
      · rename_i hready
        split at hsome
        · rename_i cpuPct' sample hcpu hsample
          split at hsome
          · cases hsome
          · rename_i hvalid
            injection hsome with hsome
            injection hsome with hname hpct
            subst hname
            subst hpct
            refine ⟨rest, Function.update d.prevSamples (inp.proc.readPidByName procName') sample,
              hready.left, rfl, ?_⟩
            unfold scan scanTarget
            simp only [htodo, if_pos hready.left, if_neg hready.right.left,
              if_neg hready.right.right, hcpu, hsample, if_neg hvalid]
        · cases hsome
      · cases hsome

theorem judge_of_noLaunch (mode : Handover) (d : PerfDiagnoser) (tag procName : Str) (pid : Pid)
    (cpuPct : Rat)
    (hno : ¬ (d.settings.overflowDurationS ≤ d.nextTimer tag cpuPct ∧ 0 < d.os.nextChild w)) :
    (judge w mode d tag procName pid cpuPct).2 = none ∧
      SameRecording d (judge w mode d tag procName pid cpuPct).1 := by
  unfold judge
  simp only
  split
  · rename_i hdue
    have hfork : d.os.nextChild w = -1 :=
      (Os.nextChild_cases w d.os).resolve_right (fun hpos => hno ⟨hdue, hpos⟩)
    have hquiet := launchPerf_of_noChild w mode
      { d with overflowTimers := Function.update d.overflowTimers tag (d.nextTimer tag cpuPct) }
      tag procName pid cpuPct hfork
    rcases hquiet.right with ⟨hrunner, hpending, htags, hevents, hdisk, hchildren⟩
    exact ⟨hquiet.left, hrunner, hpending, htags, hevents, hdisk, hchildren⟩
  · exact ⟨rfl, rfl, rfl, rfl, rfl, rfl, rfl⟩

theorem judge_of_launch (d : PerfDiagnoser) (tag procName : Str) (pid : Pid) (cpuPct : Rat)
    (hdue : d.settings.overflowDurationS ≤ d.nextTimer tag cpuPct)
    (hfork : 0 < d.os.nextChild w) :
    exists r, (judge w .transfer d tag procName pid cpuPct).2 = some r ∧ r.tag = tag ∧
      Started w d (judge w .transfer d tag procName pid cpuPct).1 r := by
  unfold judge
  simp only [if_pos hdue]
  rcases launchPerf_of_child w
    { d with overflowTimers := Function.update d.overflowTimers tag (d.nextTimer tag cpuPct) }
    tag procName pid cpuPct hfork with ⟨r, hr, htag, hstarted⟩
  rcases hstarted with ⟨hfresh, hrunner, hpending, htags, hevents, hdisk, hchildren⟩
  exact ⟨r, hr, htag, hfresh, hrunner, hpending, htags, hevents, hdisk, hchildren⟩

/-- Everything a scan can do under a plain transfer of the child. -/
theorem scan_cases (d : PerfDiagnoser) (inp : ScanInput) :
    ((scan w .transfer d inp).2 = none ∧ ¬ d.Records w inp ∧
        SameRecording d (scan w .transfer d inp).1) ∨
      exists r, (scan w .transfer d inp).2 = some r ∧ d.Records w inp ∧
        Started w d (scan w .transfer d inp).1 r := by
  cases hsample : d.validSample inp with
  | none =>
      left
      have hquiet := scan_of_noSample w .transfer d inp hsample
      refine ⟨hquiet.left, ?_, hquiet.right⟩
      rintro ⟨procName, cpuPct, hsome, _⟩
      rw [hsample] at hsome
      cases hsome
  | some sample =>
      rcases sample with ⟨procName, cpuPct⟩
      rcases scan_of_sample w .transfer d inp hsample with ⟨rest, samples, _, _, hscan⟩
      rw [hscan]
      by_cases hlaunch : d.settings.overflowDurationS ≤ d.nextTimer (tagOf procName) cpuPct ∧
          0 < d.os.nextChild w
      · right
        rcases judge_of_launch w { d with todo := rest, prevSamples := samples }
          (tagOf procName) procName (inp.proc.readPidByName procName) cpuPct hlaunch.left
          hlaunch.right with
          ⟨r, hr, _, hstarted⟩
        rcases hstarted with ⟨hfresh, hrunner, hpending, htags, hevents, hdisk, hchildren⟩
        exact ⟨r, hr, ⟨procName, cpuPct, hsample, hlaunch⟩, hfresh, hrunner, hpending, htags,
          hevents, hdisk, hchildren⟩
      · left
        have hquiet := judge_of_noLaunch w .transfer
          { d with todo := rest, prevSamples := samples } (tagOf procName) procName
          (inp.proc.readPidByName procName) cpuPct hlaunch
        rcases hquiet.right with ⟨hrunner, hpending, htags, hevents, hdisk, hchildren⟩
        refine ⟨hquiet.left, ?_, hrunner, hpending, htags, hevents, hdisk, hchildren⟩
        rintro ⟨procName', cpuPct', hsome, hrecords⟩
        rw [hsample] at hsome
        injection hsome with hsome
        injection hsome with hname hpct
        subst hname
        subst hpct
        exact hlaunch hrecords

end Scan

/-!
## Timers and targets
-/

structure SamePlace (d d' : PerfDiagnoser) : Prop where
  settings : d'.settings = d.settings
  todo : d'.todo = d.todo
  alive : d'.alive = d.alive
  prevSamples : d'.prevSamples = d.prevSamples
  prevWall : d'.prevWall = d.prevWall
  deltaMs : d'.deltaMs = d.deltaMs

section Timers

variable (w : World) (mode : Handover)

theorem launchPerf_frame (d : PerfDiagnoser) (tag procName : Str) (pid : Pid) (cpuPct : Rat) :
    SamePlace d (launchPerf w mode d tag procName pid cpuPct).1 ∧
      (launchPerf w mode d tag procName pid cpuPct).1.overflowTimers =
        Function.update d.overflowTimers tag 0 ∧
      forall r, (launchPerf w mode d tag procName pid cpuPct).2 = some r ->
        r.processName = procName := by
  unfold launchPerf
  dsimp only
  split
  · refine ⟨⟨rfl, rfl, rfl, rfl, rfl, rfl⟩, rfl, ?_⟩
    intro r hr
    injection hr with hr
    rw [← hr]
  · refine ⟨⟨rfl, rfl, rfl, rfl, rfl, rfl⟩, rfl, ?_⟩
    intro r hr
    cases hr

theorem forks_launchPerf (d : PerfDiagnoser) (tag procName : Str) (pid : Pid) (cpuPct : Rat) :
    (launchPerf w mode d tag procName pid cpuPct).1.os.forks = d.os.forks + 1 := by
  unfold launchPerf
  dsimp only
  split
  · rw [CmdRunner.forks_destroy]
    exact CmdRunner.forks_start w {} (d.os.time w).2 d.disk _
  · rw [CmdRunner.forks_destroy]
    exact CmdRunner.forks_start w {} (d.os.time w).2 d.disk _

def timerAfter (d : PerfDiagnoser) (tag : Str) (cpuPct : Rat) : Int :=
  if d.settings.overflowDurationS ≤ d.nextTimer tag cpuPct then 0 else d.nextTimer tag cpuPct

theorem judge_frame (d : PerfDiagnoser) (tag procName : Str) (pid : Pid) (cpuPct : Rat) :
    SamePlace d (judge w mode d tag procName pid cpuPct).1 ∧
      (judge w mode d tag procName pid cpuPct).1.overflowTimers =
        Function.update d.overflowTimers tag (d.timerAfter tag cpuPct) ∧
      forall r, (judge w mode d tag procName pid cpuPct).2 = some r ->
        r.processName = procName ∧ d.settings.overflowDurationS ≤ d.nextTimer tag cpuPct := by
  unfold judge timerAfter
  dsimp only
  split
  next hdue =>
    rcases launchPerf_frame w mode
      { d with overflowTimers := Function.update d.overflowTimers tag (d.nextTimer tag cpuPct) }
      tag procName pid cpuPct with
      ⟨⟨hsettings, htodo, halive, hsamples, hwall, hdelta⟩, htimers, hname⟩
    refine ⟨⟨hsettings, htodo, halive, hsamples, hwall, hdelta⟩, ?_, ?_⟩
    · rw [htimers, Function.update_idem]
    · intro r hr
      exact ⟨hname r hr, hdue⟩
  next =>
    refine ⟨⟨rfl, rfl, rfl, rfl, rfl, rfl⟩, rfl, ?_⟩
    intro r hr
    cases hr

theorem forks_judge (d : PerfDiagnoser) (tag procName : Str) (pid : Pid) (cpuPct : Rat) :
    (judge w mode d tag procName pid cpuPct).1.os.forks =
      if d.settings.overflowDurationS ≤ d.nextTimer tag cpuPct then d.os.forks + 1
      else d.os.forks := by
  unfold judge
  dsimp only
  split
  · exact forks_launchPerf w mode _ tag procName pid cpuPct
  · rfl

theorem scan_frame_of_noSample (d : PerfDiagnoser) (inp : ScanInput)
    (hnone : d.validSample inp = none) :
    (scan w mode d inp).1.settings = d.settings ∧
      (scan w mode d inp).1.overflowTimers = d.overflowTimers ∧
      (scan w mode d inp).1.todo = if d.alive then d.todo.tail else d.todo := by
  rcases scan_eq_of_noSample w mode d inp hnone with ⟨samples, alive, hscan⟩
  rw [hscan]
  exact ⟨rfl, rfl, rfl⟩

theorem scan_frame_of_sample (d : PerfDiagnoser) (inp : ScanInput) {procName : Str}
    {cpuPct : Rat} (hsome : d.validSample inp = some (procName, cpuPct)) :
    exists rest, d.alive = true ∧ d.todo = procName :: rest ∧
      (scan w mode d inp).1.settings = d.settings ∧ (scan w mode d inp).1.todo = rest ∧
      (scan w mode d inp).1.overflowTimers =
        Function.update d.overflowTimers (tagOf procName)
          (d.timerAfter (tagOf procName) cpuPct) ∧
      forall r, (scan w mode d inp).2 = some r -> r.processName = procName ∧
        d.settings.overflowDurationS ≤ d.nextTimer (tagOf procName) cpuPct := by
  rcases scan_of_sample w mode d inp hsome with ⟨rest, samples, halive, htodo, hscan⟩
  rcases judge_frame w mode { d with todo := rest, prevSamples := samples } (tagOf procName)
    procName (inp.proc.readPidByName procName) cpuPct with ⟨hplace, htimers, hlaunch⟩
  rw [hscan]
  exact ⟨rest, halive, htodo, hplace.settings, hplace.todo, htimers, hlaunch⟩

theorem forks_scan_of_noSample (d : PerfDiagnoser) (inp : ScanInput)
    (hnone : d.validSample inp = none) : (scan w mode d inp).1.os.forks = d.os.forks := by
  rcases scan_eq_of_noSample w mode d inp hnone with ⟨samples, alive, hscan⟩
  rw [hscan]

theorem forks_scan_of_sample (d : PerfDiagnoser) (inp : ScanInput) {procName : Str}
    {cpuPct : Rat} (hsome : d.validSample inp = some (procName, cpuPct)) :
    (scan w mode d inp).1.os.forks =
      if d.settings.overflowDurationS ≤ d.nextTimer (tagOf procName) cpuPct then d.os.forks + 1
      else d.os.forks := by
  rcases scan_of_sample w mode d inp hsome with ⟨rest, samples, _, _, hscan⟩
  rw [hscan]
  exact forks_judge w mode { d with todo := rest, prevSamples := samples } (tagOf procName)
    procName (inp.proc.readPidByName procName) cpuPct

def refreshed (d : PerfDiagnoser) (inp : ScanInput) : Option (Pid × ProcSample) :=
  match d.todo with
  | [] => none
  | procName :: _ =>
      let pid := inp.proc.readPidByName procName
      if d.alive = true ∧ tagOf procName ∉ d.triggeredTags ∧ pid ≠ 0 then
        match readProcCpuPct inp.statFirst (d.prevSamples pid) d.deltaMs,
            refreshSample inp.statSecond (d.prevSamples pid) with
        | some _, some sample => some (pid, sample)
        | _, _ => none
      else none

theorem scan_samples (d : PerfDiagnoser) (inp : ScanInput) :
    (scan w mode d inp).1.prevWall = d.prevWall ∧ (scan w mode d inp).1.deltaMs = d.deltaMs ∧
      (scan w mode d inp).1.prevSamples =
        match d.refreshed inp with
        | none => d.prevSamples
        | some (pid, sample) => Function.update d.prevSamples pid sample := by
  unfold refreshed scan scanTarget
  cases htodo : d.todo with
  | nil => exact ⟨rfl, rfl, rfl⟩
  | cons procName rest =>
      by_cases halive : d.alive = true
      · simp only [if_pos halive]
        by_cases htag : tagOf procName ∈ d.triggeredTags
        · rw [if_pos htag, if_neg (fun hready => hready.right.left htag)]
          exact ⟨rfl, rfl, rfl⟩
        · rw [if_neg htag]
          by_cases hpid : inp.proc.readPidByName procName = 0
          · rw [if_pos hpid, if_neg (fun hready => hready.right.right hpid)]
            exact ⟨rfl, rfl, rfl⟩
          · rw [if_neg hpid, if_pos ⟨halive, htag, hpid⟩]
            cases readProcCpuPct inp.statFirst (d.prevSamples (inp.proc.readPidByName procName))
                d.deltaMs with
            | none => exact ⟨rfl, rfl, rfl⟩
            | some cpuPct =>
                cases refreshSample inp.statSecond
                    (d.prevSamples (inp.proc.readPidByName procName)) with
                | none => exact ⟨rfl, rfl, rfl⟩
                | some sample =>
                    dsimp only
                    split
                    · exact ⟨rfl, rfl, rfl⟩
                    · rcases judge_frame w mode
                        { d with
                          todo := rest
                          prevSamples :=
                            Function.update d.prevSamples (inp.proc.readPidByName procName) sample }
                        (tagOf procName) procName (inp.proc.readPidByName procName)
                        (scaleHz inp.hz cpuPct) with ⟨hplace, _⟩
                      exact ⟨hplace.prevWall, hplace.deltaMs, hplace.prevSamples⟩
      · dsimp only
        rw [if_neg halive, if_neg (fun hready => halive hready.left)]
        exact ⟨rfl, rfl, rfl⟩

theorem checkRunner_frame (d : PerfDiagnoser) :
    (checkRunner w d).settings = d.settings ∧
      (checkRunner w d).overflowTimers = d.overflowTimers ∧
      (checkRunner w d).prevSamples = d.prevSamples := by
  unfold checkRunner settle
  split
  · exact ⟨rfl, rfl, rfl⟩
  · dsimp only
    split
    · exact ⟨rfl, rfl, rfl⟩
    · split
      · exact ⟨rfl, rfl, rfl⟩
      · exact ⟨rfl, rfl, rfl⟩

theorem forks_beginLoop (d : PerfDiagnoser) (nowWall : UInt64) :
    (beginLoop w d nowWall).os.forks = d.os.forks := by
  have hrunning := CmdRunner.forks_isRunning w d.perfRunner d.os
  unfold beginLoop checkRunner settle
  split
  · split
    · rfl
    · dsimp only
      split
      · exact hrunning
      · split
        · exact hrunning
        · exact hrunning
  · rfl

theorem validSample_eq {d : PerfDiagnoser} {inp : ScanInput} {procName : Str} {cpuPct : Rat}
    (h : d.validSample inp = some (procName, cpuPct)) :
    exists pct, readProcCpuPct inp.statFirst (d.prevSamples (inp.proc.readPidByName procName))
        d.deltaMs = some pct ∧ ¬ pct < 0 ∧ cpuPct = scaleHz inp.hz pct := by
  unfold validSample at h
  split at h
  · cases h
  · dsimp only at h
    split at h
    · split at h
      next pct _ hpct _ =>
        split at h
        · cases h
        next hvalid =>
          injection h with h
          injection h with hname hvalue
          subst hname
          exact ⟨pct, hpct, hvalid, hvalue.symm⟩
      · cases h
    · cases h

theorem refreshed_eq {d : PerfDiagnoser} {inp : ScanInput} {pid : Pid} {sample : ProcSample}
    (h : d.refreshed inp = some (pid, sample)) :
    d.todo ≠ [] ∧ refreshSample inp.statSecond (d.prevSamples pid) = some sample := by
  unfold refreshed at h
  split at h
  · cases h
  next htodo =>
    dsimp only at h
    split at h
    · split at h
      next hsample =>
        injection h with h
        injection h with hpid hstored
        subst hpid
        subst hstored
        refine ⟨?_, hsample⟩
        rw [htodo]
        exact List.cons_ne_nil _ _
      · cases h
    · cases h

theorem tagOf_injective : Function.Injective tagOf := by
  intro first second h
  exact List.append_cancel_right h

end Timers

end PerfDiagnoser

end Worker
end PerfMonitor
