import PerfMonitor.Foundation.Run
import PerfMonitor.Worker.CmdRunner

/-!
# BPF diagnoser

`BpfDiagnoser` of `worker/src/diagnose/bpf_diagnoser.cpp`: it launches the offcpu
and profile tools as subprocesses, reaps those that have finished, reports their
output files and rotates old ones, and launches the whole set again when no tool
is left.  `runners_` is a `std::vector` whose elements are moved when it grows and
when an element is erased; every object that holds a runner stops it when it is
destroyed, so the model follows each of these moves.
-/

namespace PerfMonitor
namespace Worker

open Foundation

structure CppDiagnoseEvent where
  type : Str := []
  processName : Str := []
  threadName : Str := []
  filePath : Str := []
  timestamp : Int := 0
  cpuPercent : Rat := 0
deriving DecidableEq, Repr

structure OffcpuConfig where
  process : Str := []
  thread : Str := []
  minBlockUs : Int := 0
  maxBlockUs : Int := 0
  intervalS : Int := 0
deriving DecidableEq, Repr

structure ProfileConfig where
  process : Str := []
  thread : Str := []
  maxNr : Int := 0
  maxSizeKb : Int := 0
  cpus : Str := []
deriving DecidableEq, Repr

inductive ToolKind where
  | offcpu
  | profile
deriving DecidableEq, Repr

/-- The `type` of an event, which is also the prefix of its file name. -/
def ToolKind.type : ToolKind -> Str
  | .offcpu => "offcpu".toList
  | .profile => "profile".toList

/-- The public settings, assigned before `Init`. -/
structure BpfSettings where
  outputDir : Str := []
  offcpuBin : Str := []
  profileBin : Str := []
  limitFileNum : Int := 3
  limitFileSizeMb : Int := 50
deriving DecidableEq, Repr

def BpfSettings.bin (settings : BpfSettings) : ToolKind -> Str
  | .offcpu => settings.offcpuBin
  | .profile => settings.profileBin

structure RunnerEntry where
  runner : CmdRunner := {}
  pendingEv : CppDiagnoseEvent := {}
deriving DecidableEq, Repr

/-- The diagnoser with the system and the disk it acts on.  `capacity` is that of
the vector `runners_`. -/
structure BpfDiagnoser where
  settings : BpfSettings := {}
  events : List CppDiagnoseEvent := []
  runners : List RunnerEntry := []
  capacity : Nat := 0
  offcpuConfigs : List OffcpuConfig := []
  profileConfigs : List ProfileConfig := []
  os : Os := {}
  disk : Disk := ∅

namespace BpfDiagnoser

/-- `std::to_string`. -/
def decimal (n : Int) : Str :=
  (toString n).toList

def makeTag (process thread : Str) : Str :=
  process ++ (if thread = [] then [] else '_' :: thread)

def outFile (outputDir : Str) (kind : ToolKind) (process thread : Str) (now : Int) : Str :=
  outputDir ++ ['/'] ++ kind.type ++ ['_'] ++ makeTag process thread ++ ['_'] ++ decimal now ++
    ".data".toList

def pidArgs (proc : ProcFs) (process : Str) : List Str :=
  if process = [] then []
  else
    let pid := proc.readPidByName process
    if pid > 0 then ["-p".toList, decimal pid] else []

def tidArgs (proc : ProcFs) (process thread : Str) : List Str :=
  if thread = [] ∨ process = [] then []
  else
    let tid := proc.readTidByName process thread
    if tid > 0 then ["-t".toList, decimal tid] else []

section

variable (w : World) (mode : Handover)

/-- `runners_.push_back(std::move(entry))`.  A full vector moves its elements to
new storage and destroys the old ones. -/
def pushBack (s : BpfDiagnoser) (entry : RunnerEntry) : BpfDiagnoser :=
  if s.runners.length < s.capacity then { s with runners := s.runners ++ [entry] }
  else
    { s with
      runners := s.runners ++ [entry]
      capacity := s.runners.length + max s.runners.length 1
      os := (s.runners.map (fun e => mode.left e.runner)).foldl (CmdRunner.destroy w .growth)
        s.os }

/-- The common body of `launch_offcpu` and `launch_profile`; `options` are the
arguments before `-p` and `-t`, given the output file. -/
def launchTool (s : BpfDiagnoser) (kind : ToolKind) (process thread : Str)
    (options : Str -> List Str) : BpfDiagnoser :=
  let proc := w.proc s.os.forks
  let (now, os) := s.os.time w
  let out := outFile s.settings.outputDir kind process thread now
  let args := options out ++ pidArgs proc process ++ tidArgs proc process thread
  let (ok, runner, os, disk) := CmdRunner.start w {} os s.disk
    { bin := s.settings.bin kind, args := args, outputFile := out }
  if ok then
    let (timestamp, os) := os.time w
    -- entry.runner = std::move(runner)
    let entry : RunnerEntry :=
      { runner := runner
        pendingEv :=
          { type := kind.type, processName := process, threadName := thread,
            filePath := out, timestamp := timestamp } }
    let runner := mode.left runner
    let s := pushBack w mode { s with os := os, disk := disk } entry
    -- the locals entry and runner go out of scope
    let os := CmdRunner.destroy w .launch s.os (mode.left entry.runner)
    { s with os := CmdRunner.destroy w .launch os runner }
  else { s with os := CmdRunner.destroy w .launch os runner, disk := disk }

def launchOffcpu (s : BpfDiagnoser) (cfg : OffcpuConfig) : BpfDiagnoser :=
  launchTool w mode s .offcpu cfg.process cfg.thread (fun out =>
    ["-m".toList, decimal cfg.minBlockUs, "-M".toList, decimal cfg.maxBlockUs,
      "-o".toList, out, "-i".toList, decimal cfg.intervalS,
      "-S".toList, decimal s.settings.limitFileSizeMb])

def launchProfile (s : BpfDiagnoser) (cfg : ProfileConfig) : BpfDiagnoser :=
  launchTool w mode s .profile cfg.process cfg.thread (fun out =>
    ["-N".toList, decimal cfg.maxNr, "-M".toList, decimal cfg.maxSizeKb,
      "-C".toList, cfg.cpus, "-o".toList, out])

def startOffcpu (s : BpfDiagnoser) (cfg : OffcpuConfig) : BpfDiagnoser :=
  launchOffcpu w mode { s with offcpuConfigs := s.offcpuConfigs ++ [cfg] } cfg

def startProfile (s : BpfDiagnoser) (cfg : ProfileConfig) : BpfDiagnoser :=
  launchProfile w mode { s with profileConfigs := s.profileConfigs ++ [cfg] } cfg

/-- The report of a finished tool: only if its file has data, and then old files of
its type are rotated. -/
def report (s : BpfDiagnoser) (ev : CppDiagnoseEvent) : BpfDiagnoser :=
  if s.disk.hasData ev.filePath then
    { s with
      events := s.events ++ [ev]
      disk := s.disk.cleanupFiles s.settings.outputDir s.settings.limitFileNum ev.type }
  else s

/-- The runner destroyed by `runners_.erase(it)`: the later elements are assigned
one place down and the last element goes. -/
def erased (runner : CmdRunner) (rest : List RunnerEntry) : CmdRunner :=
  match rest.getLast? with
  | none => runner
  | some last => mode.left last.runner

/-- The loop of `Collect` over `runners_`, with the entries it has stepped over and
those it has still to visit. -/
def reap (s : BpfDiagnoser) (kept : List RunnerEntry) : List RunnerEntry -> BpfDiagnoser
  | [] => { s with runners := kept }
  | e :: rest =>
      let (running, runner, os) := e.runner.isRunning w s.os
      if running then reap { s with os := os } (kept ++ [{ e with runner := runner }]) rest
      else
        let s := report { s with os := os } e.pendingEv
        reap { s with os := CmdRunner.destroy w .erase s.os (erased mode runner rest) } kept rest

/-- The second half of `Collect`: launch every tool of the configuration again. -/
def relaunch (s : BpfDiagnoser) : BpfDiagnoser :=
  if s.runners = [] ∧ (s.offcpuConfigs ≠ [] ∨ s.profileConfigs ≠ []) then
    s.profileConfigs.foldl (launchProfile w mode) (s.offcpuConfigs.foldl (launchOffcpu w mode) s)
  else s

def collect (s : BpfDiagnoser) : BpfDiagnoser :=
  relaunch w mode (reap w mode s [] s.runners)

def reset (s : BpfDiagnoser) : BpfDiagnoser :=
  { s with events := [] }

def stopRunners (cause : StopCause) (s : BpfDiagnoser) : BpfDiagnoser :=
  { s with
    runners := []
    os := (s.runners.map RunnerEntry.runner).foldl (CmdRunner.destroy w cause) s.os }

def stopAll (s : BpfDiagnoser) : BpfDiagnoser :=
  stopRunners w .stopAll s

/-- The implicit destructor of `BpfDiagnoser`. -/
def destruct (s : BpfDiagnoser) : BpfDiagnoser :=
  stopRunners w .destruction s

end

end BpfDiagnoser

/-- A call of a member function, or a write of a tool to its output file. -/
inductive DiagnoserOp where
  | startOffcpu (cfg : OffcpuConfig)
  | startProfile (cfg : ProfileConfig)
  | collect
  | reset
  | write (path : Str) (st : FileStat)
deriving DecidableEq, Repr

namespace BpfDiagnoser

def step (w : World) (mode : Handover) (s : BpfDiagnoser) : DiagnoserOp -> BpfDiagnoser
  | .startOffcpu cfg => s.startOffcpu w mode cfg
  | .startProfile cfg => s.startProfile w mode cfg
  | .collect => s.collect w mode
  | .reset => s.reset
  | .write path st => { s with disk := s.disk.write path st }

def fresh (settings : BpfSettings) (disk : Disk) : BpfDiagnoser :=
  { settings := settings, disk := disk }

/-!
## Names of output files
-/

/-- No name starts with the types of both kinds. -/
theorem kind_eq_of_append_eq {kind kind' : ToolKind} {rest rest' : Str}
    (h : kind.type ++ rest = kind'.type ++ rest') : kind = kind' := by
  cases kind with
  | offcpu =>
      cases kind' with
      | offcpu => rfl
      | profile =>
          have hhead : ("offcpu".toList ++ rest).head? = ("profile".toList ++ rest').head? :=
            congrArg List.head? h
          simp at hhead
  | profile =>
      cases kind' with
      | offcpu =>
          have hhead : ("profile".toList ++ rest).head? = ("offcpu".toList ++ rest').head? :=
            congrArg List.head? h
          simp at hhead
      | profile => rfl

theorem kind_eq_of_type_eq {kind kind' : ToolKind} (h : kind.type = kind'.type) :
    kind = kind' := by
  have happend : kind.type ++ [] = kind'.type ++ [] := by rw [h]
  exact kind_eq_of_append_eq happend

theorem kind_eq_of_isMatch {dir path : Str} {kind kind' : ToolKind}
    (h : Disk.isMatch dir kind.type path = true) (h' : Disk.isMatch dir kind'.type path = true) :
    kind = kind' := by
  rcases Disk.prefix_of_isMatch h with ⟨rest, hrest⟩
  rcases Disk.prefix_of_isMatch h' with ⟨rest', hrest'⟩
  rw [hrest] at hrest'
  have hname := List.append_cancel_left hrest'
  injection hname with _ hname
  exact kind_eq_of_append_eq hname

structure Launched (dir : Str) (kind : ToolKind) (ev : CppDiagnoseEvent) : Prop where
  type : ev.type = kind.type
  named : exists rest, ev.filePath = dir ++ '/' :: (kind.type ++ rest)

theorem Launched.kind_eq_of_isMatch {dir : Str} {kind kind' : ToolKind}
    {ev : CppDiagnoseEvent} (h : Launched dir kind ev)
    (hmatch : Disk.isMatch dir kind'.type ev.filePath = true) : kind' = kind := by
  rcases h.named with ⟨rest, hrest⟩
  rcases Disk.prefix_of_isMatch hmatch with ⟨rest', hrest'⟩
  rw [hrest] at hrest'
  have hname := List.append_cancel_left hrest'
  injection hname with _ hname
  exact (kind_eq_of_append_eq hname).symm

/-!
## What one launch does
-/

section Launch

variable (w : World) (mode : Handover) (s : BpfDiagnoser) (kind : ToolKind)
  (process thread : Str) (options : Str -> List Str)

def nextOut : Str :=
  outFile s.settings.outputDir kind process thread (w.clock s.os.times)

def nextCommand : Command where
  bin := s.settings.bin kind
  args := options (nextOut w s kind process thread) ++
    pidArgs (w.proc s.os.forks) process ++ tidArgs (w.proc s.os.forks) process thread
  outputFile := nextOut w s kind process thread

def nextEntry : RunnerEntry where
  runner := { pid := s.os.nextChild w, outputPath := nextOut w s kind process thread }
  pendingEv :=
    { type := kind.type, processName := process, threadName := thread,
      filePath := nextOut w s kind process thread, timestamp := w.clock (s.os.times + 1) }

theorem launched_nextEntry :
    Launched s.settings.outputDir kind (nextEntry w s kind process thread).pendingEv := by
  refine ⟨rfl, ['_'] ++ makeTag process thread ++ ['_'] ++ decimal (w.clock s.os.times) ++
    ".data".toList, ?_⟩
  show outFile _ _ _ _ _ = _
  unfold outFile
  simp only [List.append_assoc, List.cons_append, List.nil_append]

theorem launchTool_of_noChild (hfork : s.os.nextChild w = -1) :
    launchTool w mode s kind process thread options =
      { s with
        os :=
          { s.os with
            forks := s.os.forks + 1
            times := s.os.times + 1
            log := s.os.log ++ [.fork (nextCommand w s kind process thread options) (-1)] } } := by
  have hnext : (s.os.time w).2.nextChild w = -1 := hfork
  have hstart := CmdRunner.start_of_noChild hnext {} s.disk
    (nextCommand w s kind process thread options)
  unfold nextCommand nextOut Os.time at hstart
  unfold launchTool
  dsimp only [Os.time]
  rw [hstart]
  rfl

/-- The system after a successful `fork` of a launch and its second clock read. -/
def forked : Os :=
  { s.os with
    children := s.os.nextChild w :: s.os.children
    forks := s.os.forks + 1
    times := s.os.times + 2
    log := s.os.log ++ [.fork (nextCommand w s kind process thread options) (s.os.nextChild w)] }

/-- A launch whose `fork` succeeds pushes its entry, and then destroys the two
locals that held the runner. -/
theorem launchTool_of_child (hfork : 0 < s.os.nextChild w) :
    launchTool w mode s kind process thread options =
      let entry := nextEntry w s kind process thread
      let pushed := pushBack w mode
        { s with
          os := forked w s kind process thread options
          disk := CmdRunner.childOpen w s.os (nextOut w s kind process thread) s.disk } entry
      { pushed with
        os := [mode.left entry.runner, mode.left entry.runner].foldl
          (CmdRunner.destroy w .launch) pushed.os } := by
  have hnext : 0 < (s.os.time w).2.nextChild w := hfork
  have hstart := CmdRunner.start_of_child hnext {} s.disk
    (nextCommand w s kind process thread options)
  unfold nextCommand nextOut Os.time at hstart
  unfold launchTool
  dsimp only [Os.time]
  rw [hstart]
  rfl

/-- Everything a launch can do to the diagnoser and the disk. -/
theorem launchTool_cases :
    (exists os, launchTool w mode s kind process thread options = { s with os := os }) ∨
      exists os capacity, launchTool w mode s kind process thread options =
        { s with
          os := os
          capacity := capacity
          runners := s.runners ++ [nextEntry w s kind process thread]
          disk := CmdRunner.childOpen w s.os (nextOut w s kind process thread) s.disk } := by
  rcases Os.nextChild_cases w s.os with hfork | hfork
  · left
    exact ⟨_, launchTool_of_noChild w mode s kind process thread options hfork⟩
  · right
    rw [launchTool_of_child w mode s kind process thread options hfork]
    simp only [pushBack]
    split
    · exact ⟨_, _, rfl⟩
    · exact ⟨_, _, rfl⟩

end Launch

/-!
## Invariants of launches and of `Collect`
-/

section Invariants

variable (w : World)

/-- What both launch functions are: `launchTool` of one kind at some arguments. -/
def Launches {α : Type} (mode : Handover) (kind : ToolKind)
    (f : BpfDiagnoser -> α -> BpfDiagnoser) : Prop :=
  forall s cfg, exists process thread options,
    f s cfg = launchTool w mode s kind process thread options

theorem launches_offcpu (mode : Handover) : Launches w mode .offcpu (launchOffcpu w mode) := by
  intro s cfg
  exact ⟨_, _, _, rfl⟩

theorem launches_profile (mode : Handover) : Launches w mode .profile (launchProfile w mode) := by
  intro s cfg
  exact ⟨_, _, _, rfl⟩

variable {w} {mode : Handover} {Inv : BpfDiagnoser -> Prop}

section Launches

variable {α : Type} {kind : ToolKind} {f : BpfDiagnoser -> α -> BpfDiagnoser}
  (hf : Launches w mode kind f)
  (hlaunch : forall s kind process thread options, Inv s ->
    Inv (launchTool w mode s kind process thread options))

include hf hlaunch

theorem launch_invariant {s : BpfDiagnoser} (h : Inv s) (cfg : α) : Inv (f s cfg) := by
  rcases hf s cfg with ⟨process, thread, options, heq⟩
  rw [heq]
  exact hlaunch s kind process thread options h

theorem foldl_launch_invariant (cfgs : List α) {s : BpfDiagnoser} (h : Inv s) :
    Inv (cfgs.foldl f s) := by
  induction cfgs generalizing s with
  | nil => exact h
  | cons cfg rest ih => exact ih (launch_invariant hf hlaunch h cfg)

end Launches

theorem relaunch_invariant
    (hlaunch : forall s kind process thread options, Inv s ->
      Inv (launchTool w mode s kind process thread options))
    {s : BpfDiagnoser} (h : Inv s) : Inv (relaunch w mode s) := by
  unfold relaunch
  split
  · apply foldl_launch_invariant (launches_profile w mode) hlaunch
    exact foldl_launch_invariant (launches_offcpu w mode) hlaunch _ h
  · exact h

variable (Inv) in
theorem relaunch_keeps
    (hfailed : forall (s : BpfDiagnoser) os, Inv s -> Inv { s with os := os })
    (hstarted : forall (s : BpfDiagnoser) os capacity e out, Inv s ->
      Inv { s with
        os := os
        capacity := capacity
        runners := s.runners ++ [e]
        disk := CmdRunner.childOpen w s.os out s.disk })
    {s : BpfDiagnoser} (h : Inv s) : Inv (relaunch w mode s) := by
  apply relaunch_invariant _ h
  intro s' kind process thread options hs
  rcases launchTool_cases w mode s' kind process thread options with
    ⟨os, heq⟩ | ⟨os, capacity, heq⟩
  · rw [heq]
    exact hfailed s' os hs
  · rw [heq]
    exact hstarted s' os capacity _ _ hs

end Invariants

end BpfDiagnoser

end Worker
end PerfMonitor
