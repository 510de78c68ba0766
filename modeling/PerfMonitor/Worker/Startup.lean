import PerfMonitor.Worker.HotReload
import PerfMonitor.Worker.OutputDir
import PerfMonitor.Worker.ToolCycles

/-!
# Startup

`MonitorPusher::Run` reads the configuration into a fresh `ConfigManager`, copies it into
the two diagnosers, lets them make the output directory and starts a tool for each entry.
The entries that a diagnoser was started with are never forgotten: after `Stop` and
another `Run` the cycles launch those of all files read so far.
-/

namespace PerfMonitor
namespace Worker

open Foundation

/-- The arguments of `start_offcpu` that `Run` takes from an entry. -/
def OffcpuEntry.config (e : OffcpuEntry) : OffcpuConfig where
  process := e.processName
  thread := e.threadName
  minBlockUs := e.minBlockUs
  maxBlockUs := e.maxBlockUs
  intervalS := e.intervalS

/-- The arguments of `start_profile`. -/
def ProfileEntry.config (e : ProfileEntry) : ProfileConfig where
  process := e.processName
  thread := e.threadName
  maxNr := e.maxNr
  maxSizeKb := e.maxSizeKb
  cpus := e.cpus

/-- What `Run` assigns to `bpf_diagnoser_`. -/
def applyToBpf (settings : BpfSettings) (cfg : Settings) : BpfSettings where
  outputDir := cfg.outputDir
  offcpuBin := cfg.offcpuBin
  profileBin := cfg.profileBin
  limitFileNum :=
    match cfg.offcpuEntries with
    | [] => settings.limitFileNum
    | e :: _ => e.limitFileNum
  limitFileSizeMb :=
    match cfg.offcpuEntries with
    | [] => settings.limitFileSizeMb
    | e :: _ => e.limitFileSizeMb

/-- What `Run` assigns to `perf_diagnoser_`. -/
def applyToPerf (settings : PerfSettings) (cfg : Settings) : PerfSettings where
  outputDir := cfg.outputDir
  perfBin := cfg.perfBin
  cpuThresholdPct := cfg.perfCpuThresholdPct
  overflowDurationS := cfg.perfOverflowDurationS
  targetProcesses := cfg.perfTargetProcesses
  limitFileNum :=
    match cfg.offcpuEntries with
    | [] => settings.limitFileNum
    | e :: _ => e.limitFileNum

structure Diagnosers where
  bpf : BpfDiagnoser := {}
  perf : PerfDiagnoser := {}
  tree : FileTree

structure ToolOpen where
  path : Str
  mayWrite : NodePath -> Bool

/-- `Run` with what its configuration file holds, `Collect` and `Reset` of the BPF
diagnoser (`Stop` resets it too), an open and a write of a tool, and an `unlink` of
`cleanup_files`. -/
inductive DiagnosersOp where
  | run (file : Option Str)
  | collect
  | reset
  | opens (o : ToolOpen)
  | unlinks (path : Str)
  | write (path : Str) (st : FileStat)

namespace Diagnosers

section Run

variable (lib : JsonLibrary) (w : World) (mode : Handover) (mayCreate : NodePath -> Bool)
  (cwd : NodePath)

/-- What `Load` leaves in a fresh `ConfigManager`, unless it throws. -/
def loaded (file : Option Str) : Option Settings :=
  match ConfigManager.load lib {} file with
  | (.returned _, cfg) => some cfg.toSettings
  | (.threw, _) => none

def startTools (s : BpfDiagnoser) (cfg : Settings) : BpfDiagnoser :=
  (cfg.profileEntries.map ProfileEntry.config).foldl (BpfDiagnoser.startProfile w mode)
    ((cfg.offcpuEntries.map OffcpuEntry.config).foldl (BpfDiagnoser.startOffcpu w mode) s)

/-- `Run` from the configuration to the last tool; an exception of `Load` leaves it.  What
the tools do in the tree comes after their `fork`, behind both `Init`s. -/
def run (s : Diagnosers) (file : Option Str) : Diagnosers :=
  match loaded lib file with
  | none => s
  | some cfg =>
      let bpf := { s.bpf with settings := applyToBpf s.bpf.settings cfg }
      let perf := { s.perf with settings := applyToPerf s.perf.settings cfg }
      { bpf := startTools w mode bpf cfg
        perf := perf
        tree := perf.init mayCreate cwd (bpf.init mayCreate cwd s.tree) }

def step (s : Diagnosers) : DiagnosersOp -> Diagnosers
  | .run file => s.run lib w mode mayCreate cwd file
  | .collect => { s with bpf := s.bpf.collect w mode }
  | .reset => { s with bpf := s.bpf.reset }
  | .opens o =>
      { s with
        tree := ((openOutput mayCreate cwd o.mayWrite s.tree o.path).map Prod.fst).getD s.tree }
  | .unlinks path => { s with tree := unlinkOutput cwd s.tree path }
  | .write path st => { s with bpf := { s.bpf with disk := s.bpf.disk.write path st } }

end Run

def isRun : DiagnosersOp -> Bool
  | .run _ => true
  | _ => false

/-!
## The output directory
-/

section OutputDir

variable {lib : JsonLibrary} (w : World) (mode : Handover) (mayCreate : NodePath -> Bool)
  (cwd : NodePath)

/-- The second `Init` finds nothing to do. -/
theorem tree_run (s : Diagnosers) {file : Option Str} {cfg : Settings}
    (hloaded : loaded lib file = some cfg) :
    (s.run lib w mode mayCreate cwd file).tree =
      initOutputDir mayCreate cwd cfg.outputDir s.tree := by
  unfold run
  rw [hloaded]
  exact (initOutputDir_ready mayCreate cwd cfg.outputDir s.tree).right.right.right

theorem changesFiles_openOutput {mayWrite : NodePath -> Bool} {t : FileTree} {path : Str}
    {opened : FileTree × NodePath}
    (hopened : openOutput mayCreate cwd mayWrite t path = some opened) :
    t.ChangesFiles mayCreate opened.1 := by
  unfold openOutput at hopened
  split at hopened
  · exact FileTree.changesFiles_openFor hopened
  · cases hopened

theorem changesFiles_step (s : Diagnosers) {op : DiagnosersOp} (hop : isRun op = false) :
    s.tree.ChangesFiles mayCreate (s.step lib w mode mayCreate cwd op).tree := by
  cases op with
  | run file => cases hop
  | collect => exact FileTree.changesFiles_refl s.tree
  | reset => exact FileTree.changesFiles_refl s.tree
  | write path st => exact FileTree.changesFiles_refl s.tree
  | opens o =>
      simp only [step]
      cases hopened : openOutput mayCreate cwd o.mayWrite s.tree o.path with
      | none => exact FileTree.changesFiles_refl s.tree
      | some opened => exact changesFiles_openOutput mayCreate cwd hopened
  | unlinks path =>
      simp only [step, unlinkOutput]
      split
      · exact FileTree.changesFiles_unlinkAt mayCreate _ s.tree _
      · exact FileTree.changesFiles_refl s.tree

theorem changesFiles_later (s : Diagnosers) {later : List DiagnosersOp}
    (hlater : forall op, op ∈ later -> isRun op = false) :
    s.tree.ChangesFiles mayCreate
      (runFrom (step lib w mode mayCreate cwd) s later).tree := by
  induction later generalizing s with
  | nil => exact FileTree.changesFiles_refl s.tree
  | cons op rest ih =>
      have hfirst : s.tree.ChangesFiles mayCreate (s.step lib w mode mayCreate cwd op).tree :=
        changesFiles_step w mode mayCreate cwd s (hlater op List.mem_cons_self)
      exact hfirst.trans (ih _ (fun o ho => hlater o (List.mem_cons_of_mem op ho)))

/-- The directory that the path leads to until the next `Run` is the one that the two
`Init`s have left. -/
theorem walk_later (s : Diagnosers) {file : Option Str} {cfg : Settings}
    (hloaded : loaded lib file = some cfg) {later : List DiagnosersOp}
    (hlater : forall op, op ∈ later -> isRun op = false) (base : NodePath) (names : List Str) :
    (runFrom (step lib w mode mayCreate cwd) (s.run lib w mode mayCreate cwd file) later).tree.walk
        base names =
      (initOutputDir mayCreate cwd cfg.outputDir s.tree).walk base names := by
  rw [(changesFiles_later w mode mayCreate cwd _ hlater).walk,
    tree_run w mode mayCreate cwd s hloaded]

/-- From a `Run` that returned to the next one, whatever files are opened and removed: the
configured path leads to a directory exactly when it can be used and each of its
directories was there or could be made.  What is gone is a file, and what is new is a
directory on that path or a file. -/
theorem run_outputDir (s : Diagnosers) {file : Option Str} {cfg : Settings}
    (hloaded : loaded lib file = some cfg) {later : List DiagnosersOp}
    (hlater : forall op, op ∈ later -> isRun op = false) :
    let path := cString cfg.outputDir
    let base := pathBase cwd path
    let tree :=
      (runFrom (step lib w mode mayCreate cwd) (s.run lib w mode mayCreate cwd file) later).tree
    ((directoryAt cwd tree path).isSome = true <->
        Usable path ∧ s.tree.Makeable mayCreate base (components path)) ∧
      forall q, tree.node q ≠ s.tree.node q ->
        (s.tree.node q = some .file ∧ tree.node q = none) ∨
          (s.tree.node q = none ∧ mayCreate q = true ∧
            (tree.node q = some .file ∨
              tree.node q = some .dir ∧
                exists front, front <+: components path ∧ tree.walk base front = some q)) := by
  intro path base tree
  rcases initOutputDir_ready mayCreate cwd cfg.outputDir s.tree with
    ⟨hready, hextends, hnew, _⟩
  have hwalk : forall names, tree.walk base names =
      (initOutputDir mayCreate cwd cfg.outputDir s.tree).walk base names :=
    fun names => walk_later w mode mayCreate cwd s hloaded hlater base names
  have hchanges :
      (initOutputDir mayCreate cwd cfg.outputDir s.tree).ChangesFiles mayCreate tree := by
    rw [← tree_run w mode mayCreate cwd s hloaded]
    exact changesFiles_later w mode mayCreate cwd _ hlater
  constructor
  · rw [← hready]
    unfold directoryAt
    rw [hwalk]
  · intro q hq
    rcases hchanges q with hsame | ⟨hfile, hnone⟩ | ⟨hnone, hmay, hfile⟩
    · rw [hsame] at hq
      rcases hextends q with hkept | ⟨hnone, hmay, hdir⟩
      · exact absurd hkept hq
      · rcases hnew q hq with ⟨front, hfront, hmade⟩
        exact Or.inr ⟨hnone, hmay,
          Or.inr ⟨hsame.trans hdir, front, hfront, (hwalk front).trans hmade⟩⟩
    · rcases hextends q with hkept | ⟨_, _, hdir⟩
      · exact Or.inl ⟨hkept.symm.trans hfile, hnone⟩
      · rw [hdir] at hfile
        cases hfile
    · rcases hextends q with hkept | ⟨_, _, hdir⟩
      · exact Or.inr ⟨hkept.symm.trans hnone, hmay, Or.inl hfile⟩
      · rw [hdir] at hnone
        cases hnone

def onlyTmp : FileTree where
  node := fun q => if q = ["tmp".toList] then some .dir else none

/-- The defaults of a configuration file that is missing, and one off-CPU file. -/
theorem run_outputDir_noFile :
    (directoryAt []
      (runFrom (step ConfigManager.textLibrary { fork := fun _ => -1 } .copy (fun _ => true) [])
        (({ tree := onlyTmp } : Diagnosers).run ConfigManager.textLibrary { fork := fun _ => -1 }
          .copy (fun _ => true) [] none)
        [.opens { path := "/tmp/monitor_system/diagnose/offcpu__5.data".toList,
                  mayWrite := fun _ => true },
          .unlinks "/tmp/monitor_system/diagnose/offcpu__5.data".toList]).tree
      "/tmp/monitor_system/diagnose".toList).isSome = true := by
  have husable : Usable "/tmp/monitor_system/diagnose".toList := by decide
  have hmakeable : FileTree.Makeable (fun _ => true) onlyTmp []
      ["tmp".toList, "monitor_system".toList, "diagnose".toList] :=
    And.intro (Or.inl rfl) (And.intro (Or.inr ⟨rfl, rfl⟩) (And.intro (Or.inr ⟨rfl, rfl⟩) trivial))
  have hloaded : loaded ConfigManager.textLibrary none = some {} := rfl
  exact (run_outputDir { fork := fun _ => -1 } .copy (fun _ => true) [] { tree := onlyTmp }
    hloaded (by decide)).left.mpr ⟨husable, hmakeable⟩

end OutputDir

/-!
## What follows from the files
-/

def firstEntries (cfgs : List Settings) : List OffcpuEntry :=
  cfgs.filterMap (fun cfg => cfg.offcpuEntries.head?)

def bpfSettings (cfgs : List Settings) : BpfSettings where
  outputDir := (cfgs.getLast?.map Settings.outputDir).getD []
  offcpuBin := (cfgs.getLast?.map Settings.offcpuBin).getD []
  profileBin := (cfgs.getLast?.map Settings.profileBin).getD []
  limitFileNum := ((firstEntries cfgs).getLast?.map OffcpuEntry.limitFileNum).getD 3
  limitFileSizeMb := ((firstEntries cfgs).getLast?.map OffcpuEntry.limitFileSizeMb).getD 50

def perfSettings (cfgs : List Settings) : PerfSettings where
  outputDir := (cfgs.getLast?.map Settings.outputDir).getD []
  perfBin := (cfgs.getLast?.map Settings.perfBin).getD []
  cpuThresholdPct := (cfgs.getLast?.map Settings.perfCpuThresholdPct).getD 80
  overflowDurationS := (cfgs.getLast?.map Settings.perfOverflowDurationS).getD 10
  targetProcesses := (cfgs.getLast?.map Settings.perfTargetProcesses).getD []
  limitFileNum := ((firstEntries cfgs).getLast?.map OffcpuEntry.limitFileNum).getD 3

def offcpuConfigs (cfgs : List Settings) : List OffcpuConfig :=
  cfgs.flatMap (fun cfg => cfg.offcpuEntries.map OffcpuEntry.config)

def profileConfigs (cfgs : List Settings) : List ProfileConfig :=
  cfgs.flatMap (fun cfg => cfg.profileEntries.map ProfileEntry.config)

def toolEntries (cfgs : List Settings) : List ToolEntry :=
  (offcpuConfigs cfgs).map .offcpu ++ (profileConfigs cfgs).map .profile

structure Round where
  cfgs : List Settings
  entries : List ToolEntry

section Timeline

variable (lib : JsonLibrary) (w : World) (mode : Handover) (mayCreate : NodePath -> Bool)
  (cwd : NodePath)

def filesAfter (cfgs : List Settings) : DiagnosersOp -> List Settings
  | .run file => cfgs ++ (loaded lib file).toList
  | .collect => cfgs
  | .reset => cfgs
  | .opens _ => cfgs
  | .unlinks _ => cfgs
  | .write _ _ => cfgs

/-- A `Run` launches the tools of its file, and a `Collect` that finds no tool running
those of all files. -/
def roundsOf (s : Diagnosers) (cfgs : List Settings) : DiagnosersOp -> List Round
  | .run file =>
      (loaded lib file).toList.map (fun cfg =>
        { cfgs := cfgs ++ [cfg], entries := toolEntries [cfg] })
  | .collect =>
      if (BpfDiagnoser.reap w mode s.bpf [] s.bpf.runners).runners = [] then
        [{ cfgs := cfgs, entries := toolEntries cfgs }]
      else []
  | .reset => []
  | .opens _ => []
  | .unlinks _ => []
  | .write _ _ => []

def timeline (s : Diagnosers) (cfgs : List Settings) : List DiagnosersOp -> List Round
  | [] => []
  | op :: rest =>
      roundsOf lib w mode s cfgs op ++
        timeline (step lib w mode mayCreate cwd s op) (filesAfter lib cfgs op) rest

end Timeline

def isFork : Syscall -> Bool
  | .fork _ _ => true
  | .kill _ _ _ => false

def forkCalls (s : BpfDiagnoser) : List Syscall :=
  s.os.log.filter isFork

def Launches (r : Round) (calls : List Syscall) : Prop :=
  List.Forall₂ (BpfDiagnoser.Attempts (bpfSettings r.cfgs)) r.entries calls

structure Holds (cfgs : List Settings) (s : BpfDiagnoser) : Prop where
  settings : s.settings = bpfSettings cfgs
  offcpu : s.offcpuConfigs = offcpuConfigs cfgs
  profile : s.profileConfigs = profileConfigs cfgs

/-!
## One launch
-/

section Launch

variable (w : World) (mode : Handover)

theorem isFork_destroy (cause : StopCause) (os : Os) (runner : CmdRunner) :
    (runner.destroy w cause os).log.filter isFork = os.log.filter isFork := by
  unfold CmdRunner.destroy
  by_cases hpid : runner.pid ≤ 0
  · rw [CmdRunner.stop_of_nonpos hpid]
  · rw [CmdRunner.log_stop_of_pos (Int.not_le.mp hpid), List.filter_append]
    exact List.append_nil _

theorem isFork_foldl_destroy (cause : StopCause) (runners : List CmdRunner) (os : Os) :
    (runners.foldl (CmdRunner.destroy w cause) os).log.filter isFork = os.log.filter isFork := by
  induction runners generalizing os with
  | nil => rfl
  | cons runner rest ih =>
      rw [List.foldl_cons, ih]
      exact isFork_destroy w cause os runner

theorem forkCalls_pushBack (s : BpfDiagnoser) (entry : RunnerEntry) :
    forkCalls (s.pushBack w mode entry) = forkCalls s := by
  unfold BpfDiagnoser.pushBack
  split
  · rfl
  · exact isFork_foldl_destroy w .growth _ s.os

/-- Every launch makes one attempt, whatever happens to the runner afterwards. -/
theorem forkCalls_launch (s : BpfDiagnoser) (entry : ToolEntry) :
    exists c, forkCalls (BpfDiagnoser.launch w mode s entry) = forkCalls s ++ [c] ∧
      BpfDiagnoser.Attempts s.settings entry c := by
  refine ⟨_, ?_, BpfDiagnoser.attempts_nextCommand w s entry (s.os.nextChild w)⟩
  rw [BpfDiagnoser.launch_eq]
  rcases Os.nextChild_cases w s.os with hfork | hfork
  · rw [BpfDiagnoser.launchTool_of_noChild w mode s _ _ _ _ hfork, hfork]
    exact List.filter_append _ _
  · rw [BpfDiagnoser.launchTool_of_child w mode s _ _ _ _ hfork]
    show (List.foldl (CmdRunner.destroy w .launch) _ _).log.filter isFork = _
    rw [isFork_foldl_destroy]
    exact (forkCalls_pushBack w mode _ _).trans (List.filter_append _ _)

theorem frame_launch (s : BpfDiagnoser) (entry : ToolEntry) :
    (BpfDiagnoser.launch w mode s entry).settings = s.settings ∧
      (BpfDiagnoser.launch w mode s entry).offcpuConfigs = s.offcpuConfigs ∧
      (BpfDiagnoser.launch w mode s entry).profileConfigs = s.profileConfigs := by
  rw [BpfDiagnoser.launch_eq]
  rcases BpfDiagnoser.launchTool_cases w mode s entry.kind entry.process entry.thread
    (entry.options s.settings) with ⟨os, heq⟩ | ⟨os, capacity, heq⟩
  · rw [heq]
    exact ⟨rfl, rfl, rfl⟩
  · rw [heq]
    exact ⟨rfl, rfl, rfl⟩

theorem forkCalls_foldl {β : Type} {f : BpfDiagnoser -> β -> BpfDiagnoser} (entry : β -> ToolEntry)
    (before : BpfDiagnoser -> β -> BpfDiagnoser)
    (hf : forall s x, f s x = BpfDiagnoser.launch w mode (before s x) (entry x))
    (hbefore : forall s x, forkCalls (before s x) = forkCalls s ∧
      (before s x).settings = s.settings) (xs : List β) (s : BpfDiagnoser) :
    exists calls, forkCalls (xs.foldl f s) = forkCalls s ++ calls ∧
      (xs.foldl f s).settings = s.settings ∧
      List.Forall₂ (BpfDiagnoser.Attempts s.settings) (xs.map entry) calls := by
  induction xs generalizing s with
  | nil => exact ⟨[], (List.append_nil _).symm, rfl, List.Forall₂.nil⟩
  | cons x rest ih =>
      rcases hbefore s x with ⟨hcalls, hsettings⟩
      rcases forkCalls_launch w mode (before s x) (entry x) with ⟨c, hc, hattempt⟩
      rcases ih (f s x) with ⟨calls, hrest, hkeeps, hattempts⟩
      have hframe := (frame_launch w mode (before s x) (entry x)).left
      rw [hf, hframe, hsettings] at hattempts hkeeps
      rw [hsettings] at hattempt
      refine ⟨c :: calls, ?_, ?_, hattempts.cons hattempt⟩
      · rw [List.foldl_cons, hrest, hf, hc, hcalls, List.append_assoc]
        rfl
      · rw [List.foldl_cons, hf]
        exact hkeeps

end Launch

/-!
## One operation
-/

section Step

variable (w : World) (mode : Handover)

theorem look_foldl {β γ : Type} {f : BpfDiagnoser -> β -> BpfDiagnoser}
    (look : BpfDiagnoser -> List γ) {added : β -> List γ}
    (hlook : forall s x, look (f s x) = look s ++ added x) (xs : List β) (s : BpfDiagnoser) :
    look (xs.foldl f s) = look s ++ xs.flatMap added := by
  have hfold : look (xs.foldl f s) = xs.foldl (fun acc x => acc ++ added x) (look s) :=
    (List.foldl_hom look (fun s x => (hlook s x).symm)).symm
  rw [hfold, List.foldl_append_eq_append, ← List.flatMap_def]

theorem configs_startTools (s : BpfDiagnoser) (cfg : Settings) :
    (startTools w mode s cfg).offcpuConfigs =
        s.offcpuConfigs ++ cfg.offcpuEntries.map OffcpuEntry.config ∧
      (startTools w mode s cfg).profileConfigs =
        s.profileConfigs ++ cfg.profileEntries.map ProfileEntry.config := by
  have hoffcpu : forall (s : BpfDiagnoser) cfg,
      (s.startOffcpu w mode cfg).offcpuConfigs = s.offcpuConfigs ++ [cfg] ∧
        (s.startOffcpu w mode cfg).profileConfigs = s.profileConfigs ++ [] := by
    intro s cfg
    rw [List.append_nil]
    exact (frame_launch w mode { s with offcpuConfigs := s.offcpuConfigs ++ [cfg] }
      (.offcpu cfg)).right
  have hprofile : forall (s : BpfDiagnoser) cfg,
      (s.startProfile w mode cfg).offcpuConfigs = s.offcpuConfigs ++ [] ∧
        (s.startProfile w mode cfg).profileConfigs = s.profileConfigs ++ [cfg] := by
    intro s cfg
    rw [List.append_nil]
    exact (frame_launch w mode { s with profileConfigs := s.profileConfigs ++ [cfg] }
      (.profile cfg)).right
  unfold startTools
  constructor
  · rw [look_foldl BpfDiagnoser.offcpuConfigs (fun s cfg => (hprofile s cfg).left),
      look_foldl BpfDiagnoser.offcpuConfigs (fun s cfg => (hoffcpu s cfg).left)]
    simp
  · rw [look_foldl BpfDiagnoser.profileConfigs (fun s cfg => (hprofile s cfg).right),
      look_foldl BpfDiagnoser.profileConfigs (fun s cfg => (hoffcpu s cfg).right)]
    simp

theorem applyToBpf_bpfSettings (cfgs : List Settings) (cfg : Settings) :
    applyToBpf (bpfSettings cfgs) cfg = bpfSettings (cfgs ++ [cfg]) := by
  unfold applyToBpf bpfSettings firstEntries
  rw [List.filterMap_append, List.getLast?_concat]
  cases hentries : cfg.offcpuEntries with
  | nil => simp [hentries]
  | cons e rest => simp [hentries]

theorem startTools_launches {cfgs : List Settings} {s : BpfDiagnoser} (h : Holds cfgs s)
    (cfg : Settings) :
    let started := startTools w mode { s with settings := applyToBpf s.settings cfg } cfg
    Holds (cfgs ++ [cfg]) started ∧
      exists calls, forkCalls started = forkCalls s ++ calls ∧
        Launches { cfgs := cfgs ++ [cfg], entries := toolEntries [cfg] } calls := by
  intro started
  have hsettings : applyToBpf s.settings cfg = bpfSettings (cfgs ++ [cfg]) := by
    rw [h.settings, applyToBpf_bpfSettings]
  rcases forkCalls_foldl (f := BpfDiagnoser.startOffcpu w mode) w mode ToolEntry.offcpu
    (fun s cfg => { s with offcpuConfigs := s.offcpuConfigs ++ [cfg] }) (fun _ _ => rfl)
    (fun _ _ => ⟨rfl, rfl⟩) (cfg.offcpuEntries.map OffcpuEntry.config)
    { s with settings := applyToBpf s.settings cfg } with ⟨calls, hcalls, hkeeps, hattempts⟩
  rcases forkCalls_foldl (f := BpfDiagnoser.startProfile w mode) w mode ToolEntry.profile
    (fun s cfg => { s with profileConfigs := s.profileConfigs ++ [cfg] }) (fun _ _ => rfl)
    (fun _ _ => ⟨rfl, rfl⟩) (cfg.profileEntries.map ProfileEntry.config)
    ((cfg.offcpuEntries.map OffcpuEntry.config).foldl (BpfDiagnoser.startOffcpu w mode)
      { s with settings := applyToBpf s.settings cfg }) with ⟨calls', hcalls', hkeeps', hattempts'⟩
  rcases configs_startTools w mode { s with settings := applyToBpf s.settings cfg } cfg
    with ⟨hoffcpu, hprofile⟩
  rw [hkeeps] at hkeeps' hattempts'
  constructor
  · constructor
    · exact hkeeps'.trans hsettings
    · rw [hoffcpu, h.offcpu]
      unfold offcpuConfigs
      rw [List.flatMap_append, List.flatMap_singleton]
    · rw [hprofile, h.profile]
      unfold profileConfigs
      rw [List.flatMap_append, List.flatMap_singleton]
  · refine ⟨calls ++ calls', ?_, ?_⟩
    · rw [← List.append_assoc]
      exact hcalls'.trans (congrArg (· ++ calls') hcalls)
    · unfold Launches toolEntries offcpuConfigs profileConfigs
      rw [← hsettings, List.flatMap_singleton, List.flatMap_singleton]
      exact List.rel_append hattempts hattempts'

theorem log_isRunning (runner : CmdRunner) (os : Os) :
    (runner.isRunning w os).2.2.log = os.log := by
  have hwait := Os.log_waitpid w os runner.pid
  unfold CmdRunner.isRunning
  split
  · rfl
  · split
    next heq => rwa [heq] at hwait
    next heq => rwa [heq] at hwait
    next heq => rwa [heq] at hwait

theorem forkCalls_reap (entries : List RunnerEntry) (s : BpfDiagnoser) (kept : List RunnerEntry) :
    forkCalls (BpfDiagnoser.reap w mode s kept entries) = forkCalls s := by
  induction entries generalizing s kept with
  | nil => rfl
  | cons e rest ih =>
      have hlog := log_isRunning w e.runner s.os
      rcases hrun : e.runner.isRunning w s.os with ⟨running, runner, os⟩
      rw [hrun] at hlog
      have hos : os.log.filter isFork = forkCalls s := congrArg (List.filter isFork) hlog
      cases running with
      | true =>
          rw [BpfDiagnoser.reap_of_running w mode hrun, ih]
          exact hos
      | false =>
          rw [BpfDiagnoser.reap_of_found w mode hrun, ih]
          exact (isFork_destroy w .erase os _).trans hos

theorem toolEntries_slotted {cfgs : List Settings} {s : BpfDiagnoser} (h : Holds cfgs s) :
    (BpfDiagnoser.slotted s).map Prod.snd = toolEntries cfgs := by
  have hzip : forall {γ : Type} (kind : ToolKind) (make : γ -> ToolEntry) (xs : List γ),
      (xs.zipIdx.map (fun c => (((kind, c.2), make c.1) : Slot × ToolEntry))).map Prod.snd =
        xs.map make := by
    intro γ kind make xs
    rw [List.map_map]
    show xs.zipIdx.map (make ∘ Prod.fst) = _
    rw [← List.map_map, List.zipIdx_map_fst]
  unfold BpfDiagnoser.slotted toolEntries
  rw [List.map_append, hzip, hzip, h.offcpu, h.profile]

theorem holds_launch {cfgs : List Settings} {s : BpfDiagnoser} (h : Holds cfgs s)
    (entry : ToolEntry) : Holds cfgs (BpfDiagnoser.launch w mode s entry) := by
  rcases frame_launch w mode s entry with ⟨hsettings, hoffcpu, hprofile⟩
  exact ⟨hsettings.trans h.settings, hoffcpu.trans h.offcpu, hprofile.trans h.profile⟩

/-- A `Collect` launches the tools of all files, or none. -/
theorem collect_launches {cfgs : List Settings} {s : BpfDiagnoser} (h : Holds cfgs s) :
    Holds cfgs (s.collect w mode) ∧
      exists calls, forkCalls (s.collect w mode) = forkCalls s ++ calls ∧
        if (BpfDiagnoser.reap w mode s [] s.runners).runners = [] then
          Launches { cfgs := cfgs, entries := toolEntries cfgs } calls
        else calls = [] := by
  have hreaped := forkCalls_reap w mode s.runners s []
  have hholds : Holds cfgs (BpfDiagnoser.reap w mode s [] s.runners) := by
    rcases BpfDiagnoser.frame_reap w mode s.runners s [] with ⟨hsettings, hoffcpu, hprofile⟩
    exact ⟨hsettings.trans h.settings, hoffcpu.trans h.offcpu, hprofile.trans h.profile⟩
  unfold BpfDiagnoser.collect
  rw [TracedDiagnoser.relaunch_eq]
  split
  · rcases forkCalls_foldl w mode Prod.snd (fun s _ => s) (fun _ _ => rfl) (fun _ _ => ⟨rfl, rfl⟩)
      (BpfDiagnoser.slotted (BpfDiagnoser.reap w mode s [] s.runners))
      (BpfDiagnoser.reap w mode s [] s.runners) with ⟨calls, hcalls, hkeeps, hattempts⟩
    rw [toolEntries_slotted hholds, hholds.settings] at hattempts
    rw [hreaped] at hcalls
    refine ⟨?_, calls, hcalls, hattempts⟩
    exact List.foldlRecOn _ _ hholds (fun s hs e _ => holds_launch w mode hs e.2)
  · exact ⟨hholds, [], by rw [hreaped, List.append_nil], rfl⟩

end Step

/-!
## Whole runs
-/

structure Follows (cfgs : List Settings) (s : Diagnosers) : Prop where
  bpf : Holds cfgs s.bpf
  perf : s.perf.settings = perfSettings cfgs

theorem applyToPerf_perfSettings (cfgs : List Settings) (cfg : Settings) :
    applyToPerf (perfSettings cfgs) cfg = perfSettings (cfgs ++ [cfg]) := by
  unfold applyToPerf perfSettings firstEntries
  rw [List.filterMap_append, List.getLast?_concat]
  cases hentries : cfg.offcpuEntries with
  | nil => simp [hentries]
  | cons e rest => simp [hentries]

section Runs

variable (lib : JsonLibrary) (w : World) (mode : Handover) (mayCreate : NodePath -> Bool)
  (cwd : NodePath)

theorem follows_run {cfgs : List Settings} {s : Diagnosers} (h : Follows cfgs s)
    (file : Option Str) :
    Follows (cfgs ++ (loaded lib file).toList) (s.run lib w mode mayCreate cwd file) ∧
      exists groups, forkCalls (s.run lib w mode mayCreate cwd file).bpf =
          forkCalls s.bpf ++ groups.flatten ∧
        List.Forall₂ Launches (roundsOf lib w mode s cfgs (.run file)) groups := by
  unfold run
  rw [roundsOf]
  cases loaded lib file with
  | none =>
      rw [Option.toList_none, List.append_nil]
      exact ⟨h, [], (List.append_nil _).symm, List.Forall₂.nil⟩
  | some cfg =>
      rcases startTools_launches w mode h.bpf cfg with ⟨hholds, calls, hcalls, hlaunches⟩
      refine ⟨⟨hholds, ?_⟩, [calls], ?_, List.Forall₂.cons hlaunches List.Forall₂.nil⟩
      · show applyToPerf s.perf.settings cfg = _
        rw [h.perf, applyToPerf_perfSettings]
        rfl
      · rw [List.flatten_singleton]
        exact hcalls

theorem follows_step {cfgs : List Settings} {s : Diagnosers} (h : Follows cfgs s)
    (op : DiagnosersOp) :
    Follows (filesAfter lib cfgs op) (step lib w mode mayCreate cwd s op) ∧
      exists groups, forkCalls (step lib w mode mayCreate cwd s op).bpf =
          forkCalls s.bpf ++ groups.flatten ∧
        List.Forall₂ Launches (roundsOf lib w mode s cfgs op) groups := by
  cases op with
  | run file => exact follows_run lib w mode mayCreate cwd h file
  | collect =>
      rcases collect_launches w mode h.bpf with ⟨hholds, calls, hcalls, hlaunches⟩
      refine ⟨⟨hholds, h.perf⟩, ?_⟩
      unfold roundsOf
      split at hlaunches
      next hidle =>
        rw [if_pos hidle]
        exact ⟨[calls], by rw [List.flatten_singleton]; exact hcalls,
          List.Forall₂.cons hlaunches List.Forall₂.nil⟩
      next hbusy =>
        rw [if_neg hbusy]
        rw [hlaunches] at hcalls
        exact ⟨[], hcalls, List.Forall₂.nil⟩
  | reset =>
      exact ⟨⟨⟨h.bpf.settings, h.bpf.offcpu, h.bpf.profile⟩, h.perf⟩, [],
        (List.append_nil _).symm, List.Forall₂.nil⟩
  | unlinks path =>
      exact ⟨⟨⟨h.bpf.settings, h.bpf.offcpu, h.bpf.profile⟩, h.perf⟩, [],
        (List.append_nil _).symm, List.Forall₂.nil⟩
  | opens o =>
      exact ⟨⟨⟨h.bpf.settings, h.bpf.offcpu, h.bpf.profile⟩, h.perf⟩, [],
        (List.append_nil _).symm, List.Forall₂.nil⟩
  | write path st =>
      exact ⟨⟨⟨h.bpf.settings, h.bpf.offcpu, h.bpf.profile⟩, h.perf⟩, [],
        (List.append_nil _).symm, List.Forall₂.nil⟩

def filesOf (ops : List DiagnosersOp) : List Settings :=
  ops.foldl (filesAfter lib) []

theorem launches_from (ops : List DiagnosersOp) {cfgs : List Settings} {s : Diagnosers}
    (h : Follows cfgs s) :
    let last := runFrom (step lib w mode mayCreate cwd) s ops
    Follows (ops.foldl (filesAfter lib) cfgs) last ∧
      exists groups, forkCalls last.bpf = forkCalls s.bpf ++ groups.flatten ∧
        List.Forall₂ Launches (timeline lib w mode mayCreate cwd s cfgs ops) groups := by
  induction ops generalizing cfgs s with
  | nil => exact ⟨h, [], (List.append_nil _).symm, List.Forall₂.nil⟩
  | cons op rest ih =>
      rcases follows_step lib w mode mayCreate cwd h op with ⟨hnext, first, hfirst, hrounds⟩
      rcases ih hnext with ⟨hlast, later, hlater, htimeline⟩
      refine ⟨hlast, first ++ later, ?_, List.rel_append hrounds htimeline⟩
      rw [List.flatten_append, ← List.append_assoc, ← hfirst]
      exact hlater

/-- In any run of `Run`s with any files, cycles, resets and calls on files: the
diagnosers hold the settings of the last file (the limits of the last file with an off-CPU
entry), the BPF diagnoser the entries of all files, and the launches are, in order, those
of each file at its `Run` and those of all files so far at each cycle that found no
tool. -/
theorem startup_launches (tree : FileTree) (ops : List DiagnosersOp) :
    let last := runFrom (step lib w mode mayCreate cwd) { tree := tree } ops
    Follows (filesOf lib ops) last ∧
      exists groups, forkCalls last.bpf = groups.flatten ∧
        List.Forall₂ Launches (timeline lib w mode mayCreate cwd { tree := tree } [] ops)
          groups :=
  launches_from lib w mode mayCreate cwd ops ⟨⟨rfl, rfl, rfl⟩, rfl⟩

end Runs

/-- The cycle after the second file launches the entry of the first one. -/
example : (timeline ConfigManager.textLibrary { fork := fun _ => -1 } .copy (fun _ => false) []
      { tree := onlyTmp } []
      [.run (some "\x7b\"offcpu\":[\x7b\x7d]\x7d".toList), .run (some "\x7b\x7d".toList),
        .collect]).map (fun r => r.entries.length) = [1, 0, 1] := by
  decide +kernel

end Diagnosers

end Worker
end PerfMonitor
