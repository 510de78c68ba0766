import PerfMonitor.Worker.BpfDiagnoser

/-!
# Who stops a tool

With the C++ semantics of `CmdRunner` every launch that succeeds stops the tool it
has just started: the locals `runner` and `entry` keep the pid they were moved
from, and their destructors send `SIGTERM` to it.  So the runs in which tools are
stopped only on request or with the diagnoser are those in which no `fork`
succeeds.
-/

namespace PerfMonitor
namespace Worker

open Foundation

/-- A signal is sent only by `stop_all` or by the destruction of the diagnoser, and
only to a child that has not been reaped. -/
def Syscall.Permitted : Syscall -> Prop
  | .fork _ _ => True
  | .kill _ cause unreaped =>
      (cause = .stopAll ∨ cause = .destruction) ∧ unreaped = true

namespace BpfDiagnoser

/-- All signals so far are permitted, and so are those that `stop_all` or the
destructor would send now. -/
structure ToolsOwned (w : World) (s : BpfDiagnoser) : Prop where
  sent : forall c, c ∈ s.os.log -> c.Permitted
  stopAll : forall c, c ∈ (s.stopAll w).os.log -> c.Permitted
  destruct : forall c, c ∈ (s.destruct w).os.log -> c.Permitted

/-- No `fork` of the step succeeds.  A `Collect` with no tool left calls it once for
every entry. -/
def ForksFail (w : World) (s : BpfDiagnoser) : DiagnoserOp -> Prop
  | .startOffcpu _ => ¬ 0 < w.fork s.os.forks
  | .startProfile _ => ¬ 0 < w.fork s.os.forks
  | .collect =>
      forall n, n < s.offcpuConfigs.length + s.profileConfigs.length ->
        ¬ 0 < w.fork (s.os.forks + n)
  | .reset => True
  | .write _ _ => True

/-!
## The log across a launch
-/

section Launch

variable (w : World) (mode : Handover) (s : BpfDiagnoser) (kind : ToolKind)
  (process thread : Str) (options : Str -> List Str)

theorem mem_log_pushBack {c : Syscall} {s : BpfDiagnoser} (hc : c ∈ s.os.log)
    (entry : RunnerEntry) : c ∈ (pushBack w mode s entry).os.log := by
  unfold pushBack
  split
  · exact hc
  · exact CmdRunner.mem_log_foldl_destroy w .growth _ hc

theorem mem_log_launchTool {c : Syscall} (hc : c ∈ s.os.log) :
    c ∈ (launchTool w mode s kind process thread options).os.log := by
  rcases Os.nextChild_cases w s.os with hfork | hfork
  · rw [launchTool_of_noChild w mode s kind process thread options hfork]
    exact List.mem_append_left _ hc
  · rw [launchTool_of_child w mode s kind process thread options hfork]
    apply CmdRunner.mem_log_foldl_destroy
    apply mem_log_pushBack
    exact List.mem_append_left _ hc

/-- The destructor of the local `entry` signals the tool just launched. -/
theorem kill_mem_launchTool (hfork : 0 < s.os.nextChild w) :
    exists pid unreaped,
      .kill pid .launch unreaped ∈ (launchTool w .copy s kind process thread options).os.log := by
  rw [launchTool_of_child w .copy s kind process thread options hfork]
  refine ⟨s.os.nextChild w, ?_⟩
  simp only [List.foldl_cons]
  exact ⟨_, CmdRunner.mem_log_foldl_destroy w .launch [_]
    (CmdRunner.kill_mem_destroy hfork w .launch _)⟩

end Launch

/-!
## Runs without a child
-/

structure NoTools (s : BpfDiagnoser) : Prop where
  runners : s.runners = []
  children : s.os.children = []
  log : forall c, c ∈ s.os.log -> exists cmd, c = .fork cmd (-1)

theorem noTools_fresh (settings : BpfSettings) (disk : Disk) : (fresh settings disk).NoTools := by
  refine ⟨rfl, rfl, ?_⟩
  intro c hc
  cases hc

theorem NoTools.toolsOwned {s : BpfDiagnoser} (h : s.NoTools) (w : World) : s.ToolsOwned w := by
  have hsent : forall c, c ∈ s.os.log -> c.Permitted := by
    intro c hc
    rcases h.log c hc with ⟨cmd, hcmd⟩
    rw [hcmd]
    trivial
  have hstop : forall cause, (s.stopRunners w cause).os = s.os := by
    intro cause
    unfold stopRunners
    rw [h.runners]
    rfl
  constructor
  · exact hsent
  · intro c hc
    apply hsent
    rwa [stopAll, hstop] at hc
  · intro c hc
    apply hsent
    rwa [destruct, hstop] at hc

section Forks

variable (w : World)

theorem nextChild_of_noTools {s : BpfDiagnoser} (h : s.NoTools) :
    s.os.nextChild w = if 0 < w.fork s.os.forks then w.fork s.os.forks else -1 := by
  unfold Os.nextChild
  rw [h.children]
  simp

section Folds

variable {α : Type} {kind : ToolKind} {f : BpfDiagnoser -> α -> BpfDiagnoser}

theorem noTools_launch {mode : Handover} (hf : Launches w mode kind f) {s : BpfDiagnoser}
    (h : s.NoTools) (hfork : ¬ 0 < w.fork s.os.forks) (cfg : α) :
    (f s cfg).NoTools ∧ (f s cfg).os.forks = s.os.forks + 1 := by
  have hnext : s.os.nextChild w = -1 := by
    rw [nextChild_of_noTools w h, if_neg hfork]
  rcases hf s cfg with ⟨process, thread, options, heq⟩
  rw [heq, launchTool_of_noChild w mode s kind process thread options hnext]
  refine ⟨⟨h.runners, h.children, ?_⟩, rfl⟩
  intro c hc
  rcases List.mem_append.mp hc with hold | hnew
  · exact h.log c hold
  · exact ⟨_, List.mem_singleton.mp hnew⟩

theorem noTools_foldl {mode : Handover} (hf : Launches w mode kind f) (cfgs : List α)
    {s : BpfDiagnoser} (h : s.NoTools)
    (hfork : forall n, n < cfgs.length -> ¬ 0 < w.fork (s.os.forks + n)) :
    (cfgs.foldl f s).NoTools ∧ (cfgs.foldl f s).os.forks = s.os.forks + cfgs.length := by
  induction cfgs generalizing s with
  | nil => exact ⟨h, rfl⟩
  | cons cfg rest ih =>
      have hfirst := noTools_launch w hf h (hfork 0 (Nat.succ_pos _)) cfg
      have hrest : forall n, n < rest.length -> ¬ 0 < w.fork ((f s cfg).os.forks + n) := by
        intro n hn
        rw [hfirst.right, Nat.add_assoc, Nat.add_comm 1 n]
        exact hfork (n + 1) (Nat.succ_lt_succ hn)
      have hall := ih hfirst.left hrest
      refine ⟨hall.left, ?_⟩
      rw [List.foldl_cons, hall.right, hfirst.right, List.length_cons, Nat.add_assoc,
        Nat.add_comm 1]

theorem mem_log_foldl {mode : Handover} (hf : Launches w mode kind f) (cfgs : List α)
    {s : BpfDiagnoser} {c : Syscall} (hc : c ∈ s.os.log) : c ∈ (cfgs.foldl f s).os.log := by
  induction cfgs generalizing s with
  | nil => exact hc
  | cons cfg rest ih =>
      apply ih
      rcases hf s cfg with ⟨process, thread, options, heq⟩
      rw [heq]
      exact mem_log_launchTool w mode s kind process thread options hc

/-- If every signal after a launch is permitted, its `fork` failed. -/
theorem noFork_of_permitted (hf : Launches w .copy kind f) {s : BpfDiagnoser} (h : s.NoTools)
    (cfg : α) (hlog : forall c, c ∈ (f s cfg).os.log -> c.Permitted) :
    ¬ 0 < w.fork s.os.forks := by
  intro hfork
  have hnext : 0 < s.os.nextChild w := by
    rw [nextChild_of_noTools w h, if_pos hfork]
    exact hfork
  rcases hf s cfg with ⟨process, thread, options, heq⟩
  rcases kill_mem_launchTool w s kind process thread options hnext with ⟨pid, unreaped, hmem⟩
  rw [← heq] at hmem
  rcases (hlog _ hmem).left with hcause | hcause
  · cases hcause
  · cases hcause

theorem noFork_of_permitted_foldl (hf : Launches w .copy kind f) (cfgs : List α)
    {s : BpfDiagnoser} (h : s.NoTools)
    (hlog : forall c, c ∈ (cfgs.foldl f s).os.log -> c.Permitted) :
    forall n, n < cfgs.length -> ¬ 0 < w.fork (s.os.forks + n) := by
  induction cfgs generalizing s with
  | nil =>
      intro n hn
      cases hn
  | cons cfg rest ih =>
      have hfirst : ¬ 0 < w.fork s.os.forks := by
        apply noFork_of_permitted w hf h cfg
        intro c hc
        exact hlog c (mem_log_foldl w hf rest hc)
      have hnext := noTools_launch w hf h hfirst cfg
      intro n hn
      cases n with
      | zero => exact hfirst
      | succ n =>
          have hlater := ih hnext.left hlog n (Nat.lt_of_succ_lt_succ hn)
          rw [hnext.right, Nat.add_assoc, Nat.add_comm 1 n] at hlater
          exact hlater

end Folds

/-!
## Whole runs
-/

theorem collect_of_noTools (mode : Handover) {s : BpfDiagnoser} (h : s.NoTools) :
    s.collect w mode =
      s.profileConfigs.foldl (launchProfile w mode)
        (s.offcpuConfigs.foldl (launchOffcpu w mode) s) := by
  have hreap : reap w mode s [] s.runners = s := by
    rw [h.runners]
    show { s with runners := [] } = s
    rw [← h.runners]
  unfold collect
  rw [hreap]
  unfold relaunch
  by_cases hconfigs : s.offcpuConfigs ≠ [] ∨ s.profileConfigs ≠ []
  · rw [if_pos ⟨h.runners, hconfigs⟩]
  · rw [if_neg (fun hboth => hconfigs hboth.right)]
    rw [not_or, not_not, not_not] at hconfigs
    rw [hconfigs.left, hconfigs.right]
    rfl

theorem noTools_step (mode : Handover) (s : BpfDiagnoser) (op : DiagnoserOp) (h : s.NoTools)
    (hfail : s.ForksFail w op) : (s.step w mode op).NoTools := by
  cases op with
  | startOffcpu cfg =>
      have hadded : NoTools { s with offcpuConfigs := s.offcpuConfigs ++ [cfg] } :=
        ⟨h.runners, h.children, h.log⟩
      exact (noTools_launch w (launches_offcpu w mode) hadded hfail cfg).left
  | startProfile cfg =>
      have hadded : NoTools { s with profileConfigs := s.profileConfigs ++ [cfg] } :=
        ⟨h.runners, h.children, h.log⟩
      exact (noTools_launch w (launches_profile w mode) hadded hfail cfg).left
  | collect =>
      show (s.collect w mode).NoTools
      rw [collect_of_noTools w mode h]
      have hoffcpu := noTools_foldl w (launches_offcpu w mode) s.offcpuConfigs h
        (fun n hn => hfail n (Nat.lt_add_right _ hn))
      apply (noTools_foldl w (launches_profile w mode) s.profileConfigs hoffcpu.left _).left
      intro n hn
      rw [hoffcpu.right, Nat.add_assoc]
      exact hfail _ (Nat.add_lt_add_left hn _)
  | reset => exact ⟨h.runners, h.children, h.log⟩
  | write path st => exact ⟨h.runners, h.children, h.log⟩

theorem forksFail_of_toolsOwned (s : BpfDiagnoser) (op : DiagnoserOp) (h : s.NoTools)
    (hafter : (s.step w .copy op).ToolsOwned w) : s.ForksFail w op := by
  cases op with
  | startOffcpu cfg =>
      have hadded : NoTools { s with offcpuConfigs := s.offcpuConfigs ++ [cfg] } :=
        ⟨h.runners, h.children, h.log⟩
      have hfork := noFork_of_permitted w (launches_offcpu w .copy) hadded cfg hafter.sent
      exact hfork
  | startProfile cfg =>
      have hadded : NoTools { s with profileConfigs := s.profileConfigs ++ [cfg] } :=
        ⟨h.runners, h.children, h.log⟩
      have hfork := noFork_of_permitted w (launches_profile w .copy) hadded cfg hafter.sent
      exact hfork
  | collect =>
      have hlog := hafter.sent
      change forall c, c ∈ (s.collect w .copy).os.log -> c.Permitted at hlog
      rw [collect_of_noTools w .copy h] at hlog
      have hoffcpu : forall n, n < s.offcpuConfigs.length -> ¬ 0 < w.fork (s.os.forks + n) := by
        apply noFork_of_permitted_foldl w (launches_offcpu w .copy) s.offcpuConfigs h
        intro c hc
        exact hlog c (mem_log_foldl w (launches_profile w .copy) _ hc)
      have hmiddle := noTools_foldl w (launches_offcpu w .copy) s.offcpuConfigs h hoffcpu
      have hprofile := noFork_of_permitted_foldl w (launches_profile w .copy) s.profileConfigs
        hmiddle.left hlog
      intro n hn
      by_cases hfirst : n < s.offcpuConfigs.length
      · exact hoffcpu n hfirst
      · have hlater := hprofile (n - s.offcpuConfigs.length) (by omega)
        rw [hmiddle.right, Nat.add_assoc, Nat.add_sub_cancel' (Nat.le_of_not_lt hfirst)] at hlater
        exact hlater
  | reset => trivial
  | write path st => trivial

/-- Over a run of the diagnoser as the C++ code has it, tools are stopped only on
request or with the diagnoser, and only while they are un-reaped children, exactly
when no `fork` of the run succeeds. -/
theorem toolsOwned_iff_forksFail (settings : BpfSettings) (disk : Disk)
    (ops : List DiagnoserOp) :
    Throughout (step w .copy) (ToolsOwned w) (fresh settings disk) ops <->
      EachStep (step w .copy) (ForksFail w) (fresh settings disk) ops := by
  apply throughout_iff_eachStep (noTools_step w .copy) (forksFail_of_toolsOwned w)
  · intro s h
    exact h.toolsOwned w
  · exact noTools_fresh settings disk

end Forks

/-- A system whose forks give the pids 101, 102 and so on, and where no tool exits
by itself. -/
def forkingWorld : World where
  fork n := 101 + n

/-- One configured tool is enough: its own launch signals it. -/
theorem oneTool_not_owned :
    ¬ Throughout (step forkingWorld .copy) (ToolsOwned forkingWorld) (fresh {} ∅)
      [.startOffcpu { process := "nginx".toList }] := by
  intro h
  have hfail := forksFail_of_toolsOwned forkingWorld (fresh {} ∅)
    (.startOffcpu { process := "nginx".toList }) (noTools_fresh {} ∅) (throughout_final h)
  exact hfail (by decide)

end BpfDiagnoser

end Worker
end PerfMonitor
