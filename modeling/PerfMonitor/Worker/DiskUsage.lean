import PerfMonitor.Worker.Rotation

/-!
# Disk usage over whole runs

Every launch creates a file, and files are removed only by the rotation that
follows the report of a tool with data.  As long as every tool that `Collect`
finds finished has data, each kind is rotated before its tools are launched again,
and the number of its files stays below the limit plus the number of its entries.
A tool that leaves an empty file is reaped without a rotation, and its file stays.
-/

namespace PerfMonitor
namespace Worker

open Foundation

namespace BpfDiagnoser

def runnersOf (s : BpfDiagnoser) (kind : ToolKind) : Nat :=
  s.runners.countP (fun e => decide (e.pendingEv.type = kind.type))

def entriesOf (s : BpfDiagnoser) : ToolKind -> Nat
  | .offcpu => s.offcpuConfigs.length
  | .profile => s.profileConfigs.length

def filesOf (s : BpfDiagnoser) (kind : ToolKind) : Nat :=
  s.disk.fileCount s.settings.outputDir kind.type

def Bounded (s : BpfDiagnoser) : Prop :=
  forall kind, (s.filesOf kind : Int) ≤ s.settings.limitFileNum + s.entriesOf kind

section Usage

variable (w : World) (mode : Handover)

/-- Every tool that this `Collect` finds finished has data, and the number of files
fits into an `int`. -/
def CleansUp (s : BpfDiagnoser) : DiagnoserOp -> Prop
  | .startOffcpu _ => True
  | .startProfile _ => True
  | .collect =>
      (forall e, e ∈ finished w mode s.os s.runners ->
        s.disk.hasData e.pendingEv.filePath = true) ∧
      forall kind, s.filesOf kind < 2 ^ 31
  | .reset => True
  | .write _ _ => True

/-- At most `limit` files of each kind besides those of its running tools. -/
structure FilesOk (settings : BpfSettings) (s : BpfDiagnoser) : Prop where
  wellFormed : s.WellFormed settings
  files : forall kind, (s.filesOf kind : Int) ≤ settings.limitFileNum + s.runnersOf kind

variable {settings : BpfSettings}

/-!
## Launches
-/

theorem runnersOf_launchTool (s : BpfDiagnoser) (kind : ToolKind) (process thread : Str)
    (options : Str -> List Str) (kind' : ToolKind) :
    (launchTool w mode s kind process thread options).runnersOf kind' ≤
      s.runnersOf kind' + (if kind = kind' then 1 else 0) := by
  unfold runnersOf
  rcases launchTool_cases w mode s kind process thread options with ⟨os, heq⟩ | ⟨os, capacity, heq⟩
  · rw [heq]
    exact Nat.le_add_right _ _
  · rw [heq, List.countP_append]
    apply Nat.add_le_add_left
    have htype : (nextEntry w s kind process thread).pendingEv.type = kind.type := rfl
    rw [List.countP_cons, List.countP_nil, htype]
    by_cases hkind : kind = kind'
    · rw [if_pos hkind]
      split <;> omega
    · have hne : kind.type ≠ kind'.type := fun hsame => hkind (kind_eq_of_type_eq hsame)
      rw [if_neg (by simpa using hne)]
      exact Nat.zero_le _

theorem fileCount_childOpen_le (dir : Str) (kind : ToolKind) (os : Os) (out : Str) (disk : Disk) :
    (CmdRunner.childOpen w os out disk).fileCount dir kind.type ≤
      disk.fileCount dir kind.type + (if Disk.isMatch dir kind.type out then 1 else 0) := by
  unfold CmdRunner.childOpen
  split
  · exact Nat.le_add_right _ _
  · split
    · exact Nat.le_add_right _ _
    · exact Disk.fileCount_insert_le dir kind.type out _ disk

theorem filesOk_launchTool (s : BpfDiagnoser) (kind : ToolKind) (process thread : Str)
    (options : Str -> List Str) (h : s.FilesOk settings) :
    (launchTool w mode s kind process thread options).FilesOk settings := by
  refine ⟨wellFormed_launchTool w mode s kind process thread options h.wellFormed, ?_⟩
  intro kind'
  have hfiles := h.files kind'
  unfold filesOf runnersOf at hfiles ⊢
  rcases launchTool_cases w mode s kind process thread options with ⟨os, heq⟩ | ⟨os, capacity, heq⟩
  · rw [heq]
    exact hfiles
  · rw [heq, List.countP_append, List.countP_cons, List.countP_nil]
    have hadd := fileCount_childOpen_le w s.settings.outputDir kind' s.os
      (nextOut w s kind process thread) s.disk
    have hlaunched := launched_nextEntry w s kind process thread
    cases hmatch : Disk.isMatch s.settings.outputDir kind'.type
        (nextOut w s kind process thread) with
    | false =>
        rw [hmatch] at hadd
        simp only [Bool.false_eq_true, if_false] at hadd
        simp only
        omega
    | true =>
        rw [hmatch] at hadd
        have hkind : kind' = kind := hlaunched.kind_eq_of_isMatch hmatch
        have htype : (nextEntry w s kind process thread).pendingEv.type = kind'.type := by
          rw [hlaunched.type, hkind]
        rw [if_pos (decide_eq_true htype)]
        simp only [if_true] at hadd
        simp only
        omega

theorem runnersOf_foldl {α : Type} {kind : ToolKind} {f : BpfDiagnoser -> α -> BpfDiagnoser}
    (hf : Launches w mode kind f) (cfgs : List α) (s : BpfDiagnoser) (kind' : ToolKind) :
    (cfgs.foldl f s).runnersOf kind' ≤
      s.runnersOf kind' + (if kind = kind' then cfgs.length else 0) := by
  induction cfgs generalizing s with
  | nil => exact Nat.le_add_right _ _
  | cons cfg rest ih =>
      rcases hf s cfg with ⟨process, thread, options, heq⟩
      have hfirst := runnersOf_launchTool w mode s kind process thread options kind'
      have hrest := ih (f s cfg)
      rw [heq] at hrest
      rw [List.foldl_cons, heq, List.length_cons]
      by_cases hkind : kind = kind'
      · rw [if_pos hkind] at hfirst hrest ⊢
        omega
      · rw [if_neg hkind] at hfirst hrest ⊢
        omega

theorem entriesOf_launchTool (s : BpfDiagnoser) (kind : ToolKind) (process thread : Str)
    (options : Str -> List Str) (kind' : ToolKind) :
    (launchTool w mode s kind process thread options).entriesOf kind' = s.entriesOf kind' := by
  rcases launchTool_cases w mode s kind process thread options with ⟨os, heq⟩ | ⟨os, capacity, heq⟩
  · rw [heq]
    cases kind' <;> rfl
  · rw [heq]
    cases kind' <;> rfl

/-!
## Reaping
-/

/-- After the loop a kind has at most `limit` files, unless no tool of it was found
finished, and then its files are as before. -/
theorem filesOf_reap {s : BpfDiagnoser} (h : s.WellFormed settings)
    (hlimit : 0 < settings.limitFileNum) (hclean : s.CleansUp w mode .collect)
    (kind : ToolKind) :
    ((reap w mode s [] s.runners).filesOf kind : Int) ≤ settings.limitFileNum ∨
      ((forall e, e ∈ finished w mode s.os s.runners -> e.pendingEv.type ≠ kind.type) ∧
        (reap w mode s [] s.runners).filesOf kind = s.filesOf kind) := by
  have hdone := launched_finished w mode h
  unfold filesOf
  rw [(frame_reap w mode s.runners s []).left, disk_reap w mode h, h.configured]
  by_cases hkind : exists e, e ∈ finished w mode s.os s.runners ∧ e.pendingEv.type = kind.type
  · left
    rcases hkind with ⟨e, he, htype⟩
    rcases eraseIf_gone_of_rotated hdone (List.mem_map_of_mem he) (hclean.left e he) htype with
      ⟨other, hother, heq⟩
    have hsize : s.disk.fileCount settings.outputDir kind.type < 2 ^ 31 := by
      rw [← h.configured]
      exact hclean.right kind
    rw [heq, Disk.fileCount_eraseIf hother, Disk.fileCount_cleanupFiles]
    exact Disk.sub_excess_le hlimit hsize
  · right
    refine ⟨fun e he htype => hkind ⟨e, he, htype⟩, ?_⟩
    apply Disk.fileCount_eraseIf
    apply gone_of_unrotated hdone
    rintro ⟨ev, hev, _, htype⟩
    rcases List.mem_map.mp hev with ⟨e, he, hpending⟩
    exact hkind ⟨e, he, by rw [hpending, htype]⟩

theorem runnersOf_reap (s : BpfDiagnoser) (kind : ToolKind) :
    (reap w mode s [] s.runners).runnersOf kind ≤ s.runnersOf kind := by
  have hcount := countP_reap w mode (fun ev => decide (ev.type = kind.type)) s.runners s []
  unfold runnersOf
  rw [List.countP_nil, Nat.zero_add] at hcount
  exact Nat.le_of_add_right_le (Nat.le_of_eq hcount)

theorem runnersOf_reap_of_none {s : BpfDiagnoser} {kind : ToolKind}
    (hnone : forall e, e ∈ finished w mode s.os s.runners -> e.pendingEv.type ≠ kind.type) :
    (reap w mode s [] s.runners).runnersOf kind = s.runnersOf kind := by
  have hcount := countP_reap w mode (fun ev => decide (ev.type = kind.type)) s.runners s []
  have hzero : (finished w mode s.os s.runners).countP
      (fun e => decide (e.pendingEv.type = kind.type)) = 0 := by
    apply List.countP_eq_zero.mpr
    intro e he
    simpa using hnone e he
  unfold runnersOf
  rw [hzero, List.countP_nil, Nat.zero_add, Nat.add_zero] at hcount
  exact hcount

theorem filesOk_reap {s : BpfDiagnoser} (h : s.FilesOk settings)
    (hlimit : 0 < settings.limitFileNum) (hclean : s.CleansUp w mode .collect) :
    (reap w mode s [] s.runners).FilesOk settings := by
  refine ⟨wellFormed_reap w mode s h.wellFormed, ?_⟩
  intro kind
  rcases filesOf_reap w mode h.wellFormed hlimit hclean kind with hrotated | ⟨hnone, hsame⟩
  · omega
  · rw [hsame, runnersOf_reap_of_none w mode hnone]
    exact h.files kind

/-!
## Whole runs
-/

structure UsageOk (settings : BpfSettings) (s : BpfDiagnoser) : Prop where
  filesOk : s.FilesOk settings
  runners : forall kind, s.runnersOf kind ≤ s.entriesOf kind

theorem runnersOf_relaunch {s : BpfDiagnoser}
    (h : forall kind, s.runnersOf kind ≤ s.entriesOf kind) (kind : ToolKind) :
    (relaunch w mode s).runnersOf kind ≤ s.entriesOf kind := by
  unfold relaunch
  split
  · rename_i hidle
    have hprofile := runnersOf_foldl w mode (launches_profile w mode) s.profileConfigs
      (s.offcpuConfigs.foldl (launchOffcpu w mode) s) kind
    have hoffcpu := runnersOf_foldl w mode (launches_offcpu w mode) s.offcpuConfigs s kind
    have hnone : s.runnersOf kind = 0 := by
      unfold runnersOf
      rw [hidle.left]
      rfl
    cases kind with
    | offcpu =>
        show _ ≤ s.offcpuConfigs.length
        simp only [if_true, reduceCtorEq, if_false] at hprofile hoffcpu
        omega
    | profile =>
        show _ ≤ s.profileConfigs.length
        simp only [if_true, reduceCtorEq, if_false] at hprofile hoffcpu
        omega
  · exact h kind

theorem entriesOf_relaunch (s : BpfDiagnoser) (kind : ToolKind) :
    (relaunch w mode s).entriesOf kind = s.entriesOf kind := by
  have hlaunch : forall (s' : BpfDiagnoser) kind' process thread options,
      s'.entriesOf kind = s.entriesOf kind ->
      (launchTool w mode s' kind' process thread options).entriesOf kind = s.entriesOf kind := by
    intro s' kind' process thread options h
    rw [entriesOf_launchTool, h]
  exact relaunch_invariant hlaunch rfl

theorem usageOk_start {α : Type} {kind : ToolKind} {f : BpfDiagnoser -> α -> BpfDiagnoser}
    (hf : Launches w mode kind f) {s added : BpfDiagnoser} (h : s.UsageOk settings)
    (hfiles : added.FilesOk settings)
    (hrunners : added.runners = s.runners)
    (hentries : forall kind',
      added.entriesOf kind' = s.entriesOf kind' + (if kind = kind' then 1 else 0))
    (cfg : α) : (f added cfg).UsageOk settings := by
  constructor
  · exact launch_invariant hf (filesOk_launchTool w mode) hfiles cfg
  · intro kind'
    rcases hf added cfg with ⟨process, thread, options, heq⟩
    have hone := runnersOf_launchTool w mode added kind process thread options kind'
    have hbefore := h.runners kind'
    have hsame : added.runnersOf kind' = s.runnersOf kind' := by
      unfold runnersOf
      rw [hrunners]
    rw [heq, entriesOf_launchTool, hentries]
    omega

theorem usageOk_step (hlimit : 0 < settings.limitFileNum) (s : BpfDiagnoser) (op : DiagnoserOp)
    (h : s.UsageOk settings) (hclean : s.CleansUp w mode op) :
    (s.step w mode op).UsageOk settings := by
  have hwell := h.filesOk.wellFormed
  cases op with
  | startOffcpu cfg =>
      apply usageOk_start w mode (launches_offcpu w mode) h
      · exact ⟨⟨hwell.configured, hwell.launched⟩, h.filesOk.files⟩
      · rfl
      · intro kind'
        cases kind' with
        | offcpu => exact List.length_append
        | profile => rfl
  | startProfile cfg =>
      apply usageOk_start w mode (launches_profile w mode) h
      · exact ⟨⟨hwell.configured, hwell.launched⟩, h.filesOk.files⟩
      · rfl
      · intro kind'
        cases kind' with
        | offcpu => rfl
        | profile => exact List.length_append
  | collect =>
      have hreaped := filesOk_reap w mode h.filesOk hlimit hclean
      have hentries : forall kind,
          (reap w mode s [] s.runners).entriesOf kind = s.entriesOf kind := by
        intro kind
        have hframe := (frame_reap w mode s.runners s []).right
        cases kind with
        | offcpu => exact congrArg List.length hframe.left
        | profile => exact congrArg List.length hframe.right
      have hrunners : forall kind, (reap w mode s [] s.runners).runnersOf kind ≤
          (reap w mode s [] s.runners).entriesOf kind := by
        intro kind
        rw [hentries]
        exact Nat.le_trans (runnersOf_reap w mode s kind) (h.runners kind)
      constructor
      · exact relaunch_invariant (filesOk_launchTool w mode) hreaped
      · intro kind
        show (relaunch w mode _).runnersOf kind ≤ (relaunch w mode _).entriesOf kind
        rw [entriesOf_relaunch]
        exact runnersOf_relaunch w mode hrunners kind
  | reset => exact ⟨⟨⟨hwell.configured, hwell.launched⟩, h.filesOk.files⟩, h.runners⟩
  | write path st =>
      refine ⟨⟨⟨hwell.configured, hwell.launched⟩, ?_⟩, h.runners⟩
      intro kind
      show (Disk.fileCount _ _ (s.disk.write path st) : Int) ≤ _
      rw [Disk.fileCount_write]
      exact h.filesOk.files kind

/-- In a run in which every tool that a `Collect` finds finished has data, the number
of files of each kind never exceeds the limit plus the number of its entries. -/
theorem bounded_of_cleansUp (settings : BpfSettings) (disk : Disk) (ops : List DiagnoserOp)
    (hlimit : 0 < settings.limitFileNum)
    (hinitial : forall kind : ToolKind,
      (disk.fileCount settings.outputDir kind.type : Int) ≤ settings.limitFileNum)
    (hclean : EachStep (step w mode) (CleansUp w mode) (fresh settings disk) ops) :
    Throughout (step w mode) Bounded (fresh settings disk) ops := by
  have hfresh : (fresh settings disk).UsageOk settings := by
    refine ⟨⟨⟨rfl, ?_⟩, ?_⟩, ?_⟩
    · intro ev hev
      cases hev
    · intro kind
      show _ ≤ settings.limitFileNum + 0
      rw [Int.add_zero]
      exact hinitial kind
    · intro kind
      exact Nat.zero_le _
  have hrun := throughout_of_guarded (usageOk_step w mode hlimit) hfresh hclean
  apply throughout_mono _ hrun
  intro s h kind
  have hfiles := h.filesOk.files kind
  have hrunners := h.runners kind
  rw [h.filesOk.wellFormed.configured]
  omega

end Usage

/-!
## Tools with and without output
-/

def steadyRun : List DiagnoserOp :=
  [.startOffcpu { process := ['a'] },
    .write "d/offcpu_a_0.data".toList { size := 3, mtime := 5 }, .collect,
    .write "d/offcpu_a_2.data".toList { size := 3, mtime := 6 }, .collect]

theorem steadyRun_bounded :
    Throughout (step finishingWorld .copy) Bounded
      (fresh { outputDir := ['d'], limitFileNum := 1 } ∅) steadyRun := by
  apply bounded_of_cleansUp finishingWorld .copy
  · decide
  · intro kind
    cases kind <;> decide
  · refine ⟨trivial, trivial, ⟨by decide, ?_⟩, trivial, ⟨by decide, ?_⟩, trivial⟩
    · intro kind
      cases kind <;> decide
    · intro kind
      cases kind <;> decide

/-- The same tool leaving an empty file each time: after two `Collect`s there are
three files where two are allowed. -/
theorem emptyResults_not_bounded :
    ¬ Throughout (step finishingWorld .copy) Bounded
      (fresh { outputDir := ['d'], limitFileNum := 1 } ∅)
      [.startOffcpu { process := ['a'] }, .collect, .collect] := by
  intro h
  have hlast := throughout_final h .offcpu
  revert hlast
  decide

end BpfDiagnoser

end Worker
end PerfMonitor
