import PerfMonitor.Worker.ReapLoop

/-!
# Rotation and the results being reported

`Collect` rotates the files of a type each time it reports a tool of that type, in
the middle of the loop that reaps the tools.  Rotation looks at age only, so it
may remove the result of a tool that finished in the same `Collect`: before its
turn, and then its event is lost, or after it, and then its event names a file
that is gone.
-/

namespace PerfMonitor
namespace Worker

open Foundation

namespace BpfDiagnoser

section Rotation

variable (w : World) (mode : Handover)

/-- The settings never change, and every runner was launched under them. -/
structure WellFormed (settings : BpfSettings) (s : BpfDiagnoser) : Prop where
  configured : s.settings = settings
  launched : AllLaunched settings (s.runners.map RunnerEntry.pendingEv)

theorem wellFormed_launchTool {settings : BpfSettings} (s : BpfDiagnoser) (kind : ToolKind)
    (process thread : Str) (options : Str -> List Str) (h : s.WellFormed settings) :
    (launchTool w mode s kind process thread options).WellFormed settings := by
  rcases launchTool_cases w mode s kind process thread options with ⟨os, heq⟩ | ⟨os, capacity, heq⟩
  · rw [heq]
    exact ⟨h.configured, h.launched⟩
  · rw [heq]
    refine ⟨h.configured, ?_⟩
    intro ev hev
    rw [List.map_append] at hev
    rcases List.mem_append.mp hev with hold | hnew
    · exact h.launched ev hold
    · rw [List.mem_singleton.mp hnew, ← h.configured]
      exact ⟨kind, launched_nextEntry w s kind process thread⟩

theorem wellFormed_reap {settings : BpfSettings} (s : BpfDiagnoser)
    (h : s.WellFormed settings) : (reap w mode s [] s.runners).WellFormed settings := by
  constructor
  · rw [(frame_reap w mode s.runners s []).left]
    exact h.configured
  · intro ev hev
    rcases List.mem_map.mp hev with ⟨e, he, hpending⟩
    rcases mem_runners_reap w mode s.runners s [] he with ⟨e', he', hsame⟩
    rw [← hpending, ← hsame]
    exact h.launched _ (List.mem_map_of_mem he')

theorem wellFormed_step {settings : BpfSettings} (s : BpfDiagnoser) (op : DiagnoserOp)
    (h : s.WellFormed settings) : (s.step w mode op).WellFormed settings := by
  cases op with
  | startOffcpu cfg =>
      have hadded : WellFormed settings { s with offcpuConfigs := s.offcpuConfigs ++ [cfg] } :=
        ⟨h.configured, h.launched⟩
      exact launch_invariant (launches_offcpu w mode) (wellFormed_launchTool w mode) hadded cfg
  | startProfile cfg =>
      have hadded : WellFormed settings { s with profileConfigs := s.profileConfigs ++ [cfg] } :=
        ⟨h.configured, h.launched⟩
      exact launch_invariant (launches_profile w mode) (wellFormed_launchTool w mode) hadded cfg
  | collect =>
      exact relaunch_invariant (wellFormed_launchTool w mode) (wellFormed_reap w mode s h)
  | reset => exact ⟨h.configured, h.launched⟩
  | write path st => exact ⟨h.configured, h.launched⟩

theorem wellFormed_run (settings : BpfSettings) (disk : Disk) (ops : List DiagnoserOp) :
    (runFrom (step w mode) (fresh settings disk) ops).WellFormed settings := by
  apply runFrom_invariant (wellFormed_step w mode)
  refine ⟨rfl, ?_⟩
  intro ev hev
  cases hev

/-!
## One `Collect`
-/

def appended (s : BpfDiagnoser) : List CppDiagnoseEvent :=
  (s.collect w mode).events.drop s.events.length

/-- Every tool found finished with data has exactly one new event, and the file of
every new event is still there when reaping is over and when `Collect` returns. -/
structure KeepsResults (s : BpfDiagnoser) : Prop where
  reported : forall e, e ∈ finished w mode s.os s.runners ->
    s.disk.hasData e.pendingEv.filePath = true ->
    ((appended w mode s).filter
      (fun ev => decide (ev.filePath = e.pendingEv.filePath))).length = 1
  kept : forall ev, ev ∈ appended w mode s ->
    ev.filePath ∈ (reap w mode s [] s.runners).disk ∧ ev.filePath ∈ (s.collect w mode).disk

/-- No result of a tool found finished is among the files that a rotation of its
type would remove from the directory as it was before the `Collect`. -/
def ResultsSpared (s : BpfDiagnoser) : Prop :=
  forall e, e ∈ finished w mode s.os s.runners ->
    s.disk.hasData e.pendingEv.filePath = true ->
    e.pendingEv.filePath ∉
      s.disk.doomed s.settings.outputDir s.settings.limitFileNum e.pendingEv.type

theorem events_relaunch (s : BpfDiagnoser) : (relaunch w mode s).events = s.events := by
  apply relaunch_keeps (fun s' => s'.events = s.events)
  · intro s' os h
    exact h
  · intro s' os capacity e out h
    exact h
  · rfl

theorem mem_childOpen {path : Str} {disk : Disk} (hpath : path ∈ disk) (os : Os)
    (outputFile : Str) : path ∈ CmdRunner.childOpen w os outputFile disk := by
  unfold CmdRunner.childOpen
  split
  · exact hpath
  · split
    · exact hpath
    · exact (AList.mem_insert disk).mpr (Or.inr hpath)

theorem mem_disk_relaunch {path : Str} {s : BpfDiagnoser} (hpath : path ∈ s.disk) :
    path ∈ (relaunch w mode s).disk := by
  apply relaunch_keeps (fun s' => path ∈ s'.disk)
  · intro s' os h
    exact h
  · intro s' os capacity e out h
    exact mem_childOpen w h s'.os out
  · exact hpath

section Collect

variable {settings : BpfSettings} {s : BpfDiagnoser}

theorem launched_finished (h : s.WellFormed settings) :
    AllLaunched settings ((finished w mode s.os s.runners).map RunnerEntry.pendingEv) := by
  intro ev hev
  rcases List.mem_map.mp hev with ⟨e, he, hpending⟩
  rw [← hpending]
  exact h.launched _ (List.mem_map_of_mem (mem_finished w mode he))

theorem disk_reap (h : s.WellFormed settings) :
    (reap w mode s [] s.runners).disk =
      s.disk.eraseIf (fun path _ => gone settings s.disk
        ((finished w mode s.os s.runners).map RunnerEntry.pendingEv) path) := by
  have hresults := congrArg Prod.snd (results_reap w mode s.runners s [])
  rw [h.configured] at hresults
  exact hresults.trans (disk_foldl_reportStep s.events s.disk (launched_finished w mode h))

theorem appended_eq :
    s.events ++ appended w mode s =
      (((finished w mode s.os s.runners).map RunnerEntry.pendingEv).foldl
        (reportStep s.settings) s.results).1 := by
  have hevents : (s.collect w mode).events =
      (((finished w mode s.os s.runners).map RunnerEntry.pendingEv).foldl
        (reportStep s.settings) s.results).1 := by
    unfold collect
    rw [events_relaunch]
    exact congrArg Prod.fst (results_reap w mode s.runners s [])
  rcases exists_events_foldl_reportStep s.settings
    ((finished w mode s.os s.runners).map RunnerEntry.pendingEv) s.results with ⟨new, hnew⟩
  unfold appended
  rw [hevents, hnew]
  show s.events ++ (s.events ++ new).drop s.events.length = s.events ++ new
  rw [List.drop_left]

theorem mem_of_hasData {disk : Disk} {path : Str} (hdata : disk.hasData path = true) :
    path ∈ disk := by
  unfold Disk.hasData at hdata
  cases hlookup : disk.lookup path with
  | none =>
      rw [hlookup] at hdata
      cases hdata
  | some st => exact Table.mem_of_lookup hlookup

theorem notMem_disk_reap (h : s.WellFormed settings) {e : RunnerEntry}
    (he : e ∈ finished w mode s.os s.runners)
    (hdata : s.disk.hasData e.pendingEv.filePath = true)
    (hdoomed : e.pendingEv.filePath ∈
      s.disk.doomed s.settings.outputDir s.settings.limitFileNum e.pendingEv.type) :
    e.pendingEv.filePath ∉ (reap w mode s [] s.runners).disk := by
  have hgone : gone settings s.disk ((finished w mode s.os s.runners).map RunnerEntry.pendingEv)
      e.pendingEv.filePath = true := by
    rw [h.configured] at hdoomed
    exact gone_iff.mpr ⟨e.pendingEv, List.mem_map_of_mem he, hdata, hdoomed⟩
  rw [disk_reap w mode h, Table.mem_eraseIf_keys, hgone]
  intro hboth
  cases hboth.right

theorem gone_of_spared (h : s.WellFormed settings) (hspared : ResultsSpared w mode s)
    {e : RunnerEntry} (he : e ∈ finished w mode s.os s.runners)
    (hdata : s.disk.hasData e.pendingEv.filePath = true) :
    gone settings s.disk ((finished w mode s.os s.runners).map RunnerEntry.pendingEv)
      e.pendingEv.filePath = false := by
  cases hgone : gone settings s.disk
      ((finished w mode s.os s.runners).map RunnerEntry.pendingEv) e.pendingEv.filePath with
  | false => rfl
  | true =>
      rcases launched_finished w mode h _ (List.mem_map_of_mem he) with ⟨kind, hlaunched⟩
      have hdoomed := (mem_doomed_of_gone (launched_finished w mode h)
        (fun kind' hmatch => hlaunched.kind_eq_of_isMatch hmatch) hgone).left
      have hnot := hspared e he hdata
      rw [h.configured, hlaunched.type] at hnot
      exact absurd hdoomed hnot

theorem appended_of_spared (h : s.WellFormed settings) (hspared : ResultsSpared w mode s) :
    appended w mode s =
      ((finished w mode s.os s.runners).map RunnerEntry.pendingEv).filter
        (fun ev => s.disk.hasData ev.filePath) := by
  have hspared' : forall ev,
      ev ∈ (finished w mode s.os s.runners).map RunnerEntry.pendingEv ->
      s.disk.hasData ev.filePath = true ->
      ev.filePath ∉ s.disk.doomed settings.outputDir settings.limitFileNum ev.type := by
    intro ev hev hdata
    rcases List.mem_map.mp hev with ⟨e, he, hpending⟩
    rw [← hpending] at hdata ⊢
    have hnot := hspared e he hdata
    rw [h.configured] at hnot
    exact hnot
  have hevents := events_foldl_reportStep s.events s.disk (launched_finished w mode h) hspared'
  have hall := appended_eq w mode (s := s)
  rw [h.configured] at hall
  exact List.append_cancel_left (hall.trans hevents)

theorem length_filter_filePath {events : List CppDiagnoseEvent}
    (hnodup : (events.map CppDiagnoseEvent.filePath).Nodup) {ev : CppDiagnoseEvent}
    (hev : ev ∈ events) :
    (events.filter (fun ev' => decide (ev'.filePath = ev.filePath))).length = 1 := by
  have hcount := List.count_eq_one_of_mem hnodup (List.mem_map_of_mem hev)
  rw [List.count, List.countP_map] at hcount
  rw [← List.countP_eq_length_filter, ← hcount]
  apply List.countP_congr
  intro ev' _
  simp

theorem keepsResults_iff_of_wellFormed (h : s.WellFormed settings)
    (hdistinct : (s.runners.map (fun e => e.pendingEv.filePath)).Nodup) :
    KeepsResults w mode s <-> ResultsSpared w mode s := by
  constructor
  · intro hkeeps e he hdata hdoomed
    have hone := hkeeps.reported e he hdata
    rcases List.exists_mem_of_length_pos (Nat.lt_of_lt_of_eq Nat.one_pos hone.symm) with ⟨ev, hev⟩
    rcases List.mem_filter.mp hev with ⟨hmem, hpath⟩
    have hthere := (hkeeps.kept ev hmem).left
    rw [of_decide_eq_true hpath] at hthere
    exact notMem_disk_reap w mode h he hdata hdoomed hthere
  · intro hspared
    have happended := appended_of_spared w mode h hspared
    constructor
    · intro e he hdata
      rw [happended]
      apply length_filter_filePath
      · have hpaths : ((finished w mode s.os s.runners).map
            (fun e => e.pendingEv.filePath)).Nodup :=
          hdistinct.sublist ((finished_sublist w mode s.runners s.os).map _)
        apply List.Nodup.sublist (List.filter_sublist.map _)
        rw [List.map_map]
        exact hpaths
      · exact List.mem_filter.mpr ⟨List.mem_map_of_mem he, hdata⟩
    · intro ev hev
      rw [happended] at hev
      rcases List.mem_filter.mp hev with ⟨hmem, hdata⟩
      rcases List.mem_map.mp hmem with ⟨e, he, hpending⟩
      rw [← hpending] at hdata ⊢
      have hthere : e.pendingEv.filePath ∈ (reap w mode s [] s.runners).disk := by
        rw [disk_reap w mode h, Table.mem_eraseIf_keys]
        exact ⟨mem_of_hasData hdata, gone_of_spared w mode h hspared he hdata⟩
      exact ⟨hthere, mem_disk_relaunch w mode hthere⟩

end Collect

/-- In every state a run reaches, whatever the directory then holds, the next
`Collect` keeps the results it reports exactly when none of them is among the
oldest files of its type that rotation removes. -/
theorem keepsResults_iff_resultsSpared (settings : BpfSettings) (initial disk : Disk)
    (ops : List DiagnoserOp)
    (hdistinct : ((runFrom (step w mode) (fresh settings initial) ops).runners.map
      (fun e => e.pendingEv.filePath)).Nodup) :
    KeepsResults w mode { runFrom (step w mode) (fresh settings initial) ops with disk := disk } <->
      ResultsSpared w mode
        { runFrom (step w mode) (fresh settings initial) ops with disk := disk } := by
  have hrun := wellFormed_run w mode settings initial ops
  have hnow : WellFormed settings
      { runFrom (step w mode) (fresh settings initial) ops with disk := disk } :=
    ⟨hrun.configured, hrun.launched⟩
  exact keepsResults_iff_of_wellFormed w mode hnow hdistinct

end Rotation

/-!
## Two tools that finish together
-/

/-- Forks give the pids 101, 102 and so on, every child asked about has exited, and
the clock moves on with every read. -/
def finishingWorld : World where
  fork n := 101 + n
  exited _ := true
  clock n := n

/-- Two offcpu tools and their results, the one of process `a` being older. -/
def twoTools (limit : Int) : BpfDiagnoser :=
  { runFrom (step finishingWorld .copy) (fresh { outputDir := ['d'], limitFileNum := limit } ∅)
      [.startOffcpu { process := ['a'] }, .startOffcpu { process := ['b'] }] with
    disk := ((∅ : Disk).insert "d/offcpu_a_0.data".toList { size := 3, mtime := 5 }).insert
      "d/offcpu_b_2.data".toList { size := 3, mtime := 6 } }

theorem twoTools_results_kept :
    ((twoTools 2).runners.map (fun e => e.pendingEv.filePath)).Nodup ∧
      (appended finishingWorld .copy (twoTools 2)).length = 2 ∧
      KeepsResults finishingWorld .copy (twoTools 2) := by
  refine ⟨by decide, by decide, ?_⟩
  apply (keepsResults_iff_resultsSpared finishingWorld .copy
    { outputDir := ['d'], limitFileNum := 2 } ∅ _
    [.startOffcpu { process := ['a'] }, .startOffcpu { process := ['b'] }] (by decide)).mpr
  unfold ResultsSpared
  decide

/-- With room for one file the older result is removed right after its event was
appended. -/
theorem twoTools_result_lost : ¬ KeepsResults finishingWorld .copy (twoTools 1) := by
  intro h
  have hkept : forall ev, ev ∈ appended finishingWorld .copy (twoTools 1) ->
      ev.filePath ∈ ((twoTools 1).collect finishingWorld .copy).disk :=
    fun ev hev => (h.kept ev hev).right
  revert hkept
  decide

end BpfDiagnoser

end Worker
end PerfMonitor
