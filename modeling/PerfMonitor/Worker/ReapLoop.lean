import Mathlib.Data.List.Induction
import PerfMonitor.Worker.BpfDiagnoser

/-!
# The reaping loop of `Collect`

The loop interleaves three things: it asks the system which tools have finished,
it reports the finished ones, and it rotates the files of their types.  The first
does not depend on the other two, so the loop is a fold of reports over the list
of finished tools.  The rotations of one loop add up to at most one rotation for
each type: the first report of a type removes the oldest files of that type, and
later ones find nothing left to remove.
-/

namespace PerfMonitor
namespace Worker

open Foundation

namespace BpfDiagnoser

section Loop

variable (w : World) (mode : Handover)

def finished : Os -> List RunnerEntry -> List RunnerEntry
  | _, [] => []
  | os, e :: rest =>
      let (running, runner, os) := e.runner.isRunning w os
      if running then finished os rest
      else e :: finished (CmdRunner.destroy w .erase os (erased mode runner rest)) rest

def results (s : BpfDiagnoser) : List CppDiagnoseEvent × Disk :=
  (s.events, s.disk)

/-- `report` on that part. -/
def reportStep (settings : BpfSettings) (r : List CppDiagnoseEvent × Disk)
    (ev : CppDiagnoseEvent) : List CppDiagnoseEvent × Disk :=
  if r.2.hasData ev.filePath then
    (r.1 ++ [ev], r.2.cleanupFiles settings.outputDir settings.limitFileNum ev.type)
  else r

theorem reportStep_of_data {settings : BpfSettings} {r : List CppDiagnoseEvent × Disk}
    {ev : CppDiagnoseEvent} (hdata : r.2.hasData ev.filePath = true) :
    reportStep settings r ev =
      (r.1 ++ [ev], r.2.cleanupFiles settings.outputDir settings.limitFileNum ev.type) := by
  unfold reportStep
  rw [if_pos hdata]

theorem reportStep_of_noData {settings : BpfSettings} {r : List CppDiagnoseEvent × Disk}
    {ev : CppDiagnoseEvent} (hdata : r.2.hasData ev.filePath = false) :
    reportStep settings r ev = r := by
  unfold reportStep
  rw [if_neg (by simp [hdata])]

theorem report_eq (s : BpfDiagnoser) (ev : CppDiagnoseEvent) :
    s.report ev =
      { s with
        events := (reportStep s.settings s.results ev).1
        disk := (reportStep s.settings s.results ev).2 } := by
  unfold report reportStep results
  simp only
  split
  · rfl
  · rfl

/-!
One turn of the loop, for an entry that is still running and for one that is not.
-/

section Turns

variable {s : BpfDiagnoser} {e : RunnerEntry} {runner : CmdRunner} {os os' : Os}

theorem reap_of_running (hrun : e.runner.isRunning w s.os = (true, runner, os))
    (kept rest : List RunnerEntry) :
    reap w mode s kept (e :: rest) =
      reap w mode { s with os := os } (kept ++ [{ e with runner := runner }]) rest := by
  rw [reap, hrun]
  rfl

theorem reap_of_found (hrun : e.runner.isRunning w s.os = (false, runner, os))
    (kept rest : List RunnerEntry) :
    reap w mode s kept (e :: rest) =
      reap w mode
        { s with
          events := (reportStep s.settings s.results e.pendingEv).1
          os := CmdRunner.destroy w .erase os (erased mode runner rest)
          disk := (reportStep s.settings s.results e.pendingEv).2 } kept rest := by
  rw [reap, hrun]
  simp only [Bool.false_eq_true, if_false, report_eq]
  rfl

theorem finished_of_running (hrun : e.runner.isRunning w os = (true, runner, os'))
    (rest : List RunnerEntry) :
    finished w mode os (e :: rest) = finished w mode os' rest := by
  rw [finished, hrun]
  rfl

theorem finished_of_found (hrun : e.runner.isRunning w os = (false, runner, os'))
    (rest : List RunnerEntry) :
    finished w mode os (e :: rest) =
      e :: finished w mode (CmdRunner.destroy w .erase os' (erased mode runner rest)) rest := by
  rw [finished, hrun]
  rfl

end Turns

theorem results_reap (entries : List RunnerEntry) (s : BpfDiagnoser) (kept : List RunnerEntry) :
    results (reap w mode s kept entries) =
      ((finished w mode s.os entries).map RunnerEntry.pendingEv).foldl
        (reportStep s.settings) s.results := by
  induction entries generalizing s kept with
  | nil => rfl
  | cons e rest ih =>
      rcases hrun : e.runner.isRunning w s.os with ⟨running, runner, os⟩
      cases running with
      | true =>
          rw [reap_of_running w mode hrun, finished_of_running w mode hrun, ih]
          rfl
      | false =>
          rw [reap_of_found w mode hrun, finished_of_found w mode hrun, ih]
          rfl

theorem frame_reap (entries : List RunnerEntry) (s : BpfDiagnoser) (kept : List RunnerEntry) :
    (reap w mode s kept entries).settings = s.settings ∧
      (reap w mode s kept entries).offcpuConfigs = s.offcpuConfigs ∧
      (reap w mode s kept entries).profileConfigs = s.profileConfigs := by
  induction entries generalizing s kept with
  | nil => exact ⟨rfl, rfl, rfl⟩
  | cons e rest ih =>
      rcases hrun : e.runner.isRunning w s.os with ⟨running, runner, os⟩
      cases running with
      | true =>
          rw [reap_of_running w mode hrun]
          exact ih _ _
      | false =>
          rw [reap_of_found w mode hrun]
          exact ih _ _

theorem countP_reap (p : CppDiagnoseEvent -> Bool) (entries : List RunnerEntry)
    (s : BpfDiagnoser) (kept : List RunnerEntry) :
    (reap w mode s kept entries).runners.countP (fun e => p e.pendingEv) +
        (finished w mode s.os entries).countP (fun e => p e.pendingEv) =
      kept.countP (fun e => p e.pendingEv) + entries.countP (fun e => p e.pendingEv) := by
  induction entries generalizing s kept with
  | nil => rfl
  | cons e rest ih =>
      rcases hrun : e.runner.isRunning w s.os with ⟨running, runner, os⟩
      cases running with
      | true =>
          rw [reap_of_running w mode hrun, finished_of_running w mode hrun, ih]
          simp only [List.countP_append, List.countP_cons, List.countP_nil]
          omega
      | false =>
          rw [reap_of_found w mode hrun, finished_of_found w mode hrun, List.countP_cons,
            List.countP_cons, ← Nat.add_assoc, ih]
          omega

theorem finished_sublist (entries : List RunnerEntry) (os : Os) :
    (finished w mode os entries).Sublist entries := by
  induction entries generalizing os with
  | nil => exact List.Sublist.refl _
  | cons e rest ih =>
      rcases hrun : e.runner.isRunning w os with ⟨running, runner, os'⟩
      cases running with
      | true =>
          rw [finished_of_running w mode hrun]
          exact (ih os').cons e
      | false =>
          rw [finished_of_found w mode hrun]
          exact (ih _).cons_cons e

theorem mem_finished {entries : List RunnerEntry} {os : Os} {e : RunnerEntry}
    (he : e ∈ finished w mode os entries) : e ∈ entries :=
  (finished_sublist w mode entries os).subset he

theorem mem_runners_reap (entries : List RunnerEntry) (s : BpfDiagnoser)
    (kept : List RunnerEntry) {e : RunnerEntry} (he : e ∈ (reap w mode s kept entries).runners) :
    exists e', e' ∈ kept ++ entries ∧ e'.pendingEv = e.pendingEv := by
  have hcount := countP_reap w mode (fun ev => decide (ev = e.pendingEv)) entries s kept
  have hpos : 0 < (reap w mode s kept entries).runners.countP
      (fun e' => decide (e'.pendingEv = e.pendingEv)) := by
    apply List.countP_pos_iff.mpr
    exact ⟨e, he, decide_eq_true rfl⟩
  have hback : 0 < (kept ++ entries).countP (fun e' => decide (e'.pendingEv = e.pendingEv)) := by
    rw [List.countP_append]
    omega
  rcases List.countP_pos_iff.mp hback with ⟨e', he', heq⟩
  exact ⟨e', he', of_decide_eq_true heq⟩

end Loop

/-!
## The rotations of one loop
-/

section Rotation

variable (settings : BpfSettings)

def gone (disk : Disk) (done : List CppDiagnoseEvent) (path : Str) : Bool :=
  done.any (fun ev => disk.hasData ev.filePath &&
    decide (path ∈ disk.doomed settings.outputDir settings.limitFileNum ev.type))

def AllLaunched (done : List CppDiagnoseEvent) : Prop :=
  forall ev, ev ∈ done -> exists kind, Launched settings.outputDir kind ev

variable {settings}

theorem gone_iff {disk : Disk} {done : List CppDiagnoseEvent} {path : Str} :
    gone settings disk done path = true <->
      exists ev, ev ∈ done ∧ disk.hasData ev.filePath = true ∧
        path ∈ disk.doomed settings.outputDir settings.limitFileNum ev.type := by
  unfold gone
  rw [List.any_eq_true]
  simp only [Bool.and_eq_true, decide_eq_true_eq]

theorem gone_concat (disk : Disk) (done : List CppDiagnoseEvent) (ev : CppDiagnoseEvent)
    (path : Str) :
    gone settings disk (done ++ [ev]) path =
      (gone settings disk done path || (disk.hasData ev.filePath &&
        decide (path ∈ disk.doomed settings.outputDir settings.limitFileNum ev.type))) := by
  unfold gone
  rw [List.any_append, List.any_cons, List.any_nil, Bool.or_false]

theorem mem_doomed_of_gone {disk : Disk} {done : List CppDiagnoseEvent}
    (hdone : AllLaunched settings done) {kind : ToolKind} {path : Str}
    (hkind : forall kind', Disk.isMatch settings.outputDir kind'.type path = true -> kind' = kind)
    (hgone : gone settings disk done path = true) :
    path ∈ disk.doomed settings.outputDir settings.limitFileNum kind.type ∧
      exists ev, ev ∈ done ∧ disk.hasData ev.filePath = true ∧ ev.type = kind.type := by
  rcases gone_iff.mp hgone with ⟨ev, hev, hdata, hmem⟩
  rcases hdone ev hev with ⟨kind', hlaunched⟩
  rw [hlaunched.type] at hmem
  have heq := hkind kind' (Disk.mem_doomed hmem).left
  rw [heq] at hmem hlaunched
  exact ⟨hmem, ev, hev, hdata, hlaunched.type⟩

theorem eraseIf_gone_of_rotated {disk : Disk} {done : List CppDiagnoseEvent}
    (hdone : AllLaunched settings done) {kind : ToolKind} {ev : CppDiagnoseEvent}
    (hev : ev ∈ done) (hdata : disk.hasData ev.filePath = true) (htype : ev.type = kind.type) :
    exists other : Str -> Bool,
      (forall path, Disk.isMatch settings.outputDir kind.type path = true -> other path = false) ∧
        disk.eraseIf (fun path _ => gone settings disk done path) =
          (disk.cleanupFiles settings.outputDir settings.limitFileNum kind.type).eraseIf
            (fun path _ => other path) := by
  refine ⟨fun path => gone settings disk done path &&
    !decide (path ∈ disk.doomed settings.outputDir settings.limitFileNum kind.type), ?_, ?_⟩
  · intro path hmatch
    show (gone settings disk done path && _) = false
    cases hgone : gone settings disk done path with
    | false => rfl
    | true =>
        have hmem := (mem_doomed_of_gone hdone
          (fun kind' hmatch' => kind_eq_of_isMatch hmatch' hmatch) hgone).left
        rw [decide_eq_true hmem]
        rfl
  · unfold Disk.cleanupFiles
    rw [Table.eraseIf_eraseIf]
    congr 1
    funext path _
    by_cases hmem : path ∈ disk.doomed settings.outputDir settings.limitFileNum kind.type
    · have hgone : gone settings disk done path = true :=
        gone_iff.mpr ⟨ev, hev, hdata, by rw [htype]; exact hmem⟩
      simp [hmem, hgone]
    · simp [hmem]

theorem gone_of_unrotated {disk : Disk} {done : List CppDiagnoseEvent}
    (hdone : AllLaunched settings done) {kind : ToolKind}
    (hnone : ¬ exists ev, ev ∈ done ∧ disk.hasData ev.filePath = true ∧ ev.type = kind.type)
    (path : Str) (hmatch : Disk.isMatch settings.outputDir kind.type path = true) :
    gone settings disk done path = false := by
  cases hgone : gone settings disk done path with
  | false => rfl
  | true =>
      have hkind := mem_doomed_of_gone hdone
        (fun kind' hmatch' => kind_eq_of_isMatch hmatch' hmatch) hgone
      exact absurd hkind.right hnone

theorem cleanupFiles_gone {disk : Disk} {done : List CppDiagnoseEvent}
    (hdone : AllLaunched settings done) (kind : ToolKind) :
    Disk.cleanupFiles settings.outputDir settings.limitFileNum kind.type
        (disk.eraseIf (fun path _ => gone settings disk done path)) =
      disk.eraseIf (fun path _ => gone settings disk done path ||
        decide (path ∈ disk.doomed settings.outputDir settings.limitFileNum kind.type)) := by
  by_cases hsame : exists ev, ev ∈ done ∧ disk.hasData ev.filePath = true ∧ ev.type = kind.type
  · rcases hsame with ⟨ev, hev, hdata, htype⟩
    rcases eraseIf_gone_of_rotated hdone hev hdata htype with ⟨other, hother, heq⟩
    have hnothing : Disk.doomed settings.outputDir settings.limitFileNum kind.type
        (disk.eraseIf (fun path _ => gone settings disk done path)) = [] := by
      rw [heq, Disk.doomed_eraseIf hother, Disk.doomed_cleanupFiles]
    unfold Disk.cleanupFiles
    rw [hnothing, Table.eraseIf_eq_self (fun path st => decide_eq_false List.not_mem_nil)]
    congr 1
    funext path _
    by_cases hmem : path ∈ disk.doomed settings.outputDir settings.limitFileNum kind.type
    · have hgone : gone settings disk done path = true :=
        gone_iff.mpr ⟨ev, hev, hdata, by rw [htype]; exact hmem⟩
      rw [hgone]
      rfl
    · rw [decide_eq_false hmem, Bool.or_false]
  · unfold Disk.cleanupFiles
    rw [Disk.doomed_eraseIf (gone_of_unrotated hdone hsame), Table.eraseIf_eraseIf]

/-- The disk after the reports of a loop: each kind was rotated once if a tool of
it was found with data, and files of no other kind were touched. -/
theorem disk_foldl_reportStep (events : List CppDiagnoseEvent) (disk : Disk)
    {done : List CppDiagnoseEvent} (hdone : AllLaunched settings done) :
    (done.foldl (reportStep settings) (events, disk)).2 =
      disk.eraseIf (fun path _ => gone settings disk done path) := by
  induction done using List.reverseRecOn with
  | nil => exact (Table.eraseIf_eq_self (fun _ _ => rfl)).symm
  | append_singleton done ev ih =>
      have hbefore : AllLaunched settings done :=
        fun ev' hev' => hdone ev' (List.mem_append_left _ hev')
      rcases hdone ev (List.mem_append_right _ (List.mem_singleton.mpr rfl)) with ⟨kind, hlaunched⟩
      have hdisk := ih hbefore
      have hnow : (done.foldl (reportStep settings) (events, disk)).2.hasData ev.filePath =
          (disk.hasData ev.filePath && !gone settings disk done ev.filePath) := by
        rw [hdisk, Disk.hasData_eraseIf]
      rw [List.foldl_concat]
      simp only [gone_concat]
      cases hdata : disk.hasData ev.filePath with
      | false =>
          rw [hdata, Bool.false_and] at hnow
          rw [reportStep_of_noData hnow, hdisk]
          simp only [Bool.false_and, Bool.or_false]
      | true =>
          simp only [Bool.true_and]
          cases hgone : gone settings disk done ev.filePath with
          | false =>
              rw [hdata, hgone] at hnow
              rw [reportStep_of_data hnow, hdisk, hlaunched.type]
              exact cleanupFiles_gone hbefore kind
          | true =>
              -- the file was removed by an earlier rotation of the same kind
              have hearlier := mem_doomed_of_gone hbefore
                (fun kind' hmatch => hlaunched.kind_eq_of_isMatch hmatch) hgone
              rw [hdata, hgone] at hnow
              rw [reportStep_of_noData hnow, hdisk]
              congr 1
              funext path _
              by_cases hmem : path ∈
                  disk.doomed settings.outputDir settings.limitFileNum ev.type
              · rcases hearlier.right with ⟨ev', hev', hdata', htype'⟩
                have hpath : gone settings disk done path = true := by
                  apply gone_iff.mpr
                  refine ⟨ev', hev', hdata', ?_⟩
                  rw [htype', ← hlaunched.type]
                  exact hmem
                rw [hpath]
                rfl
              · rw [decide_eq_false hmem, Bool.or_false]

theorem events_foldl_reportStep (events : List CppDiagnoseEvent) (disk : Disk)
    {done : List CppDiagnoseEvent} (hdone : AllLaunched settings done)
    (hspared : forall ev, ev ∈ done -> disk.hasData ev.filePath = true ->
      ev.filePath ∉ disk.doomed settings.outputDir settings.limitFileNum ev.type) :
    (done.foldl (reportStep settings) (events, disk)).1 =
      events ++ done.filter (fun ev => disk.hasData ev.filePath) := by
  induction done using List.reverseRecOn with
  | nil => exact (List.append_nil _).symm
  | append_singleton done ev ih =>
      have hmem : ev ∈ done ++ [ev] := List.mem_append_right _ (List.mem_singleton.mpr rfl)
      have hbefore : AllLaunched settings done :=
        fun ev' hev' => hdone ev' (List.mem_append_left _ hev')
      have hevents := ih hbefore (fun ev' hev' => hspared ev' (List.mem_append_left _ hev'))
      have hnow : (done.foldl (reportStep settings) (events, disk)).2.hasData ev.filePath =
          (disk.hasData ev.filePath && !gone settings disk done ev.filePath) := by
        rw [disk_foldl_reportStep events disk hbefore, Disk.hasData_eraseIf]
      rw [List.foldl_concat, List.filter_append, ← List.append_assoc, ← hevents]
      cases hdata : disk.hasData ev.filePath with
      | false =>
          rw [hdata, Bool.false_and] at hnow
          rw [reportStep_of_noData hnow, List.filter_cons_of_neg (by simp [hdata])]
          exact (List.append_nil _).symm
      | true =>
          rcases hdone ev hmem with ⟨kind, hlaunched⟩
          have hstays : gone settings disk done ev.filePath = false := by
            cases hgone : gone settings disk done ev.filePath with
            | false => rfl
            | true =>
                have hdoomed := (mem_doomed_of_gone hbefore
                  (fun kind' hmatch => hlaunched.kind_eq_of_isMatch hmatch) hgone).left
                rw [← hlaunched.type] at hdoomed
                exact absurd hdoomed (hspared ev hmem hdata)
          rw [hdata, hstays] at hnow
          rw [reportStep_of_data hnow, List.filter_cons_of_pos (by simpa using hdata)]
          rfl

theorem exists_events_foldl_reportStep (settings : BpfSettings) (done : List CppDiagnoseEvent)
    (r : List CppDiagnoseEvent × Disk) :
    exists new, (done.foldl (reportStep settings) r).1 = r.1 ++ new := by
  induction done generalizing r with
  | nil => exact ⟨[], (List.append_nil _).symm⟩
  | cons ev rest ih =>
      rcases ih (reportStep settings r ev) with ⟨new, hnew⟩
      cases hdata : r.2.hasData ev.filePath with
      | false =>
          rw [reportStep_of_noData hdata] at hnew
          exact ⟨new, by rw [List.foldl_cons, reportStep_of_noData hdata, hnew]⟩
      | true =>
          rw [reportStep_of_data hdata] at hnew
          refine ⟨ev :: new, ?_⟩
          rw [List.foldl_cons, reportStep_of_data hdata, hnew, List.append_assoc]
          rfl

end Rotation

end BpfDiagnoser

end Worker
end PerfMonitor
