import PerfMonitor.Foundation.Numeral
import PerfMonitor.Foundation.Text
import PerfMonitor.Worker.ToolTrace

/-!
# Output files of tools that run at the same time

The name of an output file is made of the kind of the tool, the tag of its process
and thread, and the second of the launch.  All of these can be read off the name, so
two runners share a file exactly when they agree in all three; what else the entries
of the configuration say does not matter.
-/

namespace PerfMonitor
namespace Worker

open Foundation

namespace BpfDiagnoser

def PathsDistinct (s : BpfDiagnoser) : Prop :=
  (s.runners.map (fun e => e.pendingEv.filePath)).Nodup

instance (s : BpfDiagnoser) : Decidable (PathsDistinct s) :=
  inferInstanceAs (Decidable (List.Nodup _))

/-!
## What a name says
-/

theorem underscore_notMem_decimal (n : Int) : '_' ∉ decimal n := by
  intro hmem
  rcases mem_intToString hmem with hdigit | hminus
  · exact absurd hdigit (by decide)
  · exact absurd hminus (by decide)

theorem split_last_eq {c : Char} {a b a' b' : Str} (hb : c ∉ b) (hb' : c ∉ b')
    (h : a ++ c :: b = a' ++ c :: b') : a = a' ∧ b = b' := by
  have hfind := rfind_append a hb
  rw [h, rfind_append a' hb'] at hfind
  injection hfind with hlength
  rcases List.append_inj h hlength.symm with ⟨ha, hrest⟩
  injection hrest with _ hb
  exact ⟨ha, hb⟩

theorem outFile_eq (dir : Str) (kind : ToolKind) (process thread : Str) (now : Int) :
    outFile dir kind process thread now =
      (dir ++ '/' :: (kind.type ++ '_' :: (makeTag process thread ++ '_' :: decimal now))) ++
        ".data".toList := by
  unfold outFile
  simp only [List.append_assoc, List.cons_append, List.nil_append]

theorem outFile_eq_iff {dir : Str} {kind kind' : ToolKind}
    {process thread process' thread' : Str} {now now' : Int} :
    outFile dir kind process thread now = outFile dir kind' process' thread' now' <->
      kind = kind' ∧ makeTag process thread = makeTag process' thread' ∧ now = now' := by
  constructor
  · intro h
    rw [outFile_eq, outFile_eq] at h
    have hdir := List.append_cancel_left (List.append_cancel_right h)
    injection hdir with _ hname
    have hkind := kind_eq_of_append_eq hname
    rw [hkind] at hname
    have htail := List.append_cancel_left hname
    injection htail with _ htail
    rcases split_last_eq (underscore_notMem_decimal now) (underscore_notMem_decimal now') htail
      with ⟨htag, hnow⟩
    exact ⟨hkind, htag, intToString_injective hnow⟩
  · rintro ⟨hkind, htag, hnow⟩
    unfold outFile
    rw [hkind, htag, hnow]

end BpfDiagnoser

namespace TracedDiagnoser

open BpfDiagnoser

def NameIsFree (w : World) (t : TracedDiagnoser) (e : Slot × ToolEntry) : Prop :=
  0 < t.self.os.nextChild w ->
    forall l, l ∈ t.owners -> l.entry.kind = e.2.kind ->
      makeTag l.entry.process l.entry.thread = makeTag e.2.process e.2.thread ->
        l.second ≠ w.clock t.self.os.times

/-- The names of the launches of one call are free, one after another. -/
def NamesFree (w : World) (mode : Handover) (t : TracedDiagnoser) : DiagnoserOp -> Prop
  | .startOffcpu cfg =>
      NameIsFree w (withEntry t (.offcpu cfg)) (nextSlot t (.offcpu cfg), .offcpu cfg)
  | .startProfile cfg =>
      NameIsFree w (withEntry t (.profile cfg)) (nextSlot t (.profile cfg), .profile cfg)
  | .collect =>
      (reapTools w mode t).self.runners = [] ->
        EachStep (launchEntry w mode) (NameIsFree w) (reapTools w mode t) (slotted t.self)
  | .reset => True
  | .write _ _ => True

section Launches

variable (w : World) (mode : Handover) {settings : BpfSettings} {t : TracedDiagnoser}

theorem paths_eq (h : Aligned settings t) :
    t.self.runners.map (fun e => e.pendingEv.filePath) =
      t.owners.map (fun l => l.event.filePath) := by
  have hpaths := congrArg (List.map CppDiagnoseEvent.filePath) h.pending
  rw [List.map_map, List.map_map] at hpaths
  exact hpaths

theorem path_notMem_iff (h : Aligned settings t) (e : Slot × ToolEntry) :
    (newLaunch w t e).event.filePath ∉ t.self.runners.map (fun e => e.pendingEv.filePath) <->
      forall l, l ∈ t.owners -> l.entry.kind = e.2.kind ->
        makeTag l.entry.process l.entry.thread = makeTag e.2.process e.2.thread ->
          l.second ≠ w.clock t.self.os.times := by
  have hnew := (made_newLaunch w t e).filePath
  rw [h.configured] at hnew
  rw [paths_eq h, hnew]
  constructor
  · intro hnot l hl hkind htag hsecond
    apply hnot
    refine List.mem_map.mpr ⟨l, hl, ?_⟩
    rw [(h.made l hl).filePath]
    exact outFile_eq_iff.mpr ⟨hkind, htag, hsecond⟩
  · intro hfree hmem
    rcases List.mem_map.mp hmem with ⟨l, hl, heq⟩
    rw [(h.made l hl).filePath] at heq
    rcases outFile_eq_iff.mp heq with ⟨hkind, htag, hsecond⟩
    exact hfree l hl hkind htag hsecond

theorem pathsDistinct_launchEntry_iff (h : Aligned settings t)
    (hdistinct : t.self.PathsDistinct) (e : Slot × ToolEntry) :
    (launchEntry w mode t e).self.PathsDistinct <-> NameIsFree w t e := by
  rcases Os.nextChild_cases w t.self.os with hfork | hfork
  · rcases launchEntry_of_noChild w mode hfork e with ⟨os, hsame⟩
    rw [hsame]
    refine ⟨?_, fun _ => hdistinct⟩
    intro _ hpos
    rw [hfork] at hpos
    exact absurd hpos (by decide)
  · rcases launchEntry_of_child w mode hfork e with ⟨os, capacity, disk, hpushed⟩
    rw [hpushed]
    show ((t.self.runners ++ [_]).map (fun e : RunnerEntry => e.pendingEv.filePath)).Nodup <-> _
    have hfree := path_notMem_iff w h e
    rw [List.map_append, List.nodup_append_comm]
    show (_ :: t.self.runners.map (fun e : RunnerEntry => e.pendingEv.filePath)).Nodup <-> _
    rw [List.nodup_cons]
    constructor
    · intro hnodup _
      exact hfree.mp hnodup.left
    · intro hname
      exact ⟨hfree.mpr (hname hfork), hdistinct⟩

/-- Runners are only added by a launch, so a clash stays. -/
theorem pathsDistinct_of_launchEntry {e : Slot × ToolEntry}
    (h : (launchEntry w mode t e).self.PathsDistinct) : t.self.PathsDistinct := by
  rcases launchEntry_cases w mode t e with ⟨os, hsame⟩ | ⟨os, capacity, disk, hpushed⟩
  · rw [hsame] at h
    exact h
  · rw [hpushed] at h
    exact h.sublist ((List.sublist_append_left _ _).map _)

theorem pathsDistinct_of_foldl (entries : List (Slot × ToolEntry))
    (h : (entries.foldl (launchEntry w mode) t).self.PathsDistinct) : t.self.PathsDistinct := by
  induction entries generalizing t with
  | nil => exact h
  | cons e rest ih => exact pathsDistinct_of_launchEntry w mode (ih h)

theorem pathsDistinct_foldl_iff (entries : List (Slot × ToolEntry)) (h : Aligned settings t)
    (hdistinct : t.self.PathsDistinct) :
    (entries.foldl (launchEntry w mode) t).self.PathsDistinct <->
      EachStep (launchEntry w mode) (NameIsFree w) t entries := by
  induction entries generalizing t with
  | nil => exact ⟨fun _ => trivial, fun _ => hdistinct⟩
  | cons e rest ih =>
      have hfirst := pathsDistinct_launchEntry_iff w mode h hdistinct e
      have hrest := fun hd => ih (aligned_launchEntry w mode h e) hd
      constructor
      · intro hall
        have hd := pathsDistinct_of_foldl w mode rest hall
        exact ⟨hfirst.mp hd, (hrest hd).mp hall⟩
      · intro hfree
        exact (hrest (hfirst.mpr hfree.left)).mpr hfree.right

theorem pathsDistinct_reapTools (h : Aligned settings t) (hdistinct : t.self.PathsDistinct) :
    (reapTools w mode t).self.PathsDistinct := by
  unfold PathsDistinct at hdistinct ⊢
  rw [paths_eq (aligned_reapTools w mode h)]
  rw [paths_eq h] at hdistinct
  exact hdistinct.sublist ((owners_reapTools w mode h).map _)

theorem pathsDistinct_startEntry_iff (h : Aligned settings t) (hdistinct : t.self.PathsDistinct)
    (entry : ToolEntry) :
    (startEntry w mode t entry).self.PathsDistinct <->
      NameIsFree w (withEntry t entry) (nextSlot t entry, entry) := by
  apply pathsDistinct_launchEntry_iff w mode (aligned_withEntry entry h)
  cases entry with
  | offcpu cfg => exact hdistinct
  | profile cfg => exact hdistinct

theorem pathsDistinct_step_iff (t : TracedDiagnoser) (op : DiagnoserOp)
    (h : Aligned settings t) (hdistinct : t.self.PathsDistinct) :
    (step w mode t op).self.PathsDistinct <-> NamesFree w mode t op := by
  cases op with
  | startOffcpu cfg => exact pathsDistinct_startEntry_iff w mode h hdistinct _
  | startProfile cfg => exact pathsDistinct_startEntry_iff w mode h hdistinct _
  | collect =>
      have hreaped := pathsDistinct_reapTools w mode h hdistinct
      show (relaunchTools w mode (reapTools w mode t)).self.PathsDistinct <->
        ((reapTools w mode t).self.runners = [] -> _)
      unfold relaunchTools
      by_cases hrunners : (reapTools w mode t).self.runners = []
      · rw [if_pos hrunners, slotted_reapTools,
          pathsDistinct_foldl_iff w mode _ (aligned_reapTools w mode h) hreaped]
        exact ⟨fun hfree _ => hfree, fun hfree => hfree hrunners⟩
      · rw [if_neg hrunners]
        exact ⟨fun _ hnil => absurd hnil hrunners, fun _ => hreaped⟩
  | reset => exact ⟨fun _ => trivial, fun _ => hdistinct⟩
  | write path st => exact ⟨fun _ => trivial, fun _ => hdistinct⟩

end Launches

end TracedDiagnoser

namespace BpfDiagnoser

/-- In every state of a run the files of the runners are pairwise distinct, exactly when
every launch of the run finds its name free. -/
theorem pathsDistinct_iff_namesFree (w : World) (mode : Handover) (settings : BpfSettings)
    (disk : Disk) (ops : List DiagnoserOp) :
    Throughout (step w mode) PathsDistinct (fresh settings disk) ops <->
      EachStep (TracedDiagnoser.step w mode) (TracedDiagnoser.NamesFree w mode)
        (TracedDiagnoser.fresh settings disk) ops := by
  have htraced : Throughout (step w mode) PathsDistinct (fresh settings disk) ops <->
      Throughout (TracedDiagnoser.step w mode) (fun t => t.self.PathsDistinct)
        (TracedDiagnoser.fresh settings disk) ops := by
    rw [throughout_iff_prefixes, throughout_iff_prefixes]
    simp only [TracedDiagnoser.self_run]
  have hstep : forall t op, TracedDiagnoser.Aligned settings t -> True ->
      TracedDiagnoser.Aligned settings (TracedDiagnoser.step w mode t op) :=
    fun t op h _ => TracedDiagnoser.aligned_step w mode t op h
  have hdecide : forall t op, TracedDiagnoser.Aligned settings t -> True ->
      t.self.PathsDistinct ->
        ((TracedDiagnoser.step w mode t op).self.PathsDistinct <->
          TracedDiagnoser.NamesFree w mode t op) :=
    fun t op h _ hdistinct => TracedDiagnoser.pathsDistinct_step_iff w mode t op h hdistinct
  rw [htraced]
  apply throughout_iff_eachStep_of_env hstep hdecide
  · exact (TracedDiagnoser.tracked_fresh settings disk).toAligned
  · exact List.nodup_nil
  · exact eachStep_of_always (fun _ _ => trivial) _ ops

/-- Two entries that differ only in their thresholds, launched in one second. -/
def sameProcess : List OffcpuConfig :=
  [{ process := ['a'], minBlockUs := 1 }, { process := ['a'], minBlockUs := 2 }]

theorem sameProcess_shares_file :
    sameProcess.Nodup ∧
      ¬ Throughout (step { fork := fun n => 101 + n } .copy) PathsDistinct
        (fresh { outputDir := ['d'] } ∅) (sameProcess.map .startOffcpu) := by
  refine ⟨by decide, ?_⟩
  intro h
  have hdistinct := throughout_final h
  revert hdistinct
  decide

end BpfDiagnoser

end Worker
end PerfMonitor
