import PerfMonitor.Worker.ToolTrace

/-!
# Cycles of the BPF tools

What the cycles of `Collect` would do if a runner could be handed over: every entry
of the configuration has at most one runner, a new cycle starts when no tool of the
last one is left and then tries every entry once and in order, and every launch is
reported once, if its file has data when `Collect` finds its tool exited.
-/

namespace PerfMonitor
namespace Worker

open Foundation

namespace BpfDiagnoser

/-- The attempt to launch an entry: the call of `fork` for its command, whatever the
clock, the process table and the answer are. -/
def Attempts (settings : BpfSettings) (entry : ToolEntry) (c : Syscall) : Prop :=
  exists now proc answer,
    let out := outFile settings.outputDir entry.kind entry.process entry.thread now
    c = .fork
      { bin := settings.bin entry.kind
        args := entry.options settings out ++ pidArgs proc entry.process ++
          tidArgs proc entry.process entry.thread
        outputFile := out } answer

/-- A `Collect` here makes no attempt while a tool is left after its loop, and otherwise
one for each entry, in the order of the configuration. -/
def LaunchesInOrder (w : World) (mode : Handover) (s : BpfDiagnoser) : Prop :=
  exists attempts, (s.collect w mode).os.log = s.os.log ++ attempts ∧
    ((reap w mode s [] s.runners).os.children ≠ [] -> attempts = []) ∧
    ((reap w mode s [] s.runners).os.children = [] ->
      List.Forall₂ (Attempts s.settings) ((slotted s).map Prod.snd) attempts)

structure OwnsChildren (s : BpfDiagnoser) : Prop where
  children : s.os.children.Perm (s.runners.map (fun e => e.runner.pid))
  nodup : s.os.children.Nodup
  positive : forall e, e ∈ s.runners -> 0 < e.runner.pid

/-!
## One launch
-/

theorem foldl_destroy_of_nonpos (w : World) (cause : StopCause) {runners : List CmdRunner}
    (h : forall r, r ∈ runners -> r.pid ≤ 0) (os : Os) :
    runners.foldl (CmdRunner.destroy w cause) os = os := by
  induction runners with
  | nil => rfl
  | cons r rest ih =>
      have hfirst : CmdRunner.destroy w cause os r = os := by
        unfold CmdRunner.destroy
        rw [CmdRunner.stop_of_nonpos (h r List.mem_cons_self)]
      rw [List.foldl_cons, hfirst]
      exact ih (fun r' hr' => h r' (List.mem_cons_of_mem _ hr'))

theorem pid_left_nonpos (runner : CmdRunner) : (Handover.transfer.left runner).pid ≤ 0 := by
  show (-1 : Int) ≤ 0
  decide

section Launch

variable (w : World) (s : BpfDiagnoser) (entry : ToolEntry)

/-- Handing a runner over destroys nothing: the launch only pushes its entry. -/
theorem launch_transfer_of_child (hfork : 0 < s.os.nextChild w) :
    exists capacity disk, launch w .transfer s entry =
      { s with
        os := forked w s entry.kind entry.process entry.thread (entry.options s.settings)
        capacity := capacity
        runners := s.runners ++ [nextEntry w s entry.kind entry.process entry.thread]
        disk := disk } := by
  rw [launch_eq, launchTool_of_child w .transfer s _ _ _ _ hfork]
  have hlocals : forall os,
      [Handover.transfer.left (nextEntry w s entry.kind entry.process entry.thread).runner,
        Handover.transfer.left (nextEntry w s entry.kind entry.process entry.thread).runner].foldl
          (CmdRunner.destroy w .launch) os = os := by
    intro os
    apply foldl_destroy_of_nonpos
    intro r hr
    simp only [List.mem_cons, List.not_mem_nil, or_false, or_self] at hr
    rw [hr]
    exact pid_left_nonpos _
  simp only [pushBack]
  split
  · exact ⟨_, _, by rw [hlocals]⟩
  · have hgrowth : forall os,
        (s.runners.map (fun e => Handover.transfer.left e.runner)).foldl
          (CmdRunner.destroy w .growth) os = os := by
      intro os
      apply foldl_destroy_of_nonpos
      intro r hr
      rcases List.mem_map.mp hr with ⟨e, _, heq⟩
      rw [← heq]
      exact pid_left_nonpos _
    exact ⟨_, _, by rw [hlocals, hgrowth]⟩

theorem launch_of_noChild (hfork : s.os.nextChild w = -1) :
    exists os, launch w .transfer s entry = { s with os := os } ∧
      os.children = s.os.children ∧ os.forks = s.os.forks + 1 ∧
      os.log = s.os.log ++ [.fork
        (nextCommand w s entry.kind entry.process entry.thread (entry.options s.settings))
        (-1)] := by
  rw [launch_eq, launchTool_of_noChild w .transfer s _ _ _ _ hfork]
  exact ⟨_, rfl, rfl, rfl, rfl⟩

theorem attempts_nextCommand (answer : Pid) :
    Attempts s.settings entry (.fork
      (nextCommand w s entry.kind entry.process entry.thread (entry.options s.settings))
      answer) :=
  ⟨w.clock s.os.times, w.proc s.os.forks, answer, rfl⟩

theorem log_launch :
    exists c, (launch w .transfer s entry).os.log = s.os.log ++ [c] ∧
      Attempts s.settings entry c := by
  rcases Os.nextChild_cases w s.os with hfork | hfork
  · rcases launch_of_noChild w s entry hfork with ⟨os, heq, _, _, hlog⟩
    rw [heq]
    exact ⟨_, hlog, attempts_nextCommand w s entry (-1)⟩
  · rcases launch_transfer_of_child w s entry hfork with ⟨capacity, disk, heq⟩
    rw [heq]
    exact ⟨_, rfl, attempts_nextCommand w s entry _⟩

theorem forks_launch : (launch w .transfer s entry).os.forks = s.os.forks + 1 := by
  rcases Os.nextChild_cases w s.os with hfork | hfork
  · rcases launch_of_noChild w s entry hfork with ⟨os, heq, _, hforks, _⟩
    rw [heq]
    exact hforks
  · rcases launch_transfer_of_child w s entry hfork with ⟨capacity, disk, heq⟩
    rw [heq]
    rfl

theorem settings_launch : (launch w .transfer s entry).settings = s.settings := by
  rcases Os.nextChild_cases w s.os with hfork | hfork
  · rcases launch_of_noChild w s entry hfork with ⟨os, heq, _⟩
    rw [heq]
  · rcases launch_transfer_of_child w s entry hfork with ⟨capacity, disk, heq⟩
    rw [heq]

theorem ownsChildren_launch {s : BpfDiagnoser} (h : s.OwnsChildren) :
    (launch w .transfer s entry).OwnsChildren := by
  rcases Os.nextChild_cases w s.os with hfork | hfork
  · rcases launch_of_noChild w s entry hfork with ⟨os, heq, hchildren, _⟩
    rw [heq]
    constructor
    · show os.children.Perm _
      rw [hchildren]
      exact h.children
    · show os.children.Nodup
      rw [hchildren]
      exact h.nodup
    · exact h.positive
  · rcases launch_transfer_of_child w s entry hfork with ⟨capacity, disk, heq⟩
    rw [heq]
    constructor
    · show (s.os.nextChild w :: s.os.children).Perm
        ((s.runners ++ [_]).map (fun e : RunnerEntry => e.runner.pid))
      rw [List.map_append]
      exact (h.children.cons _).trans (List.perm_append_singleton _ _).symm
    · exact List.nodup_cons.mpr ⟨Os.nextChild_notMem hfork, h.nodup⟩
    · intro e he
      rcases List.mem_append.mp he with hold | hnew
      · exact h.positive e hold
      · rw [List.mem_singleton.mp hnew]
        exact hfork

end Launch

theorem log_foldl_launch (w : World) (entries : List ToolEntry) (s : BpfDiagnoser) :
    exists attempts,
      (entries.foldl (launch w .transfer) s).os.log = s.os.log ++ attempts ∧
        List.Forall₂ (Attempts s.settings) entries attempts := by
  induction entries generalizing s with
  | nil => exact ⟨[], (List.append_nil _).symm, List.Forall₂.nil⟩
  | cons entry rest ih =>
      rcases log_launch w s entry with ⟨c, hlog, hc⟩
      rcases ih (launch w .transfer s entry) with ⟨attempts, hrest, hattempts⟩
      rw [settings_launch] at hattempts
      refine ⟨c :: attempts, ?_, hattempts.cons hc⟩
      rw [List.foldl_cons, hrest, hlog, List.append_assoc]
      rfl

/-!
## The loop
-/

theorem destroy_erased (w : World) (runner : CmdRunner) (hpid : runner.pid ≤ 0)
    (rest : List RunnerEntry) (os : Os) :
    CmdRunner.destroy w .erase os (erased .transfer runner rest) = os := by
  have hnonpos : (erased .transfer runner rest).pid ≤ 0 := by
    unfold erased
    cases rest.getLast? with
    | none => exact hpid
    | some last => exact pid_left_nonpos _
  unfold CmdRunner.destroy
  rw [CmdRunner.stop_of_nonpos hnonpos]

theorem perm_children_cons {children : List Pid} {kept rest : List RunnerEntry} {e : RunnerEntry}
    (h : children.Perm ((kept ++ e :: rest).map (fun e => e.runner.pid))) :
    children.Perm (e.runner.pid :: (kept ++ rest).map (fun e => e.runner.pid)) := by
  apply h.trans
  rw [List.map_append, List.map_append]
  exact List.perm_middle

/-- The loop reaps exactly the children of the runners it removes, and makes no call of
`fork`. -/
theorem ownsChildren_reap (w : World) (entries : List RunnerEntry) (s : BpfDiagnoser)
    (kept : List RunnerEntry)
    (hchildren : s.os.children.Perm ((kept ++ entries).map (fun e => e.runner.pid)))
    (hnodup : s.os.children.Nodup)
    (hpositive : forall e, e ∈ kept ++ entries -> 0 < e.runner.pid) :
    (reap w .transfer s kept entries).OwnsChildren ∧
      (reap w .transfer s kept entries).os.forks = s.os.forks ∧
      (reap w .transfer s kept entries).os.log = s.os.log := by
  induction entries generalizing s kept with
  | nil =>
      rw [List.append_nil] at hchildren hpositive
      exact ⟨⟨hchildren, hnodup, hpositive⟩, rfl, rfl⟩
  | cons e rest ih =>
      have hpid : 0 < e.runner.pid := hpositive e (by simp)
      have hfront := perm_children_cons hchildren
      have hmem : e.runner.pid ∈ s.os.children := hfront.mem_iff.mpr List.mem_cons_self
      have hrun := CmdRunner.isRunning_of_mem w hpid hmem
      split at hrun
      · rw [TracedDiagnoser.reap_of_found w .transfer hrun]
        unfold TracedDiagnoser.afterFound
        have hgone : (-1 : Int) ≤ 0 := by decide
        rw [destroy_erased w { e.runner with pid := -1 } hgone]
        apply ih
        · show (s.os.children.erase e.runner.pid).Perm _
          have herased := hfront.erase e.runner.pid
          rw [List.erase_cons_head] at herased
          exact herased
        · exact hnodup.erase _
        · intro e' he'
          apply hpositive
          rcases List.mem_append.mp he' with hkept | hrest
          · exact List.mem_append_left _ hkept
          · exact List.mem_append_right _ (List.mem_cons_of_mem _ hrest)
      · rw [BpfDiagnoser.reap_of_running w .transfer hrun]
        have hlist : kept ++ [{ e with runner := e.runner }] ++ rest = kept ++ e :: rest := by
          simp
        apply ih
        · rw [hlist]
          exact hchildren
        · exact hnodup
        · rw [hlist]
          exact hpositive

theorem runners_eq_nil_iff {s : BpfDiagnoser} (h : s.OwnsChildren) :
    s.runners = [] <-> s.os.children = [] := by
  constructor
  · intro hrunners
    have hperm := h.children
    rw [hrunners] at hperm
    exact hperm.eq_nil
  · intro hchildren
    have hperm := h.children
    rw [hchildren] at hperm
    exact List.map_eq_nil_iff.mp hperm.symm.eq_nil

theorem launchesInOrder_of_ownsChildren (w : World) {s : BpfDiagnoser} (h : s.OwnsChildren) :
    LaunchesInOrder w .transfer s := by
  rcases ownsChildren_reap w s.runners s [] h.children h.nodup h.positive with ⟨howns, _, hlog⟩
  have hframe := frame_reap w .transfer s.runners s []
  have hslotted : slotted (reap w .transfer s [] s.runners) = slotted s := by
    unfold slotted
    rw [hframe.right.left, hframe.right.right]
  unfold LaunchesInOrder collect
  rw [TracedDiagnoser.relaunch_eq, hslotted]
  by_cases hrunners : (reap w .transfer s [] s.runners).runners = []
  · rw [if_pos hrunners]
    rcases log_foldl_launch w ((slotted s).map Prod.snd) (reap w .transfer s [] s.runners)
      with ⟨attempts, hattempts, hforall⟩
    rw [List.foldl_map, hlog] at hattempts
    rw [hframe.left] at hforall
    refine ⟨attempts, hattempts, ?_, fun _ => hforall⟩
    intro hchildren
    exact absurd ((runners_eq_nil_iff howns).mp hrunners) hchildren
  · rw [if_neg hrunners]
    refine ⟨[], ?_, fun _ => rfl, ?_⟩
    · rw [hlog, List.append_nil]
    · intro hchildren
      exact absurd ((runners_eq_nil_iff howns).mpr hchildren) hrunners

end BpfDiagnoser

namespace TracedDiagnoser

open BpfDiagnoser

/-!
## Whole runs
-/

structure Numbered (t : TracedDiagnoser) : Prop where
  nodup : ((t.found.map Found.launch ++ t.owners).map Launch.number).Nodup
  below : forall l, l ∈ t.found.map Found.launch ++ t.owners -> l.number < t.self.os.forks

def Reported (t : TracedDiagnoser) : Prop :=
  t.emitted = (t.found.filter Found.hadData).map (fun found => found.launch.event)

structure Inv (settings : BpfSettings) (t : TracedDiagnoser) : Prop where
  tracked : Tracked settings t
  owns : t.self.OwnsChildren
  numbered : Numbered t
  reported : Reported t

structure Cycles (w : World) (t : TracedDiagnoser) : Prop where
  /-- Each runner stems from one launch of a configured entry, no two from the same
  entry, and the children that were not reaped are theirs. -/
  pending : t.self.runners.map RunnerEntry.pendingEv = t.owners.map Launch.event
  configured : forall l, l ∈ t.owners -> (l.slot, l.entry) ∈ slotted t.self
  oneRunner : (t.owners.map Launch.slot).Nodup
  children : t.self.os.children.Perm (t.self.runners.map (fun e => e.runner.pid))
  inOrder : LaunchesInOrder w .transfer t.self
  /-- No launch is found exited twice, or is still in `runners_` then. -/
  once : ((t.found.map Found.launch ++ t.owners).map Launch.number).Nodup
  reported : t.emitted = (t.found.filter Found.hadData).map (fun found => found.launch.event)

theorem cycles_of_inv (w : World) {settings : BpfSettings} {t : TracedDiagnoser}
    (h : Inv settings t) : Cycles w t :=
  ⟨h.tracked.pending, h.tracked.entries, h.tracked.slots, h.owns.children,
    launchesInOrder_of_ownsChildren w h.owns, h.numbered.nodup, h.reported⟩

section Steps

variable (w : World) {settings : BpfSettings} {t : TracedDiagnoser}

theorem numbered_launchEntry (h : Numbered t) (e : Slot × ToolEntry) :
    Numbered (launchEntry w .transfer t e) := by
  have hforks : (launchEntry w .transfer t e).self.os.forks = t.self.os.forks + 1 :=
    forks_launch w t.self e.2
  rcases launchEntry_cases w .transfer t e with ⟨os, hsame⟩ | ⟨os, capacity, disk, hpushed⟩
  · constructor
    · rw [hsame]
      exact h.nodup
    · intro l hl
      rw [hforks]
      rw [hsame] at hl
      exact Nat.lt_succ_of_lt (h.below l hl)
  · have howners : (launchEntry w .transfer t e).owners = t.owners ++ [newLaunch w t e] := by
      rw [hpushed]
    have hfound : (launchEntry w .transfer t e).found = t.found := rfl
    constructor
    · rw [howners, hfound, ← List.append_assoc, List.map_append]
      apply h.nodup.append (List.nodup_singleton _)
      intro n hn hnew
      rcases List.mem_map.mp hn with ⟨l, hl, heq⟩
      rw [List.mem_singleton.mp hnew] at heq
      exact Nat.ne_of_lt (h.below l hl) heq
    · intro l hl
      rw [hforks]
      rw [howners, hfound, ← List.append_assoc] at hl
      rcases List.mem_append.mp hl with hold | hnew
      · exact Nat.lt_succ_of_lt (h.below l hold)
      · rw [List.mem_singleton.mp hnew]
        exact Nat.lt_succ_self _

theorem numbered_foldl (entries : List (Slot × ToolEntry)) (h : Numbered t) :
    Numbered (entries.foldl (launchEntry w .transfer) t) := by
  induction entries generalizing t with
  | nil => exact h
  | cons e rest ih => exact ih (numbered_launchEntry w h e)

theorem ownsChildren_foldl (entries : List (Slot × ToolEntry)) (h : t.self.OwnsChildren) :
    (entries.foldl (launchEntry w .transfer) t).self.OwnsChildren := by
  induction entries generalizing t with
  | nil => exact h
  | cons e rest ih => exact ih (ownsChildren_launch w e.2 h)

theorem reported_foldl (entries : List (Slot × ToolEntry)) (h : Reported t) :
    Reported (entries.foldl (launchEntry w .transfer) t) := by
  induction entries generalizing t with
  | nil => exact h
  | cons e rest ih => exact ih (show Reported (launchEntry w .transfer t e) from h)

theorem inv_reapTools (h : Inv settings t) : Inv settings (reapTools w .transfer t) := by
  have hzip := fst_zip h.tracked.toAligned
  rcases ownsChildren_reap w t.self.runners t.self [] h.owns.children h.owns.nodup
    h.owns.positive with ⟨howns, hforks, _⟩
  have hperm : ((reapTools w .transfer t).found.map Found.launch ++
      (reapTools w .transfer t).owners).Perm (t.found.map Found.launch ++ t.owners) := by
    have hsorted := perm_sortTools w .transfer (t.self.runners.zip t.owners) t.self
    rw [snd_zip h.tracked.toAligned] at hsorted
    show ((t.found ++ _).map Found.launch ++ _).Perm _
    rw [List.map_append, List.append_assoc]
    exact (List.perm_append_comm.trans hsorted).append_left _
  refine ⟨tracked_reapTools w .transfer h.tracked, howns, ⟨?_, ?_⟩, ?_⟩
  · exact (hperm.map Launch.number).nodup_iff.mpr h.numbered.nodup
  · intro l hl
    show l.number < (reap w .transfer t.self [] t.self.runners).os.forks
    rw [hforks]
    exact h.numbered.below l (hperm.subset hl)
  · have hevents := events_reap w .transfer (t.self.runners.zip t.owners) t.self []
      (aligned_zip h.tracked.toAligned)
    rw [hzip] at hevents
    show t.emitted ++ (reap w .transfer t.self [] t.self.runners).events.drop
        t.self.events.length = ((t.found ++ _).filter Found.hadData).map _
    rw [hevents, List.drop_left, h.reported, List.filter_append, List.map_append]

theorem inv_relaunchTools (h : Inv settings t) : Inv settings (relaunchTools w .transfer t) := by
  refine ⟨tracked_relaunchTools w .transfer h.tracked, ?_, ?_, ?_⟩
  · unfold relaunchTools
    split
    · exact ownsChildren_foldl w _ h.owns
    · exact h.owns
  · unfold relaunchTools
    split
    · exact numbered_foldl w _ h.numbered
    · exact h.numbered
  · unfold relaunchTools
    split
    · exact reported_foldl w _ h.reported
    · exact h.reported

theorem inv_withEntry (h : Inv settings t) (entry : ToolEntry) :
    Inv settings (withEntry t entry) := by
  have htracked := tracked_withEntry entry h.tracked
  cases entry with
  | offcpu cfg =>
      exact ⟨htracked, ⟨h.owns.children, h.owns.nodup, h.owns.positive⟩,
        ⟨h.numbered.nodup, h.numbered.below⟩, h.reported⟩
  | profile cfg =>
      exact ⟨htracked, ⟨h.owns.children, h.owns.nodup, h.owns.positive⟩,
        ⟨h.numbered.nodup, h.numbered.below⟩, h.reported⟩

theorem inv_startEntry (h : Inv settings t) (entry : ToolEntry) :
    Inv settings (startEntry w .transfer t entry) := by
  have hentry := inv_withEntry h entry
  exact ⟨tracked_startEntry w .transfer h.tracked entry,
    ownsChildren_launch w entry hentry.owns,
    numbered_launchEntry w hentry.numbered (nextSlot t entry, entry), hentry.reported⟩

theorem inv_step (t : TracedDiagnoser) (op : DiagnoserOp) (h : Inv settings t) :
    Inv settings (step w .transfer t op) := by
  cases op with
  | startOffcpu cfg => exact inv_startEntry w h _
  | startProfile cfg => exact inv_startEntry w h _
  | collect => exact inv_relaunchTools w (inv_reapTools w h)
  | reset =>
      exact ⟨tracked_step w .transfer t .reset h.tracked,
        ⟨h.owns.children, h.owns.nodup, h.owns.positive⟩,
        ⟨h.numbered.nodup, h.numbered.below⟩, h.reported⟩
  | write path st =>
      exact ⟨tracked_step w .transfer t (.write path st) h.tracked,
        ⟨h.owns.children, h.owns.nodup, h.owns.positive⟩,
        ⟨h.numbered.nodup, h.numbered.below⟩, h.reported⟩

theorem inv_fresh (settings : BpfSettings) (disk : Disk) : Inv settings (fresh settings disk) := by
  refine ⟨tracked_fresh settings disk, ⟨List.Perm.refl _, List.nodup_nil, ?_⟩,
    ⟨List.nodup_nil, ?_⟩, rfl⟩
  · intro e he
    cases he
  · intro l hl
    cases hl

end Steps

/-- The cycles in every state of every run of a diagnoser that hands its runners over,
for all answers of the system. -/
theorem cycles_throughout (w : World) (settings : BpfSettings) (disk : Disk)
    (ops : List DiagnoserOp) :
    Throughout (step w .transfer) (Cycles w) (fresh settings disk) ops ∧
      (runFrom (step w .transfer) (fresh settings disk) ops).self =
        runFrom (BpfDiagnoser.step w .transfer) (BpfDiagnoser.fresh settings disk) ops := by
  refine ⟨?_, self_run w .transfer settings disk ops⟩
  apply throughout_mono (fun t (h : Inv settings t) => cycles_of_inv w h)
  exact throughout_of_invariant (inv_step w) (inv_fresh settings disk) ops

end TracedDiagnoser

end Worker
end PerfMonitor
