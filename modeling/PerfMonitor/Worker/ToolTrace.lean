import Mathlib.Data.List.Nodup
import PerfMonitor.Worker.ReapLoop

/-!
# Launches of the BPF diagnoser

The diagnoser keeps no record of which entry of the configuration a runner belongs
to, and forgets a runner once its tool has finished.  A trace adds this record to
the diagnoser without touching it: every successful launch has a number, the entry
it was made for and the second it was made in, and the trace follows it from
`runners_` to the moment `Collect` finds its tool exited.
-/

namespace PerfMonitor
namespace Worker

open Foundation

inductive ToolEntry where
  | offcpu (cfg : OffcpuConfig)
  | profile (cfg : ProfileConfig)
deriving DecidableEq, Repr

namespace ToolEntry

def kind : ToolEntry -> ToolKind
  | .offcpu _ => .offcpu
  | .profile _ => .profile

def process : ToolEntry -> Str
  | .offcpu cfg => cfg.process
  | .profile cfg => cfg.process

def thread : ToolEntry -> Str
  | .offcpu cfg => cfg.thread
  | .profile cfg => cfg.thread

/-- The arguments before `-p` and `-t`. -/
def options (settings : BpfSettings) (entry : ToolEntry) (out : Str) : List Str :=
  match entry with
  | .offcpu cfg =>
      ["-m".toList, BpfDiagnoser.decimal cfg.minBlockUs,
        "-M".toList, BpfDiagnoser.decimal cfg.maxBlockUs,
        "-o".toList, out, "-i".toList, BpfDiagnoser.decimal cfg.intervalS,
        "-S".toList, BpfDiagnoser.decimal settings.limitFileSizeMb]
  | .profile cfg =>
      ["-N".toList, BpfDiagnoser.decimal cfg.maxNr,
        "-M".toList, BpfDiagnoser.decimal cfg.maxSizeKb,
        "-C".toList, cfg.cpus, "-o".toList, out]

end ToolEntry

abbrev Slot := ToolKind × Nat

structure Launch where
  number : Nat
  slot : Slot
  entry : ToolEntry
  second : Int
  event : CppDiagnoseEvent
deriving DecidableEq, Repr

/-- A launch whose tool was found exited, and whether its file had data then. -/
structure Found where
  launch : Launch
  hadData : Bool
deriving DecidableEq, Repr

/-- A diagnoser with the launches that its runners stem from, in the order of the
runners, those whose tools were found exited, and all events it ever appended. -/
structure TracedDiagnoser where
  self : BpfDiagnoser
  owners : List Launch := []
  found : List Found := []
  emitted : List CppDiagnoseEvent := []

namespace BpfDiagnoser

def slotted (s : BpfDiagnoser) : List (Slot × ToolEntry) :=
  s.offcpuConfigs.zipIdx.map (fun c => ((.offcpu, c.2), .offcpu c.1)) ++
    s.profileConfigs.zipIdx.map (fun c => ((.profile, c.2), .profile c.1))

section

variable (w : World) (mode : Handover)

def launch (s : BpfDiagnoser) : ToolEntry -> BpfDiagnoser
  | .offcpu cfg => launchOffcpu w mode s cfg
  | .profile cfg => launchProfile w mode s cfg

theorem launch_eq (s : BpfDiagnoser) (entry : ToolEntry) :
    launch w mode s entry =
      launchTool w mode s entry.kind entry.process entry.thread (entry.options s.settings) := by
  cases entry with
  | offcpu cfg => rfl
  | profile cfg => rfl

/-- What the loop of `Collect` makes of the launches behind its runners: those it keeps,
and those it finds exited. -/
def sortTools (s : BpfDiagnoser) : List (RunnerEntry × Launch) -> List Launch × List Found
  | [] => ([], [])
  | (e, launch) :: rest =>
      let (running, runner, os) := e.runner.isRunning w s.os
      if running then
        let sorted := sortTools { s with os := os } rest
        (launch :: sorted.1, sorted.2)
      else
        let found : Found :=
          { launch := launch, hadData := s.disk.hasData e.pendingEv.filePath }
        let s := report { s with os := os } e.pendingEv
        let sorted := sortTools
          { s with
            os := CmdRunner.destroy w .erase s.os (erased mode runner (rest.map Prod.fst)) }
          rest
        (sorted.1, found :: sorted.2)

end

end BpfDiagnoser

namespace TracedDiagnoser

open BpfDiagnoser

section

variable (w : World) (mode : Handover)

def launchEntry (t : TracedDiagnoser) (e : Slot × ToolEntry) : TracedDiagnoser :=
  let self := launch w mode t.self e.2
  { t with
    self := self
    owners := t.owners ++ (self.runners.drop t.self.runners.length).map (fun runner =>
      { number := t.self.os.forks
        slot := e.1
        entry := e.2
        second := w.clock t.self.os.times
        event := runner.pendingEv }) }

def reapTools (t : TracedDiagnoser) : TracedDiagnoser :=
  let self := reap w mode t.self [] t.self.runners
  let sorted := sortTools w mode t.self (t.self.runners.zip t.owners)
  { self := self
    owners := sorted.1
    found := t.found ++ sorted.2
    emitted := t.emitted ++ self.events.drop t.self.events.length }

def relaunchTools (t : TracedDiagnoser) : TracedDiagnoser :=
  if t.self.runners = [] then (slotted t.self).foldl (launchEntry w mode) t else t

def withEntry (t : TracedDiagnoser) (entry : ToolEntry) : TracedDiagnoser :=
  match entry with
  | .offcpu cfg =>
      { t with self := { t.self with offcpuConfigs := t.self.offcpuConfigs ++ [cfg] } }
  | .profile cfg =>
      { t with self := { t.self with profileConfigs := t.self.profileConfigs ++ [cfg] } }

def nextSlot (t : TracedDiagnoser) : ToolEntry -> Slot
  | .offcpu _ => (.offcpu, t.self.offcpuConfigs.length)
  | .profile _ => (.profile, t.self.profileConfigs.length)

def startEntry (t : TracedDiagnoser) (entry : ToolEntry) : TracedDiagnoser :=
  launchEntry w mode (withEntry t entry) (nextSlot t entry, entry)

def step (t : TracedDiagnoser) : DiagnoserOp -> TracedDiagnoser
  | .startOffcpu cfg => startEntry w mode t (.offcpu cfg)
  | .startProfile cfg => startEntry w mode t (.profile cfg)
  | .collect => relaunchTools w mode (reapTools w mode t)
  | .reset => { t with self := t.self.reset }
  | .write path st => { t with self := { t.self with disk := t.self.disk.write path st } }

end

def fresh (settings : BpfSettings) (disk : Disk) : TracedDiagnoser :=
  { self := BpfDiagnoser.fresh settings disk }

/-!
## The trace leaves the diagnoser alone
-/

section Erasure

variable (w : World) (mode : Handover)

theorem foldl_launch_zipIdx {α : Type} {make : α -> ToolEntry}
    {f : BpfDiagnoser -> α -> BpfDiagnoser}
    (hf : forall s cfg, launch w mode s (make cfg) = f s cfg) (kind : ToolKind) (cfgs : List α)
    (n : Nat) (s : BpfDiagnoser) :
    ((cfgs.zipIdx n).map (fun c => (((kind, c.2), make c.1) : Slot × ToolEntry))).foldl
      (fun s e => launch w mode s e.2) s = cfgs.foldl f s := by
  induction cfgs generalizing n s with
  | nil => rfl
  | cons cfg rest ih =>
      rw [List.zipIdx_cons, List.map_cons, List.foldl_cons, List.foldl_cons, ih, hf]

theorem foldl_launch_slotted (s : BpfDiagnoser) :
    (slotted s).foldl (fun s e => launch w mode s e.2) s =
      s.profileConfigs.foldl (launchProfile w mode)
        (s.offcpuConfigs.foldl (launchOffcpu w mode) s) := by
  have hoffcpu : forall s cfg, launch w mode s (.offcpu cfg) = launchOffcpu w mode s cfg :=
    fun _ _ => rfl
  have hprofile : forall s cfg, launch w mode s (.profile cfg) = launchProfile w mode s cfg :=
    fun _ _ => rfl
  unfold slotted
  rw [List.foldl_append, foldl_launch_zipIdx w mode hoffcpu, foldl_launch_zipIdx w mode hprofile]

theorem relaunch_eq (s : BpfDiagnoser) :
    relaunch w mode s =
      if s.runners = [] then (slotted s).foldl (fun s e => launch w mode s e.2) s else s := by
  rw [foldl_launch_slotted]
  unfold relaunch
  by_cases hrunners : s.runners = []
  · rw [if_pos hrunners]
    by_cases hconfigs : s.offcpuConfigs ≠ [] ∨ s.profileConfigs ≠ []
    · rw [if_pos ⟨hrunners, hconfigs⟩]
    · rw [if_neg (fun hboth => hconfigs hboth.right)]
      rw [not_or, not_not, not_not] at hconfigs
      rw [hconfigs.left, hconfigs.right]
      rfl
  · rw [if_neg hrunners, if_neg (fun hboth => hrunners hboth.left)]

theorem self_foldl_launchEntry (entries : List (Slot × ToolEntry)) (t : TracedDiagnoser) :
    (entries.foldl (launchEntry w mode) t).self =
      entries.foldl (fun s e => launch w mode s e.2) t.self := by
  induction entries generalizing t with
  | nil => rfl
  | cons e rest ih => exact ih (launchEntry w mode t e)

theorem self_relaunchTools (t : TracedDiagnoser) :
    (relaunchTools w mode t).self = relaunch w mode t.self := by
  rw [relaunch_eq]
  unfold relaunchTools
  by_cases hrunners : t.self.runners = []
  · rw [if_pos hrunners, if_pos hrunners, self_foldl_launchEntry]
  · rw [if_neg hrunners, if_neg hrunners]

theorem self_step (t : TracedDiagnoser) (op : DiagnoserOp) :
    (step w mode t op).self = t.self.step w mode op := by
  cases op with
  | startOffcpu cfg => rfl
  | startProfile cfg => rfl
  | collect => exact self_relaunchTools w mode (reapTools w mode t)
  | reset => rfl
  | write path st => rfl

theorem self_run (settings : BpfSettings) (disk : Disk) (ops : List DiagnoserOp) :
    (runFrom (step w mode) (fresh settings disk) ops).self =
      runFrom (BpfDiagnoser.step w mode) (BpfDiagnoser.fresh settings disk) ops := by
  have hsame := runFrom_simulates (R := fun (t : TracedDiagnoser) (s : BpfDiagnoser) => t.self = s)
    (fun t s op (hself : t.self = s) => (self_step w mode t op).trans (by rw [hself]))
    (show (fresh settings disk).self = BpfDiagnoser.fresh settings disk from rfl) ops
  exact hsame

end Erasure

/-!
## Every runner stems from one launch
-/

structure Made (settings : BpfSettings) (launch : Launch) : Prop where
  type : launch.event.type = launch.entry.kind.type
  processName : launch.event.processName = launch.entry.process
  threadName : launch.event.threadName = launch.entry.thread
  filePath : launch.event.filePath =
    outFile settings.outputDir launch.entry.kind launch.entry.process launch.entry.thread
      launch.second

structure Aligned (settings : BpfSettings) (t : TracedDiagnoser) : Prop where
  configured : t.self.settings = settings
  pending : t.self.runners.map RunnerEntry.pendingEv = t.owners.map Launch.event
  made : forall l, l ∈ t.owners -> Made settings l

structure Tracked (settings : BpfSettings) (t : TracedDiagnoser) : Prop
    extends Aligned settings t where
  slots : (t.owners.map Launch.slot).Nodup
  entries : forall l, l ∈ t.owners -> (l.slot, l.entry) ∈ slotted t.self

def newLaunch (w : World) (t : TracedDiagnoser) (e : Slot × ToolEntry) : Launch where
  number := t.self.os.forks
  slot := e.1
  entry := e.2
  second := w.clock t.self.os.times
  event := (nextEntry w t.self e.2.kind e.2.process e.2.thread).pendingEv

theorem made_newLaunch (w : World) (t : TracedDiagnoser) (e : Slot × ToolEntry) :
    Made t.self.settings (newLaunch w t e) :=
  ⟨rfl, rfl, rfl, rfl⟩

theorem length_runners {settings : BpfSettings} {t : TracedDiagnoser} (h : Aligned settings t) :
    t.self.runners.length = t.owners.length := by
  have hlength := congrArg List.length h.pending
  rw [List.length_map, List.length_map] at hlength
  exact hlength

theorem fst_zipIdx {α : Type} (kind : ToolKind) (make : α -> ToolEntry) (cfgs : List α) :
    (cfgs.zipIdx.map (fun c => (((kind, c.2), make c.1) : Slot × ToolEntry))).map Prod.fst =
      (List.range' 0 cfgs.length).map (Prod.mk kind) := by
  rw [← List.zipIdx_map_snd 0 cfgs, List.map_map, List.map_map]
  rfl

theorem nodup_slotted (s : BpfDiagnoser) : ((slotted s).map Prod.fst).Nodup := by
  unfold slotted
  rw [List.map_append, fst_zipIdx, fst_zipIdx]
  apply List.Nodup.append
  · exact (List.nodup_range').map (Prod.mk_right_injective _)
  · exact (List.nodup_range').map (Prod.mk_right_injective _)
  · intro slot hslot hslot'
    rcases List.mem_map.mp hslot with ⟨i, _, hi⟩
    rcases List.mem_map.mp hslot' with ⟨j, _, hj⟩
    rw [← hj] at hi
    cases hi

section Launches

variable (w : World) (mode : Handover)

theorem launchEntry_of_runners {t : TracedDiagnoser} {e : Slot × ToolEntry}
    {self : BpfDiagnoser} {pushed : List RunnerEntry}
    (hlaunch : launch w mode t.self e.2 = self)
    (hrunners : self.runners = t.self.runners ++ pushed) :
    launchEntry w mode t e =
      { t with
        self := self
        owners := t.owners ++ pushed.map (fun runner =>
          { newLaunch w t e with event := runner.pendingEv }) } := by
  have hdrop : self.runners.drop t.self.runners.length = pushed := by
    rw [hrunners, List.drop_left]
  unfold launchEntry
  rw [hlaunch]
  dsimp only
  rw [hdrop]
  rfl

theorem launchEntry_of_noChild {t : TracedDiagnoser} (hfork : t.self.os.nextChild w = -1)
    (e : Slot × ToolEntry) :
    exists os, launchEntry w mode t e = { t with self := { t.self with os := os } } := by
  have hlaunch := (launch_eq w mode t.self e.2).trans
    (launchTool_of_noChild w mode t.self _ _ _ _ hfork)
  rw [launchEntry_of_runners w mode hlaunch (List.append_nil _).symm, List.map_nil,
    List.append_nil]
  exact ⟨_, rfl⟩

theorem launchEntry_of_child {t : TracedDiagnoser} (hfork : 0 < t.self.os.nextChild w)
    (e : Slot × ToolEntry) :
    exists os capacity disk, launchEntry w mode t e =
      { t with
        self :=
          { t.self with
            os := os
            capacity := capacity
            runners := t.self.runners ++ [nextEntry w t.self e.2.kind e.2.process e.2.thread]
            disk := disk }
        owners := t.owners ++ [newLaunch w t e] } := by
  have hlaunch := (launch_eq w mode t.self e.2).trans
    (launchTool_of_child w mode t.self _ _ _ _ hfork)
  simp only [pushBack] at hlaunch
  split at hlaunch
  · rw [launchEntry_of_runners w mode hlaunch rfl]
    exact ⟨_, _, _, rfl⟩
  · rw [launchEntry_of_runners w mode hlaunch rfl]
    exact ⟨_, _, _, rfl⟩

theorem launchEntry_cases (t : TracedDiagnoser) (e : Slot × ToolEntry) :
    (exists os, launchEntry w mode t e = { t with self := { t.self with os := os } }) ∨
      exists os capacity disk, launchEntry w mode t e =
        { t with
          self :=
            { t.self with
              os := os
              capacity := capacity
              runners := t.self.runners ++
                [nextEntry w t.self e.2.kind e.2.process e.2.thread]
              disk := disk }
          owners := t.owners ++ [newLaunch w t e] } := by
  rcases Os.nextChild_cases w t.self.os with hfork | hfork
  · exact Or.inl (launchEntry_of_noChild w mode hfork e)
  · exact Or.inr (launchEntry_of_child w mode hfork e)

theorem slotted_launchEntry (t : TracedDiagnoser) (e : Slot × ToolEntry) :
    slotted (launchEntry w mode t e).self = slotted t.self := by
  rcases launchEntry_cases w mode t e with ⟨os, hsame⟩ | ⟨os, capacity, disk, hpushed⟩
  · rw [hsame]
    rfl
  · rw [hpushed]
    rfl

theorem slots_launchEntry (t : TracedDiagnoser) (e : Slot × ToolEntry) (slot : Slot)
    (hslot : slot ∈ (launchEntry w mode t e).owners.map Launch.slot) :
    slot ∈ t.owners.map Launch.slot ∨ slot = e.1 := by
  rcases launchEntry_cases w mode t e with ⟨os, hsame⟩ | ⟨os, capacity, disk, hpushed⟩
  · rw [hsame] at hslot
    exact Or.inl hslot
  · rw [hpushed] at hslot
    simp only [List.map_append, List.mem_append, List.map_cons, List.map_nil,
      List.mem_singleton] at hslot
    exact hslot

variable {settings : BpfSettings} {t : TracedDiagnoser}

theorem aligned_launchEntry (h : Aligned settings t) (e : Slot × ToolEntry) :
    Aligned settings (launchEntry w mode t e) := by
  rcases launchEntry_cases w mode t e with ⟨os, hsame⟩ | ⟨os, capacity, disk, hpushed⟩
  · rw [hsame]
    exact ⟨h.configured, h.pending, h.made⟩
  · rw [hpushed]
    refine ⟨h.configured, ?_, ?_⟩
    · show (t.self.runners ++ [_]).map RunnerEntry.pendingEv =
        (t.owners ++ [newLaunch w t e]).map Launch.event
      rw [List.map_append, List.map_append, h.pending]
      rfl
    · intro l hl
      rcases List.mem_append.mp hl with hold | hnew
      · exact h.made l hold
      · rw [List.mem_singleton.mp hnew, ← h.configured]
        exact made_newLaunch w t e

theorem tracked_launchEntry (h : Tracked settings t) {e : Slot × ToolEntry}
    (hfresh : e.1 ∉ t.owners.map Launch.slot) (he : e ∈ slotted t.self) :
    Tracked settings (launchEntry w mode t e) := by
  refine ⟨aligned_launchEntry w mode h.toAligned e, ?_, ?_⟩
  · rcases launchEntry_cases w mode t e with ⟨os, hsame⟩ | ⟨os, capacity, disk, hpushed⟩
    · rw [hsame]
      exact h.slots
    · rw [hpushed, List.map_append]
      apply h.slots.append (List.nodup_singleton _)
      intro slot hslot hnew
      rw [List.mem_singleton.mp hnew] at hslot
      exact hfresh hslot
  · intro l hl
    rw [slotted_launchEntry]
    rcases launchEntry_cases w mode t e with ⟨os, hsame⟩ | ⟨os, capacity, disk, hpushed⟩
    · rw [hsame] at hl
      exact h.entries l hl
    · rw [hpushed] at hl
      rcases List.mem_append.mp hl with hold | hnew
      · exact h.entries l hold
      · rw [List.mem_singleton.mp hnew]
        exact he

theorem tracked_foldl {entries : List (Slot × ToolEntry)} (h : Tracked settings t)
    (hnodup : (entries.map Prod.fst).Nodup)
    (hfresh : forall e, e ∈ entries -> e.1 ∉ t.owners.map Launch.slot)
    (hentries : forall e, e ∈ entries -> e ∈ slotted t.self) :
    Tracked settings (entries.foldl (launchEntry w mode) t) := by
  induction entries generalizing t with
  | nil => exact h
  | cons e rest ih =>
      rcases List.nodup_cons.mp hnodup with ⟨hnew, hrest⟩
      apply ih
      · exact tracked_launchEntry w mode h (hfresh e List.mem_cons_self)
          (hentries e List.mem_cons_self)
      · exact hrest
      · intro e' he' hslot
        rcases slots_launchEntry w mode t e e'.1 hslot with hold | hsame
        · exact hfresh e' (List.mem_cons_of_mem _ he') hold
        · rw [← hsame] at hnew
          exact hnew (List.mem_map_of_mem he')
      · intro e' he'
        rw [slotted_launchEntry]
        exact hentries e' (List.mem_cons_of_mem _ he')

theorem owners_eq_nil (h : Aligned settings t) (hrunners : t.self.runners = []) :
    t.owners = [] := by
  have hlength := length_runners h
  rw [hrunners] at hlength
  exact List.length_eq_zero_iff.mp hlength.symm

theorem tracked_relaunchTools (h : Tracked settings t) :
    Tracked settings (relaunchTools w mode t) := by
  unfold relaunchTools
  by_cases hrunners : t.self.runners = []
  · rw [if_pos hrunners]
    apply tracked_foldl w mode h (nodup_slotted t.self)
    · intro e _
      rw [owners_eq_nil h.toAligned hrunners]
      exact List.not_mem_nil
    · intro e he
      exact he
  · rw [if_neg hrunners]
    exact h

end Launches

/-!
## The loop of `Collect`
-/

section Loop

variable (w : World) (mode : Handover)

theorem sortTools_of_running {s : BpfDiagnoser} {e : RunnerEntry} {runner : CmdRunner} {os : Os}
    (hrun : e.runner.isRunning w s.os = (true, runner, os)) (l : Launch)
    (rest : List (RunnerEntry × Launch)) :
    sortTools w mode s ((e, l) :: rest) =
      (l :: (sortTools w mode { s with os := os } rest).1,
        (sortTools w mode { s with os := os } rest).2) := by
  rw [sortTools, hrun]
  rfl

def afterFound (s : BpfDiagnoser) (e : RunnerEntry) (runner : CmdRunner) (os : Os)
    (rest : List RunnerEntry) : BpfDiagnoser :=
  { s with
    events := (reportStep s.settings s.results e.pendingEv).1
    os := CmdRunner.destroy w .erase os (erased mode runner rest)
    disk := (reportStep s.settings s.results e.pendingEv).2 }

theorem sortTools_of_found {s : BpfDiagnoser} {e : RunnerEntry} {runner : CmdRunner} {os : Os}
    (hrun : e.runner.isRunning w s.os = (false, runner, os)) (l : Launch)
    (rest : List (RunnerEntry × Launch)) :
    sortTools w mode s ((e, l) :: rest) =
      let sorted := sortTools w mode
        (afterFound w mode s e runner os (rest.map Prod.fst)) rest
      (sorted.1, { launch := l, hadData := s.disk.hasData e.pendingEv.filePath } :: sorted.2) := by
  rw [sortTools, hrun]
  simp only [Bool.false_eq_true, if_false, report_eq]
  rfl

theorem reap_of_found {s : BpfDiagnoser} {e : RunnerEntry} {runner : CmdRunner} {os : Os}
    (hrun : e.runner.isRunning w s.os = (false, runner, os)) (kept rest : List RunnerEntry) :
    reap w mode s kept (e :: rest) =
      reap w mode (afterFound w mode s e runner os rest) kept rest :=
  BpfDiagnoser.reap_of_found w mode hrun kept rest

theorem pending_reap (pairs : List (RunnerEntry × Launch)) (s : BpfDiagnoser)
    (kept : List RunnerEntry)
    (haligned : forall pair, pair ∈ pairs -> pair.1.pendingEv = pair.2.event) :
    (reap w mode s kept (pairs.map Prod.fst)).runners.map RunnerEntry.pendingEv =
      kept.map RunnerEntry.pendingEv ++
        (sortTools w mode s pairs).1.map Launch.event := by
  induction pairs generalizing s kept with
  | nil => exact (List.append_nil _).symm
  | cons pair rest ih =>
      rcases pair with ⟨e, l⟩
      have hfirst : e.pendingEv = l.event := haligned (e, l) List.mem_cons_self
      have hrest : forall pair, pair ∈ rest -> pair.1.pendingEv = pair.2.event :=
        fun pair hpair => haligned pair (List.mem_cons_of_mem _ hpair)
      rw [List.map_cons]
      rcases hrun : e.runner.isRunning w s.os with ⟨running, runner, os⟩
      cases running with
      | true =>
          rw [reap_of_running w mode hrun, sortTools_of_running w mode hrun, ih _ _ hrest]
          simp [hfirst]
      | false =>
          rw [reap_of_found w mode hrun, sortTools_of_found w mode hrun, ih _ _ hrest]

theorem perm_sortTools (pairs : List (RunnerEntry × Launch)) (s : BpfDiagnoser) :
    ((sortTools w mode s pairs).1 ++ (sortTools w mode s pairs).2.map Found.launch).Perm
      (pairs.map Prod.snd) := by
  induction pairs generalizing s with
  | nil => exact List.Perm.refl _
  | cons pair rest ih =>
      rcases pair with ⟨e, l⟩
      rw [List.map_cons]
      rcases hrun : e.runner.isRunning w s.os with ⟨running, runner, os⟩
      cases running with
      | true =>
          rw [sortTools_of_running w mode hrun]
          exact (ih _).cons l
      | false =>
          rw [sortTools_of_found w mode hrun]
          exact List.perm_middle.trans ((ih _).cons l)

theorem sublist_sortTools (pairs : List (RunnerEntry × Launch)) (s : BpfDiagnoser) :
    (sortTools w mode s pairs).1.Sublist (pairs.map Prod.snd) := by
  induction pairs generalizing s with
  | nil => exact List.Sublist.refl _
  | cons pair rest ih =>
      rcases pair with ⟨e, l⟩
      rw [List.map_cons]
      rcases hrun : e.runner.isRunning w s.os with ⟨running, runner, os⟩
      cases running with
      | true =>
          rw [sortTools_of_running w mode hrun]
          exact (ih _).cons_cons l
      | false =>
          rw [sortTools_of_found w mode hrun]
          exact (ih _).cons l

theorem events_reap (pairs : List (RunnerEntry × Launch)) (s : BpfDiagnoser)
    (kept : List RunnerEntry)
    (haligned : forall pair, pair ∈ pairs -> pair.1.pendingEv = pair.2.event) :
    (reap w mode s kept (pairs.map Prod.fst)).events =
      s.events ++ ((sortTools w mode s pairs).2.filter Found.hadData).map
        (fun found => found.launch.event) := by
  induction pairs generalizing s kept with
  | nil => exact (List.append_nil _).symm
  | cons pair rest ih =>
      rcases pair with ⟨e, l⟩
      have hfirst : e.pendingEv = l.event := haligned (e, l) List.mem_cons_self
      have hrest : forall pair, pair ∈ rest -> pair.1.pendingEv = pair.2.event :=
        fun pair hpair => haligned pair (List.mem_cons_of_mem _ hpair)
      rw [List.map_cons]
      rcases hrun : e.runner.isRunning w s.os with ⟨running, runner, os⟩
      cases running with
      | true => rw [reap_of_running w mode hrun, sortTools_of_running w mode hrun, ih _ _ hrest]
      | false =>
          rw [reap_of_found w mode hrun, sortTools_of_found w mode hrun, ih _ _ hrest]
          unfold afterFound reportStep results
          cases hdata : s.disk.hasData e.pendingEv.filePath with
          | true => simp [hfirst]
          | false => simp

end Loop

section Reap

variable (w : World) (mode : Handover) {settings : BpfSettings} {t : TracedDiagnoser}

theorem fst_zip (h : Aligned settings t) :
    (t.self.runners.zip t.owners).map Prod.fst = t.self.runners :=
  List.map_fst_zip (Nat.le_of_eq (length_runners h))

theorem snd_zip (h : Aligned settings t) :
    (t.self.runners.zip t.owners).map Prod.snd = t.owners :=
  List.map_snd_zip (Nat.le_of_eq (length_runners h).symm)

theorem aligned_zip (h : Aligned settings t) :
    forall pair, pair ∈ t.self.runners.zip t.owners -> pair.1.pendingEv = pair.2.event := by
  intro pair hpair
  rcases List.mem_iff_getElem?.mp hpair with ⟨i, hi⟩
  rcases List.getElem?_zip_eq_some.mp hi with ⟨hrunner, howner⟩
  have hat := congrArg (fun l => l[i]?) h.pending
  simp only [List.getElem?_map, hrunner, howner, Option.map_some] at hat
  injection hat

theorem owners_reapTools (h : Aligned settings t) :
    (reapTools w mode t).owners.Sublist t.owners := by
  have hsorted := sublist_sortTools w mode (t.self.runners.zip t.owners) t.self
  rw [snd_zip h] at hsorted
  exact hsorted

theorem aligned_reapTools (h : Aligned settings t) : Aligned settings (reapTools w mode t) := by
  refine ⟨?_, ?_, ?_⟩
  · exact (frame_reap w mode t.self.runners t.self []).left.trans h.configured
  · have hpending := pending_reap w mode (t.self.runners.zip t.owners) t.self [] (aligned_zip h)
    rw [fst_zip h] at hpending
    exact hpending
  · intro l hl
    exact h.made l ((owners_reapTools w mode h).subset hl)

theorem slotted_reapTools (t : TracedDiagnoser) :
    slotted (reapTools w mode t).self = slotted t.self := by
  have hframe := frame_reap w mode t.self.runners t.self []
  show slotted (reap w mode t.self [] t.self.runners) = slotted t.self
  unfold slotted
  rw [hframe.right.left, hframe.right.right]

theorem tracked_reapTools (h : Tracked settings t) : Tracked settings (reapTools w mode t) := by
  have hsub := owners_reapTools w mode h.toAligned
  refine ⟨aligned_reapTools w mode h.toAligned, h.slots.sublist (hsub.map _), ?_⟩
  intro l hl
  rw [slotted_reapTools]
  exact h.entries l (hsub.subset hl)

end Reap

/-!
## Whole runs
-/

theorem mem_slotted_iff {s : BpfDiagnoser} {e : Slot × ToolEntry} :
    e ∈ slotted s <->
      (exists i cfg, s.offcpuConfigs[i]? = some cfg ∧ e = ((.offcpu, i), .offcpu cfg)) ∨
        (exists i cfg, s.profileConfigs[i]? = some cfg ∧ e = ((.profile, i), .profile cfg)) := by
  unfold slotted
  rw [List.mem_append, List.mem_map, List.mem_map]
  constructor
  · rintro (⟨c, hc, heq⟩ | ⟨c, hc, heq⟩)
    · exact Or.inl ⟨c.2, c.1, List.mem_zipIdx_iff_getElem?.mp hc, heq.symm⟩
    · exact Or.inr ⟨c.2, c.1, List.mem_zipIdx_iff_getElem?.mp hc, heq.symm⟩
  · rintro (⟨i, cfg, hcfg, heq⟩ | ⟨i, cfg, hcfg, heq⟩)
    · exact Or.inl ⟨(cfg, i), List.mem_zipIdx_iff_getElem?.mpr hcfg, heq.symm⟩
    · exact Or.inr ⟨(cfg, i), List.mem_zipIdx_iff_getElem?.mpr hcfg, heq.symm⟩

section Start

variable (t : TracedDiagnoser) (entry : ToolEntry)

theorem mem_slotted_withEntry {e : Slot × ToolEntry} (he : e ∈ slotted t.self) :
    e ∈ slotted (withEntry t entry).self := by
  rw [mem_slotted_iff] at he ⊢
  rcases he with ⟨i, c, hc, heq⟩ | ⟨i, c, hc, heq⟩
  · refine Or.inl ⟨i, c, ?_, heq⟩
    cases entry with
    | offcpu cfg =>
        exact (List.getElem?_append_left (List.getElem?_eq_some_iff.mp hc).choose).trans hc
    | profile cfg => exact hc
  · refine Or.inr ⟨i, c, ?_, heq⟩
    cases entry with
    | offcpu cfg => exact hc
    | profile cfg =>
        exact (List.getElem?_append_left (List.getElem?_eq_some_iff.mp hc).choose).trans hc

theorem nextSlot_mem : (nextSlot t entry, entry) ∈ slotted (withEntry t entry).self := by
  rw [mem_slotted_iff]
  cases entry with
  | offcpu cfg => exact Or.inl ⟨_, cfg, List.getElem?_concat_length, rfl⟩
  | profile cfg => exact Or.inr ⟨_, cfg, List.getElem?_concat_length, rfl⟩

theorem nextSlot_ne {e : Slot × ToolEntry} (he : e ∈ slotted t.self) :
    e.1 ≠ nextSlot t entry := by
  rcases mem_slotted_iff.mp he with ⟨i, c, hc, rfl⟩ | ⟨i, c, hc, rfl⟩
  · have hi := (List.getElem?_eq_some_iff.mp hc).choose
    cases entry with
    | offcpu cfg =>
        intro heq
        injection heq with _ heq
        exact Nat.ne_of_lt hi heq
    | profile cfg =>
        intro heq
        cases heq
  · have hi := (List.getElem?_eq_some_iff.mp hc).choose
    cases entry with
    | offcpu cfg =>
        intro heq
        cases heq
    | profile cfg =>
        intro heq
        injection heq with _ heq
        exact Nat.ne_of_lt hi heq

theorem aligned_withEntry {t : TracedDiagnoser} {settings : BpfSettings}
    (h : Aligned settings t) : Aligned settings (withEntry t entry) := by
  cases entry with
  | offcpu cfg => exact ⟨h.configured, h.pending, h.made⟩
  | profile cfg => exact ⟨h.configured, h.pending, h.made⟩

theorem owners_withEntry : (withEntry t entry).owners = t.owners := by
  cases entry with
  | offcpu cfg => rfl
  | profile cfg => rfl

theorem tracked_withEntry {t : TracedDiagnoser} {settings : BpfSettings}
    (h : Tracked settings t) : Tracked settings (withEntry t entry) := by
  refine ⟨aligned_withEntry entry h.toAligned, ?_, ?_⟩
  · rw [owners_withEntry]
    exact h.slots
  · intro l hl
    rw [owners_withEntry] at hl
    exact mem_slotted_withEntry t entry (h.entries l hl)

end Start

section Runs

variable (w : World) (mode : Handover) {settings : BpfSettings}

theorem aligned_foldl (entries : List (Slot × ToolEntry)) {t : TracedDiagnoser}
    (h : Aligned settings t) : Aligned settings (entries.foldl (launchEntry w mode) t) := by
  induction entries generalizing t with
  | nil => exact h
  | cons e rest ih => exact ih (aligned_launchEntry w mode h e)

theorem aligned_step (t : TracedDiagnoser) (op : DiagnoserOp) (h : Aligned settings t) :
    Aligned settings (step w mode t op) := by
  cases op with
  | startOffcpu cfg => exact aligned_launchEntry w mode (aligned_withEntry _ h) _
  | startProfile cfg => exact aligned_launchEntry w mode (aligned_withEntry _ h) _
  | collect =>
      show Aligned settings (relaunchTools w mode (reapTools w mode t))
      unfold relaunchTools
      split
      · exact aligned_foldl w mode _ (aligned_reapTools w mode h)
      · exact aligned_reapTools w mode h
  | reset => exact ⟨h.configured, h.pending, h.made⟩
  | write path st => exact ⟨h.configured, h.pending, h.made⟩

theorem tracked_startEntry {t : TracedDiagnoser} (h : Tracked settings t) (entry : ToolEntry) :
    Tracked settings (startEntry w mode t entry) := by
  apply tracked_launchEntry w mode (tracked_withEntry entry h)
  · rw [owners_withEntry]
    intro hslot
    rcases List.mem_map.mp hslot with ⟨l, hl, heq⟩
    exact nextSlot_ne t entry (h.entries l hl) heq
  · exact nextSlot_mem t entry

theorem tracked_step (t : TracedDiagnoser) (op : DiagnoserOp) (h : Tracked settings t) :
    Tracked settings (step w mode t op) := by
  cases op with
  | startOffcpu cfg => exact tracked_startEntry w mode h _
  | startProfile cfg => exact tracked_startEntry w mode h _
  | collect => exact tracked_relaunchTools w mode (tracked_reapTools w mode h)
  | reset => exact ⟨⟨h.configured, h.pending, h.made⟩, h.slots, h.entries⟩
  | write path st => exact ⟨⟨h.configured, h.pending, h.made⟩, h.slots, h.entries⟩

theorem tracked_fresh (settings : BpfSettings) (disk : Disk) :
    Tracked settings (fresh settings disk) := by
  refine ⟨⟨rfl, rfl, ?_⟩, List.nodup_nil, ?_⟩
  · intro l hl
    cases hl
  · intro l hl
    cases hl

end Runs

end TracedDiagnoser

end Worker
end PerfMonitor
