import PerfMonitor.Worker.PerfDiagnoser

/-!
# Accounting for perf recordings

`worker_loop` has one slot for a running recording and one for its event, but a
set of tags.  A target whose tag is not in the set may start a recording although
another one is running, and the slot is then overwritten.  This module keeps the
books: which recordings were launched, which the loop has settled and with what
result, and which are outstanding.  The books stay in order exactly in the runs
in which no recording is started while a tag is set.
-/

namespace PerfMonitor
namespace Worker

open Foundation

/-- The loop with its books.  An accounted recording is marked with whether its
file had data when its child was found to have exited. -/
structure PerfHistory where
  diag : PerfDiagnoser := {}
  launched : List Recording := []
  outstanding : List Recording := []
  accounted : List (Recording × Bool) := []
  emitted : List CppDiagnoseEvent := []

/-- A step of the loop, the `Reset` of the push thread, or a write of a recording. -/
inductive PerfOp where
  | beginLoop (nowWall : UInt64)
  | scan (inp : ScanInput)
  | reset
  | output (path : Str) (st : FileStat)

def Recording.pending (r : Recording) : PendingPerfEvent where
  pending := true
  type := "perf".toList
  processName := r.processName
  filePath := r.filePath
  timestamp := r.timestamp
  cpuPercent := r.cpuPercent

def Recording.event (r : Recording) : CppDiagnoseEvent where
  type := "perf".toList
  processName := r.processName
  filePath := r.filePath
  timestamp := r.timestamp
  cpuPercent := r.cpuPercent

namespace PerfHistory

/-- The next head of an iteration finds the child in `perf_runner_` gone. -/
def finishes (w : World) (d : PerfDiagnoser) : Bool :=
  d.alive && d.todo.isEmpty && !d.triggeredTags.isEmpty && !(d.perfRunner.isRunning w d.os).1

def step (w : World) (s : PerfHistory) : PerfOp -> PerfHistory
  | .beginLoop nowWall =>
      let after := s.diag.beginLoop w nowWall
      let held := s.diag.perfRunner.pid
      let settled :=
        if finishes w s.diag then s.outstanding.filter (fun r => decide (r.pid = held)) else []
      { s with
        diag := after
        outstanding :=
          if finishes w s.diag then s.outstanding.filter (fun r => !decide (r.pid = held))
          else s.outstanding
        accounted :=
          s.accounted ++ settled.map (fun r => (r, s.diag.disk.hasData r.filePath))
        emitted := s.emitted ++ after.events.drop s.diag.events.length }
  | .scan inp =>
      let (after, started) := s.diag.scan w .transfer inp
      { s with
        diag := after
        launched := s.launched ++ started.toList
        outstanding := s.outstanding ++ started.toList }
  | .reset => { s with diag := s.diag.reset }
  | .output path st => { s with diag := { s.diag with disk := s.diag.disk.insert path st } }

def fresh (settings : PerfSettings) (disk : Disk) : PerfHistory where
  diag := { settings := settings, disk := disk }

structure AccountedOnce (w : World) (s : PerfHistory) : Prop where
  /-- An unsettled recording is the one in `perf_runner_` and in `pending_ev_`. -/
  held : forall r, r ∈ s.outstanding ->
    s.diag.perfRunner.pid = r.pid ∧ s.diag.pendingEv = r.pending
  /-- Every child that has not been reaped belongs to an unsettled recording. -/
  unreaped : forall pid, pid ∈ s.diag.os.children -> exists r, r ∈ s.outstanding ∧ r.pid = pid
  /-- A tag is not re-armed before its recording is settled. -/
  armed : forall r, r ∈ s.outstanding -> r.tag ∈ s.diag.triggeredTags
  /-- A recording is settled by the first iteration that finds its child exited. -/
  settles : forall r, r ∈ s.outstanding -> s.diag.alive = true -> s.diag.todo = [] ->
    w.exited s.diag.os.waits = true -> forall nowWall,
    (r, s.diag.disk.hasData r.filePath) ∈ (s.step w (.beginLoop nowWall)).accounted
  /-- Every recording was settled once or is unsettled. -/
  complete : s.launched.Perm (s.accounted.map Prod.fst ++ s.outstanding)
  /-- The events are those of the settled recordings with data. -/
  emitted : s.emitted =
    (s.accounted.filter Prod.snd).map (fun entry => entry.1.event)

def OneAtATime (w : World) (s : PerfHistory) : PerfOp -> Prop
  | .beginLoop _ => True
  | .scan inp => s.diag.Records w inp -> s.diag.triggeredTags = []
  | .reset => True
  | .output _ _ => True

/-!
## The single slot
-/

structure Holds (d : PerfDiagnoser) (r : Recording) : Prop where
  positive : 0 < r.pid
  perfRunner : d.perfRunner.pid = r.pid
  pendingEv : d.pendingEv = r.pending
  triggeredTags : d.triggeredTags = [r.tag]
  children : d.os.children = [r.pid]

structure Idle (d : PerfDiagnoser) : Prop where
  triggeredTags : d.triggeredTags = []
  children : d.os.children = []

structure Invariant (s : PerfHistory) : Prop where
  slot : (s.outstanding = [] ∧ Idle s.diag) ∨ exists r, s.outstanding = [r] ∧ Holds s.diag r
  complete : s.launched.Perm (s.accounted.map Prod.fst ++ s.outstanding)
  emitted : s.emitted =
    (s.accounted.filter Prod.snd).map (fun entry => entry.1.event)

section Slot

variable {w : World} {d : PerfDiagnoser} {r : Recording}

theorem isRunning_of_holds (h : Holds d r) :
    d.perfRunner.isRunning w d.os =
      if w.exited d.os.waits then
        (false, { d.perfRunner with pid := -1 },
          { d.os with children := [], waits := d.os.waits + 1 })
      else (true, d.perfRunner, { d.os with waits := d.os.waits + 1 }) := by
  have hmem : d.perfRunner.pid ∈ d.os.children := by
    rw [h.perfRunner, h.children]
    exact List.mem_singleton.mpr rfl
  have hpos : 0 < d.perfRunner.pid := by
    rw [h.perfRunner]
    exact h.positive
  have herase : d.os.children.erase d.perfRunner.pid = [] := by
    rw [h.perfRunner, h.children]
    simp
  rw [CmdRunner.isRunning_of_mem w hpos hmem, herase]

theorem finishes_of_holds (h : Holds d r) (halive : d.alive = true) (htodo : d.todo = []) :
    finishes w d = w.exited d.os.waits := by
  unfold finishes
  rw [isRunning_of_holds h, halive, htodo, h.triggeredTags]
  cases w.exited d.os.waits with
  | true => rfl
  | false => rfl

/-!
## The head of an iteration
-/

theorem beginLoop_of_blocked (hblocked : ¬ (d.alive = true ∧ d.todo = [])) (nowWall : UInt64) :
    d.beginLoop w nowWall = d := by
  unfold PerfDiagnoser.beginLoop
  rw [if_neg hblocked]

theorem finishes_of_blocked (hblocked : ¬ (d.alive = true ∧ d.todo = [])) :
    finishes w d = false := by
  unfold finishes
  cases halive : d.alive with
  | false => rfl
  | true =>
      cases htodo : d.todo with
      | nil => exact absurd ⟨halive, htodo⟩ hblocked
      | cons target rest => rfl

theorem beginLoop_of_idle (h : Idle d) (nowWall : UInt64) :
    Idle (d.beginLoop w nowWall) ∧ (d.beginLoop w nowWall).events = d.events := by
  by_cases hready : d.alive = true ∧ d.todo = []
  · unfold PerfDiagnoser.beginLoop PerfDiagnoser.checkRunner
    rw [if_pos hready, if_pos h.triggeredTags]
    exact ⟨⟨h.triggeredTags, h.children⟩, rfl⟩
  · rw [beginLoop_of_blocked hready]
    exact ⟨h, rfl⟩

theorem beginLoop_of_running (h : Holds d r) (hexited : w.exited d.os.waits = false)
    (nowWall : UInt64) :
    Holds (d.beginLoop w nowWall) r ∧ (d.beginLoop w nowWall).events = d.events := by
  have hset : d.triggeredTags ≠ [] := by
    rw [h.triggeredTags]
    exact List.cons_ne_nil _ _
  by_cases hready : d.alive = true ∧ d.todo = []
  · unfold PerfDiagnoser.beginLoop PerfDiagnoser.checkRunner
    rw [if_pos hready, if_neg hset, isRunning_of_holds h, hexited]
    exact ⟨⟨h.positive, h.perfRunner, h.pendingEv, h.triggeredTags, h.children⟩, rfl⟩
  · rw [beginLoop_of_blocked hready]
    exact ⟨h, rfl⟩

theorem beginLoop_of_exited (h : Holds d r) (halive : d.alive = true) (htodo : d.todo = [])
    (hexited : w.exited d.os.waits = true) (nowWall : UInt64) :
    Idle (d.beginLoop w nowWall) ∧
      (d.beginLoop w nowWall).events =
        d.events ++ (if d.disk.hasData r.filePath then [r.event] else []) := by
  have hset : d.triggeredTags ≠ [] := by
    rw [h.triggeredTags]
    exact List.cons_ne_nil _ _
  unfold PerfDiagnoser.beginLoop PerfDiagnoser.checkRunner
  rw [if_pos ⟨halive, htodo⟩, if_neg hset, isRunning_of_holds h, hexited]
  simp only [Bool.false_eq_true, if_false, if_true]
  unfold PerfDiagnoser.settle
  simp only [h.pendingEv, Recording.pending, if_true]
  refine ⟨⟨rfl, rfl⟩, ?_⟩
  cases d.disk.hasData r.filePath with
  | true => rfl
  | false => exact (List.append_nil _).symm

end Slot

/-!
## One step of the books
-/

section Books

variable (w : World)

theorem step_beginLoop_of_unfinished {s : PerfHistory} (nowWall : UInt64)
    (hfinishes : finishes w s.diag = false)
    (hevents : (s.diag.beginLoop w nowWall).events = s.diag.events) :
    s.step w (.beginLoop nowWall) = { s with diag := s.diag.beginLoop w nowWall } := by
  unfold step
  simp only [hfinishes, hevents, Bool.false_eq_true, if_false, List.drop_length, List.map_nil,
    List.append_nil]

theorem step_beginLoop_of_finished {s : PerfHistory} {r : Recording}
    (hout : s.outstanding = [r]) (h : Holds s.diag r) (halive : s.diag.alive = true)
    (htodo : s.diag.todo = []) (hexited : w.exited s.diag.os.waits = true) (nowWall : UInt64) :
    s.step w (.beginLoop nowWall) =
      { s with
        diag := s.diag.beginLoop w nowWall
        outstanding := []
        accounted := s.accounted ++ [(r, s.diag.disk.hasData r.filePath)]
        emitted := s.emitted ++ (if s.diag.disk.hasData r.filePath then [r.event] else []) } := by
  have hfinishes : finishes w s.diag = true := by
    rw [finishes_of_holds h halive htodo, hexited]
  have hevents := (beginLoop_of_exited h halive htodo hexited nowWall).right
  unfold step
  simp only [hfinishes, hevents, hout, h.perfRunner, if_true, List.drop_left]
  simp

theorem invariant_beginLoop {s : PerfHistory} (h : s.Invariant) (nowWall : UInt64) :
    (s.step w (.beginLoop nowWall)).Invariant := by
  rcases h.slot with ⟨hout, hidle⟩ | ⟨r, hout, hholds⟩
  · have hbegin := beginLoop_of_idle (w := w) hidle nowWall
    have hfinishes : finishes w s.diag = false := by
      unfold finishes
      rw [hidle.triggeredTags]
      simp
    rw [step_beginLoop_of_unfinished w nowWall hfinishes hbegin.right]
    exact ⟨Or.inl ⟨hout, hbegin.left⟩, h.complete, h.emitted⟩
  · by_cases hready : s.diag.alive = true ∧ s.diag.todo = []
    · cases hexited : w.exited s.diag.os.waits with
      | false =>
          have hbegin := beginLoop_of_running hholds hexited nowWall
          have hfinishes : finishes w s.diag = false := by
            rw [finishes_of_holds hholds hready.left hready.right, hexited]
          rw [step_beginLoop_of_unfinished w nowWall hfinishes hbegin.right]
          exact ⟨Or.inr ⟨r, hout, hbegin.left⟩, h.complete, h.emitted⟩
      | true =>
          have hbegin := beginLoop_of_exited hholds hready.left hready.right hexited nowWall
          rw [step_beginLoop_of_finished w hout hholds hready.left hready.right hexited nowWall]
          refine ⟨Or.inl ⟨rfl, hbegin.left⟩, ?_, ?_⟩
          · have hcomplete := h.complete
            rw [hout] at hcomplete
            show s.launched.Perm ((s.accounted ++ [_]).map Prod.fst ++ [])
            rw [List.map_append, List.append_nil]
            exact hcomplete
          · show s.emitted ++ _ = ((s.accounted ++ [_]).filter Prod.snd).map _
            rw [h.emitted, List.filter_append, List.map_append]
            cases s.diag.disk.hasData r.filePath with
            | true => rfl
            | false => rfl
    · rw [step_beginLoop_of_unfinished w nowWall (finishes_of_blocked hready)
        (by rw [beginLoop_of_blocked hready]), beginLoop_of_blocked hready]
      exact h

theorem step_scan_of_none {s : PerfHistory} {inp : ScanInput}
    (hnone : (s.diag.scan w .transfer inp).2 = none) :
    s.step w (.scan inp) = { s with diag := (s.diag.scan w .transfer inp).1 } := by
  unfold step
  simp only [hnone, Option.toList_none, List.append_nil]

theorem step_scan_of_some {s : PerfHistory} {inp : ScanInput} {r : Recording}
    (hsome : (s.diag.scan w .transfer inp).2 = some r) :
    s.step w (.scan inp) =
      { s with
        diag := (s.diag.scan w .transfer inp).1
        launched := s.launched ++ [r]
        outstanding := s.outstanding ++ [r] } := by
  unfold step
  simp only [hsome, Option.toList_some]

theorem invariant_scan {s : PerfHistory} (h : s.Invariant) (inp : ScanInput)
    (hone : s.diag.Records w inp -> s.diag.triggeredTags = []) :
    (s.step w (.scan inp)).Invariant := by
  rcases PerfDiagnoser.scan_cases w s.diag inp with
    ⟨hnone, _, hsame⟩ | ⟨r, hsome, hrecords, hstarted⟩
  · rw [step_scan_of_none w hnone]
    refine ⟨?_, h.complete, h.emitted⟩
    rcases h.slot with ⟨hout, hidle⟩ | ⟨r, hout, hholds⟩
    · exact Or.inl ⟨hout, hsame.triggeredTags.trans hidle.triggeredTags,
        hsame.children.trans hidle.children⟩
    · refine Or.inr ⟨r, hout, hholds.positive, ?_, hsame.pendingEv.trans hholds.pendingEv,
        hsame.triggeredTags.trans hholds.triggeredTags, hsame.children.trans hholds.children⟩
      rw [hsame.perfRunner]
      exact hholds.perfRunner
  · rw [step_scan_of_some w hsome]
    have hempty := hone hrecords
    rcases h.slot with ⟨hout, hidle⟩ | ⟨r', _, hholds⟩
    · refine ⟨Or.inr ⟨r, ?_, ?_, ?_, hstarted.pendingEv, ?_, ?_⟩, ?_, h.emitted⟩
      · rw [hout]
        rfl
      · rcases hrecords with ⟨_, _, _, _, hfork⟩
        rw [hstarted.fresh]
        exact hfork
      · rw [hstarted.perfRunner]
      · rw [hstarted.triggeredTags, hempty]
        rfl
      · rw [hstarted.children, hidle.children]
      · show (s.launched ++ [r]).Perm (_ ++ (s.outstanding ++ [r]))
        rw [← List.append_assoc]
        exact h.complete.append_right [r]
    · rw [hholds.triggeredTags] at hempty
      cases hempty

theorem invariant_step (s : PerfHistory) (op : PerfOp) (h : s.Invariant)
    (hone : s.OneAtATime w op) : (s.step w op).Invariant := by
  cases op with
  | beginLoop nowWall => exact invariant_beginLoop w h nowWall
  | scan inp => exact invariant_scan w h inp hone
  | reset =>
      refine ⟨?_, h.complete, h.emitted⟩
      rcases h.slot with ⟨hout, hidle⟩ | ⟨r, hout, hholds⟩
      · exact Or.inl ⟨hout, hidle.triggeredTags, hidle.children⟩
      · exact Or.inr ⟨r, hout, hholds.positive, hholds.perfRunner, hholds.pendingEv,
          hholds.triggeredTags, hholds.children⟩
  | output path st =>
      refine ⟨?_, h.complete, h.emitted⟩
      rcases h.slot with ⟨hout, hidle⟩ | ⟨r, hout, hholds⟩
      · exact Or.inl ⟨hout, hidle.triggeredTags, hidle.children⟩
      · exact Or.inr ⟨r, hout, hholds.positive, hholds.perfRunner, hholds.pendingEv,
          hholds.triggeredTags, hholds.children⟩

theorem Invariant.accountedOnce {s : PerfHistory} (h : s.Invariant) : s.AccountedOnce w := by
  rcases h.slot with ⟨hout, hidle⟩ | ⟨r, hout, hholds⟩
  · have hnone : forall r, ¬ r ∈ s.outstanding := by
      intro r hr
      rw [hout] at hr
      cases hr
    refine ⟨fun r hr => absurd hr (hnone r), ?_, fun r hr => absurd hr (hnone r),
      fun r hr => absurd hr (hnone r), h.complete, h.emitted⟩
    intro pid hpid
    rw [hidle.children] at hpid
    cases hpid
  · have honly : forall r', r' ∈ s.outstanding -> r' = r := by
      intro r' hr'
      rw [hout] at hr'
      exact List.mem_singleton.mp hr'
    refine ⟨?_, ?_, ?_, ?_, h.complete, h.emitted⟩
    · intro r' hr'
      rw [honly r' hr']
      exact ⟨hholds.perfRunner, hholds.pendingEv⟩
    · intro pid hpid
      rw [hholds.children] at hpid
      refine ⟨r, ?_, (List.mem_singleton.mp hpid).symm⟩
      rw [hout]
      exact List.mem_singleton.mpr rfl
    · intro r' hr'
      rw [honly r' hr', hholds.triggeredTags]
      exact List.mem_singleton.mpr rfl
    · intro r' hr' halive htodo hexited nowWall
      rw [honly r' hr', step_beginLoop_of_finished w hout hholds halive htodo hexited nowWall]
      exact List.mem_append_right _ (List.mem_singleton.mpr rfl)

/-- A recording started while another one is unsettled overwrites its slot. -/
theorem oneAtATime_of_accountedOnce (s : PerfHistory) (op : PerfOp) (h : s.Invariant)
    (hafter : (s.step w op).AccountedOnce w) : s.OneAtATime w op := by
  cases op with
  | beginLoop nowWall => trivial
  | scan inp =>
      intro hrecords
      rcases h.slot with ⟨_, hidle⟩ | ⟨r, hout, hholds⟩
      · exact hidle.triggeredTags
      · rcases PerfDiagnoser.scan_cases w s.diag inp with
          ⟨_, hnot, _⟩ | ⟨r', hsome, _, hstarted⟩
        · exact absurd hrecords hnot
        · rw [step_scan_of_some w hsome] at hafter
          have hmem : r ∈ s.outstanding ++ [r'] := by
            rw [hout]
            exact List.mem_cons_self
          have hpid := (hafter.held r hmem).left
          change (s.diag.scan w .transfer inp).1.perfRunner.pid = r.pid at hpid
          rw [hstarted.perfRunner, hstarted.fresh] at hpid
          change s.diag.os.nextChild w = r.pid at hpid
          -- the new pid is not that of a child that is still un-reaped
          rcases hrecords with ⟨_, _, _, _, hfork⟩
          have hnew := Os.nextChild_notMem hfork
          rw [hpid, hholds.children] at hnew
          exact absurd (List.mem_singleton.mpr rfl) hnew
  | reset => trivial
  | output path st => trivial

/-- In every state that `worker_loop` reaches, every recording is accounted for
exactly once, exactly when no recording is started while a tag is set. -/
theorem accountedOnce_iff_oneAtATime (settings : PerfSettings) (disk : Disk)
    (ops : List PerfOp) :
    Throughout (step w) (AccountedOnce w) (fresh settings disk) ops <->
      EachStep (step w) (OneAtATime w) (fresh settings disk) ops := by
  apply throughout_iff_eachStep (invariant_step w) (oneAtATime_of_accountedOnce w)
  · intro s h
    exact h.accountedOnce w
  · exact ⟨Or.inl ⟨rfl, rfl, rfl⟩, List.Perm.refl _, rfl⟩

end Books

/-!
## Two targets above the threshold
-/

/-- A `/proc` with the processes `a` and `b` under the pids 7 and 8, and a stat line
that does not change. -/
def twoProcesses : ScanInput where
  proc :=
    { names := some [['7'], ['8']]
      comm := fun pid => if pid = 7 then some ['a'] else some ['b'] }
  statFirst := some "7 (x) S 1 1 1 0 0 0 0 0 0 0 3 0".toList
  statSecond := some "7 (x) S 1 1 1 0 0 0 0 0 0 0 3 0".toList

def twoTargets : List PerfOp :=
  [.beginLoop 1000, .scan twoProcesses, .scan twoProcesses,
    .beginLoop 6000, .scan twoProcesses, .scan twoProcesses]

theorem twoTargets_not_accounted :
    ¬ Throughout (step { fork := fun n => 101 + n }) (AccountedOnce { fork := fun n => 101 + n })
      (fresh
        { cpuThresholdPct := 0, overflowDurationS := 5, targetProcesses := [['a'], ['b']] } ∅)
      twoTargets := by
  intro h
  have hlast := (throughout_final h).held
  have hpids : forall r, r ∈ (runFrom (step { fork := fun n => 101 + n })
      (fresh { cpuThresholdPct := 0, overflowDurationS := 5,
               targetProcesses := [['a'], ['b']] } ∅) twoTargets).outstanding ->
      (102 : Int) = r.pid := by
    intro r hr
    rw [← (hlast r hr).left]
    decide +kernel
  revert hpids
  decide +kernel

end PerfHistory

end Worker
end PerfMonitor
