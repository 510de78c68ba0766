import PerfMonitor.Foundation.Run
import PerfMonitor.Worker.CmdRunner

/-!
# Who reaps a child

One `CmdRunner` that is never copied, from its construction to its destruction.  A
child that has not been reaped stays in the process table, and only the runner whose
`pid_` designates it will ever wait for it.  `Stop` drops the pid after one `waitpid`
with `WNOHANG`, and `Start` overwrites it, so a child is reaped exactly when it has
exited by then.
-/

namespace PerfMonitor
namespace Worker

open Foundation

inductive RunnerOp where
  | start (cmd : Command)
  | isRunning
  | stop
  | destroy
deriving DecidableEq, Repr

structure RunnerLife where
  os : Os := {}
  disk : Disk := ∅
  runner : Option CmdRunner := some {}

namespace RunnerLife

def perform (w : World) (s : RunnerLife) (runner : CmdRunner) : RunnerOp -> RunnerLife
  | .start cmd =>
      let started := runner.start w s.os s.disk cmd
      { os := started.2.2.1, disk := started.2.2.2, runner := some started.2.1 }
  | .isRunning =>
      let asked := runner.isRunning w s.os
      { s with os := asked.2.2, runner := some asked.2.1 }
  | .stop =>
      let stopped := runner.stop w .stopAll s.os
      { s with os := stopped.2, runner := some stopped.1 }
  | .destroy => { s with os := runner.destroy w .destruction s.os, runner := none }

def step (w : World) (s : RunnerLife) (op : RunnerOp) : RunnerLife :=
  match s.runner with
  | none => s
  | some runner => s.perform w runner op

/-- The child that `pid_` designates. -/
def held (s : RunnerLife) : Option Pid :=
  s.runner.bind (fun runner => if 0 < runner.pid then some runner.pid else none)

/-- Every child that was not reaped yet is the one that `pid_` designates. -/
def NoneForgotten (s : RunnerLife) : Prop :=
  forall pid, pid ∈ s.os.children -> s.held = some pid

/-- `Start` finds no child, and `Stop` and the destructor find none or one that has
exited when they wait for it. -/
def ReapsInTime (w : World) (s : RunnerLife) : RunnerOp -> Prop
  | .start _ => s.held = none
  | .isRunning => True
  | .stop => s.held = none ∨ w.exited s.os.waits = true
  | .destroy => s.held = none ∨ w.exited s.os.waits = true

/-!
## One call
-/

def Invariant (s : RunnerLife) : Prop :=
  s.os.children = s.held.toList

theorem held_of_pos {s : RunnerLife} {runner : CmdRunner} (hrunner : s.runner = some runner)
    (hpid : 0 < runner.pid) : s.held = some runner.pid := by
  unfold held
  rw [hrunner]
  exact if_pos hpid

theorem held_of_nonpos {s : RunnerLife} {runner : CmdRunner} (hrunner : s.runner = some runner)
    (hpid : runner.pid ≤ 0) : s.held = none := by
  unfold held
  rw [hrunner]
  exact if_neg (Int.not_lt.mpr hpid)

theorem held_cases (s : RunnerLife) :
    s.held = none ∨ exists runner, s.runner = some runner ∧ 0 < runner.pid ∧
      s.held = some runner.pid := by
  cases hrunner : s.runner with
  | none =>
      left
      unfold held
      rw [hrunner]
      rfl
  | some runner =>
      by_cases hpid : 0 < runner.pid
      · exact Or.inr ⟨runner, rfl, hpid, held_of_pos hrunner hpid⟩
      · exact Or.inl (held_of_nonpos hrunner (Int.not_lt.mp hpid))

theorem Invariant.children {s : RunnerLife} (hinv : s.Invariant) {runner : CmdRunner}
    (hrunner : s.runner = some runner) (hpid : 0 < runner.pid) : s.os.children = [runner.pid] := by
  unfold Invariant at hinv
  rw [hinv, held_of_pos hrunner hpid]
  rfl

section Calls

variable {w : World} {s : RunnerLife} {runner : CmdRunner}

theorem step_of_runner (hrunner : s.runner = some runner) (op : RunnerOp) :
    s.step w op = s.perform w runner op := by
  unfold step
  rw [hrunner]

theorem step_of_destroyed (hrunner : s.runner = none) (op : RunnerOp) : s.step w op = s := by
  unfold step
  rw [hrunner]

/-- `Start` holds the new child, if there is one, and has forgotten the old one. -/
theorem start_spec (hrunner : s.runner = some runner) (cmd : Command) :
    (s.step w (.start cmd)).os.children = (s.step w (.start cmd)).held.toList ++ s.os.children ∧
      forall pid, pid ∈ s.os.children -> (s.step w (.start cmd)).held ≠ some pid := by
  rw [step_of_runner hrunner]
  unfold perform
  dsimp only
  rcases Os.nextChild_cases w s.os with hfork | hfork
  · rw [CmdRunner.start_of_noChild hfork]
    refine ⟨rfl, ?_⟩
    intro pid _ hheld
    cases hheld
  · rw [CmdRunner.start_of_child hfork, held_of_pos rfl hfork]
    refine ⟨rfl, ?_⟩
    intro pid hpid hheld
    injection hheld with hheld
    rw [← hheld] at hpid
    exact Os.nextChild_notMem hfork hpid

theorem children_stop (hinv : s.Invariant) (hrunner : s.runner = some runner)
    (cause : StopCause) :
    (runner.stop w cause s.os).2.children =
        (if w.exited s.os.waits then [] else s.os.children) ∧
      (runner.stop w cause s.os).1.pid ≤ 0 := by
  by_cases hpid : runner.pid ≤ 0
  · rw [CmdRunner.stop_of_nonpos hpid]
    unfold Invariant at hinv
    rw [held_of_nonpos hrunner hpid] at hinv
    rw [hinv]
    exact ⟨(ite_self _).symm, hpid⟩
  · have honly := hinv.children hrunner (Int.not_le.mp hpid)
    have hmem : runner.pid ∈ s.os.children := by
      rw [honly]
      exact List.mem_singleton_self _
    constructor
    · rw [CmdRunner.children_stop_of_mem w cause (Int.not_le.mp hpid) hmem, honly,
        List.erase_cons_head]
    · unfold CmdRunner.stop
      rw [if_neg hpid]
      exact Int.negSucc_le_zero 0

/-- After `Stop` and after the destructor no child is held, and what is left of the
children is what the one `waitpid` did not find. -/
theorem stop_spec (hinv : s.Invariant) (hrunner : s.runner = some runner) {op : RunnerOp}
    (hop : op = .stop ∨ op = .destroy) :
    (s.step w op).os.children = (if w.exited s.os.waits then [] else s.os.children) ∧
      (s.step w op).held = none := by
  rw [step_of_runner hrunner]
  rcases hop with rfl | rfl
  · have hstop := children_stop (w := w) hinv hrunner .stopAll
    exact ⟨hstop.left, held_of_nonpos rfl hstop.right⟩
  · exact ⟨(children_stop hinv hrunner .destruction).left, rfl⟩

theorem isRunning_spec (hinv : s.Invariant) (hrunner : s.runner = some runner) :
    (s.step w .isRunning).Invariant := by
  rw [step_of_runner hrunner]
  unfold perform
  dsimp only
  by_cases hpid : runner.pid ≤ 0
  · have hsame : { s with runner := some runner } = s := by rw [← hrunner]
    unfold CmdRunner.isRunning
    rw [if_pos hpid, hsame]
    exact hinv
  · have honly := hinv.children hrunner (Int.not_le.mp hpid)
    have hmem : runner.pid ∈ s.os.children := by
      rw [honly]
      exact List.mem_singleton_self _
    rw [CmdRunner.isRunning_of_mem w (Int.not_le.mp hpid) hmem]
    unfold Invariant
    cases w.exited s.os.waits with
    | false =>
        show s.os.children = _
        rw [honly, held_of_pos rfl (Int.not_le.mp hpid)]
        rfl
    | true =>
        show s.os.children.erase runner.pid = []
        rw [honly]
        exact List.erase_cons_head _ _

end Calls

/-!
## Runs
-/

section Runs

variable (w : World)

theorem invariant_step (s : RunnerLife) (op : RunnerOp) (hinv : s.Invariant)
    (htime : s.ReapsInTime w op) : (s.step w op).Invariant := by
  cases hrunner : s.runner with
  | none =>
      rw [step_of_destroyed hrunner]
      exact hinv
  | some runner =>
      have hstopped : op = .stop ∨ op = .destroy ->
          s.held = none ∨ w.exited s.os.waits = true -> (s.step w op).Invariant := by
        intro hop htime
        rcases stop_spec (w := w) hinv hrunner hop with ⟨hchildren, hheld⟩
        unfold Invariant at hinv ⊢
        rw [hchildren, hheld]
        rcases htime with hnone | hexited
        · rw [hinv, hnone]
          exact ite_self _
        · exact if_pos hexited
      cases op with
      | start cmd =>
          have hstart := (start_spec (w := w) hrunner cmd).left
          have hnone : s.held = none := htime
          unfold Invariant at hinv ⊢
          rw [hstart, hinv, hnone]
          exact List.append_nil _
      | isRunning => exact isRunning_spec hinv hrunner
      | stop => exact hstopped (Or.inl rfl) htime
      | destroy => exact hstopped (Or.inr rfl) htime

theorem noneForgotten_of_invariant (s : RunnerLife) (hinv : s.Invariant) : s.NoneForgotten := by
  intro pid hpid
  unfold Invariant at hinv
  rw [hinv] at hpid
  exact Option.mem_toList.mp hpid

theorem reapsInTime_of_noneForgotten (s : RunnerLife) (op : RunnerOp) (hinv : s.Invariant)
    (hafter : (s.step w op).NoneForgotten) : s.ReapsInTime w op := by
  have hlate : forall runner, s.runner = some runner -> op = .stop ∨ op = .destroy ->
      s.held = none ∨ w.exited s.os.waits = true := by
    intro runner hrunner hop
    rcases stop_spec (w := w) hinv hrunner hop with ⟨hchildren, hheld⟩
    cases hexited : w.exited s.os.waits with
    | true => exact Or.inr rfl
    | false =>
        left
        cases hholds : s.held with
        | none => rfl
        | some pid =>
            have hmem : pid ∈ (s.step w op).os.children := by
              rw [hchildren, hexited, hinv, hholds]
              exact List.mem_singleton_self _
            have hdesignated := hafter pid hmem
            rw [hheld] at hdesignated
            cases hdesignated
  rcases held_cases s with hnone | ⟨runner, hrunner, _, hheld⟩
  · cases op with
    | start cmd => exact hnone
    | isRunning => trivial
    | stop => exact Or.inl hnone
    | destroy => exact Or.inl hnone
  · cases op with
    | start cmd =>
        exfalso
        rcases start_spec (w := w) hrunner cmd with ⟨hchildren, hforgets⟩
        have hmem : runner.pid ∈ s.os.children := by
          rw [hinv, hheld]
          exact List.mem_singleton_self _
        apply hforgets runner.pid hmem
        apply hafter
        rw [hchildren]
        exact List.mem_append_right _ hmem
    | isRunning => trivial
    | stop => exact hlate runner hrunner (Or.inl rfl)
    | destroy => exact hlate runner hrunner (Or.inr rfl)

/-- Over every sequence of calls and every schedule of exits, no child is ever forgotten
exactly when every `Start` finds no child and every `Stop` and the destructor find none
or one that has exited. -/
theorem noneForgotten_iff_reapsInTime (ops : List RunnerOp) :
    Throughout (step w) NoneForgotten {} ops <-> EachStep (step w) (ReapsInTime w) {} ops := by
  have hstart : Invariant {} := rfl
  exact throughout_iff_eachStep (invariant_step w) (reapsInTime_of_noneForgotten w)
    noneForgotten_of_invariant hstart ops

end Runs

/-- The first child gets the pid 7 and exits after the first `waitpid`. -/
def slowChild : World where
  fork _ := 7
  exited n := decide (0 < n)

/-- The child is told to stop and is still alive when `Stop` asks for it: it stays in the
process table, also after the destruction of the runner. -/
theorem slowChild_forgotten :
    ¬ Throughout (step slowChild) NoneForgotten {}
      [.start { bin := "/usr/bin/perf".toList, args := [], outputFile := [] }, .stop,
        .destroy] := by
  intro h
  have hchild := throughout_final h 7 (by decide)
  exact absurd hchild (by decide)

end RunnerLife

end Worker
end PerfMonitor
