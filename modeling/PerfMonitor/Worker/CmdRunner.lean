import PerfMonitor.Worker.DiagnoseFiles
import PerfMonitor.Worker.ProcScan

/-!
# Subprocesses and their runners

`CmdRunner` of `worker/src/diagnose/cmd_runner.cpp`, over the part of the
operating system that it talks to.  What the system will answer is fixed by a
`World`: one answer for each `fork`, each `waitpid` and each clock read, in the
order of the calls.  A child may exit at any time; the worker learns of it when a
`waitpid` finds it, so the answers of the `waitpid` calls stand for every schedule
of exits.  The log records the calls that the results speak about.
-/

namespace PerfMonitor
namespace Worker

/-- The answers of the operating system.  A child's `open` of its output file
yields the modification time of the new file, or fails. -/
structure World where
  fork : Nat -> Pid
  created : Nat -> Option Int := fun _ => some 0
  exited : Nat -> Bool := fun _ => false
  clock : Nat -> Int := fun _ => 0
  proc : Nat -> ProcFs := fun _ => {}

structure Command where
  bin : Str
  args : List Str
  outputFile : Str
deriving DecidableEq, Repr

inductive StopCause where
  | stopAll
  | destruction
  | launch
  | growth
  | erase
deriving DecidableEq, Repr

inductive Syscall where
  | fork (cmd : Command) (answer : Pid)
  | kill (pid : Pid) (cause : StopCause) (unreaped : Bool)
deriving DecidableEq, Repr

structure Os where
  children : List Pid := []
  forks : Nat := 0
  waits : Nat := 0
  times : Nat := 0
  log : List Syscall := []
deriving DecidableEq, Repr

inductive WaitAnswer where
  | running
  | reaped
  | noChild
deriving DecidableEq, Repr

namespace Os

/-- What the next `fork` returns to the parent.  The kernel gives a positive pid
that no un-reaped child has; any other answer counts as a failure. -/
def nextChild (w : World) (os : Os) : Pid :=
  if 0 < w.fork os.forks ∧ w.fork os.forks ∉ os.children then w.fork os.forks else -1

def fork (w : World) (os : Os) (cmd : Command) : Pid × Os :=
  (os.nextChild w,
    { os with
      children :=
        if 0 < os.nextChild w then os.nextChild w :: os.children else os.children
      forks := os.forks + 1
      log := os.log ++ [.fork cmd (os.nextChild w)] })

/-- `waitpid` with `WNOHANG`. -/
def waitpid (w : World) (os : Os) (pid : Pid) : WaitAnswer × Os :=
  if pid ∈ os.children then
    if w.exited os.waits then
      (.reaped, { os with children := os.children.erase pid, waits := os.waits + 1 })
    else (.running, { os with waits := os.waits + 1 })
  else (.noChild, { os with waits := os.waits + 1 })

/-- `kill` with `SIGTERM`. -/
def kill (os : Os) (pid : Pid) (cause : StopCause) : Os :=
  { os with log := os.log ++ [.kill pid cause (decide (pid ∈ os.children))] }

def time (w : World) (os : Os) : Int × Os :=
  (w.clock os.times, { os with times := os.times + 1 })

end Os

structure CmdRunner where
  pid : Pid := -1
  outputPath : Str := []
deriving DecidableEq, Repr

namespace CmdRunner

/-- What the child does to the disk before `execv`: it creates its output file, or
truncates the one that is there. -/
def childOpen (w : World) (os : Os) (outputFile : Str) (disk : Disk) : Disk :=
  if outputFile = [] then disk
  else
    match w.created os.forks with
    | none => disk
    | some mtime => disk.insert outputFile { size := 0, mtime := mtime }

/-- `Start`: whether it succeeded, the runner, the system and the disk. -/
def start (w : World) (self : CmdRunner) (os : Os) (disk : Disk) (cmd : Command) :
    Bool × CmdRunner × Os × Disk :=
  let forked := os.fork w cmd
  let runner := { self with pid := forked.1, outputPath := cmd.outputFile }
  if forked.1 < 0 then (false, runner, forked.2, disk)
  else (true, runner, forked.2, childOpen w os cmd.outputFile disk)

def stop (w : World) (cause : StopCause) (runner : CmdRunner) (os : Os) : CmdRunner × Os :=
  if runner.pid ≤ 0 then (runner, os)
  else ({ runner with pid := -1 }, ((os.kill runner.pid cause).waitpid w runner.pid).2)

def isRunning (w : World) (runner : CmdRunner) (os : Os) : Bool × CmdRunner × Os :=
  if runner.pid ≤ 0 then (false, runner, os)
  else
    match os.waitpid w runner.pid with
    | (.reaped, os) => (false, { runner with pid := -1 }, os)
    | (.noChild, os) => (false, { runner with pid := -1 }, os)
    | (.running, os) => (true, runner, os)

def destroy (w : World) (cause : StopCause) (os : Os) (runner : CmdRunner) : Os :=
  (runner.stop w cause os).2

end CmdRunner

/-- How a runner passes from one object to another.  `CmdRunner` declares a
destructor and no move operations, so `std::move` copies it (`copy`); `transfer`
is the hand-over that the callers write as if it were one. -/
inductive Handover where
  | copy
  | transfer
deriving DecidableEq, Repr

def Handover.left (mode : Handover) (runner : CmdRunner) : CmdRunner :=
  match mode with
  | .copy => runner
  | .transfer => { runner with pid := -1 }

/-!
## One call at a time
-/

namespace Os

theorem nextChild_cases (w : World) (os : Os) : os.nextChild w = -1 ∨ 0 < os.nextChild w := by
  unfold nextChild
  split
  · rename_i hfork
    exact Or.inr hfork.left
  · exact Or.inl rfl

theorem nextChild_notMem {w : World} {os : Os} (hfork : 0 < os.nextChild w) :
    os.nextChild w ∉ os.children := by
  unfold nextChild at hfork ⊢
  split
  · rename_i hboth
    exact hboth.right
  · rename_i hnot
    rw [if_neg hnot] at hfork
    exact absurd hfork (by decide)

theorem log_waitpid (w : World) (os : Os) (pid : Pid) : (os.waitpid w pid).2.log = os.log := by
  unfold waitpid
  split
  · split <;> rfl
  · rfl

theorem forks_waitpid (w : World) (os : Os) (pid : Pid) :
    (os.waitpid w pid).2.forks = os.forks := by
  unfold waitpid
  split
  · split <;> rfl
  · rfl

end Os

namespace CmdRunner

section Start

variable {w : World} {os : Os}

theorem start_of_noChild (hfork : os.nextChild w = -1) (self : CmdRunner) (disk : Disk)
    (cmd : Command) :
    start w self os disk cmd =
      (false, { self with pid := -1, outputPath := cmd.outputFile },
        { os with forks := os.forks + 1, log := os.log ++ [.fork cmd (-1)] }, disk) := by
  unfold start Os.fork
  simp only [hfork]
  rfl

theorem start_of_child (hfork : 0 < os.nextChild w) (self : CmdRunner) (disk : Disk)
    (cmd : Command) :
    start w self os disk cmd =
      (true, { self with pid := os.nextChild w, outputPath := cmd.outputFile },
        { os with
          children := os.nextChild w :: os.children
          forks := os.forks + 1
          log := os.log ++ [.fork cmd (os.nextChild w)] },
        childOpen w os cmd.outputFile disk) := by
  have hpos : ¬ os.nextChild w < 0 := Int.not_lt.mpr (Int.le_of_lt hfork)
  unfold start Os.fork
  simp only [if_neg hpos, if_pos hfork]

end Start

theorem forks_start (w : World) (self : CmdRunner) (os : Os) (disk : Disk) (cmd : Command) :
    (start w self os disk cmd).2.2.1.forks = os.forks + 1 := by
  unfold start
  dsimp only
  split <;> rfl

theorem stop_of_nonpos {runner : CmdRunner} (hpid : runner.pid ≤ 0) (w : World)
    (cause : StopCause) (os : Os) : runner.stop w cause os = (runner, os) := by
  unfold stop
  rw [if_pos hpid]

theorem forks_destroy (w : World) (cause : StopCause) (os : Os) (runner : CmdRunner) :
    (destroy w cause os runner).forks = os.forks := by
  unfold destroy stop
  split
  · rfl
  · exact Os.forks_waitpid w _ _

theorem forks_isRunning (w : World) (runner : CmdRunner) (os : Os) :
    (runner.isRunning w os).2.2.forks = os.forks := by
  have hwait := Os.forks_waitpid w os runner.pid
  unfold isRunning
  split
  · rfl
  · split
    next heq => rwa [heq] at hwait
    next heq => rwa [heq] at hwait
    next heq => rwa [heq] at hwait

section Child

variable (w : World) {runner : CmdRunner} {os : Os}

theorem isRunning_of_mem (hpid : 0 < runner.pid) (hmem : runner.pid ∈ os.children) :
    runner.isRunning w os =
      if w.exited os.waits then
        (false, { runner with pid := -1 },
          { os with children := os.children.erase runner.pid, waits := os.waits + 1 })
      else (true, runner, { os with waits := os.waits + 1 }) := by
  unfold isRunning Os.waitpid
  rw [if_neg (Int.not_le.mpr hpid), if_pos hmem]
  cases w.exited os.waits with
  | true => rfl
  | false => rfl

theorem children_stop_of_mem (cause : StopCause) (hpid : 0 < runner.pid)
    (hmem : runner.pid ∈ os.children) :
    (runner.stop w cause os).2.children =
      if w.exited os.waits then os.children.erase runner.pid else os.children := by
  have hkilled : runner.pid ∈ (os.kill runner.pid cause).children := hmem
  unfold stop Os.waitpid
  rw [if_neg (Int.not_le.mpr hpid), if_pos hkilled]
  show (if w.exited os.waits = true then _ else _ : WaitAnswer × Os).2.children = _
  cases w.exited os.waits with
  | true => rfl
  | false => rfl

end Child

theorem log_stop_of_pos {runner : CmdRunner} (hpid : 0 < runner.pid) (w : World)
    (cause : StopCause) (os : Os) :
    (runner.stop w cause os).2.log =
      os.log ++ [.kill runner.pid cause (decide (runner.pid ∈ os.children))] := by
  unfold stop
  rw [if_neg (Int.not_le.mpr hpid)]
  exact Os.log_waitpid w (os.kill runner.pid cause) runner.pid

theorem mem_log_destroy {c : Syscall} {os : Os} (hc : c ∈ os.log) (w : World)
    (cause : StopCause) (runner : CmdRunner) : c ∈ (runner.destroy w cause os).log := by
  unfold destroy
  by_cases hpid : runner.pid ≤ 0
  · rw [stop_of_nonpos hpid]
    exact hc
  · rw [log_stop_of_pos (Int.not_le.mp hpid)]
    exact List.mem_append_left _ hc

theorem kill_mem_destroy {runner : CmdRunner} (hpid : 0 < runner.pid) (w : World)
    (cause : StopCause) (os : Os) :
    .kill runner.pid cause (decide (runner.pid ∈ os.children)) ∈
      (runner.destroy w cause os).log := by
  unfold destroy
  rw [log_stop_of_pos hpid]
  exact List.mem_append_right _ (List.mem_singleton.mpr rfl)

theorem mem_log_foldl_destroy {c : Syscall} (w : World) (cause : StopCause)
    (runners : List CmdRunner) {os : Os} (hc : c ∈ os.log) :
    c ∈ (runners.foldl (destroy w cause) os).log := by
  induction runners generalizing os with
  | nil => exact hc
  | cons runner rest ih => exact ih (mem_log_destroy hc w cause runner)

end CmdRunner

end Worker
end PerfMonitor
