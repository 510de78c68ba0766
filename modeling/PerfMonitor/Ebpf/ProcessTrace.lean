import PerfMonitor.Ebpf.TcpFlow

/-!
# Process tracing

The two tracepoint programs of `worker/src/ebpf/process_trace.bpf.c`.  The kernel
fires `sched_process_exit` for every task, while the map and the events are about
processes, that is, thread groups.  Over a model of the kernel's side (which
processes have how many live tasks) this module finds when the two views agree.
-/

namespace PerfMonitor
namespace Ebpf

open Foundation

structure ProcInfo where
  ppid : UInt32 := 0
  comm : Str := []
  filename : Str := []
deriving DecidableEq, Repr

/-- What a tracepoint program reads of the current task.  The parent and the file name
are only there at an exec. -/
structure TaskContext where
  pid : UInt32
  ppid : UInt32 := 0
  comm : Str := []
  filename : Str := []
  ns : UInt64 := 0
deriving DecidableEq, Repr

structure ProcessTrace where
  processes : Table UInt32 ProcInfo := ∅
  processEvents : List ProcessEvent := []

namespace ProcessTrace

/-- `bpf_probe_read_str` keeps room for the terminating zero. -/
def probeReadStr (size : Nat) (text : Str) : Str :=
  text.take (size - 1)

def traceExec (s : ProcessTrace) (ctx : TaskContext) : ProcessTrace :=
  let ev : ProcessEvent :=
    { pid := ctx.pid
      ppid := ctx.ppid
      comm := ctx.comm
      filename := probeReadStr maxFilenameLen ctx.filename
      eventType := 0
      tsNs := ctx.ns }
  let info : ProcInfo := { ppid := ctx.ppid, comm := ev.comm, filename := ev.filename }
  { processes := TcpFlow.updateAny s.processes ctx.pid info
    processEvents := s.processEvents ++ [ev] }

def traceExit (s : ProcessTrace) (ctx : TaskContext) : ProcessTrace :=
  let ev : ProcessEvent :=
    { pid := ctx.pid, comm := ctx.comm, eventType := 1, tsNs := ctx.ns }
  { processes := s.processes.erase ctx.pid
    processEvents := s.processEvents ++ [ev] }

def exitPids (s : ProcessTrace) : List UInt32 :=
  (s.processEvents.filter (fun ev => decide (ev.eventType = 1))).map ProcessEvent.pid

theorem exitPids_traceExec (s : ProcessTrace) (ctx : TaskContext) :
    (traceExec s ctx).exitPids = s.exitPids := by
  unfold exitPids traceExec
  rw [List.filter_append]
  simp

theorem exitPids_traceExit (s : ProcessTrace) (ctx : TaskContext) :
    (traceExit s ctx).exitPids = s.exitPids ++ [ctx.pid] := by
  unfold exitPids traceExit
  rw [List.filter_append, List.map_append]
  rfl

theorem mem_traceExec {s : ProcessTrace} (hroom : s.processes.entries.length < TcpFlow.maxEntries)
    (ctx : TaskContext) (pid : UInt32) :
    pid ∈ (traceExec s ctx).processes <-> pid = ctx.pid ∨ pid ∈ s.processes := by
  have hfits : ¬ (ctx.pid ∉ s.processes ∧ s.processes.entries.length ≥ TcpFlow.maxEntries) :=
    fun h => Nat.not_le_of_lt hroom h.right
  show pid ∈ TcpFlow.updateAny s.processes ctx.pid _ <-> _
  unfold TcpFlow.updateAny
  rw [if_neg hfits]
  exact AList.mem_insert _

theorem mem_traceExit (s : ProcessTrace) (ctx : TaskContext) (pid : UInt32) :
    pid ∈ (traceExit s ctx).processes <-> pid ≠ ctx.pid ∧ pid ∈ s.processes :=
  AList.mem_erase

end ProcessTrace

/-!
## The kernel's side
-/

structure LiveProcess where
  tasks : Nat := 1
  execd : Bool := false
deriving DecidableEq, Repr

inductive TaskOp where
  | fork (pid : UInt32)
  | clone (pid : UInt32)
  | exec (ctx : TaskContext)
  | exit (ctx : TaskContext)
deriving DecidableEq, Repr

structure Kernel where
  live : Table UInt32 LiveProcess := ∅
  ended : List UInt32 := []
  trace : ProcessTrace := {}

namespace Kernel

def addTask (proc : LiveProcess) : LiveProcess :=
  { proc with tasks := proc.tasks + 1 }

def setExecd (proc : LiveProcess) : LiveProcess :=
  { proc with execd := true }

def onLive (k : Kernel) (pid : UInt32) (f : LiveProcess -> LiveProcess) : Kernel :=
  match k.live.lookup pid with
  | none => k
  | some proc => { k with live := k.live.insert pid (f proc) }

def exitTask (k : Kernel) (pid : UInt32) : Kernel :=
  match k.live.lookup pid with
  | none => k
  | some proc =>
      if proc.tasks ≤ 1 then
        { k with live := k.live.erase pid, ended := k.ended ++ [pid] }
      else { k with live := k.live.insert pid { proc with tasks := proc.tasks - 1 } }

def step (k : Kernel) (o : TaskOp) : Kernel :=
  match o with
  | .fork pid => { k with live := k.live.insert pid {} }
  | .clone pid => onLive k pid addTask
  | .exec ctx => { onLive k ctx.pid setExecd with trace := k.trace.traceExec ctx }
  | .exit ctx => { exitTask k ctx.pid with trace := k.trace.traceExit ctx }

/-- What the kernel guarantees: a new process has a process id that is not in use, all
other operations are those of live processes, and fewer than 65536 processes are live. -/
def Possible (k : Kernel) (o : TaskOp) : Prop :=
  match o with
  | .fork pid => pid ∉ k.live ∧ k.live.entries.length + 1 < TcpFlow.maxEntries
  | .clone pid => pid ∈ k.live
  | .exec ctx => ctx.pid ∈ k.live
  | .exit ctx => ctx.pid ∈ k.live

def Execd (live : Table UInt32 LiveProcess) (pid : UInt32) : Prop :=
  exists proc, live.lookup pid = some proc ∧ 0 < proc.tasks ∧ proc.execd = true

/-- The map holds exactly the live processes that have exec'd, and the exit events are
exactly those of the processes that have ended. -/
structure TracesProcesses (k : Kernel) : Prop where
  mem : forall pid, pid ∈ k.trace.processes <-> Execd k.live pid
  exits : k.trace.exitPids = k.ended

def ExitsAlone (k : Kernel) (o : TaskOp) : Prop :=
  match o with
  | .exit ctx => forall proc, k.live.lookup ctx.pid = some proc -> proc.tasks = 1
  | _ => True

structure Inv (k : Kernel) : Prop where
  tasks : forall pid proc, k.live.lookup pid = some proc -> 0 < proc.tasks
  room : k.live.entries.length < TcpFlow.maxEntries

/-!
## One step of the kernel
-/

section Steps

variable {k : Kernel}

theorem onLive_of_some {pid : UInt32} {proc : LiveProcess} (h : k.live.lookup pid = some proc)
    (f : LiveProcess -> LiveProcess) :
    onLive k pid f = { k with live := k.live.insert pid (f proc) } := by
  unfold onLive
  rw [h]

theorem exitTask_of_last {pid : UInt32} {proc : LiveProcess} (h : k.live.lookup pid = some proc)
    (hlast : proc.tasks = 1) :
    exitTask k pid = { k with live := k.live.erase pid, ended := k.ended ++ [pid] } := by
  unfold exitTask
  rw [h]
  exact if_pos (Nat.le_of_eq hlast)

theorem exitTask_of_more {pid : UInt32} {proc : LiveProcess} (h : k.live.lookup pid = some proc)
    (hmore : ¬ proc.tasks ≤ 1) :
    exitTask k pid =
      { k with live := k.live.insert pid { proc with tasks := proc.tasks - 1 } } := by
  unfold exitTask
  rw [h]
  exact if_neg hmore

theorem tasks_insert {pid : UInt32} {proc : LiveProcess} (hinv : Inv k)
    (hproc : 0 < proc.tasks) :
    forall pid' proc', (k.live.insert pid proc).lookup pid' = some proc' -> 0 < proc'.tasks := by
  intro pid' proc' hlookup
  by_cases hpid : pid' = pid
  · rw [hpid, AList.lookup_insert] at hlookup
    injection hlookup with hsame
    rw [← hsame]
    exact hproc
  · rw [AList.lookup_insert_ne hpid] at hlookup
    exact hinv.tasks pid' proc' hlookup

theorem inv_insert {pid : UInt32} {proc : LiveProcess} (hinv : Inv k) (hlive : pid ∈ k.live)
    (hproc : 0 < proc.tasks) {ended : List UInt32} {trace : ProcessTrace} :
    Inv { live := k.live.insert pid proc, ended := ended, trace := trace } := by
  refine ⟨tasks_insert hinv hproc, ?_⟩
  have hlength := (Table.keys_insert_of_mem hlive proc).length_eq
  rw [Table.length_keys, Table.length_keys] at hlength
  show (k.live.insert pid proc).entries.length < TcpFlow.maxEntries
  rw [hlength]
  exact hinv.room

theorem inv_erase {pid : UInt32} (hinv : Inv k) {ended : List UInt32} {trace : ProcessTrace} :
    Inv { live := k.live.erase pid, ended := ended, trace := trace } := by
  constructor
  · intro pid' proc' hlookup
    by_cases hpid : pid' = pid
    · rw [hpid, AList.lookup_erase] at hlookup
      cases hlookup
    · rw [AList.lookup_erase_ne hpid] at hlookup
      exact hinv.tasks pid' proc' hlookup
  · exact Nat.lt_of_le_of_lt (List.kerase_sublist pid k.live.entries).length_le hinv.room

theorem inv_step (k : Kernel) (o : TaskOp) (hinv : Inv k) (hposs : Possible k o) :
    Inv (step k o) := by
  cases o with
  | fork pid =>
      rcases hposs with ⟨hfresh, hroom⟩
      refine ⟨tasks_insert hinv Nat.one_pos, ?_⟩
      have hkeys := congrArg List.length (Table.keys_insert_of_notMem hfresh {})
      rw [Table.length_keys, List.length_cons, Table.length_keys] at hkeys
      show (k.live.insert pid {}).entries.length < TcpFlow.maxEntries
      rw [hkeys]
      exact hroom
  | clone pid =>
      rcases Table.exists_lookup hposs with ⟨proc, hproc⟩
      show Inv (onLive k pid addTask)
      rw [onLive_of_some hproc]
      exact inv_insert hinv hposs (Nat.succ_pos _)
  | exec ctx =>
      rcases Table.exists_lookup hposs with ⟨proc, hproc⟩
      show Inv { onLive k ctx.pid setExecd with trace := _ }
      rw [onLive_of_some hproc]
      have hpos : 0 < (setExecd proc).tasks := hinv.tasks ctx.pid proc hproc
      exact inv_insert hinv hposs hpos
  | exit ctx =>
      rcases Table.exists_lookup hposs with ⟨proc, hproc⟩
      show Inv { exitTask k ctx.pid with trace := _ }
      by_cases hlast : proc.tasks = 1
      · rw [exitTask_of_last hproc hlast]
        exact inv_erase hinv
      · have hpos := hinv.tasks ctx.pid proc hproc
        have hmore : ¬ proc.tasks ≤ 1 := by omega
        rw [exitTask_of_more hproc hmore]
        apply inv_insert hinv hposs
        exact Nat.sub_pos_of_lt (Nat.lt_of_not_le hmore)

theorem execd_insert_ne {live : Table UInt32 LiveProcess} {pid pid' : UInt32} (h : pid' ≠ pid)
    (proc : LiveProcess) : Execd (live.insert pid proc) pid' <-> Execd live pid' := by
  unfold Execd
  rw [AList.lookup_insert_ne h]

theorem execd_insert_self (live : Table UInt32 LiveProcess) (pid : UInt32) (proc : LiveProcess) :
    Execd (live.insert pid proc) pid <-> 0 < proc.tasks ∧ proc.execd = true := by
  unfold Execd
  rw [AList.lookup_insert]
  constructor
  · rintro ⟨proc', hsame, hexecd⟩
    injection hsame with hsame
    rw [hsame]
    exact hexecd
  · intro hexecd
    exact ⟨proc, rfl, hexecd⟩

theorem execd_of_lookup {live : Table UInt32 LiveProcess} {pid : UInt32} {proc : LiveProcess}
    (h : live.lookup pid = some proc) :
    Execd live pid <-> 0 < proc.tasks ∧ proc.execd = true := by
  unfold Execd
  constructor
  · rintro ⟨proc', hsame, hexecd⟩
    rw [h] at hsame
    injection hsame with hsame
    rw [hsame]
    exact hexecd
  · intro hexecd
    exact ⟨proc, h, hexecd⟩

theorem execd_erase (live : Table UInt32 LiveProcess) (pid pid' : UInt32) :
    Execd (live.erase pid) pid' <-> pid' ≠ pid ∧ Execd live pid' := by
  unfold Execd
  by_cases hpid : pid' = pid
  · rw [hpid, AList.lookup_erase]
    simp
  · rw [AList.lookup_erase_ne hpid]
    simp [hpid]

theorem mem_live_of_execd {live : Table UInt32 LiveProcess} {pid : UInt32}
    (h : Execd live pid) : pid ∈ live := by
  rcases h with ⟨proc, hproc, _⟩
  exact Table.mem_of_lookup hproc

theorem processes_room (hinv : Inv k) (htraces : TracesProcesses k) :
    k.trace.processes.entries.length < TcpFlow.maxEntries := by
  have hsub : k.trace.processes.keys ⊆ k.live.keys := by
    intro pid hpid
    exact mem_live_of_execd ((htraces.mem pid).mp hpid)
  have hle := List.Nodup.length_le_of_subset k.trace.processes.keys_nodup hsub
  rw [Table.length_keys, Table.length_keys] at hle
  exact Nat.lt_of_le_of_lt hle hinv.room

theorem traces_of_live {live : Table UInt32 LiveProcess} (htraces : TracesProcesses k)
    (hlive : forall pid, Execd live pid <-> Execd k.live pid) :
    TracesProcesses { k with live := live } := by
  refine ⟨?_, htraces.exits⟩
  intro pid
  exact (htraces.mem pid).trans (hlive pid).symm

theorem traces_fork {pid : UInt32} (hfresh : pid ∉ k.live) (htraces : TracesProcesses k) :
    TracesProcesses (step k (.fork pid)) := by
  apply traces_of_live htraces
  intro pid'
  by_cases hpid : pid' = pid
  · rw [hpid, execd_insert_self]
    constructor
    · intro h
      cases h.right
    · intro h
      exact absurd (mem_live_of_execd h) hfresh
  · exact execd_insert_ne hpid _

theorem traces_clone {pid : UInt32} {proc : LiveProcess} (hproc : k.live.lookup pid = some proc)
    (hpos : 0 < proc.tasks) (htraces : TracesProcesses k) :
    TracesProcesses (step k (.clone pid)) := by
  show TracesProcesses (onLive k pid addTask)
  rw [onLive_of_some hproc]
  apply traces_of_live htraces
  intro pid'
  by_cases hpid : pid' = pid
  · rw [hpid, execd_insert_self, execd_of_lookup hproc]
    exact and_congr_left fun _ => ⟨fun _ => hpos, fun _ => Nat.succ_pos _⟩
  · exact execd_insert_ne hpid _

theorem traces_exec {ctx : TaskContext} {proc : LiveProcess} (hinv : Inv k)
    (hproc : k.live.lookup ctx.pid = some proc) (htraces : TracesProcesses k) :
    TracesProcesses (step k (.exec ctx)) := by
  have hpos : 0 < (setExecd proc).tasks := hinv.tasks ctx.pid proc hproc
  show TracesProcesses { onLive k ctx.pid setExecd with trace := k.trace.traceExec ctx }
  rw [onLive_of_some hproc]
  constructor
  · intro pid
    show pid ∈ (k.trace.traceExec ctx).processes <->
      Execd (k.live.insert ctx.pid (setExecd proc)) pid
    rw [ProcessTrace.mem_traceExec (processes_room hinv htraces)]
    by_cases hpid : pid = ctx.pid
    · rw [hpid, execd_insert_self]
      exact ⟨fun _ => ⟨hpos, rfl⟩, fun _ => Or.inl rfl⟩
    · rw [execd_insert_ne hpid, htraces.mem]
      simp [hpid]
  · exact (ProcessTrace.exitPids_traceExec k.trace ctx).trans htraces.exits

/-- After the exit of a task the trace is right exactly when the task was the last one:
the map loses the process and the events gain it in any case. -/
theorem traces_exit_iff {ctx : TaskContext} {proc : LiveProcess} (hinv : Inv k)
    (hproc : k.live.lookup ctx.pid = some proc) (htraces : TracesProcesses k) :
    TracesProcesses (step k (.exit ctx)) <-> proc.tasks = 1 := by
  show TracesProcesses { exitTask k ctx.pid with trace := k.trace.traceExit ctx } <-> _
  constructor
  · intro hafter
    by_contra hmore
    have hpos := hinv.tasks ctx.pid proc hproc
    rw [exitTask_of_more hproc (by omega)] at hafter
    have hexits : (k.trace.traceExit ctx).exitPids = k.ended := hafter.exits
    rw [ProcessTrace.exitPids_traceExit, htraces.exits] at hexits
    have hlength := congrArg List.length hexits
    rw [List.length_append] at hlength
    exact absurd hlength (Nat.succ_ne_self _)
  · intro hlast
    rw [exitTask_of_last hproc hlast]
    constructor
    · intro pid
      show pid ∈ (k.trace.traceExit ctx).processes <-> Execd (k.live.erase ctx.pid) pid
      rw [ProcessTrace.mem_traceExit, execd_erase, htraces.mem]
    · show (k.trace.traceExit ctx).exitPids = k.ended ++ [ctx.pid]
      rw [ProcessTrace.exitPids_traceExit, htraces.exits]

theorem traces_step_iff (k : Kernel) (o : TaskOp) (hinv : Inv k) (hposs : Possible k o)
    (htraces : TracesProcesses k) : TracesProcesses (step k o) <-> ExitsAlone k o := by
  cases o with
  | fork pid => exact ⟨fun _ => trivial, fun _ => traces_fork hposs.left htraces⟩
  | clone pid =>
      rcases Table.exists_lookup hposs with ⟨proc, hproc⟩
      have hpos := hinv.tasks pid proc hproc
      exact ⟨fun _ => trivial, fun _ => traces_clone hproc hpos htraces⟩
  | exec ctx =>
      rcases Table.exists_lookup hposs with ⟨proc, hproc⟩
      exact ⟨fun _ => trivial, fun _ => traces_exec hinv hproc htraces⟩
  | exit ctx =>
      rcases Table.exists_lookup hposs with ⟨proc, hproc⟩
      rw [traces_exit_iff hinv hproc htraces]
      constructor
      · intro hlast proc' hproc'
        rw [hproc] at hproc'
        injection hproc' with hsame
        rw [← hsame]
        exact hlast
      · intro halone
        exact halone proc hproc

end Steps

/-!
## All traces
-/

theorem inv_empty : Inv {} := by
  constructor
  · intro pid proc hproc
    have hnone : ((∅ : Table UInt32 LiveProcess)).lookup pid = none := AList.lookup_empty pid
    rw [hnone] at hproc
    cases hproc
  · exact Nat.zero_lt_succ _

theorem tracesProcesses_empty : TracesProcesses {} := by
  refine ⟨?_, rfl⟩
  intro pid
  constructor
  · intro h
    exact absurd h (AList.notMem_empty pid)
  · intro h
    exact absurd (mem_live_of_execd h) (AList.notMem_empty pid)

/-- In every state of a trace the programs see processes, exactly when no task of the
trace exits while its process has another one. -/
theorem tracesProcesses_iff_exitsAlone (ops : List TaskOp)
    (hposs : EachStep step Possible {} ops) :
    Throughout step TracesProcesses {} ops <-> EachStep step ExitsAlone {} ops :=
  throughout_iff_eachStep_of_env inv_step traces_step_iff inv_empty tracesProcesses_empty hposs

instance (k : Kernel) (o : TaskOp) : Decidable (Possible k o) :=
  match o with
  | .fork pid =>
      inferInstanceAs
        (Decidable (pid ∉ k.live ∧ k.live.entries.length + 1 < TcpFlow.maxEntries))
  | .clone pid => inferInstanceAs (Decidable (pid ∈ k.live))
  | .exec ctx => inferInstanceAs (Decidable (ctx.pid ∈ k.live))
  | .exit ctx => inferInstanceAs (Decidable (ctx.pid ∈ k.live))

/-- A process with one thread besides its first task; the thread exits. -/
def threadExits : List TaskOp :=
  [.fork 7, .exec { pid := 7 }, .clone 7, .exit { pid := 7 }]

theorem tracesProcesses_threadExits :
    EachStep step Possible {} threadExits ∧
      (Throughout step TracesProcesses {} threadExits <->
        EachStep step ExitsAlone {} threadExits) :=
  ⟨by decide, tracesProcesses_iff_exitsAlone threadExits (by decide)⟩

theorem threadExits_not_traced :
    EachStep step Possible {} threadExits ∧
      ¬ Throughout step TracesProcesses {} threadExits := by
  refine ⟨by decide, ?_⟩
  intro htraces
  have hexits := (throughout_final htraces).exits
  revert hexits
  decide

end Kernel

end Ebpf
end PerfMonitor
