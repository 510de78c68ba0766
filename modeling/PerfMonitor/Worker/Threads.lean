import PerfMonitor.Worker.Startup

/-!
# Threads of the worker

`MonitorPusher::Run` starts the thread of `push_loop`, the first
`PerfDiagnoser::Collect` in that thread starts the thread of `worker_loop`, and
`MonitorPusher::Stop` ends both.  A turn is one step of one thread.  A thread object
is `none` when it is not joinable, and otherwise says where its thread stands;
assigning to a joinable one, or destroying it, ends the process.  The flags are atomic;
nothing locks the diagnosers.
-/

namespace PerfMonitor
namespace Worker

open Foundation

/-- Where the thread of `push_loop` stands: at the test of `running_`, in
`BpfDiagnoser::Collect`, at the `exchange` in `PerfDiagnoser::Collect`, at the assignment
of `worker_`, where the report is made and the events are reset, in the rpc, in the sleep,
or at its end. -/
inductive PushPc where
  | head
  | collectBpf
  | exchange
  | startWorker
  | report
  | rpc
  | sleep
  | finished
deriving DecidableEq, Repr

/-- Where the thread of `worker_loop` stands. -/
inductive WorkerPc where
  | head
  | scanning
  | sleep
  | finished
deriving DecidableEq, Repr

/-- A call of the client.  `Run` finds the Manager or not, and has loaded its
configuration. -/
inductive PusherCall where
  | run (connected : Bool) (cfg : Settings)
  | stop
deriving DecidableEq, Repr

/-- On whose behalf `PerfDiagnoser::Stop` runs: for `MonitorPusher::Stop`, called by
the client or by the destructor of the pusher, or for the destructor of the member. -/
inductive StopCaller where
  | client
  | destructor
  | member
deriving DecidableEq, Repr

/-- Where the thread of the client stands: between two calls, in `Run`, in one of the
two `Stop`s, or among the destructors of the members. -/
inductive MainPc where
  | idle
  | setRunning
  | startLoop
  | clearRunning (caller : StopCaller)
  | joinLoop (caller : StopCaller)
  | resetBpf (caller : StopCaller)
  | clearPerfRunning (caller : StopCaller)
  | joinWorker (caller : StopCaller)
  | stopRunner (caller : StopCaller)
  | clearEvents (caller : StopCaller)
  | destroyLoop
  | destroyWorker
  | gone
deriving DecidableEq, Repr

inductive Termination where
  | joinable
  | exception
deriving DecidableEq, Repr

structure WorkerThreads where
  stub : Bool := false
  running : Bool := false
  loopThread : Option PushPc := none
  perfRunning : Bool := false
  worker : Option WorkerPc := none
  bpf : BpfDiagnoser := {}
  perf : PerfDiagnoser := {}
  main : MainPc := .idle
  made : List PusherCall := []
  calls : List PusherCall
  terminated : Option Termination := none

/-- One step of one of the threads.  A turn of the push thread carries whether an rpc in
flight has ended, by an answer or an error, and one of the perf thread what it reads. -/
inductive ThreadTurn where
  | main
  | push (answered : Bool)
  | worker (nowWall : UInt64) (inp : ScanInput)

namespace WorkerThreads

section

variable (w : World) (mode : Handover)

/-- `Stop` has returned. -/
def afterStop : StopCaller -> MainPc
  | .client => .idle
  | .destructor => .destroyLoop
  | .member => .destroyWorker

/-- A call of the BPF diagnoser.  Both diagnosers have to do with one system. -/
def onBpf (f : BpfDiagnoser -> BpfDiagnoser) (s : WorkerThreads) : WorkerThreads :=
  let bpf := f { s.bpf with os := s.perf.os, disk := s.perf.disk }
  { s with bpf := bpf, perf := { s.perf with os := bpf.os, disk := bpf.disk } }

/-- `Run` up to the flag: the settings, and the tools. -/
def setUp (s : WorkerThreads) (connected : Bool) (cfg : Settings) : WorkerThreads :=
  let s := s.onBpf (fun bpf =>
    Diagnosers.startTools w mode { bpf with settings := applyToBpf bpf.settings cfg } cfg)
  { s with
    stub := s.stub || connected
    perf := { s.perf with settings := applyToPerf s.perf.settings cfg } }

/-- A turn of the client.  A `join` waits until its thread has finished. -/
def mainTurn (s : WorkerThreads) : WorkerThreads :=
  match s.main with
  | .idle =>
      match s.calls with
      | [] => { s with main := .clearRunning .destructor }
      | .run connected cfg :: rest =>
          { s.setUp w mode connected cfg with
            made := s.made ++ [.run connected cfg]
            calls := rest
            main := .setRunning }
      | .stop :: rest =>
          { s with made := s.made ++ [.stop], calls := rest, main := .clearRunning .client }
  | .setRunning => { s with running := true, main := .startLoop }
  | .startLoop =>
      match s.loopThread with
      | none => { s with loopThread := some .head, main := .idle }
      | some _ => { s with terminated := some .joinable }
  | .clearRunning caller => { s with running := false, main := .joinLoop caller }
  | .joinLoop caller =>
      match s.loopThread with
      | none => { s with main := .resetBpf caller }
      | some .finished => { s with loopThread := none, main := .resetBpf caller }
      | some _ => s
  | .resetBpf caller => { s with bpf := s.bpf.reset, main := .clearPerfRunning caller }
  | .clearPerfRunning caller => { s with perfRunning := false, main := .joinWorker caller }
  | .joinWorker caller =>
      match s.worker with
      | none => { s with main := .stopRunner caller }
      | some .finished => { s with worker := none, main := .stopRunner caller }
      | some _ => s
  | .stopRunner caller =>
      let stopped := s.perf.perfRunner.stop w .stopAll s.perf.os
      { s with
        perf := { s.perf with perfRunner := stopped.1, os := stopped.2 }
        main := .clearEvents caller }
  | .clearEvents caller =>
      { s with
        perf := { s.perf with events := [], triggeredTags := [] }
        main := afterStop caller }
  | .destroyLoop =>
      match s.loopThread with
      | none => { s with main := .clearPerfRunning .member }
      | some _ => { s with terminated := some .joinable }
  | .destroyWorker =>
      match s.worker with
      | none => { s with main := .gone }
      | some _ => { s with terminated := some .joinable }
  | .gone => s

/-- The local variables of `worker_loop` at its start. -/
def freshLocals (d : PerfDiagnoser) : PerfDiagnoser :=
  { d with prevSamples := fun _ => {}, prevWall := 0, todo := [], alive := true }

/-- A turn of the thread of `push_loop`.  The rpc has no deadline. -/
def pushTurn (s : WorkerThreads) (answered : Bool) : WorkerThreads :=
  match s.loopThread with
  | none => s
  | some .head =>
      if s.running then { s with loopThread := some .collectBpf }
      else { s with loopThread := some .finished }
  | some .collectBpf =>
      { s.onBpf (BpfDiagnoser.collect w mode) with loopThread := some .exchange }
  | some .exchange =>
      { s with
        perfRunning := true
        loopThread := some (if s.perfRunning then .report else .startWorker) }
  | some .startWorker =>
      match s.worker with
      | none =>
          { s with
            worker := some .head
            perf := freshLocals s.perf
            loopThread := some .report }
      | some _ => { s with terminated := some .joinable }
  | some .report =>
      { s with
        bpf := s.bpf.reset
        perf := s.perf.reset
        loopThread := some (if s.stub then .rpc else .sleep) }
  | some .rpc => if answered then { s with loopThread := some .sleep } else s
  | some .sleep => { s with loopThread := some .head }
  | some .finished => s

/-- A turn of the thread of `worker_loop`.  An exception ends the process. -/
def workerTurn (s : WorkerThreads) (nowWall : UInt64) (inp : ScanInput) : WorkerThreads :=
  match s.worker with
  | none => s
  | some .head =>
      if s.perfRunning then
        { s with perf := s.perf.beginLoop w nowWall, worker := some .scanning }
      else { s with worker := some .finished }
  | some .scanning =>
      if s.perf.todo = [] then { s with worker := some .sleep }
      else
        let perf := (s.perf.scan w mode inp).1
        { s with
          perf := perf
          terminated := if perf.alive then none else some .exception }
  | some .sleep => { s with worker := some .head }
  | some .finished => s

def step (s : WorkerThreads) (turn : ThreadTurn) : WorkerThreads :=
  if s.terminated.isSome then s
  else
    match turn with
    | .main => s.mainTurn w mode
    | .push answered => s.pushTurn w mode answered
    | .worker nowWall inp => s.workerTurn w mode nowWall inp

end

def fresh (calls : List PusherCall) : WorkerThreads where
  calls := calls

/-!
## What the calls of a client lead to
-/

/-- After a `Run` the client calls `Stop` before it calls `Run` again. -/
def Alternates : Bool -> List PusherCall -> Prop
  | _, [] => True
  | started, .run _ _ :: rest => started = false ∧ Alternates true rest
  | _, .stop :: rest => Alternates false rest

instance decidableAlternates (started : Bool) (calls : List PusherCall) :
    Decidable (Alternates started calls) :=
  match calls with
  | [] => isTrue trivial
  | .run _ _ :: rest =>
      have : Decidable (Alternates true rest) := decidableAlternates true rest
      inferInstanceAs (Decidable (started = false ∧ Alternates true rest))
  | .stop :: rest => decidableAlternates false rest

/-- The last call of the client was `Run`. -/
def started (s : WorkerThreads) : Bool :=
  match s.made.getLast? with
  | some (.run _ _) => true
  | _ => false

structure Quiet (s : WorkerThreads) : Prop where
  running : s.running = false
  loopThread : s.loopThread = none
  worker : s.worker = none
  perfRunning : s.perfRunning = false
  perfRunner : s.perf.perfRunner.pid ≤ 0
  events : s.perf.events = []
  triggeredTags : s.perf.triggeredTags = []

inductive ThreadName where
  | client
  | push
  | worker
deriving DecidableEq, Repr

def SettingUp (s : WorkerThreads) : Prop :=
  s.main = .idle ∧ exists connected cfg rest, s.calls = .run connected cfg :: rest

def InBpf (s : WorkerThreads) : ThreadName -> Prop
  | .client => s.SettingUp ∨ exists caller, s.main = .resetBpf caller
  | .push => s.loopThread = some .collectBpf ∨ s.loopThread = some .report
  | .worker => False

def InPerf (s : WorkerThreads) : ThreadName -> Prop
  | .client =>
      s.SettingUp ∨ exists caller, s.main = .stopRunner caller ∨ s.main = .clearEvents caller
  | .push => s.loopThread = some .report
  | .worker => (s.worker = some .head ∧ s.perfRunning = true) ∨ s.worker = some .scanning

structure Orderly (s : WorkerThreads) : Prop where
  /-- No joinable thread object is assigned or destroyed. -/
  neverJoinable : s.terminated ≠ some .joinable
  /-- One thread at a time is in the BPF diagnoser. -/
  bpfAlone : forall t u, s.InBpf t -> s.InBpf u -> t = u
  /-- The client is in the perf diagnoser when no other thread is. -/
  perfAlone : s.InPerf .client -> forall t, s.InPerf t -> t = .client
  /-- The client joins the perf thread when the thread that starts it is gone. -/
  joinAlone : forall caller, s.main = .joinWorker caller -> s.loopThread = none
  /-- After `Stop`, and at the end of the destructors, nothing goes on. -/
  quiet : (s.main = .idle ∧ s.started = false) ∨ s.main = .gone -> s.Quiet

/-!
## The invariant
-/

/-- A `Stop` is under way. -/
structure Stopping (s : WorkerThreads) (caller : StopCaller) : Prop where
  alternates : Alternates false s.calls
  started : caller = .client -> s.started = false

structure LoopGone (s : WorkerThreads) : Prop where
  running : s.running = false
  loopThread : s.loopThread = none

def MainOk (s : WorkerThreads) : Prop :=
  match s.main with
  | .idle =>
      if s.started then s.loopThread.isSome ∧ Alternates true s.calls
      else s.Quiet ∧ Alternates false s.calls
  | .setRunning => s.Quiet ∧ s.started ∧ Alternates true s.calls
  | .startLoop =>
      s.loopThread = none ∧ s.worker = none ∧ s.started ∧ Alternates true s.calls
  | .clearRunning caller => s.Stopping caller
  | .joinLoop caller => s.Stopping caller ∧ s.running = false
  | .resetBpf caller => s.Stopping caller ∧ s.LoopGone
  | .clearPerfRunning caller => s.Stopping caller ∧ s.LoopGone
  | .joinWorker caller => s.Stopping caller ∧ s.LoopGone ∧ s.perfRunning = false
  | .stopRunner caller =>
      s.Stopping caller ∧ s.LoopGone ∧ s.perfRunning = false ∧ s.worker = none
  | .clearEvents caller =>
      s.Stopping caller ∧ s.LoopGone ∧ s.perfRunning = false ∧ s.worker = none ∧
        s.perf.perfRunner.pid ≤ 0
  | .destroyLoop => s.Quiet ∧ Alternates false s.calls
  | .destroyWorker => s.Quiet
  | .gone => s.Quiet

def PushOk (s : WorkerThreads) : Prop :=
  match s.loopThread with
  | none => True
  | some .startWorker => s.worker = none ∧ s.perfRunning = true
  | some _ => s.perfRunning = false -> s.worker = none

structure Invariant (s : WorkerThreads) : Prop where
  mainOk : s.MainOk
  pushOk : s.PushOk
  neverJoinable : s.terminated ≠ some .joinable

/-!
## Turns of the two threads
-/

structure SameClient (s s' : WorkerThreads) : Prop where
  main : s'.main = s.main
  made : s'.made = s.made
  calls : s'.calls = s.calls
  running : s'.running = s.running
  loopThread : s'.loopThread.isSome = s.loopThread.isSome
  perfRunning : s.loopThread = none -> s'.perfRunning = s.perfRunning
  alone : s.loopThread = none -> s.worker = none -> s' = s

section Turns

variable {w : World} {mode : Handover} {s s' : WorkerThreads}

theorem pushTurn_of_none (hloop : s.loopThread = none) (answered : Bool) :
    s.pushTurn w mode answered = s := by
  unfold pushTurn
  rw [hloop]

theorem workerTurn_of_none (hworker : s.worker = none) (nowWall : UInt64) (inp : ScanInput) :
    s.workerTurn w mode nowWall inp = s := by
  unfold workerTurn
  rw [hworker]

theorem pushTurn_frame (w : World) (mode : Handover) (s : WorkerThreads) (answered : Bool) :
    exists loopThread perfRunning worker bpf perf terminated, s.pushTurn w mode answered =
      { s with
        loopThread := loopThread
        perfRunning := perfRunning
        worker := worker
        bpf := bpf
        perf := perf
        terminated := terminated } ∧
      loopThread.isSome = s.loopThread.isSome := by
  rcases s with ⟨stub, running, loopThread, perfRunning, worker, bpf, perf, main, made, calls,
    terminated⟩
  cases loopThread with
  | none => exact ⟨none, _, _, _, _, _, rfl, rfl⟩
  | some pc =>
      cases pc with
      | head =>
          cases running with
          | true => exact ⟨some .collectBpf, _, _, _, _, _, rfl, rfl⟩
          | false => exact ⟨some .finished, _, _, _, _, _, rfl, rfl⟩
      | collectBpf => exact ⟨some .exchange, _, _, _, _, _, rfl, rfl⟩
      | exchange => exact ⟨some _, _, _, _, _, _, rfl, rfl⟩
      | startWorker =>
          cases worker with
          | none => exact ⟨some .report, _, _, _, _, _, rfl, rfl⟩
          | some pc => exact ⟨some .startWorker, _, _, _, _, _, rfl, rfl⟩
      | report => exact ⟨some _, _, _, _, _, _, rfl, rfl⟩
      | rpc =>
          cases answered with
          | true => exact ⟨some .sleep, _, _, _, _, _, rfl, rfl⟩
          | false => exact ⟨some .rpc, _, _, _, _, _, rfl, rfl⟩
      | sleep => exact ⟨some .head, _, _, _, _, _, rfl, rfl⟩
      | finished => exact ⟨some .finished, _, _, _, _, _, rfl, rfl⟩

theorem sameClient_pushTurn (s : WorkerThreads) (answered : Bool) :
    SameClient s (s.pushTurn w mode answered) := by
  rcases pushTurn_frame w mode s answered with
    ⟨loopThread, perfRunning, worker, bpf, perf, terminated, hturn, hloop⟩
  have halone : s.loopThread = none -> s.pushTurn w mode answered = s :=
    fun hnone => pushTurn_of_none hnone answered
  constructor
  case perfRunning =>
    intro hnone
    rw [halone hnone]
  case alone => exact fun hnone _ => halone hnone
  case loopThread =>
    rw [hturn]
    exact hloop
  all_goals rw [hturn]

theorem workerTurn_frame (w : World) (mode : Handover) (s : WorkerThreads) (nowWall : UInt64)
    (inp : ScanInput) :
    exists perf worker terminated, s.workerTurn w mode nowWall inp =
      { s with perf := perf, worker := worker, terminated := terminated } ∧
      worker.isSome = s.worker.isSome ∧
      (terminated = s.terminated ∨ terminated = none ∨ terminated = some .exception) := by
  rcases s with ⟨stub, running, loopThread, perfRunning, worker, bpf, perf, main, made, calls,
    terminated⟩
  cases worker with
  | none => exact ⟨_, none, _, rfl, rfl, Or.inl rfl⟩
  | some pc =>
      cases pc with
      | head =>
          cases perfRunning with
          | true => exact ⟨_, some .scanning, _, rfl, rfl, Or.inl rfl⟩
          | false => exact ⟨_, some .finished, _, rfl, rfl, Or.inl rfl⟩
      | scanning =>
          unfold workerTurn
          dsimp only
          split
          · exact ⟨_, some .sleep, _, rfl, rfl, Or.inl rfl⟩
          · refine ⟨_, some .scanning, _, rfl, rfl, Or.inr ?_⟩
            split
            · exact Or.inl rfl
            · exact Or.inr rfl
      | sleep => exact ⟨_, some .head, _, rfl, rfl, Or.inl rfl⟩
      | finished => exact ⟨_, some .finished, _, rfl, rfl, Or.inl rfl⟩

theorem sameClient_workerTurn (s : WorkerThreads) (nowWall : UInt64) (inp : ScanInput) :
    SameClient s (s.workerTurn w mode nowWall inp) := by
  rcases workerTurn_frame w mode s nowWall inp with
    ⟨perf, worker, terminated, hturn, _, _⟩
  have halone : s.worker = none -> s.workerTurn w mode nowWall inp = s :=
    fun hworker => workerTurn_of_none hworker nowWall inp
  rw [hturn] at halone ⊢
  exact ⟨rfl, rfl, rfl, rfl, rfl, fun _ => rfl, fun _ hworker => halone hworker⟩

theorem SameClient.started (h : SameClient s s') : s'.started = s.started := by
  unfold WorkerThreads.started
  rw [h.made]

theorem SameClient.loopThread_none (h : SameClient s s') (hloop : s.loopThread = none) :
    s'.loopThread = none := by
  have hsame := h.loopThread
  rw [hloop] at hsame
  exact Option.not_isSome_iff_eq_none.mp (by simp [hsame])

theorem SameClient.stopping (h : SameClient s s') {caller : StopCaller}
    (hs : s.Stopping caller) : s'.Stopping caller := by
  constructor
  · rw [h.calls]
    exact hs.alternates
  · rw [h.started]
    exact hs.started

theorem SameClient.loopGone (h : SameClient s s') (hs : s.LoopGone) : s'.LoopGone :=
  ⟨h.running.trans hs.running, h.loopThread_none hs.loopThread⟩

/-- No turn of another thread disturbs what the client relies on. -/
theorem SameClient.mainOk (h : SameClient s s') (hs : s.MainOk) : s'.MainOk := by
  have halone : s.loopThread = none ∧ s.worker = none -> s'.MainOk := by
    rintro ⟨hloop, hworker⟩
    rw [h.alone hloop hworker]
    exact hs
  have hquiet : s.Quiet -> s'.MainOk := fun hq => halone ⟨hq.loopThread, hq.worker⟩
  unfold MainOk at hs
  cases hmain : s.main with
  | idle =>
      simp only [hmain] at hs
      cases hstarted : s.started with
      | true =>
          rw [if_pos hstarted] at hs
          unfold MainOk
          simp only [h.main, hmain, h.started, hstarted, if_true, h.loopThread, h.calls]
          exact hs
      | false =>
          rw [hstarted, if_neg Bool.false_ne_true] at hs
          exact hquiet hs.left
  | setRunning =>
      simp only [hmain] at hs
      exact hquiet hs.left
  | startLoop =>
      simp only [hmain] at hs
      exact halone ⟨hs.left, hs.right.left⟩
  | clearRunning caller =>
      simp only [hmain] at hs
      unfold MainOk
      simp only [h.main, hmain]
      exact h.stopping hs
  | joinLoop caller =>
      simp only [hmain] at hs
      unfold MainOk
      simp only [h.main, hmain]
      exact ⟨h.stopping hs.left, h.running.trans hs.right⟩
  | resetBpf caller =>
      simp only [hmain] at hs
      unfold MainOk
      simp only [h.main, hmain]
      exact ⟨h.stopping hs.left, h.loopGone hs.right⟩
  | clearPerfRunning caller =>
      simp only [hmain] at hs
      unfold MainOk
      simp only [h.main, hmain]
      exact ⟨h.stopping hs.left, h.loopGone hs.right⟩
  | joinWorker caller =>
      simp only [hmain] at hs
      rcases hs with ⟨hstopping, hgone, hperf⟩
      unfold MainOk
      simp only [h.main, hmain]
      exact ⟨h.stopping hstopping, h.loopGone hgone, (h.perfRunning hgone.loopThread).trans hperf⟩
  | stopRunner caller =>
      simp only [hmain] at hs
      exact halone ⟨hs.right.left.loopThread, hs.right.right.right⟩
  | clearEvents caller =>
      simp only [hmain] at hs
      exact halone ⟨hs.right.left.loopThread, hs.right.right.right.left⟩
  | destroyLoop =>
      simp only [hmain] at hs
      exact hquiet hs.left
  | destroyWorker =>
      simp only [hmain] at hs
      exact hquiet hs
  | gone =>
      simp only [hmain] at hs
      exact hquiet hs

theorem pushOk_pushTurn (hs : s.PushOk) (answered : Bool) :
    (s.pushTurn w mode answered).PushOk := by
  rcases s with ⟨stub, running, loopThread, perfRunning, worker, bpf, perf, main, made, calls,
    terminated⟩
  cases loopThread with
  | none => trivial
  | some pc =>
      cases pc with
      | head =>
          cases running with
          | true => exact hs
          | false => exact hs
      | collectBpf => exact hs
      | exchange =>
          cases perfRunning with
          | true => exact hs
          | false => exact ⟨hs rfl, rfl⟩
      | startWorker =>
          -- the flag was set by the step before
          have hworker : worker = none := hs.left
          have hflag : perfRunning = true := hs.right
          subst hworker
          subst hflag
          exact fun hclear => Bool.noConfusion hclear
      | report =>
          cases stub with
          | true => exact hs
          | false => exact hs
      | rpc =>
          cases answered with
          | true => exact hs
          | false => exact hs
      | sleep => exact hs
      | finished => exact hs

theorem neverJoinable_pushTurn (hs : s.PushOk) (hjoin : s.terminated ≠ some .joinable)
    (answered : Bool) : (s.pushTurn w mode answered).terminated ≠ some .joinable := by
  rcases s with ⟨stub, running, loopThread, perfRunning, worker, bpf, perf, main, made, calls,
    terminated⟩
  cases loopThread with
  | none => exact hjoin
  | some pc =>
      cases pc with
      | head =>
          cases running with
          | true => exact hjoin
          | false => exact hjoin
      | collectBpf => exact hjoin
      | exchange => exact hjoin
      | startWorker =>
          have hworker : worker = none := hs.left
          subst hworker
          exact hjoin
      | report => exact hjoin
      | rpc =>
          cases answered with
          | true => exact hjoin
          | false => exact hjoin
      | sleep => exact hjoin
      | finished => exact hjoin

theorem pushOk_workerTurn (hs : s.PushOk) (nowWall : UInt64) (inp : ScanInput) :
    (s.workerTurn w mode nowWall inp).PushOk := by
  rcases workerTurn_frame w mode s nowWall inp with
    ⟨perf, worker, terminated, hturn, hsome, _⟩
  have hnone : s.worker = none -> worker = none := by
    intro hworker
    rw [hworker] at hsome
    exact Option.not_isSome_iff_eq_none.mp (by simp [hsome])
  rw [hturn]
  unfold PushOk at hs ⊢
  dsimp only
  split at hs
  · trivial
  · exact ⟨hnone hs.left, hs.right⟩
  · exact fun hflag => hnone (hs hflag)

theorem neverJoinable_workerTurn (hjoin : s.terminated ≠ some .joinable) (nowWall : UInt64)
    (inp : ScanInput) : (s.workerTurn w mode nowWall inp).terminated ≠ some .joinable := by
  rcases workerTurn_frame w mode s nowWall inp with
    ⟨perf, worker, terminated, hturn, _, hcause⟩
  rw [hturn]
  rcases hcause with hsame | hnone | hexception
  · exact fun h => hjoin (hsame.symm.trans h)
  · exact fun h => by rw [show terminated = some .joinable from h] at hnone; cases hnone
  · exact fun h => by rw [show terminated = some .joinable from h] at hexception; cases hexception

end Turns

/-!
## Turns of the client
-/

section Client

variable {w : World} {mode : Handover} {s : WorkerThreads}

theorem stop_pid_nonpos (w : World) (runner : CmdRunner) (os : Os) :
    (runner.stop w .stopAll os).1.pid ≤ 0 := by
  unfold CmdRunner.stop
  split
  · rename_i hpid
    exact hpid
  · show (-1 : Int) ≤ 0
    decide

theorem started_of_run {connected : Bool} {cfg : Settings} {made : List PusherCall}
    (hmade : s.made = made ++ [.run connected cfg]) : s.started = true := by
  unfold started
  rw [hmade, List.getLast?_concat]

theorem started_of_stop {made : List PusherCall} (hmade : s.made = made ++ [.stop]) :
    s.started = false := by
  unfold started
  rw [hmade, List.getLast?_concat]

theorem mainOk_of_started (hmain : s.main = .idle) (hstarted : s.started = true)
    (hloop : s.loopThread.isSome) (halternates : Alternates true s.calls) : s.MainOk := by
  unfold MainOk
  simp only [hmain, hstarted, if_true]
  exact ⟨hloop, halternates⟩

theorem mainOk_of_stopped (hmain : s.main = .idle) (hstarted : s.started = false)
    (hquiet : s.Quiet) (halternates : Alternates false s.calls) : s.MainOk := by
  unfold MainOk
  simp only [hmain, hstarted, Bool.false_eq_true, if_false]
  exact ⟨hquiet, halternates⟩

theorem mainOk_idleTurn (hmain : s.main = .idle) (hs : s.MainOk) : (s.mainTurn w mode).MainOk := by
  have halternates : Alternates s.started s.calls := by
    unfold MainOk at hs
    simp only [hmain] at hs
    cases hstarted : s.started with
    | true =>
        rw [if_pos hstarted] at hs
        exact hs.right
    | false =>
        rw [hstarted, if_neg Bool.false_ne_true] at hs
        exact hs.right
  unfold mainTurn
  rw [hmain]
  cases hcalls : s.calls with
  | nil => exact ⟨trivial, fun h => StopCaller.noConfusion h⟩
  | cons call rest =>
      rw [hcalls] at halternates
      cases call with
      | run connected cfg =>
          have hidle : s.started = false := halternates.left
          unfold MainOk at hs
          simp only [hmain, hidle, Bool.false_eq_true, if_false] at hs
          rcases hs.left with ⟨hrunning, hloop, hworker, hperf, hrunner, hevents, htags⟩
          exact ⟨⟨hrunning, hloop, hworker, hperf, hrunner, hevents, htags⟩,
            started_of_run rfl, halternates.right⟩
      | stop => exact ⟨halternates, fun _ => started_of_stop rfl⟩

theorem mainOk_mainTurn (hs : s.MainOk) : (s.mainTurn w mode).MainOk := by
  by_cases hidle : s.main = .idle
  · exact mainOk_idleTurn hidle hs
  · rcases s with ⟨stub, running, loopThread, perfRunning, worker, bpf, perf, main, made, calls,
    terminated⟩
    cases main with
    | idle => exact absurd rfl hidle
    | setRunning => exact ⟨hs.left.loopThread, hs.left.worker, hs.right.left, hs.right.right⟩
    | startLoop =>
        rcases hs with ⟨hloop, hworker, hstarted, halternates⟩
        cases hloop
        exact mainOk_of_started rfl hstarted rfl halternates
    | clearRunning caller => exact ⟨⟨hs.alternates, hs.started⟩, rfl⟩
    | joinLoop caller =>
        rcases hs with ⟨hstopping, hrunning⟩
        cases loopThread with
        | none => exact ⟨⟨hstopping.alternates, hstopping.started⟩, hrunning, rfl⟩
        | some pc =>
            cases pc with
            | finished => exact ⟨⟨hstopping.alternates, hstopping.started⟩, hrunning, rfl⟩
            | head => exact ⟨hstopping, hrunning⟩
            | exchange => exact ⟨hstopping, hrunning⟩
            | startWorker => exact ⟨hstopping, hrunning⟩
            | report => exact ⟨hstopping, hrunning⟩
            | rpc => exact ⟨hstopping, hrunning⟩
            | collectBpf => exact ⟨hstopping, hrunning⟩
            | sleep => exact ⟨hstopping, hrunning⟩
    | resetBpf caller =>
        rcases hs with ⟨hstopping, hgone⟩
        exact ⟨⟨hstopping.alternates, hstopping.started⟩, hgone.running, hgone.loopThread⟩
    | clearPerfRunning caller =>
        rcases hs with ⟨hstopping, hgone⟩
        exact ⟨⟨hstopping.alternates, hstopping.started⟩, ⟨hgone.running, hgone.loopThread⟩, rfl⟩
    | joinWorker caller =>
        rcases hs with ⟨hstopping, hgone, hperf⟩
        have hstopping' := And.intro hstopping.alternates hstopping.started
        cases worker with
        | none =>
            exact ⟨⟨hstopping'.left, hstopping'.right⟩, ⟨hgone.running, hgone.loopThread⟩, hperf,
              rfl⟩
        | some pc =>
            cases pc with
            | finished =>
                exact ⟨⟨hstopping'.left, hstopping'.right⟩, ⟨hgone.running, hgone.loopThread⟩,
                  hperf, rfl⟩
            | head => exact ⟨hstopping, hgone, hperf⟩
            | scanning => exact ⟨hstopping, hgone, hperf⟩
            | sleep => exact ⟨hstopping, hgone, hperf⟩
    | stopRunner caller =>
        rcases hs with ⟨hstopping, hgone, hperf, hworker⟩
        exact ⟨⟨hstopping.alternates, hstopping.started⟩, ⟨hgone.running, hgone.loopThread⟩, hperf,
          hworker, stop_pid_nonpos w perf.perfRunner perf.os⟩
    | clearEvents caller =>
        rcases hs with ⟨hstopping, hgone, hperf, hworker, hrunner⟩
        have hquiet : Quiet
            { stub := stub, running := running, loopThread := loopThread,
              perfRunning := perfRunning, worker := worker, bpf := bpf,
              perf := { perf with events := [], triggeredTags := [] },
              main := afterStop caller, made := made, calls := calls,
              terminated := terminated } :=
          ⟨hgone.running, hgone.loopThread, hworker, hperf, hrunner, rfl, rfl⟩
        cases caller with
        | client => exact mainOk_of_stopped rfl (hstopping.started rfl) hquiet hstopping.alternates
        | destructor => exact ⟨hquiet, hstopping.alternates⟩
        | member => exact hquiet
    | destroyLoop =>
        rcases hs with ⟨hquiet, halternates⟩
        have hloop : loopThread = none := hquiet.loopThread
        cases hloop
        exact ⟨⟨halternates, fun h => StopCaller.noConfusion h⟩, hquiet.running, rfl⟩
    | destroyWorker =>
        have hworker : worker = none := hs.worker
        cases hworker
        exact ⟨hs.running, hs.loopThread, rfl, hs.perfRunning, hs.perfRunner, hs.events,
          hs.triggeredTags⟩
    | gone => exact hs

theorem pushOk_mainTurn (hs : s.Invariant) : (s.mainTurn w mode).PushOk := by
  have hmain := hs.mainOk
  have hpush := hs.pushOk
  rcases s with ⟨stub, running, loopThread, perfRunning, worker, bpf, perf, main, made, calls,
    terminated⟩
  cases main with
  | idle =>
      cases calls with
      | nil => exact hpush
      | cons call rest =>
          cases call with
          | run connected cfg => exact hpush
          | stop => exact hpush
  | setRunning => exact hpush
  | startLoop =>
      rcases hmain with ⟨hloop, hworker, _, _⟩
      cases hloop
      exact fun _ => hworker
  | clearRunning caller => exact hpush
  | joinLoop caller =>
      cases loopThread with
      | none => trivial
      | some pc =>
          cases pc with
          | finished => trivial
          | head => exact hpush
          | exchange => exact hpush
          | startWorker => exact hpush
          | report => exact hpush
          | rpc => exact hpush
          | collectBpf => exact hpush
          | sleep => exact hpush
  | resetBpf caller => exact hpush
  | clearPerfRunning caller =>
      have hloop : loopThread = none := hmain.right.loopThread
      cases hloop
      trivial
  | joinWorker caller =>
      have hloop : loopThread = none := hmain.right.left.loopThread
      cases hloop
      cases worker with
      | none => trivial
      | some pc => cases pc <;> trivial
  | stopRunner caller => exact hpush
  | clearEvents caller => exact hpush
  | destroyLoop =>
      have hloop : loopThread = none := hmain.left.loopThread
      cases hloop
      trivial
  | destroyWorker =>
      have hloop : loopThread = none := hmain.loopThread
      cases hloop
      cases worker <;> trivial
  | gone => exact hpush

/-- Where the client assigns to or destroys a thread object, that is not joinable. -/
theorem neverJoinable_mainTurn (hs : s.Invariant) :
    (s.mainTurn w mode).terminated ≠ some .joinable := by
  have hmain := hs.mainOk
  have hjoin := hs.neverJoinable
  rcases s with ⟨stub, running, loopThread, perfRunning, worker, bpf, perf, main, made, calls,
    terminated⟩
  cases main with
  | idle =>
      cases calls with
      | nil => exact hjoin
      | cons call rest =>
          cases call with
          | run connected cfg => exact hjoin
          | stop => exact hjoin
  | startLoop =>
      have hloop : loopThread = none := hmain.left
      cases hloop
      exact hjoin
  | joinLoop caller =>
      cases loopThread with
      | none => exact hjoin
      | some pc => cases pc <;> exact hjoin
  | joinWorker caller =>
      cases worker with
      | none => exact hjoin
      | some pc => cases pc <;> exact hjoin
  | destroyLoop =>
      have hloop : loopThread = none := hmain.left.loopThread
      cases hloop
      exact hjoin
  | destroyWorker =>
      have hworker : worker = none := hmain.worker
      cases hworker
      exact hjoin
  | setRunning => exact hjoin
  | clearRunning caller => exact hjoin
  | resetBpf caller => exact hjoin
  | clearPerfRunning caller => exact hjoin
  | stopRunner caller => exact hjoin
  | clearEvents caller => exact hjoin
  | gone => exact hjoin

end Client

/-!
## Runs
-/

section Runs

variable (w : World) (mode : Handover)

theorem invariant_step (s : WorkerThreads) (turn : ThreadTurn) (h : s.Invariant) :
    (s.step w mode turn).Invariant := by
  unfold step
  split
  · exact h
  · cases turn with
    | main => exact ⟨mainOk_mainTurn h.mainOk, pushOk_mainTurn h, neverJoinable_mainTurn h⟩
    | push answered =>
        exact ⟨(sameClient_pushTurn s answered).mainOk h.mainOk, pushOk_pushTurn h.pushOk answered,
          neverJoinable_pushTurn h.pushOk h.neverJoinable answered⟩
    | worker nowWall inp =>
        exact ⟨(sameClient_workerTurn s nowWall inp).mainOk h.mainOk,
          pushOk_workerTurn h.pushOk nowWall inp,
          neverJoinable_workerTurn h.neverJoinable nowWall inp⟩

theorem invariant_fresh {calls : List PusherCall} (h : Alternates false calls) :
    (fresh calls).Invariant := by
  refine ⟨mainOk_of_stopped rfl rfl ?_ h, trivial, fun hjoin => by cases hjoin⟩
  exact ⟨rfl, rfl, rfl, rfl, Int.neg_nonpos_of_nonneg Int.one_nonneg, rfl, rfl⟩

theorem alone_of_settingUp {s : WorkerThreads} (h : s.MainOk) (hup : s.SettingUp) :
    s.loopThread = none ∧ s.worker = none := by
  rcases hup with ⟨hmain, connected, cfg, rest, hcalls⟩
  unfold MainOk at h
  simp only [hmain, hcalls] at h
  cases hstarted : s.started with
  | true =>
      rw [if_pos hstarted] at h
      exact absurd h.right.left (by decide)
  | false =>
      rw [hstarted, if_neg Bool.false_ne_true] at h
      exact ⟨h.left.loopThread, h.left.worker⟩

theorem loopThread_of_inBpf {s : WorkerThreads} (h : s.MainOk) (hin : s.InBpf .client) :
    s.loopThread = none := by
  rcases hin with hup | ⟨caller, hmain⟩
  · exact (alone_of_settingUp h hup).left
  · unfold MainOk at h
    simp only [hmain] at h
    exact h.right.loopThread

theorem alone_of_inPerf {s : WorkerThreads} (h : s.MainOk) (hin : s.InPerf .client) :
    s.loopThread = none ∧ s.worker = none := by
  rcases hin with hup | ⟨caller, hmain | hmain⟩
  · exact alone_of_settingUp h hup
  · unfold MainOk at h
    simp only [hmain] at h
    exact ⟨h.right.left.loopThread, h.right.right.right⟩
  · unfold MainOk at h
    simp only [hmain] at h
    exact ⟨h.right.left.loopThread, h.right.right.right.left⟩

theorem not_inBpf_push {s : WorkerThreads} (hloop : s.loopThread = none) : ¬ s.InBpf .push := by
  rintro (hpush | hpush)
  · rw [hloop] at hpush
    cases hpush
  · rw [hloop] at hpush
    cases hpush

theorem orderly_of_invariant (s : WorkerThreads) (h : s.Invariant) : s.Orderly := by
  have hmainOk := h.mainOk
  constructor
  case neverJoinable => exact h.neverJoinable
  case bpfAlone =>
    have hclient : s.InBpf .client -> ¬ s.InBpf .push :=
      fun hin => not_inBpf_push (loopThread_of_inBpf hmainOk hin)
    intro t u ht hu
    cases t with
    | client =>
        cases u with
        | client => rfl
        | push => exact absurd hu (hclient ht)
        | worker => exact hu.elim
    | push =>
        cases u with
        | client => exact absurd ht (hclient hu)
        | push => rfl
        | worker => exact hu.elim
    | worker => exact ht.elim
  case perfAlone =>
    intro hin t ht
    rcases alone_of_inPerf hmainOk hin with ⟨hloop, hworker⟩
    cases t with
    | client => rfl
    | push =>
        unfold InPerf at ht
        rw [hloop] at ht
        cases ht
    | worker =>
        unfold InPerf at ht
        rw [hworker] at ht
        rcases ht with ⟨hhead, _⟩ | hscanning
        · cases hhead
        · cases hscanning
  case joinAlone =>
    intro caller hmain
    unfold MainOk at hmainOk
    simp only [hmain] at hmainOk
    exact hmainOk.right.left.loopThread
  case quiet =>
    intro hmain
    unfold MainOk at hmainOk
    rcases hmain with ⟨hmain, hstarted⟩ | hmain
    · simp only [hmain, hstarted, Bool.false_eq_true, if_false] at hmainOk
      exact hmainOk.left
    · simp only [hmain] at hmainOk
      exact hmainOk

structure Parked (s : WorkerThreads) (started : Bool) : Prop where
  main : s.main = .idle
  loopThread : s.loopThread = if started then some .head else none
  worker : s.worker = none
  terminated : s.terminated = none

/-- The turns that a `Run` takes. -/
def runTurns : List ThreadTurn :=
  [.main, .main, .main]

/-- The turns that a `Stop` takes, with the one in which the push thread ends. -/
def stopTurns : List ThreadTurn :=
  [.main, .main, .push false, .main, .main, .main, .main, .main, .main]

theorem runTurns_parked {s : WorkerThreads} {connected : Bool} {cfg : Settings}
    {rest : List PusherCall} (h : s.Parked false) (hcalls : s.calls = .run connected cfg :: rest) :
    (runFrom (step w mode) s runTurns).Parked true ∧
      (runFrom (step w mode) s runTurns).calls = rest := by
  rcases s with ⟨stub, running, loopThread, perfRunning, worker, bpf, perf, main, made, calls,
    terminated⟩
  rcases h with ⟨hmain, hloop, hworker, hterminated⟩
  cases hmain
  cases hloop
  cases hworker
  cases hterminated
  cases hcalls
  exact ⟨⟨rfl, rfl, rfl, rfl⟩, rfl⟩

theorem runTurns_joinable {s : WorkerThreads} {connected : Bool} {cfg : Settings}
    {rest : List PusherCall} (h : s.Parked true) (hcalls : s.calls = .run connected cfg :: rest) :
    (runFrom (step w mode) s runTurns).terminated = some .joinable := by
  rcases s with ⟨stub, running, loopThread, perfRunning, worker, bpf, perf, main, made, calls,
    terminated⟩
  rcases h with ⟨hmain, hloop, hworker, hterminated⟩
  cases hmain
  cases hloop
  cases hworker
  cases hterminated
  cases hcalls
  rfl

theorem stopTurns_parked {s : WorkerThreads} {started : Bool} {rest : List PusherCall}
    (h : s.Parked started) (hcalls : s.calls = .stop :: rest) :
    (runFrom (step w mode) s stopTurns).Parked false ∧
      (runFrom (step w mode) s stopTurns).calls = rest := by
  rcases s with ⟨stub, running, loopThread, perfRunning, worker, bpf, perf, main, made, calls,
    terminated⟩
  rcases h with ⟨hmain, hloop, hworker, hterminated⟩
  cases hmain
  cases hloop
  cases hworker
  cases hterminated
  cases hcalls
  cases started with
  | true =>
      simp only [stopTurns, runFrom_cons, runFrom_nil, step, mainTurn, pushTurn, afterStop,
        Option.isSome_none, Bool.false_eq_true, if_false]
      exact ⟨⟨rfl, rfl, rfl, rfl⟩, rfl⟩
  | false =>
      simp only [stopTurns, runFrom_cons, runFrom_nil, step, mainTurn, pushTurn, afterStop,
        Option.isSome_none, Bool.false_eq_true, if_false]
      exact ⟨⟨rfl, rfl, rfl, rfl⟩, rfl⟩

/-- A client that calls `Run` twice in a row can end the process. -/
theorem exists_joinable {started : Bool} {calls : List PusherCall}
    (hnot : ¬ Alternates started calls) {s : WorkerThreads} (h : s.Parked started)
    (hcalls : s.calls = calls) :
    exists turns, (runFrom (step w mode) s turns).terminated = some .joinable := by
  induction calls generalizing started s with
  | nil => exact absurd trivial hnot
  | cons call rest ih =>
      cases call with
      | run connected cfg =>
          cases started with
          | true => exact ⟨runTurns, runTurns_joinable w mode h hcalls⟩
          | false =>
              have hrest : ¬ Alternates true rest := fun hrest => hnot ⟨rfl, hrest⟩
              rcases runTurns_parked w mode h hcalls with ⟨hparked, hcalls'⟩
              rcases ih hrest hparked hcalls' with ⟨turns, hturns⟩
              exact ⟨runTurns ++ turns, by rw [runFrom_append]; exact hturns⟩
      | stop =>
          rcases stopTurns_parked w mode h hcalls with ⟨hparked, hcalls'⟩
          rcases ih hnot hparked hcalls' with ⟨turns, hturns⟩
          exact ⟨stopTurns ++ turns, by rw [runFrom_append]; exact hturns⟩

/-- The push thread resets the events while the perf thread scans. -/
example (cfg : Settings) :
    let s := runFrom (step w mode) (fresh [.run true cfg, .stop])
      (runTurns ++ [.push true, .push true, .push true, .push true, .worker 0 {}])
    s.InPerf .push ∧ s.InPerf .worker := ⟨rfl, Or.inr rfl⟩

/-- `main` of the worker calls `Run`, waits for a signal, calls `Stop` and destroys
the pusher. -/
example (cfg : Settings) : Alternates false [.run true cfg, .stop] := ⟨rfl, trivial⟩

/-!
## `Stop` returns

Once its flag is cleared a thread ends after a few more turns, so that the client
leaves each `join`, whatever turns the other threads take in between.
-/

def pushLeft (s : WorkerThreads) : Nat :=
  match s.loopThread with
  | none => 0
  | some .finished => 0
  | some .head => 1
  | some .sleep => 2
  | some .rpc => 3
  | some .report => 4
  | some .startWorker => 5
  | some .exchange => 6
  | some .collectBpf => 7

def workerLeft (s : WorkerThreads) : Nat :=
  match s.worker with
  | none => 0
  | some .finished => 0
  | some .head => 1
  | some .sleep => 2
  | some .scanning => s.perf.todo.length + 3

def isPush : ThreadTurn -> Bool
  | .push answered => answered
  | _ => false

def isWorker : ThreadTurn -> Bool
  | .worker _ _ => true
  | _ => false

theorem step_of_running {s : WorkerThreads} (h : s.terminated = none) (turn : ThreadTurn) :
    s.step w mode turn =
      match turn with
      | .main => s.mainTurn w mode
      | .push answered => s.pushTurn w mode answered
      | .worker nowWall inp => s.workerTurn w mode nowWall inp := by
  unfold step
  rw [h]
  rfl

theorem todo_scan_of_alive {d : PerfDiagnoser} {inp : ScanInput}
    (halive : (d.scan w mode inp).1.alive = true) :
    (d.scan w mode inp).1.todo = d.todo.tail := by
  cases hsample : d.validSample inp with
  | some sample =>
      rcases PerfDiagnoser.scan_frame_of_sample w mode d inp hsample with
        ⟨rest, _, htodo, _, hrest, _⟩
      rw [hrest, htodo, List.tail_cons]
  | none =>
      have htodo := (PerfDiagnoser.scan_frame_of_noSample w mode d inp hsample).right.right
      cases hd : d.alive with
      | true => rwa [hd, if_pos rfl] at htodo
      | false =>
          unfold PerfDiagnoser.scan at halive
          cases hlist : d.todo with
          | nil =>
              rw [hd, hlist] at htodo
              exact htodo
          | cons procName rest =>
              simp only [hlist, hd, Bool.false_eq_true, if_false] at halive

section Joins

variable (caller : StopCaller)

structure JoinsLoop (s : WorkerThreads) : Prop where
  main : s.main = .joinLoop caller
  running : s.running = false
  terminated : s.terminated = none

structure JoinsWorker (s : WorkerThreads) : Prop where
  main : s.main = .joinWorker caller
  loopThread : s.loopThread = none
  perfRunning : s.perfRunning = false
  terminated : s.terminated = none

variable {caller} {s : WorkerThreads}

/-- No turn of the push thread adds to those that it has left, and one that no rpc holds
up takes one off. -/
theorem pushLeft_pushTurn (h : JoinsLoop caller s) (answered : Bool)
    (hnext : (s.pushTurn w mode answered).terminated = none) :
    (s.pushTurn w mode answered).pushLeft ≤ s.pushLeft - (if answered then 1 else 0) := by
  have hrunning := h.running
  rcases s with ⟨stub, running, loopThread, perfRunning, worker, bpf, perf, main, made, calls,
    terminated⟩
  cases hrunning
  have hlower : forall left right,
      right + 1 ≤ left -> right ≤ left - (if answered then 1 else 0) := by
    intro left right hle
    split
    · omega
    · omega
  cases loopThread with
  | none => exact Nat.zero_le _
  | some pc =>
      cases pc with
      | head => exact Nat.zero_le _
      | collectBpf => exact hlower 7 6 (Nat.le_refl 7)
      | exchange =>
          cases perfRunning with
          | true => exact hlower 6 4 (Nat.le_succ 5)
          | false => exact hlower 6 5 (Nat.le_refl 6)
      | startWorker =>
          cases worker with
          | none => exact hlower 5 4 (Nat.le_refl 5)
          | some pc => cases hnext
      | report =>
          cases stub with
          | true => exact hlower 4 3 (Nat.le_refl 4)
          | false => exact hlower 4 2 (Nat.le_succ 3)
      | rpc =>
          cases answered with
          | true => exact Nat.le_refl 2
          | false => exact Nat.le_refl 3
      | sleep => exact hlower 2 1 (Nat.le_refl 2)
      | finished => exact Nat.zero_le _

theorem workerLeft_workerTurn (h : JoinsWorker caller s) (nowWall : UInt64) (inp : ScanInput)
    (hnext : (s.workerTurn w mode nowWall inp).terminated = none) :
    (s.workerTurn w mode nowWall inp).workerLeft ≤ s.workerLeft - 1 := by
  have hflag := h.perfRunning
  rcases s with ⟨stub, running, loopThread, perfRunning, worker, bpf, perf, main, made, calls,
    terminated⟩
  cases hflag
  cases worker with
  | none => exact Nat.le_refl 0
  | some pc =>
      cases pc with
      | head => exact Nat.le_refl 0
      | sleep => exact Nat.le_refl 1
      | finished => exact Nat.le_refl 0
      | scanning =>
          unfold workerTurn at hnext ⊢
          dsimp only at hnext ⊢
          by_cases htodo : perf.todo = []
          · rw [if_pos htodo]
            show 2 ≤ perf.todo.length + 3 - 1
            omega
          · rw [if_neg htodo] at hnext ⊢
            have halive : (perf.scan w mode inp).1.alive = true := by
              by_contra hdead
              rw [if_neg hdead] at hnext
              cases hnext
            have hpos := List.length_pos_iff.mpr htodo
            show (perf.scan w mode inp).1.todo.length + 3 ≤ perf.todo.length + 3 - 1
            rw [todo_scan_of_alive w mode halive, List.length_tail]
            omega

theorem mainTurn_joinsLoop (h : JoinsLoop caller s) (h' : JoinsLoop caller (s.mainTurn w mode)) :
    s.mainTurn w mode = s ∧ s.pushLeft ≠ 0 := by
  have hmain := h.main
  have hmain' := h'.main
  rcases s with ⟨stub, running, loopThread, perfRunning, worker, bpf, perf, main, made, calls,
    terminated⟩
  cases hmain
  cases loopThread with
  | none => cases hmain'
  | some pc =>
      cases pc with
      | finished => cases hmain'
      | head => exact ⟨rfl, Nat.one_ne_zero⟩
      | collectBpf => exact ⟨rfl, Nat.succ_ne_zero 6⟩
      | exchange => exact ⟨rfl, Nat.succ_ne_zero 5⟩
      | startWorker => exact ⟨rfl, Nat.succ_ne_zero 4⟩
      | report => exact ⟨rfl, Nat.succ_ne_zero 3⟩
      | rpc => exact ⟨rfl, Nat.succ_ne_zero 2⟩
      | sleep => exact ⟨rfl, Nat.succ_ne_zero 1⟩

theorem joinLoop_left {turns : List ThreadTurn} (hcount : s.pushLeft ≤ turns.countP isPush) :
    exists first second, turns ++ [.main] = first ++ second ∧
      ¬ JoinsLoop caller (runFrom (step w mode) s first) := by
  refine exists_leaves pushLeft isPush ?_ ?_ ?_ hcount
  · intro s turn h h' hpush
    rw [step_of_running w mode h.terminated] at h' ⊢
    cases turn with
    | push answered =>
        have hle := pushLeft_pushTurn w mode h answered h'.terminated
        have hanswered : answered = true := hpush
        subst hanswered
        exact hle
    | main => cases hpush
    | worker nowWall inp => cases hpush
  · intro s turn h h' hother
    rw [step_of_running w mode h.terminated] at h' ⊢
    cases turn with
    | push answered =>
        exact (pushLeft_pushTurn w mode h answered h'.terminated).trans (Nat.sub_le _ _)
    | main => rw [(mainTurn_joinsLoop w mode h h').left]
    | worker nowWall inp =>
        rcases workerTurn_frame w mode s nowWall inp with
          ⟨perf, worker, terminated, hturn, _, _⟩
        dsimp only
        rw [hturn]
        exact Nat.le_refl _
  · intro s h hzero h'
    rw [step_of_running w mode h.terminated] at h'
    exact (mainTurn_joinsLoop w mode h h').right hzero

structure AwaitsAnswer (caller : StopCaller) (s : WorkerThreads) : Prop where
  main : s.main = .joinLoop caller
  loopThread : s.loopThread = some .rpc

theorem awaitsAnswer_step (h : AwaitsAnswer caller s) {turn : ThreadTurn}
    (hturn : turn ≠ .push true) : AwaitsAnswer caller (s.step w mode turn) := by
  rcases h with ⟨hmain, hloop⟩
  unfold step
  split
  · exact ⟨hmain, hloop⟩
  · cases turn with
    | main =>
        have hstays : s.mainTurn w mode = s := by
          unfold mainTurn
          simp only [hmain, hloop]
        dsimp only
        rw [hstays]
        exact ⟨hmain, hloop⟩
    | push answered =>
        cases answered with
        | true => exact absurd rfl hturn
        | false =>
            have hstays : s.pushTurn w mode false = s := by
              unfold pushTurn
              simp only [hloop, Bool.false_eq_true, if_false]
            dsimp only
            rw [hstays]
            exact ⟨hmain, hloop⟩
    | worker nowWall inp =>
        rcases workerTurn_frame w mode s nowWall inp with
          ⟨perf, worker, terminated, hframe, _, _⟩
        dsimp only
        rw [hframe]
        exact ⟨hmain, hloop⟩

theorem awaitsAnswer_run (h : AwaitsAnswer caller s) {turns : List ThreadTurn}
    (hturns : ThreadTurn.push true ∉ turns) :
    AwaitsAnswer caller (runFrom (step w mode) s turns) := by
  induction turns generalizing s with
  | nil => exact h
  | cons turn rest ih =>
      rw [List.mem_cons, not_or] at hturns
      exact ih (awaitsAnswer_step w mode h (Ne.symm hturns.left)) hturns.right

theorem mainTurn_joinsWorker (h : JoinsWorker caller s)
    (h' : JoinsWorker caller (s.mainTurn w mode)) :
    s.mainTurn w mode = s ∧ s.workerLeft ≠ 0 := by
  have hmain := h.main
  have hmain' := h'.main
  rcases s with ⟨stub, running, loopThread, perfRunning, worker, bpf, perf, main, made, calls,
    terminated⟩
  cases hmain
  cases worker with
  | none => cases hmain'
  | some pc =>
      cases pc with
      | finished => cases hmain'
      | head => exact ⟨rfl, Nat.one_ne_zero⟩
      | scanning => exact ⟨rfl, Nat.succ_ne_zero _⟩
      | sleep => exact ⟨rfl, Nat.succ_ne_zero 1⟩

theorem joinWorker_left {turns : List ThreadTurn}
    (hcount : s.workerLeft ≤ turns.countP isWorker) :
    exists first second, turns ++ [.main] = first ++ second ∧
      ¬ JoinsWorker caller (runFrom (step w mode) s first) := by
  refine exists_leaves workerLeft isWorker ?_ ?_ ?_ hcount
  · intro s turn h h' hworker
    rw [step_of_running w mode h.terminated] at h' ⊢
    cases turn with
    | worker nowWall inp => exact workerLeft_workerTurn w mode h nowWall inp h'.terminated
    | main => cases hworker
    | push => cases hworker
  · intro s turn h h' hother
    rw [step_of_running w mode h.terminated] at h' ⊢
    cases turn with
    | worker nowWall inp => cases hother
    | main => rw [(mainTurn_joinsWorker w mode h h').left]
    | push answered =>
        dsimp only
        rw [pushTurn_of_none h.loopThread]
  · intro s h hzero h'
    rw [step_of_running w mode h.terminated] at h'
    exact (mainTurn_joinsWorker w mode h h').right hzero

end Joins

/-- The client is at a step no more, or the process has been ended. -/
def Left (pc : MainPc) (s : WorkerThreads) : Prop :=
  s.main ≠ pc ∨ s.terminated ≠ none

end Runs

/-- A system in which no `fork` succeeds. -/
def noForks : World where
  fork := fun _ => -1

/-- `Run` and `Stop` up to the `join` of the push thread, which has not moved. -/
def untilJoinLoop : List ThreadTurn :=
  runTurns ++ [.main, .main]

def untilReport : List ThreadTurn :=
  runTurns ++ [.push true, .push true, .push true, .push true]

/-- The same up to the `join` of the push thread, with the rpc in flight. -/
def untilRpc : List ThreadTurn :=
  untilReport ++ [.main, .main, .push true]

/-- The same up to the `join` of the perf thread. -/
def untilJoinWorker : List ThreadTurn :=
  untilRpc ++ [.push true, .push true, .push true, .main, .main, .main]

end WorkerThreads

end Worker
end PerfMonitor
