import PerfMonitor.Benchmarks.FakeWorker
import PerfMonitor.Foundation.Interleaving
import PerfMonitor.Manager.Freshness

/-!
# A benchmark run against the Manager

The threads of the load generator call `SetMonitorInfo` at the same time, and the
Manager may serve other clients in between.  A call that fails on the client's side may
not have reached the Manager, or it may be handled there after the client has given it
up.  What the program prints, and what the Manager holds when it exits with status zero,
does not depend on the order in which the threads run.
-/

namespace PerfMonitor
namespace Benchmarks

open Foundation
open Proto
open Manager

/-!
## The program of one thread
-/

theorem rounds_enough (workers first : Nat) : workers ≤ first + workers :=
  Nat.le_add_left workers first

/-- A thread plays the workers that leave its number as the remainder. -/
theorem workersOf_spec {options : Options} (hvalid : options.Valid) {thread : Nat}
    (hthread : thread < options.threadCount) {played : List Nat}
    (h : options.workersOf thread = some played) :
    played.Nodup ∧ forall worker, worker ∈ played <->
      worker < options.workers.toNat ∧ worker % options.concurrency.toNat = thread := by
  have hspec := workersFrom_spec hvalid.concurrency (rounds_enough _ _) h
  refine ⟨hspec.left, ?_⟩
  intro worker
  rw [hspec.right worker, meets_thread_iff (lt_of_lt_of_le hthread (min_le_left _ _))]

theorem mod_lt_threadCount {options : Options} (hvalid : options.Valid) {worker : Nat}
    (hworker : worker < options.workers.toNat) :
    worker % options.concurrency.toNat < options.threadCount :=
  lt_min (Nat.mod_lt _ hvalid.concurrency) (lt_of_le_of_lt (Nat.mod_le _ _) hworker)

theorem runThread_isSome_iff {options : Options} (hvalid : options.Valid) :
    (forall thread, thread < options.threadCount -> (options.runThread thread).isSome = true) <->
      options.workers.toNat + options.concurrency.toNat ≤ 2 ^ 31 := by
  have hiff : forall thread, (options.runThread thread).isSome = true <->
      forall worker, worker < options.workers.toNat ->
        Meets options.concurrency.toNat thread worker ->
          worker + options.concurrency.toNat < 2 ^ 31 := by
    intro thread
    unfold Options.runThread
    rw [Option.isSome_map]
    exact workersFrom_isSome_iff hvalid.concurrency (rounds_enough _ _)
  have hworkers := hvalid.workers
  constructor
  · intro h
    have hlast : options.workers.toNat - 1 < options.workers.toNat := by omega
    have hthread := mod_lt_threadCount hvalid hlast
    have hmeets := (meets_thread_iff (lt_of_lt_of_le hthread (min_le_left _ _))).mpr rfl
    have hfits := (hiff _).mp (h _ hthread) _ hlast hmeets
    omega
  · intro hfits thread _hthread
    apply (hiff thread).mpr
    intro worker hworker _hmeets
    omega

theorem mem_runThread {options : Options} {thread : Nat} {played : List Nat} {jobs : List Job}
    (hplayed : options.workersOf thread = some played)
    (hjobs : options.runThread thread = some jobs) (job : Job) :
    job ∈ jobs <-> job.iteration < options.iterations.toNat ∧ job.worker ∈ played := by
  unfold Options.runThread at hjobs
  rw [hplayed, Option.map_some] at hjobs
  injection hjobs with hjobs
  subst hjobs
  constructor
  · intro hmem
    rcases List.mem_flatMap.mp hmem with ⟨iteration, hiteration, hmem⟩
    rcases List.mem_map.mp hmem with ⟨worker, hworker, rfl⟩
    exact ⟨List.mem_range.mp hiteration, hworker⟩
  · rintro ⟨hiteration, hworker⟩
    exact List.mem_flatMap.mpr ⟨job.iteration, List.mem_range.mpr hiteration,
      List.mem_map.mpr ⟨job.worker, hworker, rfl⟩⟩

theorem filter_runThread {options : Options} (hvalid : options.Valid) {worker : Nat}
    (hworker : worker < options.workers.toNat) {jobs : List Job}
    (hjobs : options.runThread (worker % options.concurrency.toNat) = some jobs) :
    (jobs.filter (fun job => decide (job.worker = worker))).map Job.iteration =
      List.range options.iterations.toNat := by
  unfold Options.runThread at hjobs
  rcases Option.map_eq_some_iff.mp hjobs with ⟨played, hplayed, hjobs⟩
  have hspec := workersOf_spec hvalid (mod_lt_threadCount hvalid hworker) hplayed
  have hmem : worker ∈ played := (hspec.right worker).mpr ⟨hworker, rfl⟩
  have honce : played.filter (fun other => decide (other = worker)) = [worker] := by
    show played.filter (fun other => other == worker) = [worker]
    rw [List.filter_beq, List.count_eq_one_of_mem hspec.left hmem]
    rfl
  subst hjobs
  rw [List.filter_flatMap, List.map_flatMap]
  have hrow : forall iteration,
      ((played.map (fun other => ({ worker := other, iteration := iteration } : Job))).filter
        (fun job => decide (job.worker = worker))).map Job.iteration = [iteration] := by
    intro iteration
    rw [List.filter_map]
    show ((played.filter (fun other => decide (other = worker))).map _).map _ = _
    rw [honce]
    rfl
  simp only [hrow]
  exact List.flatMap_singleton' _

/-!
## The run
-/

/-- How a call ends.  A call that the client gives up may still be handled later. -/
inductive Outcome where
  | answered
  | lost
  | givenUp
deriving DecidableEq, Repr

inductive Turn where
  | report (thread : Nat) (time now : Int) (outcome : Outcome) (elapsedMs : Rat)
  | settle (i : Nat) (now : Int)
  | manager (op : ManagerOp)

/-- The threads with their programs, the Manager, the requests that were given up and not
yet handled, and the program's metrics.  The two counters are of the type `int`, and an
atomic one wraps. -/
structure Benchmark where
  threads : Interleaving Nat Job
  mgr : HostManager := .empty
  logs : HostLogs := .empty
  givenUp : List MonitorInfo := []
  latenciesMs : List Rat := []
  ok : Int32 := 0
  failed : Int32 := 0

namespace Benchmark

def call (s : Benchmark) (op : ManagerOp) : Benchmark :=
  { s with mgr := ManagerOp.step s.mgr op, logs := HostLogs.step s.logs op }

def send (s : Benchmark) (now : Int) (request : MonitorInfo) : Outcome -> Benchmark
  | .answered =>
      let response := (GrpcServer.setMonitorInfo s.mgr now request).2
      let s := s.call (.setMonitorInfo now request)
      if response.ok then { s with ok := s.ok + 1 } else { s with failed := s.failed + 1 }
  | .lost => { s with failed := s.failed + 1 }
  | .givenUp => { s with failed := s.failed + 1, givenUp := s.givenUp ++ [request] }

def advance (s : Benchmark) (thread : Nat) (elapsedMs : Rat) : Benchmark :=
  { s with
    threads := s.threads.turn thread
    latenciesMs := s.latenciesMs ++ [elapsedMs] }

def step (s : Benchmark) : Turn -> Benchmark
  | .report thread time now outcome elapsedMs =>
      match s.threads.remaining thread with
      | [] => s
      | job :: _ =>
          (s.advance thread elapsedMs).send now (makeReport job.worker job.iteration time) outcome
  | .settle i now =>
      match s.givenUp[i]? with
      | none => s
      | some request =>
          { s with givenUp := s.givenUp.eraseIdx i }.call (.setMonitorInfo now request)
  | .manager op => s.call op

/-- `main` starts one thread for each program; the Manager has just been started. -/
def start (options : Options) : Benchmark where
  threads :=
    { remaining := fun thread =>
        if thread < options.threadCount then (options.runThread thread).getD [] else [] }

def exitCode (s : Benchmark) : Nat :=
  if s.failed = 0 then 0 else 1

/-- No other call changes what the Manager has of a fake worker. -/
def Undisturbed (options : Options) (s : Benchmark) : Turn -> Prop
  | .manager op =>
      forall worker, worker < options.workers.toNat ->
        HostLogs.step s.logs op (fakeHost worker) = s.logs (fakeHost worker)
  | _ => True

instance (options : Options) (s : Benchmark) (turn : Turn) :
    Decidable (Undisturbed options s turn) :=
  match turn with
  | .manager op =>
      inferInstanceAs (Decidable (forall worker, worker < options.workers.toNat ->
        HostLogs.step s.logs op (fakeHost worker) = s.logs (fakeHost worker)))
  | .report _ _ _ _ _ => isTrue trivial
  | .settle _ _ => isTrue trivial

/-!
## What one turn does
-/

theorem fakeHost_injective {worker other : Nat} (h : fakeHost worker = fakeHost other) :
    worker = other := by
  have hdigits := List.append_cancel_left h
  apply toDigits_injective
  have hrepr : forall n : Nat, (toString n).toList = Nat.toDigits 10 n := by
    intro n
    exact toList_toString_ofNat n
  rw [← hrepr, ← hrepr]
  exact hdigits

theorem step_report_of_nil {s : Benchmark} {thread : Nat} (h : s.threads.remaining thread = [])
    (time now : Int) (outcome : Outcome) (elapsedMs : Rat) :
    s.step (.report thread time now outcome elapsedMs) = s := by
  unfold step
  simp only [h]

theorem step_report_of_cons {s : Benchmark} {thread : Nat} {job : Job} {rest : List Job}
    (h : s.threads.remaining thread = job :: rest) (time now : Int) (outcome : Outcome)
    (elapsedMs : Rat) :
    s.step (.report thread time now outcome elapsedMs) =
      (s.advance thread elapsedMs).send now (makeReport job.worker job.iteration time)
        outcome := by
  unfold step
  simp only [h]

theorem send_frame (s : Benchmark) (now : Int) (request : MonitorInfo) (outcome : Outcome) :
    (s.send now request outcome).threads = s.threads ∧
      (s.send now request outcome).latenciesMs = s.latenciesMs ∧
        (s.send now request outcome).ok + (s.send now request outcome).failed =
          s.ok + s.failed + 1 := by
  cases outcome with
  | answered =>
      refine ⟨rfl, rfl, ?_⟩
      show s.ok + 1 + s.failed = _
      rw [Int32.add_assoc, Int32.add_comm 1, ← Int32.add_assoc]
  | lost => exact ⟨rfl, rfl, (Int32.add_assoc _ _ _).symm⟩
  | givenUp => exact ⟨rfl, rfl, (Int32.add_assoc _ _ _).symm⟩

theorem settle_frame (s : Benchmark) (i : Nat) (now : Int) :
    (s.step (.settle i now)).threads = s.threads ∧
      (s.step (.settle i now)).latenciesMs = s.latenciesMs ∧
        (s.step (.settle i now)).ok = s.ok ∧ (s.step (.settle i now)).failed = s.failed := by
  unfold step
  simp only
  split <;> exact ⟨rfl, rfl, rfl, rfl⟩

theorem refines_send {s : Benchmark} (h : Refines s.mgr s.logs) (now : Int)
    (request : MonitorInfo) (outcome : Outcome) :
    Refines (s.send now request outcome).mgr (s.send now request outcome).logs := by
  cases outcome with
  | answered => exact refines_setMonitorInfo h now request
  | lost => exact h
  | givenUp => exact h

theorem refines_step (s : Benchmark) (turn : Turn) (h : Refines s.mgr s.logs) :
    Refines (s.step turn).mgr (s.step turn).logs := by
  cases turn with
  | report thread time now outcome elapsedMs =>
      cases hjobs : s.threads.remaining thread with
      | nil =>
          rw [step_report_of_nil hjobs]
          exact h
      | cons job rest =>
          rw [step_report_of_cons hjobs]
          exact refines_send (s := s.advance thread elapsedMs) h _ _ _
  | settle i now =>
      unfold step
      simp only
      split
      · exact h
      · exact refines_setMonitorInfo h _ _
  | manager op => exact Manager.refines_step _ _ _ h

/-!
## Counts and programs
-/

structure Counted (options : Options) (s : Benchmark) : Prop where
  counts : s.ok + s.failed = Int32.ofNat s.threads.performed.length
  latencies : s.latenciesMs.length = s.threads.performed.length
  programs : forall thread, s.threads.program thread = (start options).threads.program thread

theorem counted_step (options : Options) (s : Benchmark) (turn : Turn) (h : Counted options s) :
    Counted options (s.step turn) := by
  cases turn with
  | report thread time now outcome elapsedMs =>
      cases hjobs : s.threads.remaining thread with
      | nil =>
          rw [step_report_of_nil hjobs]
          exact h
      | cons job rest =>
          rw [step_report_of_cons hjobs]
          rcases send_frame (s.advance thread elapsedMs) now
            (makeReport job.worker job.iteration time) outcome with
            ⟨hthreads, hlatencies, hcounts⟩
          have hlength : (s.advance thread elapsedMs).threads.performed.length =
              s.threads.performed.length + 1 := by
            show (s.threads.turn thread).performed.length = _
            rw [Interleaving.turn_of_cons hjobs]
            exact List.length_append
          constructor
          case counts =>
            rw [hcounts, hthreads, hlength, Int32.ofNat_add]
            exact congrArg (· + 1) h.counts
          case latencies =>
            rw [hlatencies, hthreads, hlength, ← h.latencies]
            exact List.length_append
          case programs =>
            intro other
            rw [hthreads]
            show (s.threads.turn thread).program other = _
            rw [Interleaving.program_turn]
            exact h.programs other
  | settle i now =>
      rcases settle_frame s i now with ⟨hthreads, hlatencies, hok, hfailed⟩
      constructor
      case counts =>
        rw [hok, hfailed, hthreads]
        exact h.counts
      case latencies =>
        rw [hlatencies, hthreads]
        exact h.latencies
      case programs =>
        intro other
        rw [hthreads]
        exact h.programs other
  | manager op => exact ⟨h.counts, h.latencies, h.programs⟩

/-!
## What the Manager was given
-/

def reportsOf (logs : HostLogs) (hostname : Str) : List Report :=
  ((logs hostname).map HostLog.reports).getD []

def IsReport (worker : Nat) (report : Report) (iteration : Nat) : Prop :=
  exists time, report.request = makeReport worker iteration time

def iterationsOf (s : Benchmark) (worker : Nat) : List Nat :=
  (s.threads.performed.filter (fun p => decide (p.2.worker = worker))).map
    (fun p => p.2.iteration)

/-- As long as no call has failed, the Manager has exactly the reports of the ended calls.
The counter wraps, so that the failures are counted again. -/
structure Handled (worker failures : Nat) (s : Benchmark) : Prop where
  failed : s.failed = Int32.ofNat failures
  atMost : failures ≤ s.threads.performed.length
  givenUp : failures = 0 -> s.givenUp = []
  reports : failures = 0 ->
    List.Forall₂ (IsReport worker) (reportsOf s.logs (fakeHost worker)) (s.iterationsOf worker)

theorem reportsOf_set (logs : HostLogs) (now : Int) (request : MonitorInfo) (hostname : Str) :
    reportsOf (HostLogs.step logs (.setMonitorInfo now request)) hostname =
      if hostname = request.hostname then
        reportsOf logs hostname ++ [{ now := now, request := request }]
      else reportsOf logs hostname := by
  unfold reportsOf HostLogs.step
  simp only
  split
  · rw [Option.map_some, Option.getD_some, Handlers.reports_commit]
  · rfl

theorem hostname_makeReport (worker iteration : Nat) (time : Int) :
    (makeReport worker iteration time).hostname = fakeHost worker :=
  rfl

theorem length_performed_advance {s : Benchmark} {thread : Nat} {job : Job} {rest : List Job}
    (hjobs : s.threads.remaining thread = job :: rest) :
    (s.threads.turn thread).performed.length = s.threads.performed.length + 1 := by
  rw [Interleaving.turn_of_cons hjobs]
  exact List.length_append

theorem handled_of_failure {worker failures : Nat} {s s' : Benchmark}
    (h : Handled worker failures s) (hfailed : s'.failed = s.failed + 1)
    (hlength : s'.threads.performed.length = s.threads.performed.length + 1) :
    Handled worker (failures + 1) s' := by
  constructor
  case failed =>
    rw [hfailed, h.failed, Int32.ofNat_add]
    rfl
  case atMost =>
    rw [hlength]
    exact Nat.succ_le_succ h.atMost
  case givenUp => exact fun hnone => absurd hnone (Nat.succ_ne_zero failures)
  case reports => exact fun hnone => absurd hnone (Nat.succ_ne_zero failures)

theorem handled_report {worker failures : Nat} {s : Benchmark} (h : Handled worker failures s)
    {thread : Nat} {job : Job} {rest : List Job}
    (hjobs : s.threads.remaining thread = job :: rest)
    (time now : Int) (outcome : Outcome) (elapsedMs : Rat) :
    exists failures', Handled worker failures' ((s.advance thread elapsedMs).send now
      (makeReport job.worker job.iteration time) outcome) := by
  have hlength := length_performed_advance hjobs
  cases outcome with
  | lost => exact ⟨failures + 1, handled_of_failure h rfl hlength⟩
  | givenUp => exact ⟨failures + 1, handled_of_failure h rfl hlength⟩
  | answered =>
      refine ⟨failures, h.failed, ?_, h.givenUp, ?_⟩
      · exact h.atMost.trans (Nat.le_of_lt (Nat.lt_of_succ_le (Nat.le_of_eq hlength.symm)))
      intro hnone
      have hold := h.reports hnone
      show List.Forall₂ (IsReport worker)
        (reportsOf (HostLogs.step s.logs (.setMonitorInfo now _)) (fakeHost worker))
        (((s.threads.turn thread).performed.filter _).map _)
      rw [reportsOf_set, Interleaving.turn_of_cons hjobs, List.filter_append, List.map_append]
      by_cases hworker : job.worker = worker
      · subst hworker
        have hkeep : [(thread, job)].filter (fun p => decide (p.2.worker = job.worker)) =
            [(thread, job)] := by
          simp
        rw [if_pos (hostname_makeReport _ _ _).symm, hkeep]
        apply List.rel_append hold
        exact List.Forall₂.cons ⟨time, rfl⟩ List.Forall₂.nil
      · have hhost : ¬ fakeHost worker =
            (makeReport job.worker job.iteration time).hostname := by
          intro heq
          exact hworker (fakeHost_injective heq).symm
        rw [if_neg hhost, List.filter_cons_of_neg (by simpa using hworker), List.filter_nil,
          List.map_nil, List.append_nil]
        exact hold

theorem handled_settle {worker failures : Nat} {s : Benchmark} (h : Handled worker failures s)
    (i : Nat) (now : Int) : Handled worker failures (s.step (.settle i now)) := by
  rcases settle_frame s i now with ⟨hthreads, _, _, hfailed⟩
  by_cases hnone : failures = 0
  · have hsame : s.step (.settle i now) = s := by
      unfold step
      simp only [h.givenUp hnone, List.getElem?_nil]
    rw [hsame]
    exact h
  · constructor
    case failed => exact hfailed.trans h.failed
    case atMost =>
      rw [hthreads]
      exact h.atMost
    case givenUp => exact fun hzero => absurd hzero hnone
    case reports => exact fun hzero => absurd hzero hnone

theorem handled_step {worker failures : Nat} {s : Benchmark} (h : Handled worker failures s)
    {turn : Turn}
    (hother : forall op, turn = .manager op ->
      HostLogs.step s.logs op (fakeHost worker) = s.logs (fakeHost worker)) :
    exists failures', Handled worker failures' (s.step turn) := by
  cases turn with
  | report thread time now outcome elapsedMs =>
      cases hjobs : s.threads.remaining thread with
      | nil =>
          rw [step_report_of_nil hjobs]
          exact ⟨failures, h⟩
      | cons job rest =>
          rw [step_report_of_cons hjobs]
          exact handled_report h hjobs time now outcome elapsedMs
  | settle i now => exact ⟨failures, handled_settle h i now⟩
  | manager op =>
      refine ⟨failures, h.failed, h.atMost, h.givenUp, ?_⟩
      intro hnone
      have hsame : reportsOf (HostLogs.step s.logs op) (fakeHost worker) =
          reportsOf s.logs (fakeHost worker) := by
        unfold reportsOf
        rw [hother op rfl]
      show List.Forall₂ (IsReport worker) (reportsOf (HostLogs.step s.logs op) _) _
      rw [hsame]
      exact h.reports hnone

theorem handled_start (options : Options) (worker : Nat) : Handled worker 0 (start options) :=
  ⟨rfl, Nat.le_refl 0, fun _ => rfl, fun _ => List.Forall₂.nil⟩

/-!
## Finished runs
-/

section Finished

variable {options : Options} {s : Benchmark}

theorem thread_of_performed (hvalid : options.Valid) (hcounted : Counted options s)
    (hjoined : s.threads.Finished) {p : Nat × Job} (hp : p ∈ s.threads.performed) :
    p.2.worker < options.workers.toNat ∧ p.1 = p.2.worker % options.concurrency.toNat := by
  have hmem : p.2 ∈ s.threads.performedBy p.1 :=
    List.mem_map_of_mem (List.mem_filter.mpr ⟨hp, decide_eq_true rfl⟩)
  rw [Interleaving.performedBy_of_finished hjoined, hcounted.programs] at hmem
  change p.2 ∈ if p.1 < options.threadCount then (options.runThread p.1).getD [] else [] at hmem
  by_cases hthread : p.1 < options.threadCount
  · rw [if_pos hthread] at hmem
    cases hjobs : options.runThread p.1 with
    | none =>
        rw [hjobs] at hmem
        cases hmem
    | some jobs =>
        rw [hjobs] at hmem
        rcases Option.map_eq_some_iff.mp hjobs with ⟨played, hplayed, _hjobs⟩
        have hworker := ((mem_runThread hplayed hjobs p.2).mp hmem).right
        have hspec := ((workersOf_spec hvalid hthread hplayed).right p.2.worker).mp hworker
        exact ⟨hspec.left, hspec.right.symm⟩
  · rw [if_neg hthread] at hmem
    cases hmem

theorem iterationsOf_finished (hvalid : options.Valid)
    (hfits : options.workers.toNat + options.concurrency.toNat ≤ 2 ^ 31)
    (hcounted : Counted options s) (hjoined : s.threads.Finished) {worker : Nat}
    (hworker : worker < options.workers.toNat) :
    s.iterationsOf worker = List.range options.iterations.toNat := by
  have hthread := mod_lt_threadCount hvalid hworker
  have hsome := (runThread_isSome_iff hvalid).mpr hfits _ hthread
  rcases Option.isSome_iff_exists.mp hsome with ⟨jobs, hjobs⟩
  have hprogram : s.threads.performedBy (worker % options.concurrency.toNat) = jobs := by
    rw [Interleaving.performedBy_of_finished hjoined, hcounted.programs]
    show (if _ < options.threadCount then (options.runThread _).getD [] else []) = jobs
    rw [if_pos hthread, hjobs]
    rfl
  have hfilter : s.threads.performed.filter (fun p => decide (p.2.worker = worker)) =
      (s.threads.performed.filter
        (fun p => decide (p.1 = worker % options.concurrency.toNat))).filter
          (fun p => decide (p.2.worker = worker)) := by
    rw [List.filter_filter]
    apply List.filter_congr
    intro p hp
    have htag := (thread_of_performed hvalid hcounted hjoined hp).right
    by_cases hsame : p.2.worker = worker
    · rw [htag, hsame]
      simp
    · simp [hsame]
  unfold iterationsOf
  rw [hfilter, ← filter_runThread hvalid hworker hjobs, ← hprogram]
  unfold Interleaving.performedBy
  rw [List.filter_map, List.map_map]
  rfl

/-- `main` waits for the threads that it has started; there are no others. -/
theorem finished_of_joined (hcounted : Counted options s)
    (hjoined : forall thread, thread < options.threadCount -> s.threads.remaining thread = []) :
    s.threads.Finished := by
  intro thread
  by_cases hthread : thread < options.threadCount
  · exact hjoined thread hthread
  · have hprogram := hcounted.programs thread
    have hnone : (start options).threads.program thread = [] := by
      show [] ++ (if thread < options.threadCount then _ else []) = []
      rw [if_neg hthread]
      rfl
    rw [hnone] at hprogram
    exact (List.append_eq_nil_iff.mp hprogram).right

theorem length_performed (hvalid : options.Valid)
    (hfits : options.workers.toNat + options.concurrency.toNat ≤ 2 ^ 31)
    (hcounted : Counted options s) (hjoined : s.threads.Finished) :
    s.threads.performed.length = options.workers.toNat * options.iterations.toNat := by
  have htags : forall q, q ∈ s.threads.performed.map (fun p => (p.2.worker, p.2.iteration)) ->
      q.1 ∈ List.range options.workers.toNat := by
    intro q hq
    rcases List.mem_map.mp hq with ⟨p, hp, rfl⟩
    exact List.mem_range.mpr (thread_of_performed hvalid hcounted hjoined hp).left
  have hperm := Interleaving.perm_flatMap_filter List.nodup_range htags
  have hrow : forall worker, worker ∈ List.range options.workers.toNat ->
      ((s.threads.performed.map (fun p => (p.2.worker, p.2.iteration))).filter
        (fun q => decide (q.1 = worker))).length = options.iterations.toNat := by
    intro worker hworker
    have hiterations := iterationsOf_finished hvalid hfits hcounted hjoined
      (List.mem_range.mp hworker)
    rw [List.filter_map, List.length_map, ← List.length_range (n := options.iterations.toNat),
      ← hiterations]
    exact (List.length_map _).symm
  rw [← List.length_map (fun p : Nat × Job => (p.2.worker, p.2.iteration)), hperm.length_eq,
    List.length_flatMap, List.map_congr_left hrow, List.map_const', List.length_range,
    List.sum_replicate_nat]

/-- The numbers that the program prints, when the counters are read together. -/
structure AllCounted (options : Options) (s : Benchmark) : Prop where
  counts : s.ok + s.failed =
    Int32.ofNat (options.workers.toNat * options.iterations.toNat)
  latencies : s.latenciesMs.length = options.workers.toNat * options.iterations.toNat

/-- The Manager has been given every report of every worker, in the order of the
iterations, and remembers each worker by them. -/
def AllDelivered (options : Options) (s : Benchmark) : Prop :=
  forall worker, worker < options.workers.toNat ->
    exists log, Remembers s.mgr (fakeHost worker) log ∧
      List.Forall₂ (IsReport worker) log.reports (List.range options.iterations.toNat)

theorem ofNat_eq_zero {n : Nat} (hn : n < 2 ^ 32) (hzero : Int32.ofNat n = 0) : n = 0 := by
  have hbmod : ((n : Int).bmod Int32.size) = 0 := by
    rw [← Int32.toInt_ofNat', hzero]
    rfl
  have hdvd := Int.dvd_of_bmod_eq_zero hbmod
  exact Nat.eq_zero_of_dvd_of_lt (Int.natCast_dvd_natCast.mp hdvd) hn

/-- Fewer failures than the counter has values cannot look like none. -/
theorem Handled.none_of_exitCode {worker failures : Nat} (h : Handled worker failures s)
    (hfew : s.threads.performed.length < 2 ^ 32) (hexit : s.exitCode = 0) : failures = 0 := by
  unfold exitCode at hexit
  split at hexit
  next hzero =>
    rw [h.failed] at hzero
    exact ofNat_eq_zero (Nat.lt_of_le_of_lt h.atMost hfew) hzero
  next => cases hexit

theorem allCounted_of_finished (hvalid : options.Valid)
    (hfits : options.workers.toNat + options.concurrency.toNat ≤ 2 ^ 31)
    (hcounted : Counted options s) (hjoined : s.threads.Finished) : AllCounted options s := by
  have hlength := length_performed hvalid hfits hcounted hjoined
  constructor
  case counts => rw [hcounted.counts, hlength]
  case latencies => rw [hcounted.latencies, hlength]

theorem allDelivered_of_finished (hvalid : options.Valid)
    (hfits : options.workers.toNat + options.concurrency.toNat ≤ 2 ^ 31)
    (hfew : options.workers.toNat * options.iterations.toNat < 2 ^ 32)
    (hcounted : Counted options s) (hjoined : s.threads.Finished)
    (href : Refines s.mgr s.logs)
    (hhandled : forall worker, worker < options.workers.toNat ->
      exists failures, Handled worker failures s)
    (hexit : s.exitCode = 0) : AllDelivered options s := by
  rw [← length_performed hvalid hfits hcounted hjoined] at hfew
  intro worker hworker
  rcases hhandled worker hworker with ⟨failures, h⟩
  have hreports := h.reports (h.none_of_exitCode hfew hexit)
  rw [iterationsOf_finished hvalid hfits hcounted hjoined hworker] at hreports
  have hiterations := hvalid.iterations
  unfold reportsOf at hreports
  cases hlog : s.logs (fakeHost worker) with
  | none =>
      rw [hlog] at hreports
      have hlen := hreports.length_eq
      rw [List.length_range] at hlen
      exact absurd hlen (Nat.ne_of_lt hiterations)
  | some log =>
      rw [hlog] at hreports
      exact ⟨log, remembers_of_refines href hlog, hreports⟩

end Finished

def twoWorkers : Options :=
  { workers := 2, iterations := 2, concurrency := 2 }

/-- The second thread runs ahead; another host reports, and a sweep drops it. -/
def twoWorkersTurns : List Turn :=
  [.report 1 50 100 .answered 1, .manager (.setMonitorInfo 40 { hostname := "a".toList }),
    .report 1 51 101 .answered 2, .report 0 51 101 .answered 1, .manager (.removeExpired 102 60),
    .report 0 52 102 .answered 3]

end Benchmark

end Benchmarks
end PerfMonitor
