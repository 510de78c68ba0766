import PerfMonitor.Manager.Freshness

/-!
# The main loop and the hosts that stay listed

`main` in `manager/src/main.cpp` sleeps for ten seconds, sweeps the store with
`RemoveExpired(60)` and begins again, while handlers serve requests on other threads.
A sleep can last longer than it was asked to, and a handler can commit later than it
read the clock.  The bounds on both delays decide which hosts `GetAll` still has: one
that reported a short while ago is never missing, and one that is there has reported a
bounded while ago.
-/

namespace PerfMonitor
namespace Manager

open Foundation
open Proto

/-- What happens in the Manager's process: a step of a handler or of the clock, or the
main thread trying to return from its sleep. -/
inductive ServerOp where
  | elapse (seconds : Nat)
  | arrive (request : MonitorInfo)
  | commit (i : Nat)
  | getMonitorInfo (request : GetRequest)
  | getAll
  | wake
deriving DecidableEq

def ServerOp.toHandlerOp : ServerOp -> HandlerOp
  | .elapse seconds => .elapse seconds
  | .arrive request => .arrive request
  | .commit i => .commit i
  | .getMonitorInfo request => .getMonitorInfo request
  | .getAll => .getAll
  | .wake => .removeExpired 60

structure Server where
  handlers : Handlers
  wakeAt : Int

namespace Server

def start (clock : Int) : Server where
  handlers := { clock := clock }
  wakeAt := clock + 10

/-- One step of the process.  The main thread does not return from `sleep_for` before
its time is over; it then sweeps and sleeps again. -/
def step (s : Server) (op : ServerOp) : Server :=
  match op with
  | .wake =>
      if s.wakeAt ≤ s.handlers.clock then
        { handlers := s.handlers.step (.removeExpired 60), wakeAt := s.handlers.clock + 10 }
      else
        s
  | op => { s with handlers := s.handlers.step op.toHandlerOp }

/-- No handler commits more than `delay` seconds after it read the clock, and the main
thread sleeps at most `late` seconds too long. -/
def OnTime (late delay : Nat) (s : Server) : ServerOp -> Prop
  | .elapse seconds => s.handlers.clock + seconds ≤ s.wakeAt + late
  | .commit i =>
      forall handler, handler ∈ s.handlers.running[i]? ->
        s.handlers.clock ≤ handler.now + delay
  | _ => True

instance (late delay : Nat) (s : Server) (op : ServerOp) : Decidable (OnTime late delay s op) :=
  match op with
  | .elapse seconds =>
      inferInstanceAs (Decidable (s.handlers.clock + seconds ≤ s.wakeAt + late))
  | .commit i =>
      inferInstanceAs (Decidable (forall handler, handler ∈ s.handlers.running[i]? ->
        s.handlers.clock ≤ handler.now + delay))
  | .arrive _ => isTrue trivial
  | .getMonitorInfo _ => isTrue trivial
  | .getAll => isTrue trivial
  | .wake => isTrue trivial

/-- `GetAll` has a snapshot of the host. -/
def Listed (s : Server) (hostname : Str) : Prop :=
  exists snap, snap ∈ s.handlers.mgr.getAll ∧ snap.hostname = hostname

theorem handlers_step (s : Server) (op : ServerOp) :
    s.step op = s ∨ (s.step op).handlers = s.handlers.step op.toHandlerOp := by
  cases op with
  | wake =>
      show (if s.wakeAt ≤ s.handlers.clock then _ else _) = s ∨
        (if s.wakeAt ≤ s.handlers.clock then _ else _ : Server).handlers = _
      by_cases hdue : s.wakeAt ≤ s.handlers.clock
      · rw [if_pos hdue]
        exact Or.inr rfl
      · rw [if_neg hdue]
        exact Or.inl rfl
  | elapse seconds => exact Or.inr rfl
  | arrive request => exact Or.inr rfl
  | commit i => exact Or.inr rfl
  | getMonitorInfo request => exact Or.inr rfl
  | getAll => exact Or.inr rfl

/-- What every step of the handlers keeps, every step of the process keeps. -/
theorem handlers_invariant {Inv : Handlers -> Prop}
    (hstep : forall (s : Handlers) op, Inv s -> Inv (s.step op)) (s : Server) (op : ServerOp)
    (h : Inv s.handlers) : Inv (s.step op).handlers := by
  rcases handlers_step s op with hsame | hmove
  · rw [hsame]
    exact h
  · rw [hmove]
    exact hstep s.handlers _ h

theorem clock_le_step (s : Server) (op : ServerOp) :
    s.handlers.clock ≤ (s.step op).handlers.clock := by
  rcases handlers_step s op with hsame | hmove
  · rw [hsame]
  · rw [hmove]
    exact Handlers.clock_le_step s.handlers _

theorem clock_le_runFrom (s : Server) (ops : List ServerOp) :
    s.handlers.clock ≤ (runFrom step s ops).handlers.clock := by
  induction ops generalizing s with
  | nil => exact le_refl _
  | cons op rest ih => exact le_trans (clock_le_step s op) (ih (s.step op))

theorem listed_iff {s : Server} (h : Refines s.handlers.mgr s.handlers.logs) (hostname : Str) :
    s.Listed hostname <-> exists log, s.handlers.logs hostname = some log := by
  have hrows := getAll_of_refines h hostname
  constructor
  · rintro ⟨snap, hmem, hname⟩
    have hrow : snap ∈ s.handlers.mgr.getAll.filter
        (fun snap => decide (snap.hostname = hostname)) :=
      List.mem_filter.mpr ⟨hmem, decide_eq_true hname⟩
    rw [hrows] at hrow
    rcases Option.map_eq_some_iff.mp (Option.mem_toList.mp hrow) with ⟨log, hlog, _hsnap⟩
    exact ⟨log, hlog⟩
  · rintro ⟨log, hlog⟩
    have hrow : HostLog.snapshot hostname log ∈
        ((s.handlers.logs hostname).map (HostLog.snapshot hostname)).toList := by
      rw [hlog]
      exact List.mem_singleton_self _
    rw [← hrows] at hrow
    have hmem := List.mem_filter.mp hrow
    exact ⟨_, hmem.left, of_decide_eq_true hmem.right⟩

/-!
## What is listed was reported a bounded while ago
-/

structure Swept (late delay : Nat) (s : Server) : Prop where
  refines : Refines s.handlers.mgr s.handlers.logs
  awake : s.handlers.clock ≤ s.wakeAt + late
  asleep : s.wakeAt ≤ s.handlers.clock + 10
  recent : forall hostname log, s.handlers.logs hostname = some log ->
    s.wakeAt ≤ log.last.now + (10 + max 60 delay : Nat)

theorem swept_start (late delay : Nat) (clock : Int) : Swept late delay (start clock) := by
  constructor
  case refines => exact refines_empty
  case awake =>
    show clock ≤ clock + 10 + late
    omega
  case asleep => exact le_refl _
  case recent =>
    intro hostname log hlog
    cases hlog

theorem recent_step {late delay : Nat} {s : Server} (h : Swept late delay s) {op : HandlerOp}
    (hcommit : forall i, op = .commit i -> forall handler, handler ∈ s.handlers.running[i]? ->
      s.handlers.clock ≤ handler.now + delay)
    {hostname : Str} {log' : HostLog} (hlog' : (s.handlers.step op).logs hostname = some log') :
    s.wakeAt ≤ log'.last.now + (10 + max 60 delay : Nat) := by
  rcases Handlers.logs_step hlog' with hlog | ⟨i, handler, hop, hi, _hhost, rfl⟩
  · exact h.recent hostname log' hlog
  · rw [last_commit]
    have hlate := hcommit i hop handler hi
    have hasleep := h.asleep
    show s.wakeAt ≤ handler.now + (10 + max 60 delay : Nat)
    omega

theorem swept_wake {late delay : Nat} {s : Server} (h : Swept late delay s) :
    Swept late delay (s.step .wake) := by
  show Swept late delay (if s.wakeAt ≤ s.handlers.clock then _ else _)
  by_cases hdue : s.wakeAt ≤ s.handlers.clock
  · rw [if_pos hdue]
    constructor
    case refines => exact Handlers.refines_step h.refines _
    case awake =>
      show s.handlers.clock ≤ s.handlers.clock + 10 + late
      omega
    case asleep => exact le_refl _
    case recent =>
      intro hostname log hlog
      -- the sweep has kept the log, so it was not older than sixty seconds
      have hkept := (Option.mem_filter_iff.mp hlog).right
      have hyoung : ¬ s.handlers.clock - log.last.now > 60 := by
        simpa using hkept
      show s.handlers.clock + 10 ≤ log.last.now + (10 + max 60 delay : Nat)
      omega
  · rw [if_neg hdue]
    exact h

theorem swept_step (late delay : Nat) (s : Server) (op : ServerOp) (h : Swept late delay s)
    (htime : OnTime late delay s op) : Swept late delay (s.step op) := by
  have hclock := clock_le_step s op
  have hasleep := h.asleep
  cases op with
  | wake => exact swept_wake h
  | elapse seconds =>
      refine ⟨Handlers.refines_step h.refines _, htime, ?_, h.recent⟩
      show s.wakeAt ≤ s.handlers.clock + seconds + 10
      omega
  | arrive request => exact ⟨h.refines, h.awake, h.asleep, h.recent⟩
  | commit i =>
      have hsame : (s.handlers.step (.commit i)).clock = s.handlers.clock := by
        cases hi : s.handlers.running[i]? with
        | none => rw [Handlers.step_commit_of_none hi]
        | some handler =>
            rw [Handlers.step_commit_of_some hi]
            rfl
      refine ⟨Handlers.refines_step h.refines _, ?_, ?_, ?_⟩
      · show (s.handlers.step (.commit i)).clock ≤ s.wakeAt + late
        rw [hsame]
        exact h.awake
      · show s.wakeAt ≤ (s.handlers.step (.commit i)).clock + 10
        rw [hsame]
        exact h.asleep
      · intro hostname log' hlog'
        apply recent_step h _ hlog'
        intro j hj
        injection hj with hj
        subst hj
        exact htime
  | getMonitorInfo request => exact ⟨h.refines, h.awake, h.asleep, h.recent⟩
  | getAll => exact ⟨h.refines, h.awake, h.asleep, h.recent⟩

theorem lastUpdate_of_swept {late delay : Nat} {s : Server} (h : Swept late delay s)
    {snap : HostSnapshot} (hmem : snap ∈ s.handlers.mgr.getAll) :
    s.handlers.clock ≤ snap.lastUpdate + (10 + late + max 60 delay : Nat) := by
  have hrow : snap ∈ s.handlers.mgr.getAll.filter
      (fun other => decide (other.hostname = snap.hostname)) :=
    List.mem_filter.mpr ⟨hmem, decide_eq_true rfl⟩
  rw [getAll_of_refines h.refines] at hrow
  rcases Option.map_eq_some_iff.mp (Option.mem_toList.mp hrow) with ⟨log, hlog, hsnap⟩
  have hlast : snap.lastUpdate = log.last.now := by
    rw [← hsnap]
    show (GrpcServer.snapshot log.last.now log.last.request).lastUpdate = _
    exact lastUpdate_snapshot _ _
  have hrecent := h.recent _ log hlog
  have hawake := h.awake
  rw [hlast]
  omega

/-!
## What was reported a short while ago is listed
-/

/-- A report read at `now` has been committed for the host, and nothing much older has
taken its place since then. -/
def Reported (delay : Nat) (hostname : Str) (now : Int) (s : Server) : Prop :=
  now ≤ s.handlers.clock ∧
    exists log, s.handlers.logs hostname = some log ∧ now ≤ log.last.now + delay

theorem reported_step {late delay : Nat} {hostname : Str} {now : Int} {s : Server}
    {op : ServerOp} (h : Reported delay hostname now s) (htime : OnTime late delay s op)
    (hyoung : s.handlers.clock + delay ≤ now + 60) : Reported delay hostname now (s.step op) := by
  have hclock := clock_le_step s op
  rcases h with ⟨hpast, log, hlog, hnow⟩
  refine ⟨le_trans hpast hclock, ?_⟩
  cases op with
  | wake =>
      show exists log, (if s.wakeAt ≤ s.handlers.clock then _ else s : Server).handlers.logs
        hostname = some log ∧ _
      by_cases hdue : s.wakeAt ≤ s.handlers.clock
      · rw [if_pos hdue]
        refine ⟨log, ?_, hnow⟩
        apply Option.mem_filter_iff.mpr
        refine ⟨hlog, ?_⟩
        have hkeep : ¬ s.handlers.clock - log.last.now > 60 := by omega
        simpa using hkeep
      · rw [if_neg hdue]
        exact ⟨log, hlog, hnow⟩
  | commit i =>
      show exists log, (s.handlers.step (.commit i)).logs hostname = some log ∧ _
      cases hi : s.handlers.running[i]? with
      | none =>
          rw [Handlers.step_commit_of_none hi]
          exact ⟨log, hlog, hnow⟩
      | some handler =>
          by_cases hhost : hostname = handler.request.hostname
          · rw [hhost, Handlers.logs_commit_self hi]
            refine ⟨_, rfl, ?_⟩
            rw [last_commit]
            exact le_trans hpast (htime handler hi)
          · rw [Handlers.logs_commit_ne hi hhost]
            exact ⟨log, hlog, hnow⟩
  | elapse seconds => exact ⟨log, hlog, hnow⟩
  | arrive request => exact ⟨log, hlog, hnow⟩
  | getMonitorInfo request => exact ⟨log, hlog, hnow⟩
  | getAll => exact ⟨log, hlog, hnow⟩

theorem reported_runFrom {late delay : Nat} {hostname : Str} {now : Int} {s : Server}
    {ops : List ServerOp} (h : Reported delay hostname now s)
    (htime : EachStep step (OnTime late delay) s ops)
    (hyoung : (runFrom step s ops).handlers.clock + delay ≤ now + 60) :
    Reported delay hostname now (runFrom step s ops) := by
  induction ops generalizing s with
  | nil => exact h
  | cons op rest ih =>
      have hclock := clock_le_runFrom s (op :: rest)
      have hfirst : s.handlers.clock + delay ≤ now + 60 := by omega
      exact ih (reported_step h htime.left hfirst) htime.right hyoung

theorem reported_commit {delay : Nat} {s : Server} (hpast : s.handlers.Past) {i : Nat}
    {handler : Handler} (hi : s.handlers.running[i]? = some handler) :
    Reported delay handler.request.hostname handler.now (s.step (.commit i)) := by
  have hclock := clock_le_step s (.commit i)
  have hnow := hpast.running handler (List.mem_of_getElem? hi)
  refine ⟨le_trans hnow hclock, _, Handlers.logs_commit_self hi, ?_⟩
  rw [last_commit]
  exact Int.le_add_of_nonneg_right (Int.natCast_nonneg delay)

theorem past_start (clock : Int) : (start clock).handlers.Past := by
  constructor
  · intro handler hmem
    cases hmem
  · intro hostname log hlog
    cases hlog

/-- From an empty store on, a host with a report read at most `60 - delay` seconds ago is
listed, and a listed host was last reported at most `70 + late` seconds ago, or
`10 + late + delay` when handlers may take longer than a minute. -/
theorem listed_while_reporting (late delay : Nat) (clock : Int) (ops : List ServerOp)
    (htime : EachStep step (OnTime late delay) (start clock) ops) :
    (forall first i second, ops = first ++ .commit i :: second ->
      forall handler, handler ∈ (runFrom step (start clock) first).handlers.running[i]? ->
        (runFrom step (start clock) ops).handlers.clock + delay ≤ handler.now + 60 ->
          (runFrom step (start clock) ops).Listed handler.request.hostname) ∧
    (forall snap, snap ∈ (runFrom step (start clock) ops).handlers.mgr.getAll ->
      (runFrom step (start clock) ops).handlers.clock ≤
        snap.lastUpdate + (10 + late + max 60 delay : Nat)) := by
  have hswept := throughout_final
    (throughout_of_guarded (swept_step late delay) (swept_start late delay clock) htime)
  constructor
  · intro first i second heq handler hi hyoung
    have hpast : (runFrom step (start clock) first).handlers.Past := by
      have hstep : forall (s : Server) op, s.handlers.Past -> (s.step op).handlers.Past :=
        handlers_invariant Handlers.past_step
      exact runFrom_invariant hstep (past_start clock) first
    have hrest : EachStep step (OnTime late delay)
        ((runFrom step (start clock) first).step (.commit i)) second := by
      rw [heq, eachStep_append] at htime
      exact htime.right.right
    have hrun : runFrom step (start clock) ops =
        runFrom step ((runFrom step (start clock) first).step (.commit i)) second := by
      rw [heq, runFrom_append]
      rfl
    apply (listed_iff hswept.refines _).mpr
    rw [hrun] at hyoung ⊢
    rcases reported_runFrom (reported_commit hpast hi) hrest hyoung with ⟨_hpast, log, hlog, _hnow⟩
    exact ⟨log, hlog⟩
  · intro snap hmem
    exact lastUpdate_of_swept hswept hmem

/-- Two hosts report, one of them again fifty seconds later; the main thread always
sleeps a second too long. -/
def silentHost : List ServerOp :=
  [.arrive { hostname := "a".toList }, .arrive { hostname := "b".toList }, .commit 1, .commit 0] ++
    (List.replicate 5 [.elapse 11, .wake]).flatten ++
    [.arrive { hostname := "b".toList }, .elapse 2, .commit 0, .elapse 9, .wake]

theorem listed_while_reporting_silentHost :
    (runFrom step (start 100) silentHost).Listed "b".toList ∧
      ¬ (runFrom step (start 100) silentHost).Listed "a".toList ∧
      forall snap, snap ∈ (runFrom step (start 100) silentHost).handlers.mgr.getAll ->
        166 ≤ snap.lastUpdate + 71 := by
  have h := listed_while_reporting 1 2 100 silentHost (by decide)
  refine ⟨?_, ?_, h.right⟩
  · exact h.left (silentHost.take 16) 0 (silentHost.drop 17) rfl
      { now := 155, request := { hostname := "b".toList } } (by decide) (by decide)
  · rintro ⟨snap, hmem, hname⟩
    revert hname
    revert snap
    decide

end Server

end Manager
end PerfMonitor
