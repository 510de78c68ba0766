import PerfMonitor.Manager.HostLogs

/-!
# Concurrent handlers and the freshness of a host

`SetMonitorInfo` reads the clock into `last_update` at its start and commits the
snapshot later, with an `Update` that holds the mutex.  Handlers run concurrently, so
several of them may stand between the two.  `RemoveExpired` reads the clock while it
holds the mutex and is one step.
-/

namespace PerfMonitor
namespace Manager

open Foundation
open Proto

/-- A running `SetMonitorInfo`: the value it read from the clock, and its request. -/
structure Handler where
  now : Int
  request : MonitorInfo
deriving DecidableEq

structure Handlers where
  clock : Int
  mgr : HostManager := .empty
  running : List Handler := []
  logs : HostLogs := .empty

inductive HandlerOp where
  | elapse (seconds : Nat)
  | arrive (request : MonitorInfo)
  | commit (i : Nat)
  | removeExpired (maxAgeS : Int)
  | getMonitorInfo (request : GetRequest)
  | getAll
deriving DecidableEq

namespace Handlers

def call (s : Handlers) (op : ManagerOp) : Handlers :=
  { s with mgr := ManagerOp.step s.mgr op, logs := HostLogs.step s.logs op }

/-- One step of the Manager.  `arrive` is the part of `SetMonitorInfo` up to its
`Update`, and `commit i` is the `Update` of the `i`-th running handler. -/
def step (s : Handlers) : HandlerOp -> Handlers
  | .elapse seconds => { s with clock := s.clock + seconds }
  | .arrive request => { s with running := s.running ++ [{ now := s.clock, request := request }] }
  | .commit i =>
      match s.running[i]? with
      | none => s
      | some handler =>
          { s with running := s.running.eraseIdx i }.call
            (.setMonitorInfo handler.now handler.request)
  | .removeExpired maxAgeS => s.call (.removeExpired s.clock maxAgeS)
  | .getMonitorInfo request => s.call (.getMonitorInfo request)
  | .getAll => s.call .getAll

def lastUpdate (s : Handlers) (hostname : Str) : Int :=
  (s.mgr.get hostname).lastUpdate

/-- In no part of the run in which the host stays in the store does its `last_update`
decrease. -/
def StaysFresh (s : Handlers) (ops : List HandlerOp) (hostname : Str) : Prop :=
  forall first middle last, ops = first ++ (middle ++ last) ->
    Throughout step (fun s => hostname ∈ s.mgr.hosts) (runFrom step s first) middle ->
      (runFrom step s first).lastUpdate hostname ≤
        (runFrom step s (first ++ middle)).lastUpdate hostname

def CommitsInOrder (s : Handlers) : HandlerOp -> Prop
  | .commit i =>
      forall handler, handler ∈ s.running[i]? ->
        forall log, log ∈ s.logs handler.request.hostname ->
          forall report, report ∈ log.reports -> report.now ≤ handler.now
  | _ => True

instance (s : Handlers) (op : HandlerOp) : Decidable (s.CommitsInOrder op) :=
  match op with
  | .commit i =>
      inferInstanceAs (Decidable (forall handler, handler ∈ s.running[i]? ->
        forall log, log ∈ s.logs handler.request.hostname ->
          forall report, report ∈ log.reports -> report.now ≤ handler.now))
  | .elapse _ => isTrue trivial
  | .arrive _ => isTrue trivial
  | .removeExpired _ => isTrue trivial
  | .getMonitorInfo _ => isTrue trivial
  | .getAll => isTrue trivial

/-!
## What the store holds
-/

structure Invariant (s : Handlers) : Prop where
  refines : Refines s.mgr s.logs
  latest : forall hostname log, s.logs hostname = some log ->
    forall report, report ∈ log.reports -> report.now ≤ log.last.now

theorem refines_call {s : Handlers} (h : Refines s.mgr s.logs) (op : ManagerOp) :
    Refines (s.call op).mgr (s.call op).logs :=
  refines_step s.mgr s.logs op h

theorem lastUpdate_of_refines {s : Handlers} (h : Refines s.mgr s.logs) {hostname : Str}
    {log : HostLog} (hlog : s.logs hostname = some log) :
    s.lastUpdate hostname = log.last.now :=
  (remembers_of_refines h hlog).lastUpdate

theorem mem_hosts_iff {s : Handlers} (h : Refines s.mgr s.logs) (hostname : Str) :
    hostname ∈ s.mgr.hosts <-> exists log, s.logs hostname = some log := by
  rw [← AList.lookup_isSome, h hostname, Option.isSome_map, Option.isSome_iff_exists]

theorem reports_commit (log? : Option HostLog) (report : Report) :
    (HostLog.commit log? report).reports =
      (log?.map HostLog.reports).getD [] ++ [report] := by
  cases log? <;> rfl

theorem latest_commit {log? : Option HostLog} {report : Report}
    (horder : forall log, log ∈ log? -> forall r, r ∈ log.reports -> r.now ≤ report.now) :
    forall r, r ∈ (HostLog.commit log? report).reports ->
      r.now ≤ (HostLog.commit log? report).last.now := by
  rw [last_commit, reports_commit]
  intro r hr
  rcases List.mem_append.mp hr with hearlier | hlast
  · cases log? with
    | none => cases hearlier
    | some log => exact horder log rfl r hearlier
  · rw [List.mem_singleton.mp hlast]

/-!
## Steps
-/

theorem step_commit_of_none {s : Handlers} {i : Nat} (hi : s.running[i]? = none) :
    s.step (.commit i) = s := by
  unfold step
  simp only [hi]

theorem step_commit_of_some {s : Handlers} {i : Nat} {handler : Handler}
    (hi : s.running[i]? = some handler) :
    s.step (.commit i) =
      { s with running := s.running.eraseIdx i }.call
        (.setMonitorInfo handler.now handler.request) := by
  unfold step
  simp only [hi]

theorem logs_commit_self {s : Handlers} {i : Nat} {handler : Handler}
    (hi : s.running[i]? = some handler) :
    (s.step (.commit i)).logs handler.request.hostname =
      some (HostLog.commit (s.logs handler.request.hostname)
        { now := handler.now, request := handler.request }) := by
  rw [step_commit_of_some hi]
  exact if_pos rfl

theorem logs_commit_ne {s : Handlers} {i : Nat} {handler : Handler}
    (hi : s.running[i]? = some handler) {hostname : Str}
    (hne : hostname ≠ handler.request.hostname) :
    (s.step (.commit i)).logs hostname = s.logs hostname := by
  rw [step_commit_of_some hi]
  exact if_neg hne

theorem refines_step {s : Handlers} (h : Refines s.mgr s.logs) (op : HandlerOp) :
    Refines (s.step op).mgr (s.step op).logs := by
  cases op with
  | elapse seconds => exact h
  | arrive request => exact h
  | commit i =>
      cases hi : s.running[i]? with
      | none =>
          rw [step_commit_of_none hi]
          exact h
      | some handler =>
          rw [step_commit_of_some hi]
          exact refines_call h _
  | removeExpired maxAgeS => exact refines_call h _
  | getMonitorInfo request => exact refines_call h _
  | getAll => exact refines_call h _

theorem logs_step {s : Handlers} {op : HandlerOp} {hostname : Str} {log' : HostLog}
    (hlog' : (s.step op).logs hostname = some log') :
    s.logs hostname = some log' ∨
      exists i handler, op = .commit i ∧ s.running[i]? = some handler ∧
        handler.request.hostname = hostname ∧
        log' = HostLog.commit (s.logs hostname)
          { now := handler.now, request := handler.request } := by
  cases op with
  | elapse seconds => exact Or.inl hlog'
  | arrive request => exact Or.inl hlog'
  | commit i =>
      cases hi : s.running[i]? with
      | none =>
          rw [step_commit_of_none hi] at hlog'
          exact Or.inl hlog'
      | some handler =>
          by_cases hhost : hostname = handler.request.hostname
          · rw [hhost, logs_commit_self hi] at hlog'
            injection hlog' with hlog'
            rw [hhost]
            exact Or.inr ⟨i, handler, rfl, hi, rfl, hlog'.symm⟩
          · rw [logs_commit_ne hi hhost] at hlog'
            exact Or.inl hlog'
  | removeExpired maxAgeS => exact Or.inl (Option.mem_filter_iff.mp hlog').left
  | getMonitorInfo request => exact Or.inl hlog'
  | getAll => exact Or.inl hlog'

theorem invariant_step (s : Handlers) (op : HandlerOp) (h : s.Invariant)
    (horder : s.CommitsInOrder op) : (s.step op).Invariant := by
  refine ⟨refines_step h.refines op, ?_⟩
  intro hostname log' hlog'
  rcases logs_step hlog' with hlog | ⟨i, handler, rfl, hi, rfl, rfl⟩
  · exact h.latest hostname log' hlog
  · apply latest_commit
    exact horder handler hi

def NeverOlder (s : Handlers) (op : HandlerOp) : Prop :=
  forall hostname, hostname ∈ s.mgr.hosts -> hostname ∈ (s.step op).mgr.hosts ->
    s.lastUpdate hostname ≤ (s.step op).lastUpdate hostname

theorem neverOlder_iff_commitsInOrder (s : Handlers) (op : HandlerOp) (h : s.Invariant) :
    s.NeverOlder op <-> s.CommitsInOrder op := by
  have hrefines' := refines_step h.refines op
  constructor
  · intro hnever
    cases op with
    | commit i =>
        intro handler hi log hlog report hreport
        have hself := logs_commit_self hi
        have hbefore := (mem_hosts_iff h.refines _).mpr ⟨log, hlog⟩
        have hafter := (mem_hosts_iff hrefines' _).mpr ⟨_, hself⟩
        have hle := hnever handler.request.hostname hbefore hafter
        rw [lastUpdate_of_refines h.refines hlog, lastUpdate_of_refines hrefines' hself,
          last_commit] at hle
        exact le_trans (h.latest _ log hlog report hreport) hle
    | elapse seconds => trivial
    | arrive request => trivial
    | removeExpired maxAgeS => trivial
    | getMonitorInfo request => trivial
    | getAll => trivial
  · intro horder hostname hbefore hafter
    rcases (mem_hosts_iff h.refines _).mp hbefore with ⟨log, hlog⟩
    rcases (mem_hosts_iff hrefines' _).mp hafter with ⟨log', hlog'⟩
    rw [lastUpdate_of_refines h.refines hlog, lastUpdate_of_refines hrefines' hlog']
    rcases logs_step hlog' with hsame | ⟨i, handler, rfl, hi, rfl, rfl⟩
    · rw [hlog] at hsame
      injection hsame with hsame
      rw [hsame]
    · rw [last_commit]
      apply horder handler hi log hlog
      exact List.mem_append_right _ (List.mem_singleton_self _)

/-!
## Runs
-/

theorem lastUpdate_le_runFrom {s : Handlers} {hostname : Str} {ops : List HandlerOp}
    (hnever : EachStep step NeverOlder s ops)
    (hpresent : Throughout step (fun s => hostname ∈ s.mgr.hosts) s ops) :
    s.lastUpdate hostname ≤ (runFrom step s ops).lastUpdate hostname := by
  induction ops generalizing s with
  | nil => exact le_refl _
  | cons op rest ih =>
      have hafter := throughout_start hpresent.right
      have hfirst := hnever.left hostname hpresent.left hafter
      exact le_trans hfirst (ih hnever.right hpresent.right)

theorem staysFresh_iff_neverOlder (s : Handlers) (ops : List HandlerOp) :
    (forall hostname, s.StaysFresh ops hostname) <-> EachStep step NeverOlder s ops := by
  constructor
  · intro hfresh
    apply eachStep_iff_splits.mpr
    intro first op last heq hostname hbefore hafter
    have hle := hfresh hostname first [op] last heq ⟨hbefore, hafter⟩
    rw [runFrom_concat] at hle
    exact hle
  · intro hnever hostname first middle last heq hpresent
    rw [heq, eachStep_append, eachStep_append] at hnever
    rw [runFrom_append]
    exact lastUpdate_le_runFrom hnever.right.left hpresent

/-- From any clock value on, no host ever looks older while it stays in the store,
exactly when the handlers of each host commit in the order in which they read the
clock. -/
theorem staysFresh_iff_commitsInOrder (clock : Int) (ops : List HandlerOp) :
    (forall hostname, StaysFresh { clock := clock } ops hostname) <->
      EachStep step CommitsInOrder { clock := clock } ops := by
  have hstart : Invariant { clock := clock } := by
    refine ⟨refines_empty, ?_⟩
    intro hostname log hlog
    cases hlog
  rw [staysFresh_iff_neverOlder]
  exact eachStep_iff_eachStep invariant_step neverOlder_iff_commitsInOrder hstart ops

def overtaken : List HandlerOp :=
  [.arrive { hostname := "a".toList }, .elapse 1, .arrive { hostname := "a".toList },
    .commit 1, .commit 0]

theorem overtaken_not_staysFresh :
    ¬ forall hostname, StaysFresh { clock := 100 } overtaken hostname := by
  intro hfresh
  have hle := hfresh "a".toList (overtaken.take 4) [.commit 0] [] rfl
  revert hle
  decide

/-!
## Handlers that do not overlap
-/

structure Past (s : Handlers) : Prop where
  running : forall handler, handler ∈ s.running -> handler.now ≤ s.clock
  logged : forall hostname log, s.logs hostname = some log ->
    forall report, report ∈ log.reports -> report.now ≤ s.clock

theorem clock_le_step (s : Handlers) (op : HandlerOp) : s.clock ≤ (s.step op).clock := by
  cases op with
  | elapse seconds => exact Int.le_add_of_nonneg_right (Int.natCast_nonneg seconds)
  | commit i =>
      cases hi : s.running[i]? with
      | none => rw [step_commit_of_none hi]
      | some handler =>
          rw [step_commit_of_some hi]
          exact le_refl s.clock
  | arrive request => exact le_refl s.clock
  | removeExpired maxAgeS => exact le_refl s.clock
  | getMonitorInfo request => exact le_refl s.clock
  | getAll => exact le_refl s.clock

theorem mem_running_step {s : Handlers} {op : HandlerOp} {handler : Handler}
    (h : handler ∈ (s.step op).running) : handler ∈ s.running ∨ handler.now = s.clock := by
  cases op with
  | arrive request =>
      rcases List.mem_append.mp h with hold | hnew
      · exact Or.inl hold
      · rw [List.mem_singleton.mp hnew]
        exact Or.inr rfl
  | commit i =>
      cases hi : s.running[i]? with
      | none =>
          rw [step_commit_of_none hi] at h
          exact Or.inl h
      | some other =>
          rw [step_commit_of_some hi] at h
          exact Or.inl (List.mem_of_mem_eraseIdx h)
  | elapse seconds => exact Or.inl h
  | removeExpired maxAgeS => exact Or.inl h
  | getMonitorInfo request => exact Or.inl h
  | getAll => exact Or.inl h

theorem past_step (s : Handlers) (op : HandlerOp) (h : s.Past) : (s.step op).Past := by
  have hclock := clock_le_step s op
  constructor
  · intro handler hmem
    rcases mem_running_step hmem with hold | hnew
    · exact le_trans (h.running handler hold) hclock
    · rw [hnew]
      exact hclock
  · intro hostname log' hlog' report hreport
    apply le_trans _ hclock
    rcases logs_step hlog' with hlog | ⟨i, handler, rfl, hi, rfl, rfl⟩
    · exact h.logged hostname log' hlog report hreport
    · rw [reports_commit] at hreport
      rcases List.mem_append.mp hreport with hearlier | hlast
      · cases hlog : s.logs handler.request.hostname with
        | none =>
            rw [hlog] at hearlier
            cases hearlier
        | some log =>
            rw [hlog] at hearlier
            exact h.logged _ log hlog report hearlier
      · rw [List.mem_singleton.mp hlast]
        exact h.running handler (List.mem_of_getElem? hi)

/-- A handler that commits while the clock still shows what it read is in order,
whatever ran before it. -/
theorem commitsInOrder_of_now_eq_clock (clock : Int) (ops : List HandlerOp) {i : Nat}
    (hnow : forall handler,
      handler ∈ (runFrom step { clock := clock } ops).running[i]? ->
        handler.now = (runFrom step { clock := clock } ops).clock) :
    (runFrom step { clock := clock } ops).CommitsInOrder (.commit i) := by
  have hstart : Past { clock := clock } := by
    constructor
    · intro handler hmem
      cases hmem
    · intro hostname log hlog
      cases hlog
  intro handler hi log hlog report hreport
  rw [hnow handler hi]
  exact (runFrom_invariant past_step hstart ops).logged _ log hlog report hreport

end Handlers

end Manager
end PerfMonitor
