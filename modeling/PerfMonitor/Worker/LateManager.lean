import PerfMonitor.Worker.MonitorPusher

/-!
# A Manager that comes up late

`Run` makes one attempt to connect, and only a successful one creates a stub.  The
push loop starts in either case, and `do_push` without a stub builds its report and
drops it.  Times are seconds; when the Manager can be reached is a function of time.
What `WaitForConnected` makes of it is a parameter.
-/

namespace PerfMonitor
namespace Worker

open Foundation

/-- A `do_push` with the time it starts and the time it ends. -/
structure TimedPush where
  inp : PushInput := {}
  start : Nat
  finish : Nat
deriving DecidableEq

/-- What happens after the connection attempt: callbacks and pushes. -/
inductive TimedOp where
  | callback (cb : ObserveCollector.Callback)
  | push (p : TimedPush)
deriving DecidableEq

structure TimedHistory where
  history : PushHistory := {}
  pushes : List (TimedPush × SentReport) := []
deriving DecidableEq

/-- `SetMonitorInfo` was called with the report. -/
def SentReport.issued (r : SentReport) : Bool :=
  decide (r.outcome ≠ .noStub)

namespace TimedPush

def EntirelyReachable (reachable : Nat -> Bool) (p : TimedPush) : Prop :=
  forall t, p.start ≤ t -> t ≤ p.finish -> reachable t = true

end TimedPush

namespace TimedHistory

def step (s : TimedHistory) : TimedOp -> TimedHistory
  | .callback cb => { s with history := s.history.step (.callback cb) }
  | .push p =>
      { history := s.history.step (.push p.inp)
        pushes := s.pushes ++ [(p, PushHistory.sentReport s.history.pusher p.inp)] }

section Channel

variable (waitForConnected : (Nat -> Bool) -> Nat -> Nat -> Bool) (reachable : Nat -> Bool)

/-- `Run` up to the start of the push loop: the attempt has three seconds. -/
def started (start : Nat) : TimedHistory where
  history := ({} : PushHistory).step (.connect (waitForConnected reachable start (start + 3)))

/-- No push that is made entirely while the Manager can be reached ends without
having issued its report. -/
def ReachesManager (s : TimedHistory) : Prop :=
  forall p r, (p, r) ∈ s.pushes -> p.EntirelyReachable reachable -> r.issued = true

def StubWhenReachable (s : TimedHistory) : TimedOp -> Prop
  | .callback _ => True
  | .push p => p.EntirelyReachable reachable -> s.history.pusher.stub = true

theorem stub_step (s : TimedHistory) (op : TimedOp) :
    (s.step op).history.pusher.stub = s.history.pusher.stub := by
  cases op with
  | callback cb => rfl
  | push p => rfl

theorem issued_sentReport (p : MonitorPusher) (inp : PushInput) :
    (PushHistory.sentReport p inp).issued = p.stub := by
  show decide ((if p.stub then (if inp.statusOk then SendOutcome.ok else .failed) else .noStub)
    ≠ SendOutcome.noStub) = p.stub
  cases p.stub with
  | false => rfl
  | true =>
      cases inp.statusOk with
      | false => rfl
      | true => rfl

theorem reachesManager_step_iff (s : TimedHistory) (op : TimedOp)
    (h : s.ReachesManager reachable) :
    (s.step op).ReachesManager reachable <-> s.StubWhenReachable reachable op := by
  cases op with
  | callback cb => exact ⟨fun _ => trivial, fun _ => h⟩
  | push p =>
      constructor
      · intro hafter hreachable
        have hmem : (p, PushHistory.sentReport s.history.pusher p.inp) ∈
            (s.step (.push p)).pushes :=
          List.mem_append_right _ (List.mem_singleton_self _)
        rw [← issued_sentReport s.history.pusher p.inp]
        exact hafter p _ hmem hreachable
      · intro hstub p' r hmem hreachable
        rcases List.mem_append.mp hmem with hold | hnew
        · exact h p' r hold hreachable
        · have heq := List.mem_singleton.mp hnew
          injection heq with hp hr
          subst hp
          rw [hr, issued_sentReport]
          exact hstub hreachable

theorem eachStep_stubWhenReachable_iff (s : TimedHistory) (ops : List TimedOp) :
    EachStep step (StubWhenReachable reachable) s ops <->
      s.history.pusher.stub = true ∨
        forall p, .push p ∈ ops -> ¬ p.EntirelyReachable reachable := by
  induction ops generalizing s with
  | nil =>
      refine ⟨fun _ => Or.inr ?_, fun _ => trivial⟩
      intro p hmem
      cases hmem
  | cons op rest ih =>
      show StubWhenReachable reachable s op ∧
        EachStep step (StubWhenReachable reachable) _ rest <-> _
      rw [ih (s.step op), stub_step]
      cases op with
      | callback cb => simp [StubWhenReachable]
      | push p =>
          cases hstub : s.history.pusher.stub with
          | true => simp [StubWhenReachable, hstub]
          | false => simp [StubWhenReachable, hstub]

/-- Every push that is made entirely while the Manager can be reached issues its
report, in every state of the run, exactly when the one connection attempt succeeded
or there is no such push. -/
theorem reachesManager_iff_connected (start : Nat) (ops : List TimedOp) :
    Throughout step (ReachesManager reachable) (started waitForConnected reachable start) ops <->
      waitForConnected reachable start (start + 3) = true ∨
        forall p, .push p ∈ ops -> ¬ p.EntirelyReachable reachable := by
  have hstub : (started waitForConnected reachable start).history.pusher.stub =
      waitForConnected reachable start (start + 3) := by
    show (MonitorPusher.connect {} _).stub = _
    unfold MonitorPusher.connect
    cases waitForConnected reachable start (start + 3) with
    | false => rfl
    | true => rfl
  have hinitial : (started waitForConnected reachable start).ReachesManager reachable := by
    intro p r hmem
    cases hmem
  have hrun : Throughout step (ReachesManager reachable)
      (started waitForConnected reachable start) ops <->
        EachStep step (StubWhenReachable reachable)
          (started waitForConnected reachable start) ops := by
    have hfree : EachStep step (fun _ _ => True)
        (started waitForConnected reachable start) ops :=
      eachStep_of_always (fun _ _ => trivial) _ _
    have hinv : forall (s : TimedHistory) (op : TimedOp), True -> True -> True :=
      fun _ _ _ _ => trivial
    exact throughout_iff_eachStep_of_env hinv
      (fun s op _ _ h => reachesManager_step_iff reachable s op h) trivial hinitial hfree
  rw [hrun, eachStep_stubWhenReachable_iff, hstub]

end Channel

/-!
## A worker that is started first
-/

/-- A channel that connects as soon as the Manager can be reached. -/
def connectsAtOnce (reachable : Nat -> Bool) (start deadline : Nat) : Bool :=
  (List.range' start (deadline - start + 1)).any reachable

def upFromFive (t : Nat) : Bool :=
  decide (5 ≤ t)

def latePush : TimedPush where
  start := 6
  finish := 7

theorem latePush_not_issued :
    ¬ Throughout step (ReachesManager upFromFive) (started connectsAtOnce upFromFive 0)
      [.push latePush] := by
  intro h
  have hreachable : latePush.EntirelyReachable upFromFive := by
    intro t hstart _
    exact decide_eq_true (Nat.le_trans (by decide) hstart)
  have hissued := throughout_final h latePush
    (PushHistory.sentReport (started connectsAtOnce upFromFive 0).history.pusher {})
    (List.mem_singleton_self _) hreachable
  rw [issued_sentReport] at hissued
  exact absurd hissued (by decide)

end TimedHistory

end Worker
end PerfMonitor
