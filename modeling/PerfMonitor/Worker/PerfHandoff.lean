import Mathlib.Data.List.Basic
import PerfMonitor.Worker.MonitorPusher

/-!
# Hand-over of perf events between the two worker threads

`PerfDiagnoser::events` is filled by the thread of `worker_loop` and emptied by
the thread of `do_push`, without a lock.  The push thread reads `begin()` and
`end()` of the list once, copies the elements between them one by one into the
report, and then clears the list with `Reset`.  An interleaving is a list of
turns: at each turn the perf thread appends one event, or the push thread makes
its next step.  Positions are indices, so that an append during the loop moves no
element.
-/

namespace PerfMonitor
namespace Worker

open Foundation

/-- Where the push thread stands: outside the perf loop, or inside it with the
`end()` that it read and the elements copied so far. -/
inductive PushLoop where
  | idle
  | copying (stop : Nat) (copied : List CppDiagnoseEvent)
deriving DecidableEq, Repr

structure PerfHandoff where
  events : List CppDiagnoseEvent := []
  loop : PushLoop := .idle
  reports : List (List CppDiagnoseEvent) := []
  appended : List CppDiagnoseEvent := []
deriving DecidableEq, Repr

inductive HandoffTurn where
  | append (ev : CppDiagnoseEvent)
  | push
deriving DecidableEq, Repr

namespace PerfHandoff

def pushStep (s : PerfHandoff) : PerfHandoff :=
  match s.loop with
  | .idle => { s with loop := .copying s.events.length [] }
  | .copying stop copied =>
      if copied.length < stop then
        { s with loop := .copying stop (copied ++ s.events[copied.length]?.toList) }
      else
        { s with events := [], loop := .idle, reports := s.reports ++ [copied] }

def step (s : PerfHandoff) : HandoffTurn -> PerfHandoff
  | .append ev => { s with events := s.events ++ [ev], appended := s.appended ++ [ev] }
  | .push => s.pushStep

/-- Every appended event is in exactly one report or still in the list. -/
def Conserves (s : PerfHandoff) : Prop :=
  s.appended.Perm (s.reports.flatten ++ s.events)

/-- If this turn clears the list, no event was appended since the loop read
`end()`. -/
def ClearsOnlyCopied (s : PerfHandoff) : HandoffTurn -> Prop
  | .append _ => True
  | .push =>
      match s.loop with
      | .idle => True
      | .copying stop copied => copied.length < stop ∨ s.events.length = stop

/-!
## The copy loop
-/

section PushStep

variable {s : PerfHandoff} {stop : Nat} {copied : List CppDiagnoseEvent}

theorem step_push_idle (hs : s.loop = .idle) :
    s.step .push = { s with loop := .copying s.events.length [] } := by
  show s.pushStep = _
  unfold pushStep
  rw [hs]

theorem step_push_copy (hs : s.loop = .copying stop copied) (hlt : copied.length < stop) :
    s.step .push =
      { s with loop := .copying stop (copied ++ s.events[copied.length]?.toList) } := by
  show s.pushStep = _
  unfold pushStep
  simp only [hs, if_pos hlt]

theorem step_push_clear (hs : s.loop = .copying stop copied) (hend : ¬ copied.length < stop) :
    s.step .push =
      { s with events := [], loop := .idle, reports := s.reports ++ [copied] } := by
  show s.pushStep = _
  unfold pushStep
  simp only [hs, if_neg hend]

end PushStep

def LoopOk (s : PerfHandoff) : Prop :=
  match s.loop with
  | .idle => True
  | .copying stop copied =>
      copied = s.events.take copied.length ∧ copied.length ≤ stop ∧ stop ≤ s.events.length

structure Invariant (s : PerfHandoff) : Prop where
  conserved : s.appended = s.reports.flatten ++ s.events
  loopOk : s.LoopOk

theorem invariant_append {s : PerfHandoff} (ev : CppDiagnoseEvent) (h : s.Invariant) :
    (s.step (.append ev)).Invariant := by
  constructor
  · show s.appended ++ [ev] = s.reports.flatten ++ (s.events ++ [ev])
    rw [h.conserved, List.append_assoc]
  · have hloop := h.loopOk
    unfold LoopOk at hloop ⊢
    show match s.loop with
      | .idle => True
      | .copying stop copied => copied = (s.events ++ [ev]).take copied.length ∧
          copied.length ≤ stop ∧ stop ≤ (s.events ++ [ev]).length
    cases hs : s.loop with
    | idle => trivial
    | copying stop copied =>
        rw [hs] at hloop
        rcases hloop with ⟨hcopied, hle, hstop⟩
        have hin : copied.length ≤ s.events.length := Nat.le_trans hle hstop
        refine ⟨?_, hle, ?_⟩
        · rw [List.take_append_of_le_length hin]
          exact hcopied
        · rw [List.length_append]
          exact Nat.le_add_right_of_le hstop

theorem take_succ_of_copied {events copied : List CppDiagnoseEvent}
    (hcopied : copied = events.take copied.length) (hlt : copied.length < events.length) :
    copied ++ events[copied.length]?.toList = events.take (copied.length + 1) ∧
      (copied ++ events[copied.length]?.toList).length = copied.length + 1 := by
  have htake : copied ++ events[copied.length]?.toList = events.take (copied.length + 1) := by
    rw [List.take_add_one, ← hcopied]
  refine ⟨htake, ?_⟩
  rw [htake, List.length_take]
  exact Nat.min_eq_left hlt

theorem invariant_pushStep {s : PerfHandoff} (h : s.Invariant)
    (hclear : s.ClearsOnlyCopied .push) : (s.step .push).Invariant := by
  have hloop := h.loopOk
  unfold LoopOk at hloop
  unfold ClearsOnlyCopied at hclear
  cases hs : s.loop with
  | idle =>
      rw [step_push_idle hs]
      exact ⟨h.conserved, rfl, Nat.zero_le _, Nat.le_refl _⟩
  | copying stop copied =>
      rw [hs] at hloop
      simp only [hs] at hclear
      rcases hloop with ⟨hcopied, hle, hstop⟩
      by_cases hlt : copied.length < stop
      · rw [step_push_copy hs hlt]
        have hnext := take_succ_of_copied hcopied (Nat.lt_of_lt_of_le hlt hstop)
        refine ⟨h.conserved, ?_, ?_, hstop⟩
        · rw [hnext.right]
          exact hnext.left
        · rw [hnext.right]
          exact hlt
      · rw [step_push_clear hs hlt]
        have hend : s.events.length = stop := hclear.resolve_left hlt
        have hall : copied.length = s.events.length := by
          rw [hend]
          exact Nat.le_antisymm hle (Nat.le_of_not_lt hlt)
        have heq : copied = s.events := by
          rw [hcopied, hall, List.take_length]
        refine ⟨?_, trivial⟩
        show s.appended = (s.reports ++ [copied]).flatten ++ []
        rw [h.conserved, heq, List.flatten_append, List.flatten_singleton, List.append_nil]

/-- A turn that clears an event which was not copied loses it at once. -/
theorem clearsOnlyCopied_of_conserves {s : PerfHandoff} (turn : HandoffTurn)
    (h : s.Invariant) (hafter : (s.step turn).Conserves) : s.ClearsOnlyCopied turn := by
  cases turn with
  | append ev => trivial
  | push =>
      have hloop := h.loopOk
      unfold LoopOk at hloop
      unfold ClearsOnlyCopied
      cases hs : s.loop with
      | idle => trivial
      | copying stop copied =>
          rw [hs] at hloop
          rcases hloop with ⟨hcopied, hle, hstop⟩
          by_cases hlt : copied.length < stop
          · exact Or.inl hlt
          · rw [step_push_clear hs hlt] at hafter
            have hlen := hafter.length_eq
            rw [h.conserved] at hlen
            simp only [List.length_append, List.flatten_append, List.flatten_singleton,
              List.length_nil, Nat.add_zero] at hlen
            have hall : s.events.length = copied.length := Nat.add_left_cancel hlen
            right
            apply Nat.le_antisymm
            · rw [hall]
              exact hle
            · exact hstop

theorem invariant_step (s : PerfHandoff) (turn : HandoffTurn) (h : s.Invariant)
    (hclear : s.ClearsOnlyCopied turn) : (s.step turn).Invariant := by
  cases turn with
  | append ev => exact invariant_append ev h
  | push => exact invariant_pushStep h hclear

/-- In every state of an interleaving each appended event is in exactly one report
or still in the list, exactly when every `Reset` finds no event that was appended
after the copy loop read the end of the list. -/
theorem conserves_iff_clearsOnlyCopied (turns : List HandoffTurn) :
    Throughout step Conserves {} turns <-> EachStep step ClearsOnlyCopied {} turns := by
  apply throughout_iff_eachStep invariant_step
  · intro s turn h hafter
    exact clearsOnlyCopied_of_conserves turn h hafter
  · intro s h
    unfold Conserves
    rw [h.conserved]
  · exact ⟨rfl, trivial⟩

/-- The push thread copies the one event of the list, and the perf thread appends
another one before the list is cleared. -/
def lateAppend : List HandoffTurn :=
  [.append { type := "perf".toList, timestamp := 1 }, .push, .push,
    .append { type := "perf".toList, timestamp := 2 }, .push]

theorem lateAppend_not_conserved : ¬ Throughout step Conserves {} lateAppend := by
  intro h
  have hlast := throughout_final h
  have hlen := hlast.length_eq
  revert hlen
  decide

/-!
## Pushes without interference

Between two appends a whole push is one atomic move of the list into a report,
which is how `MonitorPusher.doPush` treats it.
-/

theorem runFrom_copying (s : PerfHandoff) (n : Nat) (copied : List CppDiagnoseEvent)
    (hloop : s.loop = .copying s.events.length copied)
    (hcopied : copied = s.events.take copied.length)
    (hn : copied.length + n = s.events.length) :
    runFrom step s (List.replicate n .push) =
      { s with loop := .copying s.events.length s.events } := by
  induction n generalizing s copied with
  | zero =>
      have hall : copied = s.events := by
        rw [hcopied, show copied.length = s.events.length from hn, List.take_length]
      show s = _
      rw [hall] at hloop
      rw [← hloop]
  | succ n ih =>
      have hlt : copied.length < s.events.length := by omega
      have hnext := take_succ_of_copied hcopied hlt
      rw [List.replicate_succ, runFrom_cons, step_push_copy hloop hlt]
      apply ih _ (copied ++ s.events[copied.length]?.toList) rfl
      · rw [hnext.right]
        exact hnext.left
      · rw [hnext.right, Nat.add_right_comm]
        exact hn

theorem runFrom_uninterrupted (s : PerfHandoff) (hidle : s.loop = .idle) :
    runFrom step s (List.replicate (s.events.length + 2) .push) =
      { s with events := [], reports := s.reports ++ [s.events] } := by
  rw [List.replicate_succ, runFrom_cons, step_push_idle hidle, List.replicate_succ',
    runFrom_concat]
  have hcopy := runFrom_copying { s with loop := .copying s.events.length [] }
    s.events.length [] rfl rfl (Nat.zero_add _)
  rw [hcopy, step_push_clear rfl (Nat.lt_irrefl _), ← hidle]

theorem diagnoseEvents_doPush (p : MonitorPusher) (inp : PushInput) (s : PerfHandoff)
    (hidle : s.loop = .idle) (hevents : s.events = (p.collect inp).perfEvents) :
    let after := runFrom step s (List.replicate (s.events.length + 2) .push)
    (p.doPush inp).2.1.diagnoseEvents =
        (p.collect inp).bpfEvents.map MonitorPusher.toDiagnoseMessage ++
          (after.reports.getLast?.getD []).map MonitorPusher.toDiagnoseMessage ∧
      (p.doPush inp).1.perfEvents = after.events := by
  rw [runFrom_uninterrupted s hidle]
  simp only [List.getLast?_append, List.getLast?_singleton, Option.some_or, Option.getD_some]
  rw [hevents]
  exact ⟨rfl, rfl⟩

end PerfHandoff

end Worker
end PerfMonitor
