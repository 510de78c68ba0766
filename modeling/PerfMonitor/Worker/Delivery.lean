import PerfMonitor.Worker.EventStreams

/-!
# Events and failed pushes

`do_push` clears the event lists before it knows what becomes of the report, and
a report that meets no stub or a bad status is not kept.  This module determines
the runs in which no event is lost to that: those in which every such report
carried none.
-/

namespace PerfMonitor
namespace Worker

open Foundation ObserveCollector

def Delivers (p : MonitorPusher) (inp : PushInput) : Prop :=
  p.stub = true ∧ inp.statusOk = true

theorem outcome_eq_ok_iff (p : MonitorPusher) (inp : PushInput) :
    (PushHistory.sentReport p inp).outcome = .ok <-> Delivers p inp := by
  show (if p.stub then (if inp.statusOk then SendOutcome.ok else .failed) else .noStub) = .ok <-> _
  unfold Delivers
  cases hstub : p.stub with
  | false => simp
  | true =>
      cases hstatus : inp.statusOk with
      | false => simp
      | true => simp

/-- The reports of a run are those of its pushes, each built from the state
reached by the operations before it. -/
theorem mem_sent_iff (ops : List PusherOp) (r : SentReport) :
    r ∈ (PushHistory.run ops).sent <->
      exists first inp second, ops = first ++ .push inp :: second ∧
        r = PushHistory.sentReport (PushHistory.run first).pusher inp := by
  induction ops using List.reverseRecOn with
  | nil =>
      constructor
      · intro h
        cases h
      · rintro ⟨first, inp, second, heq, _⟩
        have hcons := (List.append_eq_nil_iff.mp heq.symm).right
        cases hcons
  | append_singleton ops op ih =>
      have hrun : PushHistory.run (ops ++ [op]) =
          PushHistory.step (PushHistory.run ops) op := runFrom_concat _ ops op
      constructor
      · intro h
        have hcases : r ∈ (PushHistory.run ops).sent ∨
            exists inp, op = .push inp ∧
              r = PushHistory.sentReport (PushHistory.run ops).pusher inp := by
          rw [hrun] at h
          cases op with
          | connect connected => exact Or.inl h
          | callback cb => exact Or.inl h
          | push inp =>
              rcases List.mem_append.mp h with hold | hnew
              · exact Or.inl hold
              · exact Or.inr ⟨inp, rfl, List.mem_singleton.mp hnew⟩
        rcases hcases with hold | ⟨inp, hop, hr⟩
        · rcases ih.mp hold with ⟨first, inp, second, heq, hr⟩
          exact ⟨first, inp, second ++ [op], by rw [heq, List.append_assoc]; rfl, hr⟩
        · exact ⟨ops, inp, [], by rw [hop], hr⟩
      · rintro ⟨first, inp, second, heq, hr⟩
        rw [hrun]
        rcases List.eq_nil_or_concat second with hnil | ⟨second', last, hconcat⟩
        · rw [hnil] at heq
          have hparts := List.append_inj' heq rfl
          have hop : op = .push inp := by
            injection hparts.right
          rw [hop, hr, ← hparts.left]
          exact List.mem_append_right _ (List.mem_singleton.mpr rfl)
        · rw [hconcat, List.concat_eq_append] at heq
          have hassoc : ops ++ [op] = (first ++ .push inp :: second') ++ [last] := by
            rw [heq, List.append_assoc]
            rfl
          have hparts := List.append_inj' hassoc rfl
          have hold := ih.mpr ⟨first, inp, second', hparts.left, hr⟩
          cases op with
          | connect connected => exact hold
          | callback cb => exact hold
          | push inp' => exact List.mem_append_left _ hold

namespace EventStream

variable {α : Type} (S : EventStream α)

def Spares (s : PushHistory) (op : PusherOp) : Prop :=
  match op with
  | .connect _ => True
  | .callback _ => True
  | .push inp => Delivers s.pusher inp ∨ S.held s.pusher ++ S.arriving op = []

theorem accounted_pushes_iff (ops : List PusherOp) :
    (forall first inp second, ops = first ++ .push inp :: second ->
        S.Accounted (first ++ [.push inp])) <->
      EachStep PushHistory.step S.Spares {} ops := by
  rw [eachStep_iff_splits]
  constructor
  · intro hacc first op second heq
    cases op with
    | connect connected => trivial
    | callback cb => trivial
    | push inp =>
        by_cases hdelivers : Delivers (PushHistory.run first).pusher inp
        · exact Or.inl hdelivers
        · have hempty := (S.accounted_iff _).mp (hacc first inp second heq)
          have hmem := (mem_sent_iff (first ++ [.push inp]) _).mpr
            ⟨first, inp, [], rfl, rfl⟩
          have hnone := hempty _ hmem (fun hok => hdelivers ((outcome_eq_ok_iff _ _).mp hok))
          rw [S.reported_push] at hnone
          exact Or.inr hnone
  · intro hspares first inp second heq
    rw [S.accounted_iff]
    intro r hr hnot
    rcases (mem_sent_iff _ r).mp hr with ⟨first', inp', second', heq', hreport⟩
    have hsplit : ops = first' ++ .push inp' :: (second' ++ second) := by
      rw [heq, show first ++ .push inp :: second = (first ++ [.push inp]) ++ second by simp,
        heq', List.append_assoc]
      rfl
    rcases hspares first' _ _ hsplit with hdelivers | hempty
    · rw [hreport] at hnot
      exact absurd ((outcome_eq_ok_iff _ _).mpr hdelivers) hnot
    · rw [hreport, S.reported_push]
      exact hempty

end EventStream

/-!
## All three lists
-/

/-- Every process event, flow event and BPF diagnose event that was appended is
in a report whose call returned OK, or still in its list. -/
def NoEventLost (ops : List PusherOp) : Prop :=
  processStream.Accounted ops ∧ flowStream.Accounted ops ∧ bpfStream.Accounted ops

/-- The push will succeed, or there is no event that it could carry: the lists are
empty and its `Collect` calls append nothing to them. -/
def NothingAtStake (s : PushHistory) : PusherOp -> Prop
  | .connect _ => True
  | .callback _ => True
  | .push inp =>
      Delivers s.pusher inp ∨
        (s.pusher.observer = {} ∧ s.pusher.bpfEvents = [] ∧
          inp.callbacks.filterMap acceptedProcess = [] ∧
          inp.callbacks.filterMap acceptedFlow = [] ∧ inp.bpfCollected = [])

theorem nothingAtStake_iff (s : PushHistory) (op : PusherOp) :
    NothingAtStake s op <->
      processStream.Spares s op ∧ flowStream.Spares s op ∧ bpfStream.Spares s op := by
  cases op with
  | connect connected => exact ⟨fun _ => ⟨trivial, trivial, trivial⟩, fun _ => trivial⟩
  | callback cb => exact ⟨fun _ => ⟨trivial, trivial, trivial⟩, fun _ => trivial⟩
  | push inp =>
      by_cases hdelivers : Delivers s.pusher inp
      · exact ⟨fun _ => ⟨Or.inl hdelivers, Or.inl hdelivers, Or.inl hdelivers⟩,
          fun _ => Or.inl hdelivers⟩
      · have hobserver : s.pusher.observer = {} <->
            s.pusher.observer.processEvents = [] ∧ s.pusher.observer.flowEvents = [] := by
          cases s.pusher.observer
          simp
        simp only [NothingAtStake, EventStream.Spares, hdelivers, false_or, hobserver,
          processStream, flowStream, bpfStream, PusherOp.callbacks, PusherOp.bpfCollected,
          List.append_eq_nil_iff, List.map_eq_nil_iff]
        constructor
        · rintro ⟨⟨hprocess, hflow⟩, hbpf, hnewProcess, hnewFlow, hnewBpf⟩
          exact ⟨⟨hprocess, hnewProcess⟩, ⟨hflow, hnewFlow⟩, hbpf, hnewBpf⟩
        · rintro ⟨⟨hprocess, hnewProcess⟩, ⟨hflow, hnewFlow⟩, hbpf, hnewBpf⟩
          exact ⟨⟨hprocess, hflow⟩, hbpf, hnewProcess, hnewFlow, hnewBpf⟩

theorem eachStep_nothingAtStake_iff (ops : List PusherOp) :
    EachStep PushHistory.step NothingAtStake {} ops <->
      EachStep PushHistory.step processStream.Spares {} ops ∧
        EachStep PushHistory.step flowStream.Spares {} ops ∧
        EachStep PushHistory.step bpfStream.Spares {} ops := by
  simp only [eachStep_iff_splits, nothingAtStake_iff]
  constructor
  · intro h
    exact ⟨fun first op second heq => (h first op second heq).left,
      fun first op second heq => (h first op second heq).right.left,
      fun first op second heq => (h first op second heq).right.right⟩
  · rintro ⟨hprocess, hflow, hbpf⟩ first op second heq
    exact ⟨hprocess first op second heq, hflow first op second heq, hbpf first op second heq⟩

/-- At the end of every push no event has been lost, exactly when every push of
the run that found no stub or got a bad status had no event to carry. -/
theorem noEventLost_iff_nothingAtStake (ops : List PusherOp) :
    (forall first inp second, ops = first ++ .push inp :: second ->
        NoEventLost (first ++ [.push inp])) <->
      EachStep PushHistory.step NothingAtStake {} ops := by
  rw [eachStep_nothingAtStake_iff, ← EventStream.accounted_pushes_iff,
    ← EventStream.accounted_pushes_iff, ← EventStream.accounted_pushes_iff]
  constructor
  · intro h
    exact ⟨fun first inp second heq => (h first inp second heq).left,
      fun first inp second heq => (h first inp second heq).right.left,
      fun first inp second heq => (h first inp second heq).right.right⟩
  · rintro ⟨hprocess, hflow, hbpf⟩ first inp second heq
    exact ⟨hprocess first inp second heq, hflow first inp second heq, hbpf first inp second heq⟩

/-- The worker is connected, one process event arrives, and the call that reports
it returns an error status. -/
def failedPushRun : List PusherOp :=
  [.connect true, .callback (.process { pid := 7 } Ebpf.sizeofProcessEvent),
    .push { statusOk := false }]

theorem failedPushRun_loses_event :
    ¬ forall first inp second, failedPushRun = first ++ .push inp :: second ->
      NoEventLost (first ++ [.push inp]) := by
  intro h
  have hpush := h [.connect true, .callback (.process { pid := 7 } Ebpf.sizeofProcessEvent)]
    { statusOk := false } [] rfl
  have hle := hpush.left.length_le
  revert hle
  decide

end Worker
end PerfMonitor
