import Mathlib.Data.List.Induction
import Mathlib.Data.List.Perm.Subperm
import PerfMonitor.Worker.MonitorPusher

/-!
# Event streams through the push thread

Process events, flow events and the events of the BPF diagnoser take the same
way: they are appended to a list of the worker, copied into the next report and
cleared with it.  A stream names the list, the arrivals and the part of a report
it fills, with the laws that one step obeys.  Over a run, what arrived is what
the reports hold followed by what the list still holds, in order of arrival.
-/

namespace PerfMonitor
namespace Worker

open Foundation

/-- A list of the worker that `do_push` moves into its report. -/
structure EventStream (α : Type) where
  held : MonitorPusher -> List α
  arriving : PusherOp -> List α
  reported : SentReport -> List α
  held_init : held {} = []
  held_connect : forall p connected,
    held (MonitorPusher.connect p connected) = held p ∧ arriving (.connect connected) = []
  held_callback : forall (p : MonitorPusher) cb,
    held { p with observer := p.observer.onEvent cb } = held p ++ arriving (.callback cb)
  held_push : forall (p : MonitorPusher) inp, held (p.doPush inp).1 = []
  reported_push : forall p inp,
    reported (PushHistory.sentReport p inp) = held p ++ arriving (.push inp)

namespace EventStream

variable {α : Type} (S : EventStream α)

def arrived (ops : List PusherOp) : List α :=
  ops.flatMap S.arriving

def inReports (reports : List SentReport) : List α :=
  reports.flatMap S.reported

/-- No event of the stream is lost or duplicated, or changes its place, on the
way into the reports. -/
theorem arrived_eq (ops : List PusherOp) :
    S.arrived ops =
      S.inReports (PushHistory.run ops).sent ++ S.held (PushHistory.run ops).pusher := by
  induction ops using List.reverseRecOn with
  | nil =>
      show [] = [] ++ S.held {}
      rw [S.held_init]
      rfl
  | append_singleton ops op ih =>
      have hrun : PushHistory.run (ops ++ [op]) =
          PushHistory.step (PushHistory.run ops) op := runFrom_concat _ ops op
      have harrived : S.arrived (ops ++ [op]) = S.arrived ops ++ S.arriving op := by
        simp [arrived]
      rw [hrun, harrived, ih]
      cases op with
      | connect connected =>
          have hlaw := S.held_connect (PushHistory.run ops).pusher connected
          show _ = _ ++ S.held ((PushHistory.run ops).pusher.connect connected)
          rw [hlaw.left, hlaw.right, List.append_nil]
          rfl
      | callback cb =>
          have hlaw := S.held_callback (PushHistory.run ops).pusher cb
          rw [List.append_assoc, ← hlaw]
          rfl
      | push inp =>
          show _ = S.inReports ((PushHistory.run ops).sent ++
              [PushHistory.sentReport (PushHistory.run ops).pusher inp]) ++
            S.held ((PushHistory.run ops).pusher.doPush inp).1
          rw [S.held_push, List.append_nil, inReports, inReports, List.flatMap_append,
            List.flatMap_singleton, S.reported_push, List.append_assoc]

/-!
## Delivery
-/

/-- Every event that arrived is in a report whose call returned OK, or still held. -/
def Accounted (ops : List PusherOp) : Prop :=
  (S.arrived ops).Subperm
    (S.inReports (PushHistory.run ops).delivered ++ S.held (PushHistory.run ops).pusher)

theorem length_inReports_filter (reports : List SentReport) :
    (S.inReports (reports.filter (fun r => decide (r.outcome = .ok)))).length +
        (S.inReports (reports.filter (fun r => !decide (r.outcome = .ok)))).length =
      (S.inReports reports).length := by
  induction reports with
  | nil => rfl
  | cons r rest ih =>
      by_cases hr : r.outcome = .ok
      · rw [List.filter_cons_of_pos (by simpa using hr),
          List.filter_cons_of_neg (by simpa using hr)]
        simp only [inReports, List.flatMap_cons, List.length_append] at ih ⊢
        omega
      · rw [List.filter_cons_of_neg (by simpa using hr),
          List.filter_cons_of_pos (by simpa using hr)]
        simp only [inReports, List.flatMap_cons, List.length_append] at ih ⊢
        omega

theorem inReports_filter_of_empty {reports : List SentReport}
    (hempty : forall r, r ∈ reports -> r.outcome ≠ .ok -> S.reported r = []) :
    S.inReports (reports.filter (fun r => decide (r.outcome = .ok))) =
      S.inReports reports := by
  induction reports with
  | nil => rfl
  | cons r rest ih =>
      have htail := ih (fun r' hr' => hempty r' (List.mem_cons_of_mem _ hr'))
      by_cases hr : r.outcome = .ok
      · rw [List.filter_cons_of_pos (by simpa using hr)]
        simp only [inReports, List.flatMap_cons] at htail ⊢
        rw [htail]
      · rw [List.filter_cons_of_neg (by simpa using hr)]
        simp only [inReports, List.flatMap_cons] at htail ⊢
        rw [hempty r List.mem_cons_self hr, htail, List.nil_append]

/-- Nothing of the stream is lost exactly when every report that was not
delivered carried nothing of it. -/
theorem accounted_iff (ops : List PusherOp) :
    S.Accounted ops <->
      forall r, r ∈ (PushHistory.run ops).sent -> r.outcome ≠ .ok -> S.reported r = [] := by
  unfold Accounted
  rw [S.arrived_eq ops]
  constructor
  · intro hsub r hr hnot
    have hle := hsub.length_le
    have hsplit := S.length_inReports_filter (PushHistory.run ops).sent
    simp only [List.length_append, PushHistory.delivered] at hle
    have hzero : S.inReports ((PushHistory.run ops).sent.filter
        (fun r => !decide (r.outcome = .ok))) = [] := by
      apply List.eq_nil_of_length_eq_zero
      omega
    have hmem : r ∈ (PushHistory.run ops).sent.filter
        (fun r => !decide (r.outcome = .ok)) := by
      apply List.mem_filter.mpr
      exact ⟨hr, by simpa using hnot⟩
    exact List.flatMap_eq_nil_iff.mp hzero r hmem
  · intro hempty
    unfold PushHistory.delivered
    rw [S.inReports_filter_of_empty hempty]

end EventStream

/-!
## The three streams of the push thread
-/

open MonitorPusher ObserveCollector

/-- `observer_.process_events`. -/
def processStream : EventStream Proto.ProcessEvent where
  held p := p.observer.processEvents.map toProcessMessage
  arriving op :=
    (op.callbacks.filterMap acceptedProcess).map (fun raw => toProcessMessage (bpfToProcess raw))
  reported r := (r.info.observeBatch.map Proto.ObserveBatch.processEvents).getD []
  held_init := rfl
  held_connect p connected := by
    cases connected <;> exact ⟨rfl, rfl⟩
  held_callback p cb := by
    have hone := processEvents_collect p.observer [cb]
    show ((p.observer.onEvent cb).processEvents).map toProcessMessage = _
    have hcollect : p.observer.onEvent cb = p.observer.collect [cb] := rfl
    rw [hcollect, hone, List.map_append, List.map_map]
    rfl
  held_push p inp := rfl
  reported_push p inp := by
    show ((p.observer.collect inp.callbacks).processEvents).map toProcessMessage = _
    rw [processEvents_collect, List.map_append, List.map_map]
    rfl

/-- `observer_.flow_events`. -/
def flowStream : EventStream Proto.FlowEvent where
  held p := p.observer.flowEvents.map toFlowMessage
  arriving op :=
    (op.callbacks.filterMap acceptedFlow).map (fun raw => toFlowMessage (bpfToFlow raw))
  reported r := (r.info.observeBatch.map Proto.ObserveBatch.flowEvents).getD []
  held_init := rfl
  held_connect p connected := by
    cases connected <;> exact ⟨rfl, rfl⟩
  held_callback p cb := by
    have hone := flowEvents_collect p.observer [cb]
    show ((p.observer.onEvent cb).flowEvents).map toFlowMessage = _
    have hcollect : p.observer.onEvent cb = p.observer.collect [cb] := rfl
    rw [hcollect, hone, List.map_append, List.map_map]
    rfl
  held_push p inp := rfl
  reported_push p inp := by
    show ((p.observer.collect inp.callbacks).flowEvents).map toFlowMessage = _
    rw [flowEvents_collect, List.map_append, List.map_map]
    rfl

/-- `bpf_diagnoser_.events`, which fill the first diagnose events of a report. -/
def bpfStream : EventStream Proto.DiagnoseEvent where
  held p := p.bpfEvents.map toDiagnoseMessage
  arriving op := op.bpfCollected.map toDiagnoseMessage
  reported r := r.info.diagnoseEvents.take r.bpfCount
  held_init := rfl
  held_connect p connected := by
    cases connected <;> exact ⟨rfl, rfl⟩
  held_callback p cb := by
    show _ = _ ++ []
    rw [List.append_nil]
  held_push p inp := rfl
  reported_push p inp := by
    show (((p.bpfEvents ++ inp.bpfCollected).map toDiagnoseMessage ++ _).take
      (p.bpfEvents ++ inp.bpfCollected).length) = _
    rw [List.take_left' (by rw [List.length_map]), List.map_append]
    rfl

end Worker
end PerfMonitor
