import PerfMonitor.Manager.GrpcServer
import PerfMonitor.Worker.Delivery

/-!
# Conservation of observed events

From the perf-buffer callback to the Manager's counters an observed event changes
its form three times: the callback decodes the event kind from an integer into a
string, `do_push` moves the string into a report, and `SetMonitorInfo` turns it
back into a counter.  This module follows the events through all of it, for runs
in which every push reaches the Manager and the last step is a push.
-/

namespace PerfMonitor
namespace EndToEnd

open Foundation Worker Manager
open Worker.ObserveCollector Worker.MonitorPusher

/-- The snapshots that `SetMonitorInfo` builds from reports, each at its own clock
value. -/
def received (clock : Nat -> Int) (reports : List SentReport) : List HostSnapshot :=
  reports.mapIdx (fun i r => GrpcServer.snapshot (clock i) r.info)

theorem map_counters_received (clock : Nat -> Int) (reports : List SentReport) :
    (received clock reports).map GrpcServer.counters =
      reports.map (fun r => GrpcServer.batchCounters r.info.observeBatch) := by
  induction reports generalizing clock with
  | nil => rfl
  | cons r rest ih =>
      unfold received
      rw [List.mapIdx_cons, List.map_cons, List.map_cons, GrpcServer.counters_snapshot]
      exact congrArg _ (ih (fun i => clock (i + 1)))

/-!
## Counting over reports

A sum of one counter over all snapshots is a count, or a sum modulo `2 ^ 64`, over
the events of all reports.
-/

section Sums

variable {α β : Type}

theorem wrap64_sum_map (f : α -> Int) (l : List α) :
    wrap64 (l.map (fun a => wrap64 (f a))).sum = wrap64 (l.map f).sum := by
  induction l with
  | nil => rfl
  | cons a rest ih =>
      rw [List.map_cons, List.map_cons, List.sum_cons, List.sum_cons, wrap64_add_left]
      rw [Int.add_comm, ← wrap64_add_left, ih, wrap64_add_left, Int.add_comm]

theorem sum_map_countP (p : β -> Bool) (f : α -> List β) (l : List α) :
    (l.map (fun a => ((f a).countP p : Int))).sum = ((l.flatMap f).countP p : Int) := by
  induction l with
  | nil => rfl
  | cons a rest ih =>
      rw [List.map_cons, List.sum_cons, ih, List.flatMap_cons, List.countP_append, Nat.cast_add]

theorem sum_map_sum (g : β -> Nat) (f : α -> List β) (l : List α) :
    (l.map (fun a => (((f a).map g).sum : Int))).sum = (((l.flatMap f).map g).sum : Int) := by
  induction l with
  | nil => rfl
  | cons a rest ih =>
      rw [List.map_cons, List.sum_cons, ih, List.flatMap_cons, List.map_append,
        List.sum_append, Nat.cast_add]

end Sums

theorem batchCounters_eq (r : SentReport) :
    GrpcServer.batchCounters r.info.observeBatch =
      { execs := (processStream.reported r).countP GrpcServer.isExec
        exits := (processStream.reported r).countP (fun pe => !GrpcServer.isExec pe)
        flows := (flowStream.reported r).length
        sent := wrap64 (GrpcServer.sentTotal (flowStream.reported r))
        recv := wrap64 (GrpcServer.recvTotal (flowStream.reported r)) } := by
  simp only [processStream, flowStream]
  cases r.info.observeBatch with
  | none => rfl
  | some batch => rfl

theorem isExec_message (raw : Ebpf.ProcessEvent) :
    GrpcServer.isExec (toProcessMessage (bpfToProcess raw)) = decide (raw.eventType = 0) := by
  unfold GrpcServer.isExec toProcessMessage bpfToProcess
  by_cases htype : raw.eventType = 0
  · simp [htype]
  · simp [htype]

/-!
## The end-to-end statement
-/

def callbacksOf (ops : List PusherOp) : List Callback :=
  ops.flatMap PusherOp.callbacks

def Succeeds (s : PushHistory) : PusherOp -> Prop
  | .connect _ => True
  | .callback _ => True
  | .push inp => Delivers s.pusher inp

/-- Every accepted callback is in the reports once and at its place, an undersized
one is in none, and the Manager's counters add up to the accepted events. -/
structure Conserved (callbacks : List Callback) (reports : List SentReport)
    (snaps : List HostSnapshot) : Prop where
  process : processStream.inReports reports =
    (callbacks.filterMap acceptedProcess).map (fun raw => toProcessMessage (bpfToProcess raw))
  flow : flowStream.inReports reports =
    (callbacks.filterMap acceptedFlow).map (fun raw => toFlowMessage (bpfToFlow raw))
  execs : (snaps.map HostSnapshot.procExecCount).sum =
    (callbacks.filterMap acceptedProcess).countP (fun raw => decide (raw.eventType = 0))
  exits : (snaps.map HostSnapshot.procExitCount).sum =
    (callbacks.filterMap acceptedProcess).countP (fun raw => decide (raw.eventType ≠ 0))
  flows : (snaps.map HostSnapshot.tcpFlowCount).sum =
    (callbacks.filterMap acceptedFlow).length
  sent : wrap64 (snaps.map HostSnapshot.tcpBytesSent).sum =
    wrap64 (((callbacks.filterMap acceptedFlow).map (fun raw => raw.bytesSent.toNat)).sum : Nat)
  recv : wrap64 (snaps.map HostSnapshot.tcpBytesRecv).sum =
    wrap64 (((callbacks.filterMap acceptedFlow).map (fun raw => raw.bytesRecv.toNat)).sum : Nat)

theorem delivered_of_succeeds {ops : List PusherOp}
    (hok : EachStep PushHistory.step Succeeds {} ops) :
    (PushHistory.run ops).delivered = (PushHistory.run ops).sent := by
  apply List.filter_eq_self.mpr
  intro r hr
  rcases (mem_sent_iff ops r).mp hr with ⟨first, inp, second, heq, hreport⟩
  have hdelivers := eachStep_iff_splits.mp hok first _ second heq
  rw [hreport]
  exact decide_eq_true ((outcome_eq_ok_iff _ _).mpr hdelivers)

theorem inReports_of_final {α : Type} (S : EventStream α) (ops : List PusherOp)
    (final : PushInput) :
    S.inReports (PushHistory.run (ops ++ [.push final])).sent =
      S.arrived (ops ++ [.push final]) := by
  have hheld : S.held (PushHistory.run (ops ++ [.push final])).pusher = [] := by
    unfold PushHistory.run
    rw [runFrom_concat]
    exact S.held_push _ final
  rw [S.arrived_eq, hheld, List.append_nil]

theorem arrived_process (ops : List PusherOp) :
    processStream.arrived ops =
      ((callbacksOf ops).filterMap acceptedProcess).map
        (fun raw => toProcessMessage (bpfToProcess raw)) := by
  unfold EventStream.arrived callbacksOf processStream
  rw [List.filterMap_flatMap, List.map_flatMap]

theorem arrived_flow (ops : List PusherOp) :
    flowStream.arrived ops =
      ((callbacksOf ops).filterMap acceptedFlow).map
        (fun raw => toFlowMessage (bpfToFlow raw)) := by
  unfold EventStream.arrived callbacksOf flowStream
  rw [List.filterMap_flatMap, List.map_flatMap]

theorem sum_counter (field : GrpcServer.Counters -> Int) (clock : Nat -> Int)
    (reports : List SentReport) :
    ((received clock reports).map (fun snap => field (GrpcServer.counters snap))).sum =
      (reports.map (fun r => field (GrpcServer.batchCounters r.info.observeBatch))).sum := by
  have hmap := congrArg (List.map field) (map_counters_received clock reports)
  rw [List.map_map, List.map_map] at hmap
  exact congrArg List.sum hmap

theorem conserved_of_inReports {callbacks : List Callback} {reports : List SentReport}
    (clock : Nat -> Int)
    (hprocess : processStream.inReports reports =
      (callbacks.filterMap acceptedProcess).map (fun raw => toProcessMessage (bpfToProcess raw)))
    (hflow : flowStream.inReports reports =
      (callbacks.filterMap acceptedFlow).map (fun raw => toFlowMessage (bpfToFlow raw))) :
    Conserved callbacks reports (received clock reports) where
  process := hprocess
  flow := hflow
  execs := by
    have hsum := sum_counter GrpcServer.Counters.execs clock reports
    simp only [batchCounters_eq] at hsum
    rw [sum_map_countP, ← EventStream.inReports, hprocess, List.countP_map] at hsum
    rw [show GrpcServer.isExec ∘ (fun raw => toProcessMessage (bpfToProcess raw)) =
      fun raw => decide (raw.eventType = 0) from funext isExec_message] at hsum
    exact hsum
  exits := by
    have hsum := sum_counter GrpcServer.Counters.exits clock reports
    simp only [batchCounters_eq] at hsum
    rw [sum_map_countP, ← EventStream.inReports, hprocess, List.countP_map] at hsum
    have hkind : (fun pe => !GrpcServer.isExec pe) ∘
        (fun raw => toProcessMessage (bpfToProcess raw)) =
          fun raw => decide (raw.eventType ≠ 0) := by
      funext raw
      show (!GrpcServer.isExec (toProcessMessage (bpfToProcess raw))) = _
      rw [isExec_message, decide_not]
    rw [hkind] at hsum
    exact hsum
  flows := by
    have hsum := sum_counter GrpcServer.Counters.flows clock reports
    simp only [batchCounters_eq, ← List.countP_true] at hsum
    rw [sum_map_countP, ← EventStream.inReports, hflow, List.countP_true, List.length_map] at hsum
    exact hsum
  sent := by
    have hsum := congrArg wrap64 (sum_counter GrpcServer.Counters.sent clock reports)
    simp only [batchCounters_eq] at hsum
    rw [wrap64_sum_map] at hsum
    simp only [GrpcServer.sentTotal] at hsum
    rw [sum_map_sum, ← EventStream.inReports, hflow, List.map_map] at hsum
    exact hsum
  recv := by
    have hsum := congrArg wrap64 (sum_counter GrpcServer.Counters.recv clock reports)
    simp only [batchCounters_eq] at hsum
    rw [wrap64_sum_map] at hsum
    simp only [GrpcServer.recvTotal] at hsum
    rw [sum_map_sum, ← EventStream.inReports, hflow, List.map_map] at hsum
    exact hsum

/-- In a run whose pushes all succeed and that ends with a push, the observed
events are conserved from the callbacks to the Manager's counters. -/
theorem observe_events_conserved (ops : List PusherOp) (final : PushInput)
    (clock : Nat -> Int)
    (hok : EachStep PushHistory.step Succeeds {} (ops ++ [.push final])) :
    Conserved (callbacksOf (ops ++ [.push final]))
      (PushHistory.run (ops ++ [.push final])).delivered
      (received clock (PushHistory.run (ops ++ [.push final])).delivered) := by
  rw [delivered_of_succeeds hok]
  apply conserved_of_inReports
  · rw [inReports_of_final, arrived_process]
  · rw [inReports_of_final, arrived_flow]

/-- One exec and one exit event, an undersized delivery between them, and two flow
events whose bytes overflow 64 bits, over two pushes. -/
def twoPushRun : List PusherOp :=
  [.connect true,
    .callback (.process { eventType := 0 } Ebpf.sizeofProcessEvent),
    .callback (.process { eventType := 0 } 10),
    .push { callbacks := [.flow { bytesSent := 18446744073709551615 } Ebpf.sizeofFlowEvent] },
    .callback (.flow { bytesSent := 3 } Ebpf.sizeofFlowEvent),
    .callback (.process { eventType := 1 } Ebpf.sizeofProcessEvent)]

theorem twoPushRun_conserved :
    Conserved (callbacksOf (twoPushRun ++ [.push {}]))
        (PushHistory.run (twoPushRun ++ [.push {}])).delivered
        (received (fun i => i) (PushHistory.run (twoPushRun ++ [.push {}])).delivered) ∧
      (PushHistory.run (twoPushRun ++ [.push {}])).delivered.length = 2 := by
  constructor
  · apply observe_events_conserved
    exact ⟨trivial, trivial, trivial, ⟨rfl, rfl⟩, trivial, trivial, ⟨rfl, rfl⟩, trivial⟩
  · decide

end EndToEnd
end PerfMonitor
