import PerfMonitor.Ebpf.FlowLedger
import PerfMonitor.EndToEnd.ObserveConservation

/-!
# The byte ledger from the kernel to the Manager

The bytes that the kernel probes count wait in the flow map until the connection is
done, travel as events through the perf buffer, the collector's list and a report, and
end in the counters of a snapshot.  At any time, and whatever is dropped or fails on the
way, the places where they can be add up to what was counted, modulo `2 ^ 64`.
-/

namespace PerfMonitor
namespace EndToEnd

open Foundation Worker Manager
open Ebpf (FlowCounter TcpFlow)
open Worker.ObserveCollector Worker.MonitorPusher

structure FlowPath extends FlowCounter where
  ofMessage : Proto.FlowEvent -> UInt64
  counter : GrpcServer.Counters -> Int
  message : forall raw, ofMessage (toFlowMessage (bpfToFlow raw)) = ofEvent raw
  batch : forall r : SentReport, counter (GrpcServer.batchCounters r.info.observeBatch) =
    wrap64 (((flowStream.reported r).map (fun fe => (ofMessage fe).toNat)).sum : Nat)

namespace FlowPath

def sent : FlowPath where
  toFlowCounter := FlowCounter.sent
  ofMessage := Proto.FlowEvent.bytesSent
  counter := GrpcServer.Counters.sent
  message _ := rfl
  batch r := by
    simp only [batchCounters_eq, GrpcServer.sentTotal]

def recv : FlowPath where
  toFlowCounter := FlowCounter.recv
  ofMessage := Proto.FlowEvent.bytesRecv
  counter := GrpcServer.Counters.recv
  message _ := rfl
  batch r := by
    simp only [batchCounters_eq, GrpcServer.recvTotal]

variable (P : FlowPath)

def messageBytes (events : List Proto.FlowEvent) : Nat :=
  (events.map (fun fe => (P.ofMessage fe).toNat)).sum

end FlowPath

def acceptedFlows (ops : List PusherOp) : List Ebpf.FlowEvent :=
  (callbacksOf ops).filterMap acceptedFlow

def undelivered (s : PushHistory) : List Proto.FlowEvent :=
  flowStream.inReports (s.sent.filter (fun r => !decide (r.outcome = .ok)))

section Ledger

variable (P : FlowPath)

theorem messageBytes_append (first second : List Proto.FlowEvent) :
    P.messageBytes (first ++ second) = P.messageBytes first + P.messageBytes second := by
  unfold FlowPath.messageBytes
  rw [List.map_append, List.sum_append]

theorem messageBytes_inReports (reports : List SentReport) :
    P.messageBytes (flowStream.inReports reports) =
      P.messageBytes (flowStream.inReports
          (reports.filter (fun r => decide (r.outcome = .ok)))) +
        P.messageBytes (flowStream.inReports
          (reports.filter (fun r => !decide (r.outcome = .ok)))) := by
  have hperm := (List.filter_append_perm (fun r => decide (r.outcome = .ok)) reports).symm
  have hmessages : (flowStream.inReports reports).Perm
      (flowStream.inReports (reports.filter (fun r => decide (r.outcome = .ok))) ++
        flowStream.inReports (reports.filter (fun r => !decide (r.outcome = .ok)))) := by
    unfold EventStream.inReports
    rw [← List.flatMap_append]
    exact hperm.flatMap_right _
  rw [← messageBytes_append]
  exact (hmessages.map _).sum_nat

theorem eventBytes_accepted (ops : List PusherOp) :
    TcpFlow.eventBytes P.toFlowCounter (acceptedFlows ops) =
      P.messageBytes (flowStream.inReports (PushHistory.run ops).sent) +
        P.messageBytes (flowStream.held (PushHistory.run ops).pusher) := by
  have harrived := flowStream.arrived_eq ops
  rw [arrived_flow] at harrived
  rw [← messageBytes_append, ← harrived]
  unfold FlowPath.messageBytes TcpFlow.eventBytes acceptedFlows
  rw [List.map_map]
  congr 1
  apply List.map_congr_left
  intro raw _hraw
  exact congrArg UInt64.toNat (P.message raw).symm

theorem sum_received (clock : Nat -> Int) (reports : List SentReport) :
    wrap64 ((received clock reports).map
        (fun snap => P.counter (GrpcServer.counters snap))).sum =
      wrap64 (P.messageBytes (flowStream.inReports reports) : Nat) := by
  have hsum := congrArg wrap64 (sum_counter P.counter clock reports)
  simp only [P.batch] at hsum
  rw [wrap64_sum_map, sum_map_sum] at hsum
  exact hsum

/-- Where the counted bytes of a run can be: in the Manager's snapshots, in reports that
did not reach it, in the collector's list, in events that no callback has accepted, and
in the flow map. -/
def ledgerTotal (clock : Nat -> Int) (ops : List PusherOp) (outside : List Ebpf.FlowEvent)
    (kernel : TcpFlow) : Int :=
  ((received clock (PushHistory.run ops).delivered).map
      (fun snap => P.counter (GrpcServer.counters snap))).sum +
    (P.messageBytes (undelivered (PushHistory.run ops)) +
      P.messageBytes (flowStream.held (PushHistory.run ops).pusher) +
      TcpFlow.eventBytes P.toFlowCounter outside +
      TcpFlow.openBytes P.toFlowCounter kernel : Nat)

theorem wrap64_of_modEq {a b : Nat} (h : a ≡ b [MOD 2 ^ 64]) : wrap64 a = wrap64 b := by
  have hmod : ((a : Int) % ((2 ^ 64 : Nat) : Int)) = ((b : Int) % ((2 ^ 64 : Nat) : Int)) := by
    rw [← Int.natCast_mod, ← Int.natCast_mod, h]
  unfold wrap64
  rw [← Int.emod_bmod a, ← Int.emod_bmod b, hmod]

theorem ledgerTotal_eq (clock : Nat -> Int) (probes : List Ebpf.Probe) (ops : List PusherOp)
    (outside : List Ebpf.FlowEvent)
    (hbuffer : (acceptedFlows ops ++ outside).Perm (TcpFlow.run probes).flowEvents) :
    wrap64 (ledgerTotal P clock ops outside (TcpFlow.run probes)) =
      wrap64 (TcpFlow.countedFrom P.toFlowCounter {} probes : Nat) := by
  have hreports := messageBytes_inReports P (PushHistory.run ops).sent
  have haccepted := eventBytes_accepted P ops
  have hemitted : TcpFlow.eventBytes P.toFlowCounter (acceptedFlows ops) +
      TcpFlow.eventBytes P.toFlowCounter outside =
        TcpFlow.eventBytes P.toFlowCounter (TcpFlow.run probes).flowEvents := by
    unfold TcpFlow.eventBytes
    rw [← List.sum_append, ← List.map_append]
    exact (hbuffer.map _).sum_nat
  unfold ledgerTotal
  rw [← wrap64_add_left, sum_received, wrap64_add_left, ← Nat.cast_add]
  have hplaces :
      P.messageBytes (flowStream.inReports (PushHistory.run ops).delivered) +
        (P.messageBytes (undelivered (PushHistory.run ops)) +
          P.messageBytes (flowStream.held (PushHistory.run ops).pusher) +
          TcpFlow.eventBytes P.toFlowCounter outside +
          TcpFlow.openBytes P.toFlowCounter (TcpFlow.run probes)) =
      TcpFlow.openBytes P.toFlowCounter (TcpFlow.run probes) +
        TcpFlow.eventBytes P.toFlowCounter (TcpFlow.run probes).flowEvents := by
    unfold undelivered PushHistory.delivered
    omega
  rw [hplaces]
  exact wrap64_of_modEq (TcpFlow.ledger_run P.toFlowCounter probes)

end Ledger

/-- Both byte counters of every run of the probes and of the push thread are accounted
for, whatever the perf buffer drops, whichever pushes fail and wherever the run stops. -/
theorem flow_bytes_ledger (clock : Nat -> Int) (probes : List Ebpf.Probe) (ops : List PusherOp)
    (outside : List Ebpf.FlowEvent)
    (hbuffer : (acceptedFlows ops ++ outside).Perm (TcpFlow.run probes).flowEvents) :
    wrap64 (ledgerTotal .sent clock ops outside (TcpFlow.run probes)) =
        wrap64 (TcpFlow.countedFrom .sent {} probes : Nat) ∧
      wrap64 (ledgerTotal .recv clock ops outside (TcpFlow.run probes)) =
        wrap64 (TcpFlow.countedFrom .recv {} probes : Nat) :=
  ⟨ledgerTotal_eq .sent clock probes ops outside hbuffer,
    ledgerTotal_eq .recv clock probes ops outside hbuffer⟩

def oneSocket : Ebpf.Sock :=
  { skcRcvSaddr := 1, skcDaddr := 2, skcNum := 40000, skcDport := 80, skcFamily := 2 }

/-- Four connections of one process through one socket: three are done, one is open. -/
def fourConnections : List Ebpf.Probe :=
  [{ sk := oneSocket, pid := 7, call := .tcpSendmsg 5 },
    { sk := oneSocket, pid := 7, call := .tcpCleanupRbuf 9 },
    { sk := oneSocket, pid := 7, call := .tcpDone },
    { sk := oneSocket, pid := 7, call := .tcpSendmsg 6 },
    { sk := oneSocket, pid := 7, call := .tcpDone },
    { sk := oneSocket, pid := 7, call := .tcpSendmsg 7 },
    { sk := oneSocket, pid := 7, call := .tcpDone },
    { sk := oneSocket, pid := 7, call := .tcpSendmsg 8 }]

def doneEvent (bytesSent bytesRecv : UInt64) : Ebpf.FlowEvent :=
  { pid := 7, saddr := 1, daddr := 2, sport := 40000, dport := 20480, family := 2, protocol := 6
    bytesSent := bytesSent, bytesRecv := bytesRecv }

/-- The first event reaches the Manager, the second one is in a report that fails. -/
def failedSecond : List PusherOp :=
  [.connect true, .callback (.flow (doneEvent 5 9) Ebpf.sizeofFlowEvent), .push {},
    .callback (.flow (doneEvent 6 0) Ebpf.sizeofFlowEvent), .push { statusOk := false }]

theorem flow_bytes_ledger_fourConnections :
    TcpFlow.countedFrom FlowCounter.sent {} fourConnections = 26 ∧
      wrap64 (ledgerTotal .sent (fun i => i) failedSecond [doneEvent 7 0]
        (TcpFlow.run fourConnections)) = wrap64 26 := by
  have hbuffer : acceptedFlows failedSecond ++ [doneEvent 7 0] =
      (TcpFlow.run fourConnections).flowEvents := by decide
  have hcounted : TcpFlow.countedFrom FlowCounter.sent {} fourConnections = 26 := by decide
  have h := flow_bytes_ledger (fun i => i) fourConnections failedSecond [doneEvent 7 0]
    (List.Perm.of_eq hbuffer)
  refine ⟨hcounted, h.left.trans ?_⟩
  exact congrArg (fun n : Nat => wrap64 n) hcounted

end EndToEnd
end PerfMonitor
