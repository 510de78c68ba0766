import Mathlib.Data.Nat.ModEq
import PerfMonitor.Ebpf.FlowAccounting

/-!
# The byte ledger of the flow map

A probe adds the bytes of its call to the entry of its key, if there is one, and
`tcp_done` moves an entry into an event.  So what has been counted is at any time in an
open entry or in an emitted event, modulo `2 ^ 64`.  The two byte counters of a flow
obey the same laws and are treated together.
-/

namespace PerfMonitor
namespace Ebpf

open Foundation

/-- A byte counter of a flow: where entries and events carry it, and what a call adds. -/
structure FlowCounter where
  ofVal : FlowVal -> UInt64
  ofEvent : FlowEvent -> UInt64
  amount : Probe -> Nat
  fresh : forall startNs, ofVal { startNs := startNs } = 0
  touched : forall p val,
    ofVal (TcpFlow.touch p val) = ofVal val + UInt64.ofNat (amount p)
  emitted : forall s p key val, ofEvent (TcpFlow.flowEvent s p key val) = ofVal val
  done : forall p, p.call = .tcpDone -> amount p = 0

namespace FlowCounter

def sent : FlowCounter where
  ofVal := FlowVal.bytesSent
  ofEvent := FlowEvent.bytesSent
  amount := TcpFlow.sentBytes
  fresh _ := rfl
  touched := TcpFlow.bytesSent_touch
  emitted _ _ _ _ := rfl
  done p hcall := by
    unfold TcpFlow.sentBytes
    rw [hcall]

def recv : FlowCounter where
  ofVal := FlowVal.bytesRecv
  ofEvent := FlowEvent.bytesRecv
  amount := TcpFlow.copiedBytes
  fresh _ := rfl
  touched := TcpFlow.bytesRecv_touch
  emitted _ _ _ _ := rfl
  done p hcall := by
    unfold TcpFlow.copiedBytes
    rw [hcall]

end FlowCounter

namespace TcpFlow

/-- The call finds an entry for its key, or `tcp_sendmsg` has room to create one. -/
def Counts (s : TcpFlow) (p : Probe) : Prop :=
  p.sk.skcFamily = afInet ∧
    (fillFlowKey p ∈ s.flowMap ∨
      (exists size, p.call = .tcpSendmsg size) ∧ s.flowMap.entries.length < maxEntries)

def isSendmsg : ProbeCall -> Bool
  | .tcpSendmsg _ => true
  | .tcpCleanupRbuf _ => false
  | .tcpSetState _ => false
  | .tcpDone => false

theorem isSendmsg_iff (call : ProbeCall) :
    isSendmsg call = true ↔ exists size, call = .tcpSendmsg size := by
  cases call <;> simp [isSendmsg]

instance (s : TcpFlow) (p : Probe) : Decidable (s.Counts p) :=
  decidable_of_iff
    (p.sk.skcFamily = afInet ∧
      (fillFlowKey p ∈ s.flowMap ∨
        isSendmsg p.call = true ∧ s.flowMap.entries.length < maxEntries))
    (by rw [isSendmsg_iff]; rfl)

section Ledger

variable (C : FlowCounter)

def counted (s : TcpFlow) (p : Probe) : Nat :=
  if s.Counts p then C.amount p else 0

def countedFrom (s : TcpFlow) : List Probe -> Nat
  | [] => 0
  | p :: rest => counted C s p + countedFrom (step s p) rest

def openBytes (s : TcpFlow) : Nat :=
  s.flowMap.total (fun val => (C.ofVal val).toNat)

def eventBytes (events : List FlowEvent) : Nat :=
  (events.map (fun ev => (C.ofEvent ev).toNat)).sum

def entryBytes (s : TcpFlow) (key : FlowKey) : Nat :=
  ((s.flowMap.lookup key).map (fun val => (C.ofVal val).toNat)).getD 0

theorem openBytes_frame (s : TcpFlow) (p : Probe) :
    openBytes C (step s p) + entryBytes C s (fillFlowKey p) =
      openBytes C s + entryBytes C (step s p) (fillFlowKey p) :=
  Table.total_frame (fun _ hne => lookup_step_of_ne hne s) _

theorem toNat_touch (p : Probe) (val : FlowVal) :
    (C.ofVal (touch p val)).toNat ≡ (C.ofVal val).toNat + C.amount p [MOD 2 ^ 64] := by
  rw [C.touched, UInt64.toNat_add, UInt64.toNat_ofNat']
  exact (Nat.mod_modEq _ _).trans (Nat.ModEq.add_left _ (Nat.mod_modEq _ _))

theorem lookup_step_send {s : TcpFlow} {p : Probe} (hinet : p.sk.skcFamily = afInet)
    {size : UInt64} (hcall : p.call = .tcpSendmsg size)
    (hval : s.flowMap.lookup (fillFlowKey p) = none) :
    (step s p).flowMap.lookup (fillFlowKey p) =
      if s.flowMap.entries.length < maxEntries then some (touch p { startNs := p.firstNs })
      else none := by
  have hkey : ¬ (fillFlowKey p).family ≠ afInet := fun hne => hne hinet
  have hnot : fillFlowKey p ∉ s.flowMap := AList.lookup_eq_none.mp hval
  unfold step touch
  simp only [hcall]
  by_cases hroom : s.flowMap.entries.length < maxEntries
  · have hnew : createMissing s.flowMap (fillFlowKey p) p.firstNs =
        s.flowMap.insert (fillFlowKey p) { startNs := p.firstNs } := by
      unfold createMissing updateNoexist
      rw [hval, if_neg (not_or.mpr ⟨hnot, Nat.not_le.mpr hroom⟩)]
    rw [if_pos hroom]
    simp only [tcpSendmsg, if_neg hkey, hnew, AList.lookup_insert]
  · have hfull : createMissing s.flowMap (fillFlowKey p) p.firstNs = s.flowMap := by
      unfold createMissing updateNoexist
      rw [hval, if_pos (Or.inr (Nat.le_of_not_lt hroom))]
    rw [if_neg hroom]
    simp only [tcpSendmsg, if_neg hkey, hfull, hval]

theorem entryBytes_step_of_none {s : TcpFlow} {p : Probe} (hinet : p.sk.skcFamily = afInet)
    (hval : s.flowMap.lookup (fillFlowKey p) = none) :
    entryBytes C (step s p) (fillFlowKey p) ≡ counted C s p [MOD 2 ^ 64] := by
  have hnot : fillFlowKey p ∉ s.flowMap := AList.lookup_eq_none.mp hval
  by_cases hsend : exists size, p.call = .tcpSendmsg size
  · rcases hsend with ⟨size, hcall⟩
    unfold entryBytes counted
    rw [lookup_step_send hinet hcall hval]
    by_cases hroom : s.flowMap.entries.length < maxEntries
    · have hcounts : s.Counts p := ⟨hinet, Or.inr ⟨⟨size, hcall⟩, hroom⟩⟩
      have htouch := toNat_touch C p { startNs := p.firstNs }
      rw [C.fresh] at htouch
      rw [if_pos hroom, if_pos hcounts]
      simpa using htouch
    · have hcounts : ¬ s.Counts p := by
        rintro ⟨_, hmem | ⟨_, hlt⟩⟩
        · exact hnot hmem
        · exact hroom hlt
      rw [if_neg hroom, if_neg hcounts]
      rfl
  · have hcounts : ¬ s.Counts p := by
      rintro ⟨_, hmem | ⟨hcall, _⟩⟩
      · exact hnot hmem
      · exact hsend hcall
    have hnone : (step s p).flowMap.lookup (fillFlowKey p) = none := by
      rcases lookup_step_of_none hinet hval with hnone | ⟨hcall, _⟩
      · exact hnone
      · exact absurd hcall hsend
    unfold entryBytes counted
    rw [hnone, if_neg hcounts]
    rfl

theorem entryBytes_step {s : TcpFlow} {p : Probe} (hinet : p.sk.skcFamily = afInet)
    (hcall : p.call ≠ .tcpDone) :
    entryBytes C (step s p) (fillFlowKey p) ≡
      entryBytes C s (fillFlowKey p) + counted C s p [MOD 2 ^ 64] := by
  cases hval : s.flowMap.lookup (fillFlowKey p) with
  | none =>
      have hzero : entryBytes C s (fillFlowKey p) = 0 := by
        unfold entryBytes
        rw [hval]
        rfl
      rw [hzero, Nat.zero_add]
      exact entryBytes_step_of_none C hinet hval
  | some val =>
      have hcounts : s.Counts p := ⟨hinet, Or.inl (Table.mem_of_lookup hval)⟩
      unfold entryBytes counted
      rw [lookup_step_of_some hinet hcall hval, hval, if_pos hcounts]
      exact toNat_touch C p val

theorem eventBytes_done {s : TcpFlow} {p : Probe} (hinet : p.sk.skcFamily = afInet)
    (hcall : p.call = .tcpDone) :
    eventBytes C (step s p).flowEvents =
      eventBytes C s.flowEvents + entryBytes C s (fillFlowKey p) := by
  unfold entryBytes
  rcases flowEvents_step s p with hsame | ⟨val, _hdone, _hfamily, hval, hemit⟩
  · cases hval : s.flowMap.lookup (fillFlowKey p) with
    | none =>
        rw [hsame]
        rfl
    | some val =>
        rw [step_done_some hcall hinet hval] at hsame
        have hlength := congrArg List.length hsame
        rw [List.length_append, List.length_singleton] at hlength
        omega
  · rw [hemit, hval]
    unfold eventBytes
    rw [List.map_append, List.sum_append, List.map_singleton, List.sum_singleton, C.emitted]
    rfl

theorem flowEvents_step_of_not_done {s : TcpFlow} {p : Probe} (hcall : p.call ≠ .tcpDone) :
    (step s p).flowEvents = s.flowEvents := by
  rcases flowEvents_step s p with hsame | ⟨val, hdone, _⟩
  · exact hsame
  · exact absurd hdone hcall

/-- One call keeps the ledger: what it counts is added to the open entries, and what
`tcp_done` takes from them is in its event. -/
theorem ledger_step (s : TcpFlow) (p : Probe) :
    openBytes C (step s p) + eventBytes C (step s p).flowEvents ≡
      openBytes C s + eventBytes C s.flowEvents + counted C s p [MOD 2 ^ 64] := by
  by_cases hinet : p.sk.skcFamily = afInet
  · have hframe := openBytes_frame C s p
    by_cases hcall : p.call = .tcpDone
    · have hgone : entryBytes C (step s p) (fillFlowKey p) = 0 := by
        unfold entryBytes
        rw [lookup_step_done hinet hcall]
        rfl
      have hnothing : counted C s p = 0 := by
        unfold counted
        rw [C.done p hcall]
        exact ite_self 0
      have hevents := eventBytes_done C (s := s) hinet hcall
      have heq : openBytes C (step s p) + eventBytes C (step s p).flowEvents =
          openBytes C s + eventBytes C s.flowEvents + counted C s p := by
        omega
      rw [heq]
    · have hentry := entryBytes_step C (s := s) hinet hcall
      rw [flowEvents_step_of_not_done hcall]
      apply Nat.ModEq.add_right_cancel' (entryBytes C s (fillFlowKey p))
      calc openBytes C (step s p) + eventBytes C s.flowEvents + entryBytes C s (fillFlowKey p)
          = openBytes C s + eventBytes C s.flowEvents +
              entryBytes C (step s p) (fillFlowKey p) := by omega
        _ ≡ openBytes C s + eventBytes C s.flowEvents +
              (entryBytes C s (fillFlowKey p) + counted C s p) [MOD 2 ^ 64] :=
            Nat.ModEq.add_left _ hentry
        _ = openBytes C s + eventBytes C s.flowEvents + counted C s p +
              entryBytes C s (fillFlowKey p) := by omega
  · have hcounts : ¬ s.Counts p := fun h => hinet h.left
    rw [step_of_not_inet hinet]
    unfold counted
    rw [if_neg hcounts]
    rfl

theorem ledger_runFrom (s : TcpFlow) (probes : List Probe) :
    openBytes C (runFrom step s probes) + eventBytes C (runFrom step s probes).flowEvents ≡
      openBytes C s + eventBytes C s.flowEvents + countedFrom C s probes [MOD 2 ^ 64] := by
  induction probes generalizing s with
  | nil => rfl
  | cons p rest ih =>
      have hstep := (ledger_step C s p).add_right (countedFrom C (step s p) rest)
      rw [Nat.add_assoc _ (counted C s p)] at hstep
      exact (ih (step s p)).trans hstep

theorem ledger_run (probes : List Probe) :
    openBytes C (run probes) + eventBytes C (run probes).flowEvents ≡
      countedFrom C {} probes [MOD 2 ^ 64] := by
  have h := ledger_runFrom C {} probes
  have hempty : openBytes C {} + eventBytes C ({} : TcpFlow).flowEvents = 0 := rfl
  rw [hempty, Nat.zero_add] at h
  exact h

end Ledger

end TcpFlow

end Ebpf
end PerfMonitor
