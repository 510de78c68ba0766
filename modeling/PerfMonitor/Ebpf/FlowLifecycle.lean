import PerfMonitor.Ebpf.TcpFlow

/-!
# Life cycle of a TCP flow

A flow should leave the map when its socket is done, with an event emitted for
it.  The key of the map contains the process that is current when a probe runs,
and `tcp_done` may run under another process than the one that sent.  This module
relates the two: the life cycle is complete in a sequence of probe calls exactly
when every `tcp_done` runs under the process of all entries of its socket.
-/

namespace PerfMonitor
namespace Ebpf

open Foundation

structure FourTuple where
  saddr : UInt32
  daddr : UInt32
  sport : UInt16
  dport : UInt16
deriving DecidableEq, Repr

def Sock.tuple (sk : Sock) : FourTuple where
  saddr := sk.skcRcvSaddr
  daddr := sk.skcDaddr
  sport := sk.skcNum
  dport := TcpFlow.ntohs sk.skcDport

def FlowKey.tuple (key : FlowKey) : FourTuple where
  saddr := key.saddr
  daddr := key.daddr
  sport := key.sport
  dport := key.dport

def FlowEvent.tuple (ev : FlowEvent) : FourTuple where
  saddr := ev.saddr
  daddr := ev.daddr
  sport := ev.sport
  dport := ev.dport

namespace TcpFlow

def Creates (s : TcpFlow) (p : Probe) : Prop :=
  (exists size, p.call = .tcpSendmsg size) ∧
    fillFlowKey p ∉ s.flowMap ∧ fillFlowKey p ∈ (step s p).flowMap

def CreatedIn (tuple : FourTuple) (probes : List Probe) : Prop :=
  exists first p second, probes = first ++ p :: second ∧
    p.sk.tuple = tuple ∧ Creates (run first) p

/-- After every `tcp_done` on an `AF_INET` socket no entry of its connection is
left, and an event was emitted for the connection if it ever had an entry. -/
def Complete (probes : List Probe) : Prop :=
  forall first p second, probes = first ++ p :: second ->
    p.call = .tcpDone -> p.sk.skcFamily = afInet ->
      (forall key, key ∈ (run (first ++ [p])).flowMap -> key.tuple ≠ p.sk.tuple) ∧
      (CreatedIn p.sk.tuple first ->
        exists ev, ev ∈ (run (first ++ [p])).flowEvents ∧ ev.tuple = p.sk.tuple)

/-- A `tcp_done` runs under the process of every entry of its connection. -/
def DoneByOwner (s : TcpFlow) (p : Probe) : Prop :=
  p.call = .tcpDone -> p.sk.skcFamily = afInet ->
    forall key, key ∈ s.flowMap -> key.tuple = p.sk.tuple -> key.pid = p.pid

/-!
## Invariants of all sequences
-/

/-- Every key in the map was built by `fill_flow_key` on an `AF_INET` socket. -/
def KeysInet (s : TcpFlow) : Prop :=
  forall key, key ∈ s.flowMap -> key.family = afInet ∧ key.protocol = ipprotoTcp

theorem keysInet_step (s : TcpFlow) (p : Probe) (hkeys : KeysInet s) :
    KeysInet (step s p) := by
  intro key hkey
  rcases mem_step hkey with hold | ⟨_, heq, hfamily⟩
  · exact hkeys key hold
  · rw [heq]
    exact ⟨hfamily, rfl⟩

theorem keysInet_run (probes : List Probe) : KeysInet (run probes) := by
  apply runFrom_invariant keysInet_step
  intro key hkey
  exact absurd hkey (AList.notMem_empty key)

def Tracked (tuple : FourTuple) (s : TcpFlow) : Prop :=
  (exists key, key ∈ s.flowMap ∧ key.tuple = tuple) ∨
    (exists ev, ev ∈ s.flowEvents ∧ ev.tuple = tuple)

theorem tracked_step (tuple : FourTuple) (s : TcpFlow) (p : Probe)
    (htracked : Tracked tuple s) : Tracked tuple (step s p) := by
  rcases step_cases s p with hsame | ⟨_, _, val, start, hwrites⟩ | ⟨_, val, hfinishes⟩
  · rw [hsame]
    exact htracked
  · rw [hwrites]
    rcases htracked with ⟨key, hkey, htuple⟩ | hev
    · exact Or.inl ⟨key, (AList.mem_insert _).mpr (Or.inr hkey), htuple⟩
    · exact Or.inr hev
  · rw [hfinishes]
    rcases htracked with ⟨key, hkey, htuple⟩ | ⟨ev, hev, htuple⟩
    · by_cases heq : key = fillFlowKey p
      -- the entry goes away, but its event is the one just emitted
      · apply Or.inr
        exists flowEvent s p (fillFlowKey p) val
        constructor
        · exact List.mem_append_right _ List.mem_cons_self
        · rw [← htuple, heq]
          rfl
      · exact Or.inl ⟨key, AList.mem_erase.mpr ⟨heq, hkey⟩, htuple⟩
    · exact Or.inr ⟨ev, List.mem_append_left _ hev, htuple⟩

theorem tuple_fillFlowKey (p : Probe) : (fillFlowKey p).tuple = p.sk.tuple := rfl

theorem tracked_of_createdIn {tuple : FourTuple} {probes : List Probe}
    (hcreated : CreatedIn tuple probes) : Tracked tuple (run probes) := by
  rcases hcreated with ⟨first, p, second, rfl, htuple, _hcall, _hfresh, hmem⟩
  unfold run
  rw [runFrom_append, runFrom_cons]
  apply runFrom_invariant (tracked_step tuple)
  apply Or.inl
  exact ⟨fillFlowKey p, hmem, by rw [tuple_fillFlowKey, htuple]⟩

/-!
## One call of `tcp_done`
-/

theorem done_leaves_none {s : TcpFlow} {p : Probe} (hkeys : KeysInet s)
    (hcall : p.call = .tcpDone) (hfamily : p.sk.skcFamily = afInet)
    (howner : DoneByOwner s p) :
    forall key, key ∈ (step s p).flowMap -> key.tuple ≠ p.sk.tuple := by
  intro key hkey htuple
  have hbefore : key ∈ s.flowMap := by
    rcases mem_step hkey with hold | ⟨hnot, _⟩
    · exact hold
    · exact absurd hcall hnot
  have hpid : key.pid = p.pid := howner hcall hfamily key hbefore htuple
  have hinet := hkeys key hbefore
  have heq : key = fillFlowKey p := by
    rcases key with ⟨pid, saddr, daddr, sport, dport, family, protocol⟩
    simp only [FlowKey.tuple, Sock.tuple, FourTuple.mk.injEq] at htuple
    simp only at hpid hinet
    simp only [fillFlowKey, FlowKey.mk.injEq]
    exact ⟨hpid, htuple.1, htuple.2.1, htuple.2.2.1, htuple.2.2.2,
      hinet.1.trans hfamily.symm, hinet.2⟩
  rw [heq] at hbefore hkey
  rcases Table.exists_lookup hbefore with ⟨val, hval⟩
  rw [step_done_some hcall hfamily hval] at hkey
  exact (AList.mem_erase.mp hkey).left rfl

theorem done_keeps_others {s : TcpFlow} {p : Probe} {key : FlowKey}
    (hkey : key ∈ s.flowMap) (hpid : key.pid ≠ p.pid) :
    key ∈ (step s p).flowMap := by
  have hne : key ≠ fillFlowKey p := by
    intro heq
    apply hpid
    rw [heq]
    rfl
  exact mem_step_of_ne hne hkey

theorem run_concat (probes : List Probe) (p : Probe) :
    run (probes ++ [p]) = step (run probes) p :=
  runFrom_concat _ probes p

/-- The life cycle is complete exactly when every `tcp_done` on an `AF_INET`
socket runs under the process of all entries of its connection. -/
theorem complete_iff_doneByOwner (probes : List Probe) :
    Complete probes <-> EachStep step DoneByOwner {} probes := by
  rw [eachStep_iff_splits]
  constructor
  · intro hcomplete first p second heq hcall hfamily key hkey htuple
    by_contra hpid
    have hgone := (hcomplete first p second heq hcall hfamily).left
    rw [run_concat] at hgone
    exact hgone key (done_keeps_others hkey hpid) htuple
  · intro howner first p second heq hcall hfamily
    have hnone := done_leaves_none (keysInet_run first) hcall hfamily
      (howner first p second heq)
    rw [run_concat]
    refine ⟨hnone, ?_⟩
    intro hcreated
    have htracked := tracked_step p.sk.tuple (run first) p (tracked_of_createdIn hcreated)
    rcases htracked with ⟨key, hkey, htuple⟩ | hev
    · exact absurd htuple (hnone key hkey)
    · exact hev

/-- A socket that process 7 sends on and whose `tcp_done` runs under process 0. -/
def doneInSoftirq : List Probe :=
  let sk : Sock :=
    { skcRcvSaddr := 1, skcDaddr := 2, skcNum := 1000, skcDport := 80, skcFamily := 2 }
  [{ sk := sk, pid := 7, call := .tcpSendmsg 10 }, { sk := sk, pid := 0, call := .tcpDone }]

theorem doneInSoftirq_not_complete : ¬ Complete doneInSoftirq := by
  intro hcomplete
  have hdone := (hcomplete doneInSoftirq.dropLast (doneInSoftirq.getLast (by decide)) []
    (by decide) (by decide) (by decide)).left
  exact hdone (fillFlowKey (doneInSoftirq.head (by decide))) (by decide) (by decide)

end TcpFlow

end Ebpf
end PerfMonitor
