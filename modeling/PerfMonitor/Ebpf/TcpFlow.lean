import PerfMonitor.Foundation.Run
import PerfMonitor.Foundation.Containers
import PerfMonitor.Ebpf.ObserveEvents

/-!
# TCP flow tracing

The four probes of `worker/src/ebpf/tcp_flow.bpf.c` over their two hash maps.
A probe runs in the context of whatever task is current, so every call carries
the current process id and command name next to the socket.  The clock is read
at most twice in a probe.
-/

namespace PerfMonitor
namespace Ebpf

open Foundation

/-- The fields of `struct sock` that the probes read.  The destination port is in
network byte order. -/
structure Sock where
  skcRcvSaddr : UInt32
  skcDaddr : UInt32
  skcNum : UInt16
  skcDport : UInt16
  skcFamily : UInt16
deriving DecidableEq, Repr

structure FlowKey where
  pid : UInt32
  saddr : UInt32
  daddr : UInt32
  sport : UInt16
  dport : UInt16
  family : UInt16
  protocol : UInt8
deriving DecidableEq, Repr

structure FlowVal where
  bytesSent : UInt64 := 0
  bytesRecv : UInt64 := 0
  startNs : UInt64 := 0
  lastNs : UInt64 := 0
  state : UInt8 := 0
deriving DecidableEq, Repr

inductive ProbeCall where
  | tcpSendmsg (size : UInt64)
  | tcpCleanupRbuf (copied : Int)
  | tcpSetState (state : Int)
  | tcpDone
deriving DecidableEq, Repr

/-- One probe call: the socket, the task that happens to be current, and the
clock readings available to the probe in the order it takes them. -/
structure Probe where
  sk : Sock
  pid : UInt32
  comm : Str := []
  firstNs : UInt64 := 0
  secondNs : UInt64 := 0
  call : ProbeCall
deriving DecidableEq, Repr

structure TcpFlow where
  flowMap : Table FlowKey FlowVal := ∅
  connectStart : Table UInt32 UInt64 := ∅
  flowEvents : List FlowEvent := []

namespace TcpFlow

def afInet : UInt16 := 2

def ipprotoTcp : UInt8 := 6

def tcpSynSent : Int := 2

def maxEntries : Nat := 65536

/-- `bpf_ntohs` on a little-endian machine. -/
def ntohs (port : UInt16) : UInt16 :=
  (port <<< 8) ||| (port >>> 8)

/-- `bpf_map_update_elem` with `BPF_NOEXIST`. -/
def updateNoexist {κ ν : Type} [DecidableEq κ] (m : Table κ ν) (key : κ) (value : ν) :
    Table κ ν :=
  if key ∈ m ∨ m.entries.length ≥ maxEntries then m else m.insert key value

/-- `bpf_map_update_elem` with `BPF_ANY`. -/
def updateAny {κ ν : Type} [DecidableEq κ] (m : Table κ ν) (key : κ) (value : ν) :
    Table κ ν :=
  if key ∉ m ∧ m.entries.length ≥ maxEntries then m else m.insert key value

def fillFlowKey (p : Probe) : FlowKey where
  pid := p.pid
  saddr := p.sk.skcRcvSaddr
  daddr := p.sk.skcDaddr
  sport := p.sk.skcNum
  dport := ntohs p.sk.skcDport
  family := p.sk.skcFamily
  protocol := ipprotoTcp

/-- The event of `emit_flow`.  The latency is taken from the connect time of the
key's process, if there is one. -/
def flowEvent (s : TcpFlow) (p : Probe) (key : FlowKey) (val : FlowVal) : FlowEvent where
  pid := key.pid
  comm := p.comm
  saddr := key.saddr
  daddr := key.daddr
  sport := key.sport
  dport := key.dport
  family := key.family
  protocol := key.protocol
  state := val.state
  bytesSent := val.bytesSent
  bytesRecv := val.bytesRecv
  startNs := val.startNs
  lastNs := val.lastNs
  connectLatencyNs :=
    match s.connectStart.lookup key.pid with
    | some start => p.firstNs - start
    | none => 0

def emitFlow (s : TcpFlow) (p : Probe) (key : FlowKey) (val : FlowVal) : TcpFlow :=
  { s with flowEvents := s.flowEvents ++ [flowEvent s p key val] }

/-- The flow map after the lookup of `tcp_sendmsg`, which creates a missing entry
if there is room. -/
def createMissing (m : Table FlowKey FlowVal) (key : FlowKey) (startNs : UInt64) :
    Table FlowKey FlowVal :=
  match m.lookup key with
  | some _ => m
  | none => updateNoexist m key { startNs := startNs }

def tcpSendmsg (s : TcpFlow) (p : Probe) (size : UInt64) : TcpFlow :=
  let key := fillFlowKey p
  if key.family ≠ afInet then s
  else
    let flowMap := createMissing s.flowMap key p.firstNs
    match flowMap.lookup key with
    | none => { s with flowMap := flowMap }
    | some val =>
        let val := { val with bytesSent := val.bytesSent + size, lastNs := p.secondNs }
        { s with flowMap := flowMap.insert key val }

def tcpCleanupRbuf (s : TcpFlow) (p : Probe) (copied : Int) : TcpFlow :=
  let key := fillFlowKey p
  if key.family ≠ afInet then s
  else
    match s.flowMap.lookup key with
    | none => s
    | some val =>
        let bytesRecv :=
          if copied > 0 then val.bytesRecv + UInt64.ofInt copied else val.bytesRecv
        let val := { val with bytesRecv := bytesRecv, lastNs := p.firstNs }
        { s with flowMap := s.flowMap.insert key val }

def tcpSetState (s : TcpFlow) (p : Probe) (state : Int) : TcpFlow :=
  let key := fillFlowKey p
  if key.family ≠ afInet then s
  else
    match s.flowMap.lookup key with
    | none => s
    | some val =>
        let val := { val with state := UInt8.ofInt state, lastNs := p.firstNs }
        { s with
          flowMap := s.flowMap.insert key val
          connectStart :=
            if state = tcpSynSent then updateAny s.connectStart key.pid p.secondNs
            else s.connectStart }

def tcpDone (s : TcpFlow) (p : Probe) : TcpFlow :=
  let key := fillFlowKey p
  if key.family ≠ afInet then s
  else
    match s.flowMap.lookup key with
    | none => s
    | some val =>
        let s := emitFlow s p key val
        { s with flowMap := s.flowMap.erase key }

def step (s : TcpFlow) (p : Probe) : TcpFlow :=
  match p.call with
  | .tcpSendmsg size => tcpSendmsg s p size
  | .tcpCleanupRbuf copied => tcpCleanupRbuf s p copied
  | .tcpSetState state => tcpSetState s p state
  | .tcpDone => tcpDone s p

def run (probes : List Probe) : TcpFlow :=
  runFrom step {} probes

/-!
## What a probe does

Everything a probe can do is said once, in `step_cases`: nothing, write the entry
of its own key, or, for `tcp_done`, emit that entry and remove it.
-/

theorem createMissing_cases (m : Table FlowKey FlowVal) (key : FlowKey) (startNs : UInt64) :
    createMissing m key startNs = m ∨
      exists val, createMissing m key startNs = m.insert key val := by
  unfold createMissing updateNoexist
  split
  · exact Or.inl rfl
  · split
    · exact Or.inl rfl
    · exact Or.inr ⟨_, rfl⟩

def Writes (s : TcpFlow) (p : Probe) : Prop :=
  p.call ≠ .tcpDone ∧ p.sk.skcFamily = afInet ∧
    exists val connectStart,
      step s p =
        { s with
          flowMap := s.flowMap.insert (fillFlowKey p) val
          connectStart := connectStart }

theorem tcpSendmsg_cases (s : TcpFlow) {p : Probe} {size : UInt64}
    (hcall : p.call = .tcpSendmsg size) : step s p = s ∨ Writes s p := by
  have hstep : step s p = tcpSendmsg s p size := by
    unfold step
    rw [hcall]
  have hdone : p.call ≠ .tcpDone := by
    rw [hcall]
    exact ProbeCall.noConfusion
  rw [Writes, hstep]
  simp only [tcpSendmsg]
  split
  · exact Or.inl rfl
  next hfamily =>
  have hinet : p.sk.skcFamily = afInet := Decidable.not_not.mp hfamily
  rcases createMissing_cases s.flowMap (fillFlowKey p) p.firstNs with hold | ⟨new, hnew⟩
  · rw [hold]
    split
    · exact Or.inl rfl
    · exact Or.inr ⟨hdone, hinet, _, _, rfl⟩
  · rw [hnew, AList.lookup_insert]
    simp only [AList.insert_insert]
    exact Or.inr ⟨hdone, hinet, _, _, rfl⟩

theorem tcpCleanupRbuf_cases (s : TcpFlow) {p : Probe} {copied : Int}
    (hcall : p.call = .tcpCleanupRbuf copied) : step s p = s ∨ Writes s p := by
  have hstep : step s p = tcpCleanupRbuf s p copied := by
    unfold step
    rw [hcall]
  have hdone : p.call ≠ .tcpDone := by
    rw [hcall]
    exact ProbeCall.noConfusion
  rw [Writes, hstep]
  simp only [tcpCleanupRbuf]
  split
  · exact Or.inl rfl
  next hfamily =>
  split
  · exact Or.inl rfl
  · exact Or.inr ⟨hdone, Decidable.not_not.mp hfamily, _, _, rfl⟩

theorem tcpSetState_cases (s : TcpFlow) {p : Probe} {state : Int}
    (hcall : p.call = .tcpSetState state) : step s p = s ∨ Writes s p := by
  have hstep : step s p = tcpSetState s p state := by
    unfold step
    rw [hcall]
  have hdone : p.call ≠ .tcpDone := by
    rw [hcall]
    exact ProbeCall.noConfusion
  rw [Writes, hstep]
  simp only [tcpSetState]
  split
  · exact Or.inl rfl
  next hfamily =>
  split
  · exact Or.inl rfl
  · exact Or.inr ⟨hdone, Decidable.not_not.mp hfamily, _, _, rfl⟩

theorem step_done_some {s : TcpFlow} {p : Probe} (hcall : p.call = .tcpDone)
    (hfamily : p.sk.skcFamily = afInet) {val : FlowVal}
    (hval : s.flowMap.lookup (fillFlowKey p) = some val) :
    step s p =
      { s with
        flowMap := s.flowMap.erase (fillFlowKey p)
        flowEvents := s.flowEvents ++ [flowEvent s p (fillFlowKey p) val] } := by
  have hkey : ¬ (fillFlowKey p).family ≠ afInet := fun hne => hne hfamily
  unfold step
  rw [hcall]
  show tcpDone s p = _
  unfold tcpDone
  rw [if_neg hkey, hval]
  rfl

def Finishes (s : TcpFlow) (p : Probe) : Prop :=
  p.call = .tcpDone ∧
    exists val,
      step s p =
        { s with
          flowMap := s.flowMap.erase (fillFlowKey p)
          flowEvents := s.flowEvents ++ [flowEvent s p (fillFlowKey p) val] }

theorem tcpDone_cases (s : TcpFlow) {p : Probe} (hcall : p.call = .tcpDone) :
    step s p = s ∨ Finishes s p := by
  have hstep : step s p = tcpDone s p := by
    unfold step
    rw [hcall]
  rw [Finishes, hstep]
  simp only [tcpDone]
  split
  · exact Or.inl rfl
  · split
    · exact Or.inl rfl
    · exact Or.inr ⟨hcall, _, rfl⟩

theorem step_cases (s : TcpFlow) (p : Probe) :
    step s p = s ∨ Writes s p ∨ Finishes s p := by
  cases hcall : p.call with
  | tcpSendmsg size =>
      rcases tcpSendmsg_cases s hcall with hsame | hwrites
      · exact Or.inl hsame
      · exact Or.inr (Or.inl hwrites)
  | tcpCleanupRbuf copied =>
      rcases tcpCleanupRbuf_cases s hcall with hsame | hwrites
      · exact Or.inl hsame
      · exact Or.inr (Or.inl hwrites)
  | tcpSetState state =>
      rcases tcpSetState_cases s hcall with hsame | hwrites
      · exact Or.inl hsame
      · exact Or.inr (Or.inl hwrites)
  | tcpDone =>
      rcases tcpDone_cases s hcall with hsame | hfinishes
      · exact Or.inl hsame
      · exact Or.inr (Or.inr hfinishes)

theorem mem_step_of_ne {s : TcpFlow} {p : Probe} {k : FlowKey} (hne : k ≠ fillFlowKey p)
    (hk : k ∈ s.flowMap) : k ∈ (step s p).flowMap := by
  rcases step_cases s p with hsame | ⟨_, _, val, start, hwrites⟩ | ⟨_, val, hfinishes⟩
  · rw [hsame]
    exact hk
  · rw [hwrites]
    exact (AList.mem_insert _).mpr (Or.inr hk)
  · rw [hfinishes]
    exact AList.mem_erase.mpr ⟨hne, hk⟩

/-- The key of a probe is new to the map only on an `AF_INET` socket, and never
after `tcp_done`. -/
theorem mem_step {s : TcpFlow} {p : Probe} {k : FlowKey} (hk : k ∈ (step s p).flowMap) :
    k ∈ s.flowMap ∨
      (p.call ≠ .tcpDone ∧ k = fillFlowKey p ∧ p.sk.skcFamily = afInet) := by
  rcases step_cases s p with hsame | ⟨hcall, hinet, val, start, hwrites⟩ | ⟨_, val, hfinishes⟩
  · rw [hsame] at hk
    exact Or.inl hk
  · rw [hwrites] at hk
    rcases (AList.mem_insert _).mp hk with heq | hold
    · exact Or.inr ⟨hcall, heq, hinet⟩
    · exact Or.inl hold
  · rw [hfinishes] at hk
    exact Or.inl (AList.mem_erase.mp hk).right

end TcpFlow

end Ebpf
end PerfMonitor
