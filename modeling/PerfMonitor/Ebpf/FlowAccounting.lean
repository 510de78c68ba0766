import Mathlib.Data.List.Induction
import PerfMonitor.Ebpf.FlowLifecycle

/-!
# Accounting of a flow

An entry of the flow map lives from the `tcp_sendmsg` that creates it to the
`tcp_done` that emits and removes it.  Every emitted event belongs to exactly one
such life, and carries the sums over the calls made on its key during that life.
-/

namespace PerfMonitor
namespace Ebpf

open Foundation

namespace TcpFlow

/-!
## What a probe does to one entry
-/

def touch (p : Probe) (val : FlowVal) : FlowVal :=
  match p.call with
  | .tcpSendmsg size => { val with bytesSent := val.bytesSent + size, lastNs := p.secondNs }
  | .tcpCleanupRbuf copied =>
      { val with
        bytesRecv :=
          if copied > 0 then val.bytesRecv + UInt64.ofInt copied else val.bytesRecv
        lastNs := p.firstNs }
  | .tcpSetState state => { val with state := UInt8.ofInt state, lastNs := p.firstNs }
  | .tcpDone => val

theorem step_of_not_inet {p : Probe} (hfamily : p.sk.skcFamily ≠ afInet) (s : TcpFlow) :
    step s p = s := by
  have hkey : (fillFlowKey p).family ≠ afInet := hfamily
  unfold step
  cases p.call with
  | tcpSendmsg size => exact if_pos hkey
  | tcpCleanupRbuf copied => exact if_pos hkey
  | tcpSetState state => exact if_pos hkey
  | tcpDone => exact if_pos hkey

theorem lookup_step_of_ne {p : Probe} {k : FlowKey} (hne : k ≠ fillFlowKey p) (s : TcpFlow) :
    (step s p).flowMap.lookup k = s.flowMap.lookup k := by
  rcases step_cases s p with hsame | ⟨_, _, val, start, hwrites⟩ | ⟨_, val, hfinishes⟩
  · rw [hsame]
  · rw [hwrites]
    exact AList.lookup_insert_ne hne
  · rw [hfinishes]
    exact AList.lookup_erase_ne hne

section OwnKey

variable {s : TcpFlow} {p : Probe} (hinet : p.sk.skcFamily = afInet)

include hinet

theorem lookup_step_of_some {val : FlowVal} (hcall : p.call ≠ .tcpDone)
    (hval : s.flowMap.lookup (fillFlowKey p) = some val) :
    (step s p).flowMap.lookup (fillFlowKey p) = some (touch p val) := by
  have hkey : ¬ (fillFlowKey p).family ≠ afInet := fun hne => hne hinet
  unfold step touch
  cases hp : p.call with
  | tcpSendmsg size =>
      have hold : createMissing s.flowMap (fillFlowKey p) p.firstNs = s.flowMap := by
        unfold createMissing
        rw [hval]
      simp only [tcpSendmsg, if_neg hkey, hold, hval, AList.lookup_insert]
  | tcpCleanupRbuf copied =>
      simp only [tcpCleanupRbuf, if_neg hkey, hval, AList.lookup_insert]
  | tcpSetState state =>
      simp only [tcpSetState, if_neg hkey, hval, AList.lookup_insert]
  | tcpDone => exact absurd hp hcall

theorem lookup_step_of_none (hval : s.flowMap.lookup (fillFlowKey p) = none) :
    (step s p).flowMap.lookup (fillFlowKey p) = none ∨
      (exists size, p.call = .tcpSendmsg size) ∧
        (step s p).flowMap.lookup (fillFlowKey p) = some (touch p { startNs := p.firstNs }) := by
  have hkey : ¬ (fillFlowKey p).family ≠ afInet := fun hne => hne hinet
  have hnot : fillFlowKey p ∉ s.flowMap := AList.lookup_eq_none.mp hval
  unfold step touch
  cases hp : p.call with
  | tcpSendmsg size =>
      by_cases hroom : s.flowMap.entries.length ≥ maxEntries
      · left
        have hfull : createMissing s.flowMap (fillFlowKey p) p.firstNs = s.flowMap := by
          unfold createMissing updateNoexist
          rw [hval, if_pos (Or.inr hroom)]
        simp only [tcpSendmsg, if_neg hkey, hfull, hval]
      · right
        have hnew : createMissing s.flowMap (fillFlowKey p) p.firstNs =
            s.flowMap.insert (fillFlowKey p) { startNs := p.firstNs } := by
          unfold createMissing updateNoexist
          rw [hval, if_neg (not_or.mpr ⟨hnot, hroom⟩)]
        refine ⟨⟨size, rfl⟩, ?_⟩
        simp only [tcpSendmsg, if_neg hkey, hnew, AList.lookup_insert]
  | tcpCleanupRbuf copied =>
      left
      simp only [tcpCleanupRbuf, if_neg hkey, hval]
  | tcpSetState state =>
      left
      simp only [tcpSetState, if_neg hkey, hval]
  | tcpDone =>
      left
      simp only [tcpDone, if_neg hkey, hval]

theorem lookup_step_done (hcall : p.call = .tcpDone) :
    (step s p).flowMap.lookup (fillFlowKey p) = none := by
  cases hval : s.flowMap.lookup (fillFlowKey p) with
  | none =>
      rcases lookup_step_of_none hinet hval with hnone | ⟨⟨size, hsend⟩, _⟩
      · exact hnone
      · rw [hcall] at hsend
        cases hsend
  | some val =>
      rw [step_done_some hcall hinet hval]
      exact AList.lookup_erase _ _

end OwnKey

theorem flowEvents_step (s : TcpFlow) (p : Probe) :
    (step s p).flowEvents = s.flowEvents ∨
      exists val, p.call = .tcpDone ∧ p.sk.skcFamily = afInet ∧
        s.flowMap.lookup (fillFlowKey p) = some val ∧
        (step s p).flowEvents = s.flowEvents ++ [flowEvent s p (fillFlowKey p) val] := by
  by_cases hinet : p.sk.skcFamily = afInet
  · rcases step_cases s p with hsame | ⟨_, _, val, start, hwrites⟩ | ⟨hcall, _, _⟩
    · rw [hsame]
      exact Or.inl rfl
    · rw [hwrites]
      exact Or.inl rfl
    · cases hval : s.flowMap.lookup (fillFlowKey p) with
      | none =>
          have hkey : ¬ (fillFlowKey p).family ≠ afInet := fun hne => hne hinet
          left
          unfold step
          simp only [hcall, tcpDone, if_neg hkey, hval]
      | some val =>
          right
          refine ⟨val, hcall, hinet, rfl, ?_⟩
          rw [step_done_some hcall hinet hval]
  · rw [step_of_not_inet hinet]
    exact Or.inl rfl

/-!
## The account of a life
-/

def callsOn (k : FlowKey) (probes : List Probe) : List Probe :=
  probes.filter (fun p => decide (fillFlowKey p = k))

def sentBytes (p : Probe) : Nat :=
  match p.call with
  | .tcpSendmsg size => size.toNat
  | _ => 0

/-- Values of `copied` that are not positive count as zero. -/
def copiedBytes (p : Probe) : Nat :=
  match p.call with
  | .tcpCleanupRbuf copied => copied.toNat
  | _ => 0

def stateSet (p : Probe) : Option Int :=
  match p.call with
  | .tcpSetState state => some state
  | _ => none

/-- What the calls on a key since the creation of its entry leave in the entry.  The
counters are sums modulo `2 ^ 64`, the state is the last one set modulo 256. -/
structure Summary (k : FlowKey) (calls : List Probe) (val : FlowVal) : Prop where
  bytesSent : val.bytesSent = UInt64.ofNat ((callsOn k calls).map sentBytes).sum
  bytesRecv : val.bytesRecv = UInt64.ofNat ((callsOn k calls).map copiedBytes).sum
  state : val.state = UInt8.ofInt (((callsOn k calls).filterMap stateSet).getLast?.getD 0)

def ClockOk (probes : List Probe) : Prop :=
  (probes.flatMap (fun p => [p.firstNs, p.secondNs])).Pairwise (fun a b => a ≤ b)

theorem ofInt_eq_ofNat {copied : Int} (h : copied > 0) :
    UInt64.ofInt copied = UInt64.ofNat copied.toNat := by
  have hnonneg := Int.toNat_of_nonneg (Int.le_of_lt h)
  have hmod : (copied % 2 ^ 64).toNat = copied.toNat % 2 ^ 64 := by
    omega
  unfold UInt64.ofInt
  rw [hmod]
  apply UInt64.toNat_inj.mp
  simp

theorem bytesSent_touch (p : Probe) (val : FlowVal) :
    (touch p val).bytesSent = val.bytesSent + UInt64.ofNat (sentBytes p) := by
  unfold touch sentBytes
  cases p.call with
  | tcpSendmsg size => simp
  | tcpCleanupRbuf copied => simp
  | tcpSetState state => simp
  | tcpDone => simp

theorem bytesRecv_touch (p : Probe) (val : FlowVal) :
    (touch p val).bytesRecv = val.bytesRecv + UInt64.ofNat (copiedBytes p) := by
  unfold touch copiedBytes
  cases p.call with
  | tcpSendmsg size => simp
  | tcpCleanupRbuf copied =>
      by_cases hpos : copied > 0
      · simp only [if_pos hpos, ofInt_eq_ofNat hpos]
      · have hzero : copied.toNat = 0 := Int.toNat_of_nonpos (Int.not_lt.mp hpos)
        simp [if_neg hpos, hzero]
  | tcpSetState state => simp
  | tcpDone => simp

theorem state_touch (p : Probe) (val : FlowVal) :
    (touch p val).state = ((stateSet p).map UInt8.ofInt).getD val.state := by
  unfold touch stateSet
  cases p.call with
  | tcpSendmsg size => rfl
  | tcpCleanupRbuf copied => rfl
  | tcpSetState state => rfl
  | tcpDone => rfl

theorem callsOn_concat_ne {k : FlowKey} {p : Probe} (hne : k ≠ fillFlowKey p)
    (calls : List Probe) : callsOn k (calls ++ [p]) = callsOn k calls := by
  unfold callsOn
  rw [List.filter_append, List.filter_cons_of_neg (by simpa using hne.symm)]
  exact List.append_nil _

theorem callsOn_concat_self (p : Probe) (calls : List Probe) :
    callsOn (fillFlowKey p) (calls ++ [p]) = callsOn (fillFlowKey p) calls ++ [p] := by
  unfold callsOn
  rw [List.filter_append, List.filter_cons_of_pos (by simp)]
  rfl

theorem summary_touch {p : Probe} {calls : List Probe} {val : FlowVal}
    (h : Summary (fillFlowKey p) calls val) :
    Summary (fillFlowKey p) (calls ++ [p]) (touch p val) := by
  constructor
  · rw [bytesSent_touch, h.bytesSent, callsOn_concat_self, List.map_append, List.sum_append,
      UInt64.ofNat_add]
    simp
  · rw [bytesRecv_touch, h.bytesRecv, callsOn_concat_self, List.map_append, List.sum_append,
      UInt64.ofNat_add]
    simp
  · rw [state_touch, h.state, callsOn_concat_self, List.filterMap_append]
    cases hstate : stateSet p with
    | none => simp [hstate]
    | some state => simp [hstate]

theorem summary_of_ne {k : FlowKey} {p : Probe} (hne : k ≠ fillFlowKey p) {calls : List Probe}
    {val : FlowVal} (h : Summary k calls val) : Summary k (calls ++ [p]) val := by
  have hcalls := callsOn_concat_ne hne calls
  constructor
  · rw [hcalls]
    exact h.bytesSent
  · rw [hcalls]
    exact h.bytesRecv
  · rw [hcalls]
    exact h.state

theorem summary_nil (k : FlowKey) (startNs : UInt64) : Summary k [] { startNs := startNs } :=
  ⟨rfl, rfl, rfl⟩

theorem startNs_touch (p : Probe) (val : FlowVal) : (touch p val).startNs = val.startNs := by
  unfold touch
  cases p.call with
  | tcpSendmsg size => rfl
  | tcpCleanupRbuf copied => rfl
  | tcpSetState state => rfl
  | tcpDone => rfl

theorem lastNs_touch {p : Probe} (hcall : p.call ≠ .tcpDone) (val : FlowVal) :
    (touch p val).lastNs = p.firstNs ∨ (touch p val).lastNs = p.secondNs := by
  unfold touch
  cases hp : p.call with
  | tcpSendmsg size => exact Or.inr rfl
  | tcpCleanupRbuf copied => exact Or.inl rfl
  | tcpSetState state => exact Or.inl rfl
  | tcpDone => exact absurd hp hcall

theorem clockOk_concat {probes : List Probe} {p : Probe} (h : ClockOk (probes ++ [p])) :
    ClockOk probes ∧ p.firstNs ≤ p.secondNs ∧
      forall q, q ∈ probes -> q.firstNs ≤ p.firstNs ∧ q.firstNs ≤ p.secondNs := by
  unfold ClockOk at h
  rw [List.flatMap_append, List.pairwise_append] at h
  rcases h with ⟨hbefore, hlast, hcross⟩
  refine ⟨hbefore, ?_, ?_⟩
  · simpa using hlast
  · intro q hq
    have hmem : q.firstNs ∈ probes.flatMap (fun p => [p.firstNs, p.secondNs]) :=
      List.mem_flatMap.mpr ⟨q, hq, List.mem_cons_self⟩
    exact ⟨hcross _ hmem _ (by simp), hcross _ hmem _ (by simp)⟩

/-!
## Lives
-/

structure OpenLife (probes : List Probe) (k : FlowKey) (val : FlowVal) (first : List Probe)
    (start : Probe) (middle : List Probe) : Prop where
  split : probes = first ++ start :: middle
  key : fillFlowKey start = k
  creates : Creates (run first) start
  stays : forall m m', middle = m ++ m' -> k ∈ (run (first ++ start :: m)).flowMap
  summary : Summary k (start :: middle) val
  startNs : val.startNs = start.firstNs
  lastNs : start.firstNs ≤ val.lastNs

theorem stays_concat {first : List Probe} {start p : Probe} {middle : List Probe} {k : FlowKey}
    (h : forall m m', middle = m ++ m' -> k ∈ (run (first ++ start :: m)).flowMap)
    (hp : k ∈ (run (first ++ start :: (middle ++ [p]))).flowMap) :
    forall m m', middle ++ [p] = m ++ m' -> k ∈ (run (first ++ start :: m)).flowMap := by
  intro m m' heq
  rcases List.eq_nil_or_concat m' with hnil | ⟨front, q, hconcat⟩
  · rw [hnil, List.append_nil] at heq
    rw [← heq]
    exact hp
  · rw [hconcat, List.concat_eq_append, ← List.append_assoc] at heq
    exact h m front (List.append_inj_left' heq rfl)

theorem OpenLife.concat {probes : List Probe} {k : FlowKey} {val val' : FlowVal}
    {first : List Probe} {start p : Probe} {middle : List Probe}
    (h : OpenLife probes k val first start middle)
    (hval : (run (probes ++ [p])).flowMap.lookup k = some val')
    (hsummary : Summary k (start :: middle ++ [p]) val') (hstart : val'.startNs = val.startNs)
    (hlast : start.firstNs ≤ val'.lastNs) :
    OpenLife (probes ++ [p]) k val' first start (middle ++ [p]) := by
  have hsplit : probes ++ [p] = first ++ start :: (middle ++ [p]) := by
    rw [h.split, List.append_assoc]
    rfl
  have hmem := Table.mem_of_lookup hval
  rw [hsplit] at hmem
  exact ⟨hsplit, h.key, h.creates, stays_concat h.stays hmem, hsummary,
    hstart.trans h.startNs, hlast⟩

theorem openLife_of_created {probes : List Probe} {p : Probe} (hclock : p.firstNs ≤ p.secondNs)
    (hfresh : fillFlowKey p ∉ (run probes).flowMap)
    (hcall : exists size, p.call = .tcpSendmsg size)
    (hnew : (step (run probes) p).flowMap.lookup (fillFlowKey p) =
      some (touch p { startNs := p.firstNs })) :
    OpenLife (probes ++ [p]) (fillFlowKey p) (touch p { startNs := p.firstNs }) probes p [] := by
  have hmem := Table.mem_of_lookup hnew
  constructor
  · rfl
  · rfl
  · exact ⟨hcall, hfresh, hmem⟩
  · intro m m' heq
    rw [(List.append_eq_nil_iff.mp heq.symm).left, run_concat]
    exact hmem
  · exact summary_touch (summary_nil (fillFlowKey p) p.firstNs)
  · rw [startNs_touch]
  · have hdone : p.call ≠ .tcpDone := by
      rcases hcall with ⟨size, hsend⟩
      rw [hsend]
      exact ProbeCall.noConfusion
    rcases lastNs_touch hdone { startNs := p.firstNs } with hns | hns
    · rw [hns]
      exact UInt64.le_refl _
    · rw [hns]
      exact hclock

theorem OpenLife.touch {probes : List Probe} {p : Probe} {val : FlowVal}
    {first : List Probe} {start : Probe} {middle : List Probe}
    (h : OpenLife probes (fillFlowKey p) val first start middle) (hcall : p.call ≠ .tcpDone)
    (hlater : forall q, q ∈ probes -> q.firstNs ≤ p.firstNs ∧ q.firstNs ≤ p.secondNs)
    (hval : (run (probes ++ [p])).flowMap.lookup (fillFlowKey p) =
      some (TcpFlow.touch p val)) :
    OpenLife (probes ++ [p]) (fillFlowKey p) (TcpFlow.touch p val) first start
      (middle ++ [p]) := by
  have hstart : start ∈ probes := by
    rw [h.split]
    simp
  apply h.concat hval
  · exact summary_touch h.summary
  · exact startNs_touch p val
  · rcases lastNs_touch hcall val with hns | hns
    · rw [hns]
      exact (hlater start hstart).left
    · rw [hns]
      exact (hlater start hstart).right

theorem exists_openLife (probes : List Probe) (hclock : ClockOk probes) :
    forall k val, (run probes).flowMap.lookup k = some val ->
      exists first start middle, OpenLife probes k val first start middle := by
  induction probes using List.reverseRecOn with
  | nil =>
      intro k val hval
      have hnone : (run []).flowMap.lookup k = none := AList.lookup_empty k
      rw [hnone] at hval
      cases hval
  | append_singleton probes p ih =>
      rcases clockOk_concat hclock with ⟨hbefore, hown, hlater⟩
      intro k val hval
      have hstep := hval
      rw [run_concat] at hstep
      by_cases hkey : k = fillFlowKey p
      · have hinet : p.sk.skcFamily = afInet := by
          have hfamily := (keysInet_run (probes ++ [p]) k (Table.mem_of_lookup hval)).left
          rw [hkey] at hfamily
          exact hfamily
        rw [hkey] at hstep hval ⊢
        cases hold : (run probes).flowMap.lookup (fillFlowKey p) with
        | none =>
            rcases lookup_step_of_none hinet hold with hnone | ⟨hsend, hnew⟩
            · rw [hnone] at hstep
              cases hstep
            · rw [hnew] at hstep
              injection hstep with hval'
              rw [← hval']
              exact ⟨probes, p, [],
                openLife_of_created hown (AList.lookup_eq_none.mp hold) hsend hnew⟩
        | some old =>
            have hcall : p.call ≠ .tcpDone := by
              intro hdone
              rw [lookup_step_done hinet hdone] at hstep
              cases hstep
            rw [lookup_step_of_some hinet hcall hold] at hstep
            injection hstep with hval'
            rw [← hval'] at hval ⊢
            rcases ih hbefore (fillFlowKey p) old hold with ⟨first, start, middle, hlife⟩
            exact ⟨first, start, middle ++ [p], hlife.touch hcall hlater hval⟩
      · rw [lookup_step_of_ne hkey] at hstep
        rcases ih hbefore k val hstep with ⟨first, start, middle, hlife⟩
        exact ⟨first, start, middle ++ [p],
          hlife.concat hval (summary_of_ne hkey hlife.summary) rfl hlife.lastNs⟩

/-- A sequence of probe calls cut at the creation of an entry and at the `tcp_done` that
emits it. -/
structure Life where
  first : List Probe
  start : Probe
  middle : List Probe
  finish : Probe
  rest : List Probe

def Life.beforeFinish (life : Life) : List Probe :=
  life.first ++ life.start :: life.middle

structure IsLife (probes : List Probe) (life : Life) : Prop where
  split : probes = life.beforeFinish ++ life.finish :: life.rest
  creates : Creates (run life.first) life.start
  stays : forall m m', life.middle = m ++ m' ->
    fillFlowKey life.start ∈ (run (life.first ++ life.start :: m)).flowMap
  done : life.finish.call = .tcpDone
  key : fillFlowKey life.finish = fillFlowKey life.start

def Life.index (life : Life) : Nat :=
  (run life.beforeFinish).flowEvents.length

def eventKey (ev : FlowEvent) : FlowKey where
  pid := ev.pid
  saddr := ev.saddr
  daddr := ev.daddr
  sport := ev.sport
  dport := ev.dport
  family := ev.family
  protocol := ev.protocol

structure Account (life : Life) (ev : FlowEvent) : Prop where
  key : eventKey ev = fillFlowKey life.start
  bytesSent : ev.bytesSent =
    UInt64.ofNat
      ((callsOn (fillFlowKey life.start) (life.start :: life.middle)).map sentBytes).sum
  bytesRecv : ev.bytesRecv =
    UInt64.ofNat
      ((callsOn (fillFlowKey life.start) (life.start :: life.middle)).map copiedBytes).sum
  state : ev.state =
    UInt8.ofInt
      (((callsOn (fillFlowKey life.start) (life.start :: life.middle)).filterMap
        stateSet).getLast?.getD 0)
  times : ev.startNs ≤ ev.lastNs

/-- Two creations of one key with no `tcp_done` of it in between are the same. -/
theorem opening_unique {first first' : List Probe} {start start' : Probe}
    {middle middle' : List Probe} (hkey : fillFlowKey start = fillFlowKey start')
    (hcreates : Creates (run first) start) (hcreates' : Creates (run first') start')
    (hstays : forall m m', middle = m ++ m' ->
      fillFlowKey start ∈ (run (first ++ start :: m)).flowMap)
    (hstays' : forall m m', middle' = m ++ m' ->
      fillFlowKey start' ∈ (run (first' ++ start' :: m)).flowMap)
    (hsame : first ++ start :: middle = first' ++ start' :: middle') :
    first = first' ∧ start = start' ∧ middle = middle' := by
  rcases append_cons_eq_append_cons hsame with heq | ⟨c, hfirst, hmiddle⟩ | ⟨c, hfirst, hmiddle⟩
  · exact heq
  · have hmem := hstays c (start' :: middle') hmiddle
    rw [← hfirst, hkey] at hmem
    exact absurd hmem hcreates'.right.left
  · have hmem := hstays' c (start :: middle) hmiddle
    rw [← hfirst, ← hkey] at hmem
    exact absurd hmem hcreates.right.left

theorem flowEvents_run_append (first second : List Probe) :
    (run first).flowEvents <+: (run (first ++ second)).flowEvents := by
  induction second using List.reverseRecOn with
  | nil => exact ⟨[], by rw [List.append_nil, List.append_nil]⟩
  | append_singleton second p ih =>
      rw [← List.append_assoc, run_concat]
      rcases flowEvents_step (run (first ++ second)) p with hsame | ⟨val, _, _, _, hone⟩
      · rw [hsame]
        exact ih
      · rw [hone]
        exact ih.trans (List.prefix_append _ _)

theorem clockOk_append {first second : List Probe} (h : ClockOk (first ++ second)) :
    ClockOk first := by
  unfold ClockOk at h
  rw [List.flatMap_append] at h
  exact (List.pairwise_append.mp h).left

namespace IsLife

variable {probes : List Probe} {life life' : Life}

theorem mem_beforeFinish (h : IsLife probes life) :
    fillFlowKey life.finish ∈ (run life.beforeFinish).flowMap := by
  rw [h.key]
  exact h.stays life.middle [] (List.append_nil _).symm

theorem inet (h : IsLife probes life) : life.finish.sk.skcFamily = afInet :=
  (keysInet_run _ _ h.mem_beforeFinish).left

theorem getElem?_index (h : IsLife probes life) {val : FlowVal}
    (hval : (run life.beforeFinish).flowMap.lookup (fillFlowKey life.finish) = some val) :
    (run probes).flowEvents[life.index]? =
      some (flowEvent (run life.beforeFinish) life.finish (fillFlowKey life.finish) val) := by
  have hprefix := flowEvents_run_append (life.beforeFinish ++ [life.finish]) life.rest
  rw [run_concat, step_done_some h.done h.inet hval, List.append_assoc,
    List.singleton_append, ← h.split] at hprefix
  rcases hprefix with ⟨later, hlater⟩
  rw [← hlater, List.append_assoc, Life.index, List.getElem?_append_right (Nat.le_refl _),
    Nat.sub_self]
  rfl

theorem index_lt (h : IsLife probes life) : life.index < (run probes).flowEvents.length := by
  rcases Option.isSome_iff_exists.mp (AList.lookup_isSome.mpr h.mem_beforeFinish)
    with ⟨val, hval⟩
  exact (List.getElem?_eq_some_iff.mp (h.getElem?_index hval)).choose

theorem exists_entry (h : IsLife probes life) (hclock : ClockOk probes) :
    exists val, (run life.beforeFinish).flowMap.lookup (fillFlowKey life.finish) = some val ∧
      Summary (fillFlowKey life.start) (life.start :: life.middle) val ∧
      val.startNs ≤ val.lastNs := by
  have hmem := h.mem_beforeFinish
  rw [h.key] at hmem
  rcases Table.exists_lookup hmem with ⟨val, hval⟩
  have hbefore : ClockOk life.beforeFinish := by
    rw [h.split] at hclock
    exact clockOk_append hclock
  rcases exists_openLife life.beforeFinish hbefore (fillFlowKey life.start) val hval
    with ⟨first, start, middle, hopen⟩
  have hstays := hopen.stays
  rw [← hopen.key] at hstays
  rcases opening_unique hopen.key.symm h.creates hopen.creates h.stays hstays hopen.split
    with ⟨_, hstart, hmiddle⟩
  rw [h.key]
  refine ⟨val, hval, ?_, ?_⟩
  · rw [hstart, hmiddle]
    rw [hstart] at hopen
    exact hopen.summary
  · rw [hopen.startNs]
    exact hopen.lastNs

theorem exists_event (h : IsLife probes life) (hclock : ClockOk probes) :
    exists ev, (run probes).flowEvents[life.index]? = some ev ∧ Account life ev := by
  rcases h.exists_entry hclock with ⟨val, hval, hsummary, htimes⟩
  refine ⟨_, h.getElem?_index hval, ?_⟩
  constructor
  · rw [← h.key]
    rfl
  · exact hsummary.bytesSent
  · exact hsummary.bytesRecv
  · exact hsummary.state
  · exact htimes

theorem withRest (h : IsLife probes life) (c : List Probe) :
    IsLife (life.beforeFinish ++ life.finish :: c) { life with rest := c } :=
  ⟨rfl, h.creates, h.stays, h.done, h.key⟩

theorem eq_of_index (h : IsLife probes life) (h' : IsLife probes life')
    (hindex : life.index = life'.index) : life = life' := by
  have hsplit := h.split.symm.trans h'.split
  rcases append_cons_eq_append_cons hsplit with
    ⟨hbefore, hfinish, hrest⟩ | ⟨c, hbefore, _⟩ | ⟨c, hbefore, _⟩
  · have hkey : fillFlowKey life.start = fillFlowKey life'.start := by
      rw [← h.key, ← h'.key, hfinish]
    rcases opening_unique hkey h.creates h'.creates h.stays h'.stays hbefore
      with ⟨hfirst, hstart, hmiddle⟩
    cases life
    cases life'
    rw [Life.mk.injEq]
    exact ⟨hfirst, hstart, hmiddle, hfinish, hrest⟩
  · have hlt := (h.withRest c).index_lt
    rw [← hbefore] at hlt
    exact absurd hindex (Nat.ne_of_lt hlt)
  · have hlt := (h'.withRest c).index_lt
    rw [← hbefore] at hlt
    exact absurd hindex.symm (Nat.ne_of_lt hlt)

/-- After its `tcp_done` the entry is gone, so no life goes on past it. -/
theorem not_middle_after_finish (h : IsLife probes life) (h' : IsLife probes life')
    (hfirst : life.first = life'.first) (hstart : life.start = life'.start) (c : List Probe) :
    life'.middle ≠ life.middle ++ life.finish :: c := by
  intro hmiddle
  have hmem := h'.stays (life.middle ++ [life.finish]) c (by simp [hmiddle])
  rw [← hfirst, ← hstart, ← h.key] at hmem
  have hrun : run (life.first ++ life.start :: (life.middle ++ [life.finish])) =
      step (run life.beforeFinish) life.finish := by
    rw [← run_concat, Life.beforeFinish, List.append_assoc, List.cons_append]
  rw [hrun] at hmem
  exact AList.lookup_eq_none.mp (lookup_step_done h.inet h.done) hmem

theorem eq_of_creation (h : IsLife probes life) (h' : IsLife probes life')
    (hlength : life.first.length = life'.first.length) : life = life' := by
  have hsplit := h.split.symm.trans h'.split
  unfold Life.beforeFinish at hsplit
  rw [List.append_assoc, List.append_assoc] at hsplit
  rcases List.append_inj hsplit hlength with ⟨hfirst, htail⟩
  injection htail with hstart htail
  rcases append_cons_eq_append_cons htail with
    ⟨hmiddle, hfinish, hrest⟩ | ⟨c, hmiddle, _⟩ | ⟨c, hmiddle, _⟩
  · cases life
    cases life'
    rw [Life.mk.injEq]
    exact ⟨hfirst, hstart, hmiddle, hfinish, hrest⟩
  · exact absurd hmiddle (h.not_middle_after_finish h' hfirst hstart c)
  · exact absurd hmiddle (h'.not_middle_after_finish h hfirst.symm hstart.symm c)

theorem append (h : IsLife probes life) (later : List Probe) :
    IsLife (probes ++ later) { life with rest := life.rest ++ later } := by
  refine ⟨?_, h.creates, h.stays, h.done, h.key⟩
  rw [h.split, List.append_assoc]
  rfl

end IsLife

theorem exists_life_of_done {first : List Probe} (hclock : ClockOk first) {p : Probe}
    (hcall : p.call = .tcpDone) {val : FlowVal}
    (hval : (run first).flowMap.lookup (fillFlowKey p) = some val) (second : List Probe) :
    exists life, IsLife (first ++ p :: second) life ∧ life.beforeFinish = first ∧
      life.finish = p := by
  rcases exists_openLife first hclock (fillFlowKey p) val hval with ⟨a, start, middle, hopen⟩
  have hstays := hopen.stays
  rw [← hopen.key] at hstays
  refine ⟨⟨a, start, middle, p, second⟩, ?_, hopen.split.symm, rfl⟩
  refine ⟨?_, hopen.creates, hstays, hcall, hopen.key.symm⟩
  rw [hopen.split]
  rfl

theorem exists_life (probes : List Probe) (hclock : ClockOk probes) :
    forall n, n < (run probes).flowEvents.length ->
      exists life, IsLife probes life ∧ life.index = n := by
  induction probes using List.reverseRecOn with
  | nil =>
      intro n hn
      cases hn
  | append_singleton probes p ih =>
      have hbefore := clockOk_append hclock
      have hold : forall n, n < (run probes).flowEvents.length ->
          exists life, IsLife (probes ++ [p]) life ∧ life.index = n := by
        intro n hn
        rcases ih hbefore n hn with ⟨life, hlife, hindex⟩
        exact ⟨_, hlife.append [p], hindex⟩
      intro n hn
      rw [run_concat] at hn
      rcases flowEvents_step (run probes) p with hsame | ⟨val, hcall, hinet, hval, hone⟩
      · rw [hsame] at hn
        exact hold n hn
      · rw [hone, List.length_append, List.length_singleton] at hn
        rcases Nat.lt_succ_iff_lt_or_eq.mp hn with hlt | hlast
        · exact hold n hlt
        · rcases exists_life_of_done hbefore hcall hval [] with ⟨life, hlife, hfirst, _⟩
          refine ⟨life, hlife, ?_⟩
          rw [hlast, Life.index, hfirst]

structure Accounted (probes : List Probe) : Prop where
  /-- An event goes back to exactly one creation, and carries the account of that life. -/
  events : forall n ev, (run probes).flowEvents[n]? = some ev ->
    exists life, IsLife probes life ∧ life.index = n ∧ Account life ev ∧
      forall other, IsLife probes other -> other.index = n -> other = life
  /-- A creation has at most one event. -/
  creations : forall life other, IsLife probes life -> IsLife probes other ->
    life.first.length = other.first.length -> life.index = other.index
  /-- Calls on other keys leave an entry alone. -/
  frame : forall first p second, probes = first ++ p :: second ->
    forall k, k ≠ fillFlowKey p ->
      (run (first ++ [p])).flowMap.lookup k = (run first).flowMap.lookup k

theorem accounted (probes : List Probe) (hclock : ClockOk probes) : Accounted probes := by
  constructor
  · intro n ev hev
    rcases List.getElem?_eq_some_iff.mp hev with ⟨hn, _⟩
    rcases exists_life probes hclock n hn with ⟨life, hlife, hindex⟩
    rcases hlife.exists_event hclock with ⟨ev', hev', haccount⟩
    rw [hindex, hev] at hev'
    injection hev' with hsame
    rw [← hsame] at haccount
    refine ⟨life, hlife, hindex, haccount, ?_⟩
    intro other hother hother'
    exact hother.eq_of_index hlife (hother'.trans hindex.symm)
  · intro life other hlife hother hlength
    rw [hlife.eq_of_creation hother hlength]
  · intro first p second _ k hk
    rw [run_concat]
    exact lookup_step_of_ne hk (run first)

/-- Two sends, a receive and a state change of one socket around a call on another. -/
def twoSockets : List Probe :=
  let sk : Sock :=
    { skcRcvSaddr := 1, skcDaddr := 2, skcNum := 1000, skcDport := 80, skcFamily := 2 }
  let other : Sock := { sk with skcNum := 1001 }
  [{ sk := sk, pid := 7, firstNs := 1, secondNs := 2, call := .tcpSendmsg 10 },
    { sk := other, pid := 7, firstNs := 3, secondNs := 3, call := .tcpSendmsg 99 },
    { sk := sk, pid := 7, firstNs := 4, secondNs := 4, call := .tcpCleanupRbuf (-1) },
    { sk := sk, pid := 7, firstNs := 5, secondNs := 5, call := .tcpSendmsg 20 },
    { sk := sk, pid := 7, firstNs := 6, secondNs := 6, call := .tcpSetState 1 },
    { sk := sk, pid := 7, firstNs := 7, secondNs := 7, call := .tcpDone }]

instance (probes : List Probe) : Decidable (ClockOk probes) :=
  inferInstanceAs (Decidable (List.Pairwise _ _))

theorem accounted_twoSockets :
    ((run twoSockets).flowEvents.map (fun ev => (ev.bytesSent, ev.bytesRecv, ev.state))) =
        [(30, 0, 1)] ∧
      Accounted twoSockets :=
  ⟨by decide, accounted twoSockets (by decide)⟩

end TcpFlow

end Ebpf
end PerfMonitor
