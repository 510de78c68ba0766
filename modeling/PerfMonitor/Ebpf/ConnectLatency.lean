import PerfMonitor.Foundation.Counters
import PerfMonitor.Ebpf.FlowAccounting

/-!
# Connect latency of a flow

The connect latency of an event should be the time from the `SYN_SENT` of its
connection to the `ESTABLISHED` that follows.  The probes keep the time of the last
`SYN_SENT` of each process and subtract it when `tcp_done` runs.  So it matters which
connection that `SYN_SENT` belongs to, and when `tcp_done` runs: with the start of the
connection itself, at its `ESTABLISHED`; with a later start of another connection, later
by as much.
-/

namespace PerfMonitor
namespace Ebpf

open Foundation

namespace TcpFlow

def tcpEstablished : Int := 1

def SetsState (tuple : FourTuple) (state : Int) (p : Probe) : Prop :=
  p.call = .tcpSetState state ∧ p.sk.tuple = tuple ∧ p.sk.skcFamily = afInet

/-- The last `SYN_SENT` of a connection and the `ESTABLISHED` that follows it. -/
def Handshake (tuple : FourTuple) (history : List Probe) (syn est : Probe) : Prop :=
  exists a b c, history = a ++ syn :: (b ++ est :: c) ∧
    SetsState tuple tcpSynSent syn ∧ SetsState tuple tcpEstablished est ∧
    (forall q, q ∈ b ++ c -> ¬ SetsState tuple tcpSynSent q) ∧
    (forall q, q ∈ b -> ¬ SetsState tuple tcpEstablished q)

/-- The time between the two calls: `SYN_SENT` is timed by its second clock reading,
which is the one the probe keeps. -/
def handshakeNs (syn est : Probe) : UInt64 :=
  est.firstNs - syn.secondNs

/-- Every event with a latency carries the time of its connection's own handshake, as
it stood before the `tcp_done` that emitted the event. -/
def LatencyOwn (probes : List Probe) : Prop :=
  forall n ev, (run probes).flowEvents[n]? = some ev -> ev.connectLatencyNs ≠ 0 ->
    exists life, IsLife probes life ∧ life.index = n ∧
      exists syn est, Handshake ev.tuple life.beforeFinish syn est ∧
        ev.connectLatencyNs = handshakeNs syn est

/-- A `SYN_SENT` whose time is stored for its process: the connection has an entry, and
the map of connect times has one for the process, or room. -/
def StoresStart (s : TcpFlow) (q : Probe) : Prop :=
  q.call = .tcpSetState tcpSynSent ∧ q.sk.skcFamily = afInet ∧ fillFlowKey q ∈ s.flowMap ∧
    (q.pid ∈ s.connectStart ∨ s.connectStart.entries.length < maxEntries)

instance (s : TcpFlow) (q : Probe) : Decidable (StoresStart s q) :=
  inferInstanceAs (Decidable (_ ∧ _))

/-- The last stored `SYN_SENT` of a process. -/
def LastStart (history : List Probe) (pid : UInt32) (kept : Probe) : Prop :=
  exists a b, history = a ++ kept :: b ∧ kept.pid = pid ∧ StoresStart (run a) kept ∧
    forall c q d, b = c ++ q :: d -> q.pid = pid -> ¬ StoresStart (run (a ++ kept :: c)) q

/-- Whose `SYN_SENT` a `tcp_done` is timed from, and when it runs. -/
def TimedFrom (p kept syn est : Probe) : Prop :=
  (kept.secondNs = syn.secondNs ∧ p.firstNs = est.firstNs) ∨
    (kept.sk.tuple ≠ p.sk.tuple ∧ syn.secondNs < kept.secondNs ∧
      p.firstNs = est.firstNs + (kept.secondNs - syn.secondNs))

/-- A `tcp_done` on an entry, whose process has a stored `SYN_SENT`, reads the clock of
that; or the stored one is the connection's own, and `tcp_done` reads the clock of the
`ESTABLISHED`; or it is a later one of another connection, and `tcp_done` runs as much
later than the `ESTABLISHED`. -/
def TimedRight (first : List Probe) (p : Probe) : Prop :=
  p.call = .tcpDone -> fillFlowKey p ∈ (run first).flowMap ->
    forall kept, LastStart first p.pid kept ->
      p.firstNs = kept.secondNs ∨
        exists syn est, Handshake p.sk.tuple first syn est ∧ TimedFrom p kept syn est

/-!
## The connect time of a process
-/

theorem lookup_updateAny {m : Table UInt32 UInt64} {pid : UInt32} {now : UInt64} (other : UInt32) :
    (updateAny m pid now).lookup other =
      if other = pid ∧ (pid ∈ m ∨ m.entries.length < maxEntries) then some now
      else m.lookup other := by
  unfold updateAny
  by_cases hfull : pid ∉ m ∧ m.entries.length ≥ maxEntries
  · rw [if_pos hfull, if_neg]
    rintro ⟨_, hmem | hroom⟩
    · exact hfull.left hmem
    · exact Nat.not_lt.mpr hfull.right hroom
  · have hroom : pid ∈ m ∨ m.entries.length < maxEntries := by
      rw [not_and_or, Decidable.not_not] at hfull
      exact hfull.imp_right Nat.lt_of_not_ge
    rw [if_neg hfull]
    by_cases hpid : other = pid
    · rw [hpid, AList.lookup_insert, if_pos ⟨rfl, hroom⟩]
    · rw [AList.lookup_insert_ne hpid, if_neg (fun h => hpid h.left)]

theorem lookup_connectStart_step (s : TcpFlow) (q : Probe) (pid : UInt32) :
    (step s q).connectStart.lookup pid =
      if pid = q.pid ∧ StoresStart s q then some q.secondNs else s.connectStart.lookup pid := by
  have hsame : (step s q).connectStart = s.connectStart -> ¬ StoresStart s q ->
      (step s q).connectStart.lookup pid =
        if pid = q.pid ∧ StoresStart s q then some q.secondNs
        else s.connectStart.lookup pid := by
    intro heq hnot
    rw [heq, if_neg (fun h => hnot h.right)]
  cases hcall : q.call with
  | tcpSendmsg size =>
      apply hsame
      · unfold step
        simp only [hcall, tcpSendmsg]
        split
        · rfl
        · split <;> rfl
      · rintro ⟨hstate, _⟩
        rw [hcall] at hstate
        cases hstate
  | tcpCleanupRbuf copied =>
      apply hsame
      · unfold step
        simp only [hcall, tcpCleanupRbuf]
        split
        · rfl
        · split <;> rfl
      · rintro ⟨hstate, _⟩
        rw [hcall] at hstate
        cases hstate
  | tcpDone =>
      apply hsame
      · unfold step
        simp only [hcall, tcpDone]
        split
        · rfl
        · split <;> rfl
      · rintro ⟨hstate, _⟩
        rw [hcall] at hstate
        cases hstate
  | tcpSetState state =>
      have hstep : step s q = tcpSetState s q state := by
        unfold step
        rw [hcall]
      by_cases hinet : q.sk.skcFamily = afInet
      case neg =>
        apply hsame
        · rw [hstep]
          exact congrArg connectStart (if_pos hinet)
        · exact fun h => hinet h.right.left
      case pos =>
        have hfamily : ¬ (fillFlowKey q).family ≠ afInet := fun h => h hinet
        cases hval : s.flowMap.lookup (fillFlowKey q) with
        | none =>
            apply hsame
            · rw [hstep]
              unfold tcpSetState
              simp only [if_neg hfamily, hval]
            · intro h
              have hmem := AList.lookup_isSome.mpr h.right.right.left
              rw [hval] at hmem
              cases hmem
        | some val =>
            have hmem : fillFlowKey q ∈ s.flowMap := Table.mem_of_lookup hval
            have hstart : (step s q).connectStart =
                if state = tcpSynSent then updateAny s.connectStart q.pid q.secondNs
                else s.connectStart := by
              rw [hstep]
              unfold tcpSetState
              simp only [if_neg hfamily, hval]
              rfl
            by_cases hsyn : state = tcpSynSent
            · rw [hstart, if_pos hsyn, lookup_updateAny]
              congr 1
              simp only [StoresStart, hcall, hsyn, hinet, hmem, true_and]
            · apply hsame
              · rw [hstart, if_neg hsyn]
              · rintro ⟨hstate, _⟩
                rw [hcall] at hstate
                injection hstate with hstate
                exact hsyn hstate

theorem lookup_connectStart_iff (probes : List Probe) (pid : UInt32) (start : UInt64) :
    (run probes).connectStart.lookup pid = some start <->
      exists kept, LastStart probes pid kept ∧ kept.secondNs = start := by
  induction probes using List.reverseRecOn with
  | nil =>
      constructor
      · intro h
        have hnone : (run []).connectStart.lookup pid = none := AList.lookup_empty pid
        rw [hnone] at h
        cases h
      · rintro ⟨kept, ⟨a, b, hsplit, _⟩, _⟩
        exact absurd hsplit.symm (List.append_ne_nil_of_right_ne_nil a (List.cons_ne_nil kept b))
  | append_singleton probes q ih =>
      rw [run_concat, lookup_connectStart_step]
      by_cases hstores : pid = q.pid ∧ StoresStart (run probes) q
      · rw [if_pos hstores]
        constructor
        · intro h
          injection h with h
          refine ⟨q, ⟨probes, [], rfl, hstores.left.symm, hstores.right, ?_⟩, h⟩
          intro c other d hnil
          exact absurd hnil.symm (List.append_ne_nil_of_right_ne_nil c (List.cons_ne_nil other d))
        · rintro ⟨kept, ⟨a, b, hsplit, _, _, hlast⟩, hkept⟩
          rcases List.eq_nil_or_concat b with hnil | ⟨c, last, hconcat⟩
          · rw [hnil] at hsplit
            have hsame := List.append_inj_right' hsplit rfl
            injection hsame with hsame
            rw [← hkept, hsame]
          · exfalso
            rw [List.concat_eq_append] at hconcat
            rw [hconcat, ← List.cons_append, ← List.append_assoc] at hsplit
            rcases List.append_inj' hsplit rfl with ⟨hfirst, hsame⟩
            injection hsame with hsame
            apply hlast c last [] hconcat
            · rw [← hsame]
              exact hstores.left.symm
            · rw [← hfirst, ← hsame]
              exact hstores.right
      · rw [if_neg hstores, ih]
        constructor
        · rintro ⟨kept, ⟨a, b, hsplit, hpid, hkept, hlast⟩, htime⟩
          refine ⟨kept, ⟨a, b ++ [q], ?_, hpid, hkept, ?_⟩, htime⟩
          · rw [hsplit, List.append_assoc]
            rfl
          · intro c other d hsame hother
            rcases List.eq_nil_or_concat d with hnil | ⟨d, last, hconcat⟩
            · rw [hnil] at hsame
              rcases List.append_inj' hsame rfl with ⟨hb, hq⟩
              injection hq with hq
              rw [← hb, ← hsplit, ← hq]
              exact fun h => hstores ⟨hother.symm.trans (congrArg Probe.pid hq.symm), h⟩
            · rw [hconcat, List.concat_eq_append, ← List.cons_append, ← List.append_assoc] at hsame
              exact hlast c other d (List.append_inj_left' hsame rfl) hother
        · rintro ⟨kept, ⟨a, b, hsplit, hpid, hkept, hlast⟩, htime⟩
          rcases List.eq_nil_or_concat b with hnil | ⟨b, last, hconcat⟩
          · exfalso
            rw [hnil] at hsplit
            rcases List.append_inj' hsplit rfl with ⟨hfirst, hq⟩
            injection hq with hq
            apply hstores
            rw [hfirst, hq]
            exact ⟨hpid.symm, hkept⟩
          · rw [List.concat_eq_append] at hconcat
            rw [hconcat, ← List.cons_append, ← List.append_assoc] at hsplit
            refine ⟨kept, ⟨a, b, List.append_inj_left' hsplit rfl, hpid, hkept, ?_⟩, htime⟩
            intro c other d hb hother
            apply hlast c other (d ++ [last]) _ hother
            rw [hconcat, hb, List.append_assoc]
            rfl

/-!
## The latency of an event
-/

theorem connectLatencyNs_flowEvent (s : TcpFlow) (p : Probe) (val : FlowVal) :
    (flowEvent s p (fillFlowKey p) val).connectLatencyNs =
      ((s.connectStart.lookup p.pid).map (fun start => p.firstNs - start)).getD 0 := by
  simp only [flowEvent, fillFlowKey]
  cases s.connectStart.lookup p.pid with
  | none => rfl
  | some start => rfl

theorem ClockOk.le {a b : List Probe} {q : Probe} (h : ClockOk (a ++ q :: b)) :
    q.firstNs ≤ q.secondNs ∧ forall r, r ∈ b -> q.secondNs ≤ r.firstNs := by
  unfold ClockOk at h
  rw [List.flatMap_append, List.flatMap_cons] at h
  have hown := (List.pairwise_append.mp h).right.left
  rcases List.pairwise_cons.mp hown with ⟨hfirst, hrest⟩
  refine ⟨hfirst _ List.mem_cons_self, ?_⟩
  intro r hr
  exact (List.pairwise_cons.mp hrest).left _
    (List.mem_flatMap.mpr ⟨r, hr, List.mem_cons_self⟩)

theorem Handshake.le {tuple : FourTuple} {first : List Probe} {p syn est : Probe}
    (hclock : ClockOk (first ++ [p])) (h : Handshake tuple first syn est) :
    syn.secondNs ≤ est.firstNs ∧ est.firstNs ≤ p.firstNs := by
  rcases h with ⟨a, b, c, hsplit, _⟩
  rw [hsplit] at hclock
  constructor
  · rw [List.append_assoc, List.cons_append, List.append_assoc] at hclock
    exact hclock.le.right est (List.mem_append_right b List.mem_cons_self)
  · have hest : ClockOk ((a ++ syn :: b) ++ est :: (c ++ [p])) := by
      simpa only [List.append_assoc, List.cons_append] using hclock
    exact UInt64.le_trans hest.le.left
      (hest.le.right p (List.mem_append_right c List.mem_cons_self))

theorem Handshake.tuple_ne {tuple : FourTuple} {first : List Probe} {syn est kept : Probe}
    (hclock : ClockOk first) (h : Handshake tuple first syn est) (hkept : kept ∈ first)
    (hcall : kept.call = .tcpSetState tcpSynSent) (hinet : kept.sk.skcFamily = afInet)
    (hlater : syn.secondNs < kept.secondNs) : kept.sk.tuple ≠ tuple := by
  intro htuple
  rcases h with ⟨a, b, c, hsplit, _, hest, hlast, _⟩
  have hsets : SetsState tuple tcpSynSent kept := ⟨hcall, htuple, hinet⟩
  rw [hsplit] at hkept hclock
  rcases List.mem_append.mp hkept with hbefore | hafter
  · rcases List.mem_iff_append.mp hbefore with ⟨a', a'', ha⟩
    rw [ha, List.append_assoc, List.cons_append] at hclock
    have hle := hclock.le.right syn (List.mem_append_right a'' List.mem_cons_self)
    have hsyn : syn.firstNs ≤ syn.secondNs := by
      rw [← List.cons_append, ← List.append_assoc] at hclock
      exact hclock.le.left
    exact absurd hlater (UInt64.not_lt.mpr (UInt64.le_trans hle hsyn))
  · rcases List.mem_cons.mp hafter with heq | hafter
    · rw [heq] at hlater
      exact absurd hlater (UInt64.lt_irrefl _)
    · rcases List.mem_append.mp hafter with hb | hc
      · exact hlast kept (List.mem_append_left c hb) hsets
      · rcases List.mem_cons.mp hc with heq | hc
        · rw [heq, hest.left] at hcall
          injection hcall with hcall
          exact absurd hcall (by decide)
        · exact hlast kept (List.mem_append_right b hc) hsets

theorem sub_eq_sub_iff {now start est syn : UInt64} (hstart : start ≤ now) (hsyn : syn ≤ est)
    (hest : est ≤ now) :
    now - start = est - syn <->
      (start = syn ∧ now = est) ∨ (syn < start ∧ now = est + (start - syn)) := by
  have hnow := now.toNat_lt
  rw [UInt64.le_iff_toNat_le] at hstart hsyn hest
  rw [← UInt64.toNat_inj, UInt64.toNat_sub_of_le _ _ (UInt64.le_iff_toNat_le.mpr hstart),
    UInt64.toNat_sub_of_le _ _ (UInt64.le_iff_toNat_le.mpr hsyn), ← UInt64.toNat_inj,
    ← UInt64.toNat_inj, ← UInt64.toNat_inj, UInt64.lt_iff_toNat_lt]
  constructor
  · intro h
    by_cases hsame : start.toNat = syn.toNat
    · left
      omega
    · right
      have hlater : syn.toNat < start.toNat := by omega
      refine ⟨hlater, ?_⟩
      rw [UInt64.toNat_add, UInt64.toNat_sub_of_le _ _
        (UInt64.le_iff_toNat_le.mpr (Nat.le_of_lt hlater)), Nat.mod_eq_of_lt (by omega)]
      omega
  · rintro (⟨hsame, hdone⟩ | ⟨hlater, hdone⟩)
    · omega
    · rw [UInt64.toNat_add, UInt64.toNat_sub_of_le _ _
        (UInt64.le_iff_toNat_le.mpr (Nat.le_of_lt hlater))] at hdone
      have hsum : est.toNat + (start.toNat - syn.toNat) < 2 ^ 64 ∨
          2 ^ 64 ≤ est.toNat + (start.toNat - syn.toNat) := Nat.lt_or_ge _ _
      rcases hsum with hsmall | hlarge
      · rw [Nat.mod_eq_of_lt hsmall] at hdone
        omega
      · have hcarry : (est.toNat + (start.toNat - syn.toNat)) % 2 ^ 64 =
            est.toNat + (start.toNat - syn.toNat) - 2 ^ 64 := by omega
        omega

theorem LastStart.mem {first : List Probe} {pid : UInt32} {kept : Probe}
    (h : LastStart first pid kept) : kept ∈ first := by
  rcases h with ⟨a, b, hsplit, _⟩
  rw [hsplit]
  exact List.mem_append_right a List.mem_cons_self

theorem timedFrom_iff {first : List Probe} {p kept syn est : Probe} {pid : UInt32}
    (hclock : ClockOk (first ++ [p])) (hkept : LastStart first pid kept)
    (hand : Handshake p.sk.tuple first syn est) :
    p.firstNs - kept.secondNs = handshakeNs syn est <-> TimedFrom p kept syn est := by
  rcases hand.le hclock with ⟨hsyn, hest⟩
  have hmem := hkept.mem
  rcases hkept with ⟨a, b, hsplit, _, ⟨hcall, hinet, _⟩, _⟩
  have hstart : kept.secondNs ≤ p.firstNs := by
    have hsplit' := hclock
    rw [hsplit, List.append_assoc, List.cons_append] at hsplit'
    exact hsplit'.le.right p (List.mem_append_right b List.mem_cons_self)
  unfold handshakeNs TimedFrom
  rw [sub_eq_sub_iff hstart hsyn hest]
  constructor
  · rintro (hown | ⟨hlater, hdone⟩)
    · exact Or.inl hown
    · exact Or.inr ⟨hand.tuple_ne (clockOk_append hclock) hmem hcall hinet hlater, hlater, hdone⟩
  · rintro (hown | ⟨_, hlater, hdone⟩)
    · exact Or.inl hown
    · exact Or.inr ⟨hlater, hdone⟩

theorem latency_iff_timed {first : List Probe} {p : Probe} (hclock : ClockOk (first ++ [p]))
    (val : FlowVal) :
    ((flowEvent (run first) p (fillFlowKey p) val).connectLatencyNs ≠ 0 ->
      exists syn est, Handshake p.sk.tuple first syn est ∧
        (flowEvent (run first) p (fillFlowKey p) val).connectLatencyNs = handshakeNs syn est) <->
    forall kept, LastStart first p.pid kept ->
      p.firstNs = kept.secondNs ∨
        exists syn est, Handshake p.sk.tuple first syn est ∧ TimedFrom p kept syn est := by
  rw [connectLatencyNs_flowEvent]
  constructor
  · intro hlatency kept hkept
    have hstart := (lookup_connectStart_iff first p.pid kept.secondNs).mpr ⟨kept, hkept, rfl⟩
    rw [hstart] at hlatency
    by_cases hzero : p.firstNs = kept.secondNs
    · exact Or.inl hzero
    · right
      rcases hlatency (fun h => hzero (sub_eq_zero_iff_eq.mp h)) with ⟨syn, est, hand, heq⟩
      exact ⟨syn, est, hand, (timedFrom_iff hclock hkept hand).mp heq⟩
  · intro htimed hne
    cases hstart : (run first).connectStart.lookup p.pid with
    | none =>
        rw [hstart] at hne
        exact absurd rfl hne
    | some start =>
        rw [hstart] at hne
        rcases (lookup_connectStart_iff first p.pid start).mp hstart with ⟨kept, hkept, heq⟩
        rw [← heq] at hne ⊢
        rcases htimed kept hkept with hzero | ⟨syn, est, hand, hfrom⟩
        · exact absurd (sub_eq_zero_iff_eq.mpr hzero) hne
        · exact ⟨syn, est, hand, (timedFrom_iff hclock hkept hand).mpr hfrom⟩

/-- A connection of process 7 from its first send to its `tcp_done` at a given time. -/
def closedAt (doneNs : UInt64) : List Probe :=
  let sk : Sock :=
    { skcRcvSaddr := 1, skcDaddr := 2, skcNum := 1000, skcDport := 80, skcFamily := 2 }
  [{ sk := sk, pid := 7, firstNs := 1, secondNs := 2, call := .tcpSendmsg 10 },
    { sk := sk, pid := 7, firstNs := 10, secondNs := 10, call := .tcpSetState 2 },
    { sk := sk, pid := 7, firstNs := 20, secondNs := 20, call := .tcpSetState 1 },
    { sk := sk, pid := 7, firstNs := doneNs, secondNs := doneNs, call := .tcpDone }]

theorem Handshake.mem {tuple : FourTuple} {history : List Probe} {syn est : Probe}
    (h : Handshake tuple history syn est) : syn ∈ history ∧ est ∈ history := by
  rcases h with ⟨a, b, c, hsplit, _⟩
  rw [hsplit]
  simp

theorem eq_of_state_closedAt {doneNs : UInt64} {state : Int} {p : Probe}
    (hp : p ∈ closedAt doneNs) (hstate : p.call = .tcpSetState state) :
    state = 2 ∧ p.secondNs = 10 ∨ state = 1 ∧ p.firstNs = 20 := by
  simp only [closedAt, List.mem_cons, List.not_mem_nil, or_false] at hp
  rcases hp with rfl | rfl | rfl | rfl
  · cases hstate
  · cases hstate
    exact Or.inl ⟨rfl, rfl⟩
  · cases hstate
    exact Or.inr ⟨rfl, rfl⟩
  · cases hstate

end TcpFlow

end Ebpf
end PerfMonitor
