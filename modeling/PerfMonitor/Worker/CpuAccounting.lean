import Mathlib.Algebra.BigOperators.Fin
import Mathlib.Algebra.Order.BigOperators.Group.Finset
import Mathlib.Algebra.Order.Field.Rat
import Mathlib.Data.List.Chain
import Mathlib.Tactic.FieldSimp
import Mathlib.Tactic.Linarith
import PerfMonitor.Foundation.Run
import PerfMonitor.Worker.CpuStatMonitor

/-!
# CPU accounting over whole runs

A sample is a text in which some line starts with `cpu` and a blank and carries the
eight counters.  The monitor keeps the counters of the last sample whose total had
moved, and every `Collect` that moves it publishes the shares of the difference.  So
the shares, weighted with the differences they were taken of, add up to what the
counters moved in the whole run.
-/

namespace PerfMonitor
namespace Worker

open Foundation

/-- One reading of `/proc/stat`.  The lines before the aggregate line do not look
like it; those after it may be any. -/
structure StatSample where
  before : List Str
  stats : List (Nat × UInt64)
  /-- Further columns of any content. -/
  trail : Str
  after : List Str
  beforeLines : forall l, l ∈ before -> '\n' ∉ l ∧ ¬ "cpu ".toList <+: l
  enough : 8 ≤ stats.length
  spaced : forall col, col ∈ stats.tail -> 0 < col.1
  trailSpaced : StopsAt (fun c => !isSpace c) trail
  trailLine : '\n' ∉ trail
  afterLines : forall l, l ∈ after -> '\n' ∉ l

namespace StatSample

def cpuLine (s : StatSample) : Str :=
  "cpu ".toList ++ (columns s.stats ++ s.trail)

def text (s : StatSample) : Str :=
  (s.before ++ s.cpuLine :: s.after).flatMap (fun l => l ++ ['\n'])

def counter (s : StatSample) (i : Fin 8) : UInt64 :=
  (s.stats.get (i.castLE s.enough)).2

def raw (s : StatSample) : CpuStatRaw where
  user := s.counter 0
  nice := s.counter 1
  system := s.counter 2
  idle := s.counter 3
  iowait := s.counter 4
  irq := s.counter 5
  softirq := s.counter 6
  steal := s.counter 7

def total (s : StatSample) : Nat :=
  ∑ i, (s.counter i).toNat

def count (s : StatSample) (f : CpuField) : Nat :=
  (s.raw.get f).toNat

def Rises (p c : StatSample) : Prop :=
  forall i, p.counter i ≤ c.counter i

instance (p c : StatSample) : Decidable (Rises p c) :=
  inferInstanceAs (Decidable (forall i, p.counter i ≤ c.counter i))

/-- Counters below `2 ^ 63` and a total below `2 ^ 64`. -/
structure Bounded (s : StatSample) : Prop where
  counters : forall i, (s.counter i).toNat < 2 ^ 63
  total : s.total < 2 ^ 64

/-!
## Reading a sample
-/

theorem newline_notMem_cpuLine (s : StatSample) : '\n' ∉ s.cpuLine := by
  intro hmem
  rcases List.mem_append.mp hmem with hcpu | hmem
  · exact absurd hcpu (by decide)
  rcases List.mem_append.mp hmem with hstats | htrail
  · exact newline_notMem_columns _ hstats
  · exact s.trailLine htrail

theorem lines_text (s : StatSample) : lines s.text = s.before ++ s.cpuLine :: s.after := by
  apply lines_flatMap
  intro l hl
  rcases List.mem_append.mp hl with hbefore | hl
  · exact (s.beforeLines l hbefore).left
  rcases List.mem_cons.mp hl with heq | hafter
  · rw [heq]
    exact s.newline_notMem_cpuLine
  · exact s.afterLines l hafter

theorem find_cpuLine (s : StatSample) :
    (lines s.text).find? CpuStatMonitor.isCpuLine = some s.cpuLine := by
  have hbefore : s.before.find? CpuStatMonitor.isCpuLine = none := by
    apply List.find?_eq_none.mpr
    intro l hl hcpu
    exact (s.beforeLines l hl).right (List.isPrefixOf_iff_prefix.mp hcpu)
  have hcpu : CpuStatMonitor.isCpuLine s.cpuLine = true :=
    List.isPrefixOf_iff_prefix.mpr (List.prefix_append _ _)
  rw [lines_text, List.find?_append, hbefore, Option.none_or, List.find?_cons_of_pos hcpu]

/-- Whatever the target held before, it holds the counters of the sample after. -/
theorem readStat_text (s : StatSample) (raw : CpuStatRaw) :
    CpuStatMonitor.readStat raw s.text = s.raw := by
  have hread : forall k (hk : k < 8) old,
      InputStream.getUInt64 { rest := columns (s.stats.drop k) ++ s.trail } old =
        (s.counter ⟨k, hk⟩, { rest := columns (s.stats.drop (k + 1)) ++ s.trail }) := by
    intro k hk old
    exact getUInt64_drop s.spaced (stopsAt_isDigit_of_space s.trailSpaced)
      (Nat.lt_of_lt_of_le hk s.enough) old
  have hstart : s.cpuLine.drop 4 = columns (s.stats.drop 0) ++ s.trail := rfl
  unfold CpuStatMonitor.readStat
  rw [find_cpuLine]
  simp only [hstart]
  unfold CpuStatMonitor.readCounters
  simp only [hread 0 (by decide), hread 1 (by decide), hread 2 (by decide), hread 3 (by decide),
    hread 4 (by decide), hread 5 (by decide), hread 6 (by decide), hread 7 (by decide)]
  rfl

theorem toNat_total {s : StatSample} (hs : s.Bounded) : s.raw.total.toNat = s.total := by
  have htotal := hs.total
  unfold total at htotal ⊢
  rw [Fin.sum_univ_eight] at htotal ⊢
  unfold CpuStatRaw.total raw
  simp only [UInt64.toNat_add]
  omega

/-!
## Differences of two samples
-/

theorem total_le {p c : StatSample} (h : Rises p c) : p.total ≤ c.total :=
  Finset.sum_le_sum (fun i _ => UInt64.le_iff_toNat_le.mp (h i))

theorem counter_eq_of_total_eq {p c : StatSample} (h : Rises p c) (htotal : c.total = p.total)
    (i : Fin 8) : c.counter i = p.counter i := by
  have hle : forall j, j ∈ Finset.univ -> (p.counter j).toNat ≤ (c.counter j).toNat :=
    fun j _ => UInt64.le_iff_toNat_le.mp (h j)
  have hall := (Finset.sum_eq_sum_iff_of_le hle).mp htotal.symm
  exact (UInt64.toNat_inj.mp (hall i (Finset.mem_univ i))).symm

theorem raw_eq_of_counter_eq {p c : StatSample} (h : forall i, c.counter i = p.counter i) :
    c.raw = p.raw := by
  unfold raw
  simp only [h]

def column : CpuField -> Fin 8
  | .user => 0
  | .system => 2
  | .idle => 3
  | .iowait => 4
  | .steal => 7
  | .softirq => 6

theorem get_raw (s : StatSample) (f : CpuField) : s.raw.get f = s.counter (column f) := by
  cases f with
  | user => rfl
  | system => rfl
  | idle => rfl
  | iowait => rfl
  | steal => rfl
  | softirq => rfl

def moved (p c : StatSample) (f : CpuField) : Rat :=
  (c.count f : Rat) - (p.count f : Rat)

def totalMoved (p c : StatSample) : Rat :=
  (c.total : Rat) - (p.total : Rat)

theorem totalMoved_eq (p c : StatSample) :
    totalMoved p c =
      moved p c .user + moved p c .system + moved p c .idle + moved p c .iowait +
        moved p c .steal + moved p c .softirq +
        (((c.counter 1).toNat : Rat) - ((p.counter 1).toNat : Rat)) +
        (((c.counter 5).toNat : Rat) - ((p.counter 5).toNat : Rat)) := by
  unfold totalMoved moved count total
  simp only [get_raw, column, Fin.sum_univ_eight, Nat.cast_add]
  ring

theorem calcPct_of_rises {p c : StatSample} (hp : p.Bounded) (hc : c.Bounded) (h : Rises p c)
    (f : CpuField) :
    CpuStatMonitor.calcPct (c.raw.total - p.raw.total) (c.raw.get f) (p.raw.get f) =
      100 * moved p c f / totalMoved p c := by
  have hle : p.raw.get f ≤ c.raw.get f := by
    rw [get_raw, get_raw]
    exact h (column f)
  have htotal : p.raw.total ≤ c.raw.total := by
    rw [UInt64.le_iff_toNat_le, toNat_total hp, toNat_total hc]
    exact total_le h
  have hsmall : (c.raw.get f - p.raw.get f).toNat < 2 ^ 63 := by
    have hbound := hc.counters (column f)
    rw [← get_raw] at hbound
    rw [UInt64.toNat_sub_of_le _ _ hle]
    omega
  rw [CpuStatMonitor.calcPct_eq, if_pos hsmall, toNat_sub_cast hle, toNat_sub_cast htotal,
    toNat_total hp, toNat_total hc]
  rfl

def baseline : StatSample -> List StatSample -> StatSample
  | base, [] => base
  | base, s :: rest => if base.total < s.total then baseline s rest else baseline base rest

structure Steady (first : StatSample) (later : List StatSample) : Prop where
  rising : (first :: later).IsChain Rises
  bounded : forall s, s ∈ first :: later -> s.Bounded

section Steady

variable {base s : StatSample} {rest : List StatSample}

theorem Steady.next (h : Steady base (s :: rest)) : Rises base s ∧ Steady s rest := by
  have hchain := List.isChain_cons_cons.mp h.rising
  exact ⟨hchain.left, hchain.right, fun s' hs' => h.bounded s' (List.mem_cons_of_mem base hs')⟩

theorem Steady.skip (h : Steady base (s :: rest)) (htotal : ¬ base.total < s.total) :
    s.total = base.total ∧ Steady base rest := by
  have hnext := h.next
  have heq : s.total = base.total := Nat.le_antisymm (Nat.le_of_not_lt htotal) (total_le hnext.left)
  have hsame := counter_eq_of_total_eq hnext.left heq
  refine ⟨heq, ?_, ?_⟩
  · cases rest with
    | nil => exact List.isChain_singleton base
    | cons s' rest' =>
        have hlater := hnext.right.next
        apply List.isChain_cons_cons.mpr
        refine ⟨?_, hlater.right.rising⟩
        intro i
        rw [← hsame i]
        exact hlater.left i
  · intro s' hs'
    rcases List.mem_cons.mp hs' with hbase | hrest
    · rw [hbase]
      exact h.bounded base List.mem_cons_self
    · exact h.bounded s' (List.mem_cons_of_mem base (List.mem_cons_of_mem s hrest))

theorem Steady.left {before : List StatSample} (h : Steady base (before ++ rest)) :
    Steady base before := by
  have hchain : ((base :: before) ++ rest).IsChain Rises := h.rising
  refine ⟨(List.isChain_append.mp hchain).left, ?_⟩
  intro s hs
  have hmem : s ∈ (base :: before) ++ rest := List.mem_append_left rest hs
  exact h.bounded s hmem

theorem steady_baseline {before : List StatSample} (h : Steady base (before ++ rest)) :
    Steady (baseline base before) rest := by
  induction before generalizing base with
  | nil => exact h
  | cons s before ih =>
      unfold baseline
      by_cases htotal : base.total < s.total
      · rw [if_pos htotal]
        exact ih h.next.right
      · rw [if_neg htotal]
        exact ih (h.skip htotal).right

end Steady

end StatSample

namespace CpuStatMonitor

open StatSample

def collectSample (m : CpuStatMonitor) (s : StatSample) : CpuStatMonitor :=
  m.collect s.text

/-- `Init` on the first sample and a `Collect` on each later one. -/
def runSamples (first : StatSample) (later : List StatSample) : CpuStatMonitor :=
  runFrom collectSample (({} : CpuStatMonitor).init first.text) later

/-- What the published percentages of a field say it moved: the share of every
`Collect` whose total moved, weighted with the difference of the totals. -/
def accounted (f : CpuField) : CpuStatMonitor -> StatSample -> List StatSample -> Rat
  | _, _, [] => 0
  | m, base, s :: rest =>
      let m := m.collectSample s
      if base.total < s.total then
        m.pct.get f * totalMoved base s / 100 + accounted f m s rest
      else accounted f m base rest

/-- What a run accounts for.  A `Collect` moves the total when the sample's is above
that of the last sample that moved it, or of the first sample. -/
structure AccountsFor (first : StatSample) (later : List StatSample) : Prop where
  sum_le : let pct := (runSamples first later).pct
    pct.user + pct.system + pct.idle + pct.iowait + pct.steal + pct.softirq ≤ 100
  used : forall before s after, later = before ++ s :: after ->
    (baseline first before).total < s.total -> (forall s', s' ∈ after -> s'.total = s.total) ->
    100 - (runSamples first later).pct.idle =
      100 * (totalMoved (baseline first before) s - moved (baseline first before) s .idle) /
        totalMoved (baseline first before) s
  telescopes : forall f,
    accounted f (({} : CpuStatMonitor).init first.text) first later =
      moved first (later.getLast?.getD first) f
  unmoved : forall before s after, later = before ++ s :: after ->
    s.total = (baseline first before).total ->
    runSamples first (before ++ [s]) = runSamples first before

/-!
## One `Collect`
-/

section Collect

variable {m : CpuStatMonitor} {base s : StatSample} (hm : m.prev = base.raw)
  (hbase : base.Bounded) (hs : s.Bounded)

include hm hbase hs

theorem total_eq_iff : (readStat {} s.text).total = m.prev.total <-> s.total = base.total := by
  rw [readStat_text, hm, ← toNat_total hs, ← toNat_total hbase]
  exact UInt64.toNat_inj.symm

theorem collectSample_of_total_eq (htotal : s.total = base.total) : m.collectSample s = m :=
  collect_of_total_eq ((total_eq_iff hm hbase hs).mpr htotal)

theorem prev_collectSample (htotal : base.total < s.total) : (m.collectSample s).prev = s.raw := by
  have hne := fun h => Nat.ne_of_gt htotal ((total_eq_iff hm hbase hs).mp h)
  unfold collectSample
  rw [prev_collect hne, readStat_text]

theorem pct_collectSample (hrises : Rises base s) (htotal : base.total < s.total) (f : CpuField) :
    (m.collectSample s).pct.get f = 100 * moved base s f / totalMoved base s := by
  have hne := fun h => Nat.ne_of_gt htotal ((total_eq_iff hm hbase hs).mp h)
  unfold collectSample
  rw [pct_collect hne, readStat_text, hm]
  exact calcPct_of_rises hbase hs hrises f

end Collect

/-!
## Whole runs
-/

section Runs

variable {base s : StatSample} {rest : List StatSample}

/-- The monitor keeps the last sample that moved the total. -/
theorem prev_run {m : CpuStatMonitor} (hm : m.prev = base.raw) {later : List StatSample}
    (h : Steady base later) :
    (runFrom collectSample m later).prev = (baseline base later).raw := by
  induction later generalizing m base with
  | nil => exact hm
  | cons s rest ih =>
      have hbase := h.bounded base List.mem_cons_self
      have hs := h.bounded s (List.mem_cons_of_mem base List.mem_cons_self)
      unfold baseline
      rw [runFrom_cons]
      by_cases htotal : base.total < s.total
      · rw [if_pos htotal]
        exact ih (prev_collectSample hm hbase hs htotal) h.next.right
      · have hskip := h.skip htotal
        rw [if_neg htotal, collectSample_of_total_eq hm hbase hs hskip.left]
        exact ih hm hskip.right

theorem run_unmoved {m : CpuStatMonitor} (hm : m.prev = base.raw) {later : List StatSample}
    (h : Steady base later) (htotals : forall s, s ∈ later -> s.total = base.total) :
    runFrom collectSample m later = m := by
  induction later with
  | nil => rfl
  | cons s rest ih =>
      have hbase := h.bounded base List.mem_cons_self
      have hs := h.bounded s (List.mem_cons_of_mem base List.mem_cons_self)
      have htotal := htotals s List.mem_cons_self
      rw [runFrom_cons, collectSample_of_total_eq hm hbase hs htotal]
      exact ih (h.skip (Nat.not_lt.mpr (Nat.le_of_eq htotal))).right
        (fun s' hs' => htotals s' (List.mem_cons_of_mem s hs'))

def pctSum (pct : CpuStatPct) : Rat :=
  pct.user + pct.system + pct.idle + pct.iowait + pct.steal + pct.softirq

theorem pctSum_collectSample {m : CpuStatMonitor} (hm : m.prev = base.raw) (hbase : base.Bounded)
    (hs : s.Bounded) (hrises : Rises base s) (htotal : base.total < s.total) :
    pctSum (m.collectSample s).pct ≤ 100 := by
  have hshare := pct_collectSample hm hbase hs hrises htotal
  have hpos : 0 < totalMoved base s := sub_pos.mpr (Nat.cast_lt.mpr htotal)
  have hnice : (0 : Rat) ≤ ((s.counter 1).toNat : Rat) - ((base.counter 1).toNat : Rat) :=
    sub_nonneg.mpr (Nat.cast_le.mpr (UInt64.le_iff_toNat_le.mp (hrises 1)))
  have hirq : (0 : Rat) ≤ ((s.counter 5).toNat : Rat) - ((base.counter 5).toNat : Rat) :=
    sub_nonneg.mpr (Nat.cast_le.mpr (UInt64.le_iff_toNat_le.mp (hrises 5)))
  have hall := totalMoved_eq base s
  have hsum : pctSum (m.collectSample s).pct =
      100 * (moved base s .user + moved base s .system + moved base s .idle +
        moved base s .iowait + moved base s .steal + moved base s .softirq) /
        totalMoved base s := by
    have huser := hshare .user
    have hsystem := hshare .system
    have hidle := hshare .idle
    have hiowait := hshare .iowait
    have hsteal := hshare .steal
    have hsoftirq := hshare .softirq
    simp only [CpuStatPct.get] at huser hsystem hidle hiowait hsteal hsoftirq
    unfold pctSum
    rw [huser, hsystem, hidle, hiowait, hsteal, hsoftirq]
    ring
  rw [hsum, div_le_iff₀ hpos]
  linarith

theorem pctSum_run {m : CpuStatMonitor} (hm : m.prev = base.raw) (hsum : pctSum m.pct ≤ 100)
    {later : List StatSample} (h : Steady base later) :
    pctSum (runFrom collectSample m later).pct ≤ 100 := by
  induction later generalizing m base with
  | nil => exact hsum
  | cons s rest ih =>
      have hbase := h.bounded base List.mem_cons_self
      have hs := h.bounded s (List.mem_cons_of_mem base List.mem_cons_self)
      rw [runFrom_cons]
      by_cases htotal : base.total < s.total
      · exact ih (prev_collectSample hm hbase hs htotal)
          (pctSum_collectSample hm hbase hs h.next.left htotal) h.next.right
      · have hskip := h.skip htotal
        rw [collectSample_of_total_eq hm hbase hs hskip.left]
        exact ih hm hsum hskip.right

theorem accounted_eq {m : CpuStatMonitor} (hm : m.prev = base.raw) {later : List StatSample}
    (h : Steady base later) (f : CpuField) :
    accounted f m base later = moved base (later.getLast?.getD base) f := by
  induction later generalizing m base with
  | nil => exact (sub_self _).symm
  | cons s rest ih =>
      have hbase := h.bounded base List.mem_cons_self
      have hs := h.bounded s (List.mem_cons_of_mem base List.mem_cons_self)
      have hlast : (s :: rest).getLast?.getD base = rest.getLast?.getD s := by
        rw [List.getLast?_cons]
        rfl
      unfold accounted
      rw [hlast]
      by_cases htotal : base.total < s.total
      · have hpos : 0 < totalMoved base s := sub_pos.mpr (Nat.cast_lt.mpr htotal)
        have hlater := ih (prev_collectSample hm hbase hs htotal) h.next.right
        have hshare : (m.collectSample s).pct.get f * totalMoved base s / 100 = moved base s f := by
          rw [pct_collectSample hm hbase hs h.next.left htotal f]
          field_simp
        simp only [if_pos htotal]
        rw [hlater, hshare]
        unfold moved
        ring
      · have hskip := h.skip htotal
        have hlater := ih hm hskip.right
        have hcount : (rest.getLast?.getD base).count f = (rest.getLast?.getD s).count f := by
          cases hrest : rest.getLast? with
          | none =>
              have hraw := raw_eq_of_counter_eq (counter_eq_of_total_eq h.next.left hskip.left)
              show (base.raw.get f).toNat = (s.raw.get f).toNat
              rw [hraw]
          | some last => rfl
        simp only [if_neg htotal]
        rw [collectSample_of_total_eq hm hbase hs hskip.left, hlater]
        unfold moved
        rw [hcount]

end Runs

/-- Over samples with counters in bounds that never decrease, the percentages never
add up to more than 100, the usage is that of the last `Collect` that moved the
total, and the shares add up to what each field moved from the first sample to the
last. -/
theorem accountsFor_of_steady (first : StatSample) (later : List StatSample)
    (h : Steady first later) : AccountsFor first later := by
  have hinit : (({} : CpuStatMonitor).init first.text).prev = first.raw := readStat_text first _
  have hsplit : forall before s after, later = before ++ s :: after ->
      (runSamples first before).prev = (baseline first before).raw ∧
        Steady (baseline first before) (s :: after) := by
    intro before s after heq
    rw [heq] at h
    exact ⟨prev_run hinit h.left, steady_baseline h⟩
  constructor
  · apply pctSum_run hinit _ h
    show (0 + 0 + 0 + 0 + 0 + 0 : Rat) ≤ 100
    norm_num
  · intro before s after heq htotal hafter
    rcases hsplit before s after heq with ⟨hprev, hsteady⟩
    have hbase := hsteady.bounded _ List.mem_cons_self
    have hs := hsteady.bounded s (List.mem_cons_of_mem _ List.mem_cons_self)
    have hpos : 0 < totalMoved (baseline first before) s := sub_pos.mpr (Nat.cast_lt.mpr htotal)
    have hrun : runSamples first later = (runSamples first before).collectSample s := by
      unfold runSamples
      rw [heq, runFrom_append, runFrom_cons]
      exact run_unmoved (prev_collectSample hprev hbase hs htotal) hsteady.next.right hafter
    have hidle := pct_collectSample hprev hbase hs hsteady.next.left htotal .idle
    rw [hrun]
    show 100 - ((runSamples first before).collectSample s).pct.get .idle = _
    rw [hidle]
    field_simp
  · intro f
    exact accounted_eq hinit h f
  · intro before s after heq htotal
    rcases hsplit before s after heq with ⟨hprev, hsteady⟩
    have hbase := hsteady.bounded _ List.mem_cons_self
    have hs := hsteady.bounded s (List.mem_cons_of_mem _ List.mem_cons_self)
    unfold runSamples
    rw [runFrom_concat]
    exact collectSample_of_total_eq hprev hbase hs htotal

/-- A sample with the line of one processor before the aggregate line. -/
def twoCounters (user idle : UInt64) : StatSample where
  before := ["cpu0 1 0 0 7 0 0 0 0".toList]
  stats := [(1, user), (1, 0), (1, 0), (1, idle), (1, 0), (1, 0), (1, 0), (1, 0)]
  trail := " 0 0".toList
  after := ["intr 12".toList]
  beforeLines := by decide
  enough := Nat.le_refl 8
  spaced := by
    intro col hcol
    simp only [List.tail_cons, List.mem_cons, List.not_mem_nil, or_false] at hcol
    rcases hcol with h | h | h | h | h | h | h
    all_goals
      rw [h]
      exact Nat.one_pos
  trailSpaced := by
    intro c hc
    rw [Option.some.inj hc.symm]
    rfl
  trailLine := by decide
  afterLines := by decide

theorem accountsFor_twoCounters :
    Steady (twoCounters 10 100) [twoCounters 20 130, twoCounters 20 130, twoCounters 25 130] ∧
      AccountsFor (twoCounters 10 100)
        [twoCounters 20 130, twoCounters 20 130, twoCounters 25 130] := by
  have hsteady : Steady (twoCounters 10 100)
      [twoCounters 20 130, twoCounters 20 130, twoCounters 25 130] := by
    constructor
    · decide
    · intro s hs
      constructor
      · revert s
        decide
      · revert s
        decide
  exact ⟨hsteady, accountsFor_of_steady _ _ hsteady⟩

end CpuStatMonitor

end Worker
end PerfMonitor
