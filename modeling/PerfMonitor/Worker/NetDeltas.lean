import Mathlib.Data.List.OfFn
import Mathlib.Data.UInt
import PerfMonitor.Foundation.Run
import PerfMonitor.Worker.NetMonitor

/-!
# Interface deltas over whole runs

A sample is a list of interfaces with sixteen counters, rendered the way the kernel
writes `/proc/net/dev`.  Reading a rendered sample gives the map of its rows, so
the map that the monitor keeps is always that of the sample before, and every
`Collect` publishes the differences between two consecutive samples.
-/

namespace PerfMonitor
namespace Worker

open Foundation

structure NetRow where
  name : Str
  counters : Fin 16 -> UInt64
  indent : Nat
  gap : Fin 16 -> Nat
  trail : Nat
  named : name ≠ []
  valid : forall c, c ∈ name -> c ≠ ':' ∧ isSpace c = false
  spaced : forall i, i ≠ 0 -> 0 < gap i

/-- One reading of `/proc/net/dev`: two header lines and a line for each interface. -/
structure NetSample where
  header : Str
  subheader : Str
  rows : List NetRow
  headerLine : '\n' ∉ header
  subheaderLine : '\n' ∉ subheader
  distinct : (rows.map NetRow.name).Nodup

namespace NetRow

def cols (r : NetRow) : List (Nat × UInt64) :=
  List.ofFn (fun i => (r.gap i, r.counters i))

def text (r : NetRow) : Str :=
  blanks r.indent ++ (r.name ++ ':' :: (columns r.cols ++ blanks r.trail))

def raw (r : NetRow) : NetRaw where
  rxBytes := r.counters 0
  rxPackets := r.counters 1
  rxErrors := r.counters 2
  rxDropped := r.counters 3
  txBytes := r.counters 8
  txPackets := r.counters 9
  txErrors := r.counters 10
  txDropped := r.counters 11

end NetRow

namespace NetSample

def text (s : NetSample) : Str :=
  (s.header :: s.subheader :: s.rows.map NetRow.text).flatMap (fun l => l ++ ['\n'])

def find (s : NetSample) (name : Str) : Option NetRow :=
  s.rows.find? (fun r => decide (r.name = name))

end NetSample

/-!
## Reading a row
-/

namespace NetRow

theorem spaced_tail (r : NetRow) : forall col, col ∈ r.cols.tail -> 0 < col.1 := by
  intro col hcol
  rw [cols, List.ofFn_succ, List.tail_cons, List.mem_ofFn] at hcol
  rcases hcol with ⟨i, hi⟩
  rw [← hi]
  exact r.spaced _ (Fin.succ_ne_zero i)

def KeepsColumns (between : InputStream -> InputStream) : Prop :=
  forall gap n cols tail, exists gap',
    between { rest := columns ((gap, n) :: cols) ++ tail } =
      { rest := columns ((gap', n) :: cols) ++ tail }

theorem keepsColumns_id : KeepsColumns id := by
  intro gap n cols tail
  exact ⟨gap, rfl⟩

theorem keepsColumns_skipSpace : KeepsColumns InputStream.skipSpace := by
  intro gap n cols tail
  exact ⟨0, skipSpace_columns gap n cols tail⟩

theorem readCounters_text (r : NetRow) {between : InputStream -> InputStream}
    (hbetween : KeepsColumns between) :
    NetMonitor.readCounters between { rest := columns r.cols ++ blanks r.trail } = r.raw := by
  have hlen : r.cols.length = 16 := List.length_ofFn
  have hread : forall k (hk : k < 16) old,
      InputStream.getUInt64 { rest := columns (r.cols.drop k) ++ blanks r.trail } old =
        (r.counters ⟨k, hk⟩, { rest := columns (r.cols.drop (k + 1)) ++ blanks r.trail }) := by
    intro k hk old
    rw [getUInt64_drop r.spaced_tail (stopsAt_blanks r.trail) (by rw [hlen]; exact hk) old]
    simp only [cols, List.getElem_ofFn]
  have hskip : NetMonitor.skipCounters 4
      (between { rest := columns (r.cols.drop 4) ++ blanks r.trail }) =
        { rest := columns (r.cols.drop 8) ++ blanks r.trail } := by
    have hfour : 4 < r.cols.length := by
      rw [hlen]
      decide
    have hlater : forall col, col ∈ r.cols.drop 5 -> 0 < col.1 := by
      intro col hcol
      apply r.spaced_tail
      rw [← List.drop_one]
      exact List.drop_subset_drop_left r.cols (by decide) hcol
    rcases hbetween r.cols[4].1 r.cols[4].2 (r.cols.drop 5) (blanks r.trail) with ⟨gap, hgap⟩
    rw [List.drop_eq_getElem_cons hfour]
    simp only [NetMonitor.skipCounters, hgap,
      getUInt64_columns gap _ _ hlater (stopsAt_blanks r.trail), hread 5 (by decide),
      hread 6 (by decide), hread 7 (by decide)]
  have hstart : columns r.cols = columns (r.cols.drop 0) := rfl
  unfold NetMonitor.readCounters
  rw [hstart]
  simp only [hread 0 (by decide), hread 1 (by decide), hread 2 (by decide), hread 3 (by decide),
    hskip, hread 8 (by decide), hread 9 (by decide), hread 10 (by decide), hread 11 (by decide)]
  rfl

theorem ne_colon_of_mem_front (r : NetRow) :
    forall c, c ∈ blanks r.indent ++ r.name -> decide (c ≠ ':') = true := by
  intro c hc
  rcases List.mem_append.mp hc with hblank | hname
  · rw [List.eq_of_mem_replicate hblank]
    rfl
  · exact decide_eq_true (r.valid c hname).left

theorem ifaceName_text (r : NetRow) : NetMonitor.ifaceName r.text = r.name := by
  have htake : r.text.takeWhile (fun c => decide (c ≠ ':')) = blanks r.indent ++ r.name := by
    unfold text
    rw [← List.append_assoc]
    exact takeWhile_span r.ne_colon_of_mem_front (stopsAt_cons rfl _)
  have hblanks : forall c, c ∈ blanks r.indent -> NetMonitor.isBlank c = true := by
    intro c hc
    rw [List.eq_of_mem_replicate hc]
    rfl
  have hstops : StopsAt NetMonitor.isBlank r.name := by
    intro c hc
    have hspace := (r.valid c (List.mem_of_mem_head? hc)).right
    cases hb : NetMonitor.isBlank c with
    | false => rfl
    | true =>
        simp only [NetMonitor.isBlank, Bool.or_eq_true, beq_iff_eq] at hb
        rcases hb with heq | heq
        · rw [heq] at hspace
          exact absurd hspace (by decide)
        · rw [heq] at hspace
          exact absurd hspace (by decide)
  unfold NetMonitor.ifaceName
  simp only [htake, dropWhile_span hblanks hstops]
  rw [if_neg]
  intro hall
  cases hname : r.name with
  | nil => exact r.named hname
  | cons c rest =>
      have hc : NetMonitor.isBlank c = false := hstops c (by rw [hname]; rfl)
      have hblank := List.all_eq_true.mp hall c (by rw [hname]; simp)
      rw [hc] at hblank
      cases hblank

theorem parseLine_text (r : NetRow) {between : InputStream -> InputStream}
    (hbetween : KeepsColumns between) :
    NetMonitor.parseLine between r.text = some (r.name, r.raw) := by
  have hcolon : ':' ∈ r.text := by
    unfold text
    simp
  have hdrop : r.text.dropWhile (fun c => decide (c ≠ ':')) =
      ':' :: (columns r.cols ++ blanks r.trail) := by
    unfold text
    rw [← List.append_assoc]
    exact dropWhile_span r.ne_colon_of_mem_front (stopsAt_cons rfl _)
  unfold NetMonitor.parseLine
  rw [if_pos hcolon, ifaceName_text, hdrop]
  exact congrArg (fun raw => some (r.name, raw)) (readCounters_text r hbetween)

theorem newline_notMem_text (r : NetRow) : '\n' ∉ r.text := by
  intro hmem
  unfold text at hmem
  rcases List.mem_append.mp hmem with hindent | hrest
  · exact newline_notMem_blanks _ hindent
  rcases List.mem_append.mp hrest with hname | hrest
  · exact absurd (r.valid _ hname).right (by decide)
  rcases List.mem_cons.mp hrest with heq | hrest
  · exact absurd heq (by decide)
  rcases List.mem_append.mp hrest with hcols | htrail
  · exact newline_notMem_columns _ hcols
  · exact newline_notMem_blanks _ htrail

end NetRow

namespace NetSample

theorem readNetDev_text (s : NetSample) {between : InputStream -> InputStream}
    (hbetween : NetRow.KeepsColumns between) :
    NetMonitor.readNetDev between s.text = s.rows.map (fun r => (r.name, r.raw)) := by
  have hlines : lines s.text = s.header :: s.subheader :: s.rows.map NetRow.text := by
    apply lines_flatMap
    intro l hl
    rcases List.mem_cons.mp hl with heq | hl
    · rw [heq]
      exact s.headerLine
    rcases List.mem_cons.mp hl with heq | hl
    · rw [heq]
      exact s.subheaderLine
    rcases List.mem_map.mp hl with ⟨r, _, heq⟩
    rw [← heq]
    exact r.newline_notMem_text
  unfold NetMonitor.readNetDev
  rw [hlines]
  show (s.rows.map NetRow.text).filterMap (NetMonitor.parseLine between) = _
  rw [List.filterMap_map, ← List.filterMap_eq_map]
  apply List.filterMap_congr
  intro r _
  exact r.parseLine_text hbetween

/-!
## The map of the last sample
-/

theorem lookup_readNetDev (s : NetSample) {between : InputStream -> InputStream}
    (hbetween : NetRow.KeepsColumns between) (name : Str) :
    ((∅ : Table Str NetRaw).insertAll (NetMonitor.readNetDev between s.text)).lookup name =
      (s.find name).map NetRow.raw := by
  rw [readNetDev_text s hbetween]
  exact Table.lookup_insertAll_rows s.distinct NetRow.raw (AList.lookup_empty name)

theorem find_of_mem (s : NetSample) {r : NetRow} (hr : r ∈ s.rows) : s.find r.name = some r :=
  find?_key_of_mem s.distinct hr

def counter (s : NetSample) (name : Str) (i : Fin 16) : UInt64 :=
  ((s.find name).map (fun r => r.counters i)).getD 0

end NetSample

namespace NetMonitor

def Keeps (m : NetMonitor) (s : NetSample) : Prop :=
  forall name, m.prevNetMap.lookup name = (s.find name).map NetRow.raw

theorem init_keeps (s : NetSample) : ({} : NetMonitor).init s.text |>.Keeps s := by
  intro name
  exact s.lookup_readNetDev NetRow.keepsColumns_skipSpace name

theorem collect_keeps (m : NetMonitor) (s : NetSample) : (m.collect s.text).Keeps s := by
  intro name
  exact s.lookup_readNetDev NetRow.keepsColumns_id name

/-- What a `Collect` has to say about a name. -/
def published (prev cur : NetSample) (name : Str) : Option NetStats :=
  (cur.find name).bind (fun c =>
    if name = "lo".toList then none
    else (prev.find name).map (fun p => netStats name p.raw c.raw))

theorem filter_collect {m : NetMonitor} {prev : NetSample} (hm : m.Keeps prev)
    (cur : NetSample) (name : Str) :
    (m.collect cur.text).interfaces.filter (fun ns => decide (ns.iface = name)) =
      (published prev cur name).toList := by
  have hcur : (m.collect cur.text).prevNetMap.lookup name = (cur.find name).map NetRow.raw :=
    m.collect_keeps cur name
  have hnamed : forall e, e ∈ (m.collect cur.text).prevNetMap.entries -> forall ns : NetStats,
      publish m.prevNetMap e.1 e.2 = some ns -> ns.iface = e.1 := by
    intro e _ ns hns
    unfold publish at hns
    split at hns
    · cases hns
    · rcases Option.map_eq_some_iff.mp hns with ⟨_, _, heq⟩
      rw [← heq]
      rfl
  calc
    (m.collect cur.text).interfaces.filter (fun ns => decide (ns.iface = name)) =
        (((m.collect cur.text).prevNetMap.lookup name).bind
          (fun raw => publish m.prevNetMap name raw)).toList :=
      Table.filter_filterMap_entries (m.collect cur.text).prevNetMap hnamed name
    _ = (published prev cur name).toList := by
      rw [hcur]
      cases hfind : cur.find name with
      | none => simp [published, hfind]
      | some c => simp [published, hfind, publish, hm name, Function.comp_def]

theorem published_eq_some_iff {prev cur : NetSample} {name : Str} {ns : NetStats} :
    published prev cur name = some ns <->
      name ≠ "lo".toList ∧ exists p c, prev.find name = some p ∧ cur.find name = some c ∧
        ns = netStats name p.raw c.raw := by
  constructor
  · intro h
    rcases Option.bind_eq_some_iff.mp h with ⟨c, hc, hns⟩
    split at hns
    · cases hns
    next hlo =>
      rcases Option.map_eq_some_iff.mp hns with ⟨p, hp, heq⟩
      exact ⟨hlo, p, c, hp, hc, heq.symm⟩
  · rintro ⟨hlo, p, c, hp, hc, heq⟩
    unfold published
    rw [hc, Option.bind_some, if_neg hlo, hp, heq]
    rfl

theorem mem_interfaces_iff {m : NetMonitor} {prev : NetSample} (hm : m.Keeps prev)
    (cur : NetSample) {ns : NetStats} :
    ns ∈ (m.collect cur.text).interfaces <-> published prev cur ns.iface = some ns := by
  rw [← Option.mem_toList, ← filter_collect hm, List.mem_filter]
  simp only [decide_true, and_true]

end NetMonitor

/-!
## Runs of the monitor
-/

/-- The reported counters of an interface with their columns, counted from zero. -/
def reportedColumns : List ((NetStats -> UInt64) × Fin 16) :=
  [(NetStats.rxPackets, 1), (NetStats.rxErrors, 2), (NetStats.rxDropped, 3),
    (NetStats.txPackets, 9), (NetStats.txErrors, 10), (NetStats.txDropped, 11)]

/-- One entry for each interface other than `lo` that occurs in both samples, with
the differences of its counters, and no other entry. -/
structure ReportsDeltas (interfaces : List NetStats) (prev cur : NetSample) : Prop where
  once : forall p c, p ∈ prev.rows -> c ∈ cur.rows -> p.name = c.name -> c.name ≠ "lo".toList ->
    exists ns, interfaces.filter (fun ns => decide (ns.iface = c.name)) = [ns] ∧
      forall field i, (field, i) ∈ reportedColumns -> field ns = c.counters i - p.counters i
  only : forall ns, ns ∈ interfaces -> ns.iface ≠ "lo".toList ∧
    (exists p, p ∈ prev.rows ∧ p.name = ns.iface) ∧ exists c, c ∈ cur.rows ∧ c.name = ns.iface

namespace NetMonitor

def collectSample (m : NetMonitor) (s : NetSample) : NetMonitor :=
  m.collect s.text

/-- The published vectors of a run, one for each `Collect`. -/
def reports : NetMonitor -> List NetSample -> List (List NetStats)
  | _, [] => []
  | m, s :: rest => (m.collectSample s).interfaces :: reports (m.collectSample s) rest

def reported (field : NetStats -> UInt64) (name : Str) (interfaces : List NetStats) : UInt64 :=
  ((interfaces.filter (fun ns => decide (ns.iface = name))).map field).sum

theorem field_netStats {field : NetStats -> UInt64} {i : Fin 16}
    (hfield : (field, i) ∈ reportedColumns) (name : Str) (p c : NetRow) :
    field (netStats name p.raw c.raw) = c.counters i - p.counters i := by
  simp only [reportedColumns, List.mem_cons, Prod.mk.injEq, List.not_mem_nil, or_false] at hfield
  rcases hfield with h | h | h | h | h | h
  all_goals
    rw [h.left, h.right]
    rfl

theorem published_of_mem {prev cur : NetSample} {p c : NetRow} (hp : p ∈ prev.rows)
    (hc : c ∈ cur.rows) (hname : p.name = c.name) (hlo : c.name ≠ "lo".toList) :
    published prev cur c.name = some (netStats c.name p.raw c.raw) := by
  have hprev : prev.find c.name = some p := by
    rw [← hname]
    exact prev.find_of_mem hp
  exact published_eq_some_iff.mpr ⟨hlo, p, c, hprev, cur.find_of_mem hc, rfl⟩

theorem collect_reportsDeltas {m : NetMonitor} {prev : NetSample} (hm : m.Keeps prev)
    (cur : NetSample) : ReportsDeltas (m.collect cur.text).interfaces prev cur := by
  constructor
  · intro p c hp hc hname hlo
    refine ⟨netStats c.name p.raw c.raw, ?_, ?_⟩
    · rw [filter_collect hm, published_of_mem hp hc hname hlo]
      rfl
    · intro field i hfield
      exact field_netStats hfield c.name p c
  · intro ns hns
    have hpublished := (mem_interfaces_iff hm cur).mp hns
    rcases published_eq_some_iff.mp hpublished with ⟨hlo, p, c, hp, hc, _⟩
    exact ⟨hlo, ⟨p, mem_of_find?_key hp⟩, ⟨c, mem_of_find?_key hc⟩⟩

/-- The sample before the next `Collect`. -/
def lastSample (first : NetSample) (later : List NetSample) : NetSample :=
  later.getLast?.getD first

theorem run_keeps (first : NetSample) (later : List NetSample) :
    (runFrom collectSample (({} : NetMonitor).init first.text) later).Keeps
      (lastSample first later) :=
  runFrom_last collect_keeps (init_keeps first) later

theorem reported_collect {m : NetMonitor} {prev : NetSample} (hm : m.Keeps prev)
    {cur : NetSample} {name : Str} {p c : NetRow} (hp : prev.find name = some p)
    (hc : cur.find name = some c) (hlo : name ≠ "lo".toList) {field : NetStats -> UInt64}
    {i : Fin 16} (hfield : (field, i) ∈ reportedColumns) :
    reported field name (m.collect cur.text).interfaces = c.counters i - p.counters i := by
  have hpublished : published prev cur name = some (netStats name p.raw c.raw) :=
    published_eq_some_iff.mpr ⟨hlo, p, c, hp, hc, rfl⟩
  unfold reported
  rw [filter_collect hm, hpublished]
  show field (netStats name p.raw c.raw) + 0 = _
  rw [field_netStats hfield, UInt64.add_zero]

theorem reports_telescope {name : Str} (hlo : name ≠ "lo".toList) {field : NetStats -> UInt64}
    {i : Fin 16} (hfield : (field, i) ∈ reportedColumns) (later : List NetSample) :
    forall (m : NetMonitor) (prev : NetSample), m.Keeps prev ->
      (forall s, s ∈ prev :: later -> exists r, r ∈ s.rows ∧ r.name = name) ->
      ((reports m later).map (reported field name)).sum =
        (lastSample prev later).counter name i - prev.counter name i := by
  induction later with
  | nil =>
      intro m prev _ _
      exact (UInt64.sub_self _).symm
  | cons cur rest ih =>
      intro m prev hm hall
      have hfind : forall s, s ∈ prev :: cur :: rest -> exists r, s.find name = some r := by
        intro s hs
        rcases hall s hs with ⟨r, hr, hname⟩
        rw [← hname]
        exact ⟨r, s.find_of_mem hr⟩
      rcases hfind prev (by simp) with ⟨p, hp⟩
      rcases hfind cur (by simp) with ⟨c, hc⟩
      have hlast : lastSample prev (cur :: rest) = lastSample cur rest := by
        unfold lastSample
        rw [List.getLast?_cons, Option.getD_some]
      have hrest := ih (m.collectSample cur) cur (m.collect_keeps cur)
        (fun s hs => hall s (List.mem_cons_of_mem prev hs))
      have hhead : reported field name (m.collectSample cur).interfaces =
          c.counters i - p.counters i :=
        reported_collect hm hp hc hlo hfield
      have hcounters : cur.counter name i = c.counters i ∧ prev.counter name i = p.counters i := by
        simp [NetSample.counter, hp, hc]
      rw [reports, List.map_cons, List.sum_cons, hrest, hhead, hlast, hcounters.left,
        hcounters.right]
      grind

/-- After `Init` on the first sample and a `Collect` on each later one, the vector
holds the differences between the last two samples, and the reported counts of an
interface that is always there add up to the whole difference. -/
theorem reports_exact_deltas (first : NetSample) (middle : List NetSample) (last : NetSample) :
    ReportsDeltas
        (runFrom collectSample (({} : NetMonitor).init first.text) (middle ++ [last])).interfaces
        (lastSample first middle) last ∧
      forall name, name ≠ "lo".toList ->
        (forall s, s ∈ first :: (middle ++ [last]) -> exists r, r ∈ s.rows ∧ r.name = name) ->
        forall field i, (field, i) ∈ reportedColumns ->
          ((reports (({} : NetMonitor).init first.text) (middle ++ [last])).map
            (reported field name)).sum = last.counter name i - first.counter name i := by
  constructor
  · rw [runFrom_concat]
    exact collect_reportsDeltas (run_keeps first middle) last
  · intro name hlo hall field i hfield
    have hlast : lastSample first (middle ++ [last]) = last := by
      unfold lastSample
      rw [List.getLast?_concat]
      rfl
    have hsum := reports_telescope hlo hfield (middle ++ [last]) _ first (init_keeps first) hall
    rw [hlast] at hsum
    exact hsum

def etherRow (value : UInt64) : NetRow where
  name := "eth0".toList
  counters := fun _ => value
  indent := 2
  gap := fun _ => 1
  trail := 0
  named := by decide
  valid := by
    intro c hc
    have hall : "eth0".toList.all (fun c => c != ':' && !isSpace c) = true := rfl
    have hboth := List.all_eq_true.mp hall c hc
    rw [Bool.and_eq_true, bne_iff_ne, Bool.not_eq_true'] at hboth
    exact hboth
  spaced := fun _ _ => Nat.one_pos

def etherSample (value : UInt64) : NetSample where
  header := []
  subheader := []
  rows := [etherRow value]
  headerLine := List.not_mem_nil
  subheaderLine := List.not_mem_nil
  distinct := List.nodup_singleton _

/-- Two rounds of an interface whose counters wrap around in the first. -/
theorem reports_exact_deltas_wrap :
    ((reports (({} : NetMonitor).init (etherSample (UInt64.ofNat (2 ^ 64 - 1))).text)
        ([etherSample 4] ++ [etherSample 6])).map
      (reported NetStats.rxPackets "eth0".toList)).sum = 7 := by
  have hsum := (reports_exact_deltas (etherSample (UInt64.ofNat (2 ^ 64 - 1))) [etherSample 4]
    (etherSample 6)).right "eth0".toList (by decide)
    (by
      intro s hs
      rcases List.mem_cons.mp hs with heq | hs
      · rw [heq]
        exact ⟨etherRow (UInt64.ofNat (2 ^ 64 - 1)), List.mem_singleton_self _, rfl⟩
      rcases List.mem_cons.mp hs with heq | hs
      · rw [heq]
        exact ⟨etherRow 4, List.mem_singleton_self _, rfl⟩
      · rw [List.mem_singleton.mp hs]
        exact ⟨etherRow 6, List.mem_singleton_self _, rfl⟩)
    NetStats.rxPackets 1 (List.mem_cons_self)
  rw [hsum]
  decide

end NetMonitor

end Worker
end PerfMonitor
