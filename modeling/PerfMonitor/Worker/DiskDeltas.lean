import PerfMonitor.Foundation.Counters
import PerfMonitor.Foundation.Run
import PerfMonitor.Worker.DiskMonitor

/-!
# Device deltas over whole runs

A sample is a list of lines: block devices rendered the way the kernel writes
`/proc/diskstats`, and malformed lines in between.  Which lines count as malformed
is a parameter.  For lines that do not begin with the thirteen fields, a reading
gives the map of the device rows alone, and every `Collect` publishes the
differences between two consecutive samples.
-/

namespace PerfMonitor
namespace Worker

open Foundation

structure DiskRow where
  indent : Nat
  major : Nat
  minorGap : Nat
  minor : Nat
  nameGap : Nat
  name : Str
  stats : List (Nat × UInt64)
  /-- Further columns of any content. -/
  trail : Str
  majorFits : major < 2 ^ 31
  minorFits : minor < 2 ^ 31
  named : name ≠ []
  valid : forall c, c ∈ name -> isSpace c = false
  enough : 11 ≤ stats.length
  minorSpaced : 0 < minorGap
  nameSpaced : 0 < nameGap
  spaced : forall col, col ∈ stats -> 0 < col.1
  trailSpaced : StopsAt (fun c => !isSpace c) trail
  trailLine : '\n' ∉ trail

namespace DiskRow

def text (r : DiskRow) : Str :=
  column r.indent r.major ++ (column r.minorGap r.minor ++
    (blanks r.nameGap ++ (r.name ++ (columns r.stats ++ r.trail))))

instance : NeZero 11 := ⟨by decide⟩

def stat (r : DiskRow) (i : Fin 11) : UInt64 :=
  (r.stats.get (i.castLE r.enough)).2

def raw (r : DiskRow) : DiskRaw where
  readsDone := r.stat 0
  writesDone := r.stat 4
  readSectors := r.stat 2
  writeSectors := r.stat 6
  ioTicks := r.stat 9

end DiskRow

inductive DiskLine (Malformed : Str -> Prop) where
  | device (row : DiskRow)
  | malformed (text : Str) (line : '\n' ∉ text) (bad : Malformed text)

namespace DiskLine

variable {Malformed : Str -> Prop}

def text : DiskLine Malformed -> Str
  | .device row => row.text
  | .malformed text _ _ => text

def row? : DiskLine Malformed -> Option DiskRow
  | .device row => some row
  | .malformed _ _ _ => none

end DiskLine

/-- One reading of `/proc/diskstats`. -/
structure DiskSample (Malformed : Str -> Prop) where
  lines : List (DiskLine Malformed)
  distinct : ((lines.filterMap DiskLine.row?).map DiskRow.name).Nodup

namespace DiskSample

variable {Malformed : Str -> Prop}

def text (s : DiskSample Malformed) : Str :=
  (s.lines.map DiskLine.text).flatMap (fun l => l ++ ['\n'])

def rows (s : DiskSample Malformed) : List DiskRow :=
  s.lines.filterMap DiskLine.row?

end DiskSample

/-- The fields that `ParseDiskStatsLine` needs. -/
def diskFields : List FieldKind :=
  [.int, .int, .word, .uint64, .uint64, .uint64, .uint64, .uint64, .uint64, .uint64, .uint64,
    .uint64, .uint64]

def LacksFields (line : Str) : Prop :=
  ¬ FirstFields diskFields line

/-!
## Reading a line
-/

theorem parseDiskStatsLine_lacksFields {line : Str} (hline : LacksFields line) :
    DiskMonitor.parseDiskStatsLine line = none := by
  cases hparse : DiskMonitor.parseDiskStatsLine line with
  | none => rfl
  | some entry =>
      exfalso
      apply hline
      unfold DiskMonitor.parseDiskStatsLine at hparse
      dsimp only at hparse
      split at hparse
      next hok =>
        -- one step back for each extraction
        have hstart : InputStream.GoesOn diskFields { rest := line } := by
          apply InputStream.goesOn_getInt
          apply InputStream.goesOn_getInt
          apply InputStream.goesOn_getWord
          iterate 10 apply InputStream.goesOn_getUInt64
          exact ⟨hok, trivial⟩
        exact hstart.right
      · cases hparse

namespace DiskRow

theorem getUInt64_stat (r : DiskRow) (k : Nat) (hk : k < 11) (old : UInt64) :
    InputStream.getUInt64 { rest := columns (r.stats.drop k) ++ r.trail } old =
      (r.stat ⟨k, hk⟩, { rest := columns (r.stats.drop (k + 1)) ++ r.trail }) := by
  have hspaced : forall col, col ∈ r.stats.tail -> 0 < col.1 := by
    intro col hcol
    exact r.spaced col (List.mem_of_mem_tail hcol)
  exact getUInt64_drop hspaced (stopsAt_isDigit_of_space r.trailSpaced)
    (Nat.lt_of_lt_of_le hk r.enough) old

theorem parseDiskStatsLine_text (r : DiskRow) :
    DiskMonitor.parseDiskStatsLine r.text = some (r.name, r.raw) := by
  have hmajor := InputStream.getInt_column r.indent
    (stopsAt_column (p := isDigit) rfl r.minorSpaced
      (Nat.toDigits 10 r.minor ++
        (blanks r.nameGap ++ (r.name ++ (columns r.stats ++ r.trail))))) r.majorFits 0
  have hminor := InputStream.getInt_column r.minorGap
    (stopsAt_column (p := isDigit) rfl r.nameSpaced
      (r.name ++ (columns r.stats ++ r.trail))) r.minorFits 0
  have hname := InputStream.getWord_blanks r.nameGap r.named r.valid
    (stopsAt_columns (p := fun c => !isSpace c) rfl r.spaced r.trailSpaced) []
  have hfirst := r.getUInt64_stat 0 (by decide) 0
  have hstat := fun k hk => r.getUInt64_stat (k + 1) hk 0
  unfold DiskMonitor.parseDiskStatsLine text
  simp only [column, List.append_assoc] at hmajor hminor ⊢
  rw [List.drop_zero] at hfirst
  simp only [hmajor, hminor, hname, hfirst, hstat 0 (by decide), hstat 1 (by decide),
    hstat 2 (by decide), hstat 3 (by decide), hstat 4 (by decide), hstat 5 (by decide),
    hstat 6 (by decide), hstat 7 (by decide), hstat 8 (by decide), if_true]
  rfl

theorem newline_notMem_text (r : DiskRow) : '\n' ∉ r.text := by
  intro hmem
  unfold text at hmem
  rcases List.mem_append.mp hmem with hmajor | hmem
  · exact newline_notMem_column _ _ hmajor
  rcases List.mem_append.mp hmem with hminor | hmem
  · exact newline_notMem_column _ _ hminor
  rcases List.mem_append.mp hmem with hgap | hmem
  · exact newline_notMem_blanks _ hgap
  rcases List.mem_append.mp hmem with hname | hmem
  · exact absurd (r.valid _ hname) (by decide)
  rcases List.mem_append.mp hmem with hstats | htrail
  · exact newline_notMem_columns _ hstats
  · exact r.trailLine htrail

end DiskRow

/-!
## The map of the last sample
-/

def Shown (name : Str) : Prop :=
  ¬ "loop".toList <+: name ∧ ¬ "ram".toList <+: name

instance (name : Str) : Decidable (Shown name) :=
  inferInstanceAs (Decidable (_ ∧ _))

namespace DiskSample

def find {Malformed : Str -> Prop} (s : DiskSample Malformed) (name : Str) : Option DiskRow :=
  (s.rows.filter (fun r => decide (Shown r.name))).find? (fun r => decide (r.name = name))

theorem filterMap_parse_text (s : DiskSample LacksFields) :
    (Foundation.lines s.text).filterMap DiskMonitor.parseDiskStatsLine =
      s.rows.map (fun r => (r.name, r.raw)) := by
  have hlines : Foundation.lines s.text = s.lines.map DiskLine.text := by
    apply lines_flatMap
    intro l hl
    rcases List.mem_map.mp hl with ⟨line, _, heq⟩
    rw [← heq]
    cases line with
    | device row => exact row.newline_notMem_text
    | malformed text hline _ => exact hline
  unfold rows
  rw [hlines, List.filterMap_map, List.map_filterMap]
  apply List.filterMap_congr
  intro line _
  cases line with
  | device row => exact row.parseDiskStatsLine_text
  | malformed text _ hbad => exact parseDiskStatsLine_lacksFields hbad

theorem lookup_kept (s : DiskSample LacksFields) {keep : Str × DiskRaw -> Bool}
    (hkeep : forall e, e.1 ≠ [] -> keep e = decide (Shown e.1)) (name : Str) :
    ((∅ : Table Str DiskRaw).insertAll
      (((Foundation.lines s.text).filterMap DiskMonitor.parseDiskStatsLine).filter keep)).lookup
        name = (s.find name).map DiskRow.raw := by
  have hrows : (s.rows.map (fun r => (r.name, r.raw))).filter keep =
      (s.rows.filter (fun r => decide (Shown r.name))).map (fun r => (r.name, r.raw)) := by
    rw [List.filter_map]
    congr 1
    apply List.filter_congr
    intro r _
    exact hkeep (r.name, r.raw) r.named
  have hdistinct : ((s.rows.filter (fun r => decide (Shown r.name))).map DiskRow.name).Nodup :=
    s.distinct.sublist (List.filter_sublist.map DiskRow.name)
  rw [filterMap_parse_text, hrows]
  exact Table.lookup_insertAll_rows hdistinct DiskRow.raw (AList.lookup_empty name)

theorem find_of_mem (s : DiskSample LacksFields) {r : DiskRow} (hr : r ∈ s.rows)
    (hshown : Shown r.name) : s.find r.name = some r := by
  have hdistinct : ((s.rows.filter (fun r => decide (Shown r.name))).map DiskRow.name).Nodup :=
    s.distinct.sublist (List.filter_sublist.map DiskRow.name)
  exact find?_key_of_mem hdistinct (List.mem_filter.mpr ⟨hr, decide_eq_true hshown⟩)

theorem mem_of_find {s : DiskSample LacksFields} {name : Str} {r : DiskRow}
    (h : s.find name = some r) : (r ∈ s.rows ∧ r.name = name) ∧ Shown name := by
  rcases mem_of_find?_key h with ⟨hr, hname⟩
  rcases List.mem_filter.mp hr with ⟨hmem, hshown⟩
  rw [hname] at hshown
  exact ⟨⟨hmem, hname⟩, of_decide_eq_true hshown⟩

end DiskSample

namespace DiskMonitor

theorem startsWith_eq_true_iff (name dev : Str) : startsWith name dev = true <-> name <+: dev :=
  List.isPrefixOf_iff_prefix

theorem decide_shown (dev : Str) :
    decide (Shown dev) = (!startsWith "loop".toList dev && !startsWith "ram".toList dev) := by
  rw [Bool.eq_iff_iff, decide_eq_true_iff, Bool.and_eq_true, Bool.not_eq_true', Bool.not_eq_true',
    ← Bool.not_eq_true, ← Bool.not_eq_true, startsWith_eq_true_iff, startsWith_eq_true_iff]
  rfl

def Keeps (m : DiskMonitor) (s : DiskSample LacksFields) : Prop :=
  forall name, m.prevMap.lookup name = (s.find name).map DiskRow.raw

theorem init_keeps (s : DiskSample LacksFields) : ({} : DiskMonitor).init s.text |>.Keeps s := by
  intro name
  apply s.lookup_kept
  intro e hne
  have hnonempty : e.1.isEmpty = false := List.isEmpty_eq_false_iff.mpr hne
  simp only [hnonempty, decide_shown, Bool.not_false, Bool.true_and]

theorem collect_keeps (m : DiskMonitor) (s : DiskSample LacksFields) :
    (m.collect s.text).Keeps s := by
  intro name
  apply s.lookup_kept
  intro e hne
  have hnonempty : e.1.isEmpty = false := List.isEmpty_eq_false_iff.mpr hne
  simp only [hnonempty, decide_shown, Bool.false_or, Bool.not_or]

/-- What a `Collect` has to say about a device. -/
def published (prev cur : DiskSample LacksFields) (name : Str) : Option DiskStats :=
  (cur.find name).bind (fun c => (prev.find name).map (fun p => diskStats name p.raw c.raw))

theorem filter_collect {m : DiskMonitor} {prev : DiskSample LacksFields} (hm : m.Keeps prev)
    (cur : DiskSample LacksFields) (name : Str) :
    (m.collect cur.text).disks.filter (fun ds => decide (ds.device = name)) =
      (published prev cur name).toList := by
  have hcur : (m.collect cur.text).prevMap.lookup name = (cur.find name).map DiskRow.raw :=
    m.collect_keeps cur name
  have hnamed : forall e, e ∈ (m.collect cur.text).prevMap.entries -> forall ds : DiskStats,
      publish m.prevMap e.1 e.2 = some ds -> ds.device = e.1 := by
    intro e _ ds hds
    rcases Option.map_eq_some_iff.mp hds with ⟨_, _, heq⟩
    rw [← heq]
    rfl
  calc
    (m.collect cur.text).disks.filter (fun ds => decide (ds.device = name)) =
        (((m.collect cur.text).prevMap.lookup name).bind
          (fun raw => publish m.prevMap name raw)).toList :=
      Table.filter_filterMap_entries (m.collect cur.text).prevMap hnamed name
    _ = (published prev cur name).toList := by
      rw [hcur]
      cases hfind : cur.find name with
      | none => simp [published, hfind]
      | some c => simp [published, hfind, publish, hm name, Function.comp_def]

theorem published_eq_some_iff {prev cur : DiskSample LacksFields} {name : Str} {ds : DiskStats} :
    published prev cur name = some ds <->
      exists p c, prev.find name = some p ∧ cur.find name = some c ∧
        ds = diskStats name p.raw c.raw := by
  constructor
  · intro h
    rcases Option.bind_eq_some_iff.mp h with ⟨c, hc, hds⟩
    rcases Option.map_eq_some_iff.mp hds with ⟨p, hp, heq⟩
    exact ⟨p, c, hp, hc, heq.symm⟩
  · rintro ⟨p, c, hp, hc, heq⟩
    unfold published
    rw [hc, Option.bind_some, hp, heq]
    rfl

theorem mem_disks_iff {m : DiskMonitor} {prev : DiskSample LacksFields} (hm : m.Keeps prev)
    (cur : DiskSample LacksFields) {ds : DiskStats} :
    ds ∈ (m.collect cur.text).disks <-> published prev cur ds.device = some ds := by
  rw [← Option.mem_toList, ← filter_collect hm, List.mem_filter]
  simp only [decide_true, and_true]

end DiskMonitor

/-!
## Runs of the monitor
-/

def reportedStats : List (Fin 11) :=
  [0, 2, 4, 6, 9]

/-- The reported statistics do not decrease and stay below `2 ^ 63`. -/
def Increases (p c : DiskRow) : Prop :=
  forall i, i ∈ reportedStats -> p.stat i ≤ c.stat i ∧ (c.stat i).toNat < 2 ^ 63

def difference (p c : DiskRow) (i : Fin 11) : Rat :=
  ((c.stat i).toNat : Rat) - ((p.stat i).toNat : Rat)

structure ExactDifferences (ds : DiskStats) (p c : DiskRow) : Prop where
  iops : ds.iops = difference p c 0 + difference p c 4
  readMbps : ds.readMbps = difference p c 2 / 2048
  writeMbps : ds.writeMbps = difference p c 6 / 2048
  ioLatencyMs : ds.ioLatencyMs = difference p c 9

/-- One entry for each shown device that occurs in both samples, and no other. -/
structure ReportsDisks {Malformed : Str -> Prop} (disks : List DiskStats)
    (prev cur : DiskSample Malformed) : Prop where
  once : forall p c, p ∈ prev.rows -> c ∈ cur.rows -> p.name = c.name -> Shown c.name ->
    exists ds, disks.filter (fun ds => decide (ds.device = c.name)) = [ds] ∧
      (Increases p c -> ExactDifferences ds p c)
  only : forall ds, ds ∈ disks -> Shown ds.device ∧
    (exists p, p ∈ prev.rows ∧ p.name = ds.device) ∧ exists c, c ∈ cur.rows ∧ c.name = ds.device

namespace DiskMonitor

def collectSample {Malformed : Str -> Prop} (m : DiskMonitor) (s : DiskSample Malformed) :
    DiskMonitor :=
  m.collect s.text

/-- The sample before the next `Collect`. -/
def lastSample {Malformed : Str -> Prop} (first : DiskSample Malformed)
    (later : List (DiskSample Malformed)) : DiskSample Malformed :=
  later.getLast?.getD first

theorem exactDifferences_diskStats (name : Str) {p c : DiskRow} (h : Increases p c) :
    ExactDifferences (diskStats name p.raw c.raw) p c := by
  have hreads := h 0 (by decide)
  have hreadSectors := h 2 (by decide)
  have hwrites := h 4 (by decide)
  have hwriteSectors := h 6 (by decide)
  have hticks := h 9 (by decide)
  constructor
  · exact toNat_sub_add_cast hreads.left hwrites.left hreads.right hwrites.right
  · show ((c.stat 2 - p.stat 2).toNat : Rat) * 512 / (1024 * 1024) = _
    rw [toNat_sub_cast hreadSectors.left, difference]
    ring
  · show ((c.stat 6 - p.stat 6).toNat : Rat) * 512 / (1024 * 1024) = _
    rw [toNat_sub_cast hwriteSectors.left, difference]
    ring
  · show ((c.stat 9 - p.stat 9).toNat : Rat) * 1 = _
    rw [toNat_sub_cast hticks.left, difference, mul_one]

theorem collect_reportsDisks {m : DiskMonitor} {prev : DiskSample LacksFields}
    (hm : m.Keeps prev) (cur : DiskSample LacksFields) :
    ReportsDisks (m.collect cur.text).disks prev cur := by
  constructor
  · intro p c hp hc hname hshown
    have hprev : prev.find c.name = some p := by
      rw [← hname] at hshown ⊢
      exact prev.find_of_mem hp hshown
    have hpublished : published prev cur c.name = some (diskStats c.name p.raw c.raw) :=
      published_eq_some_iff.mpr ⟨p, c, hprev, cur.find_of_mem hc hshown, rfl⟩
    refine ⟨diskStats c.name p.raw c.raw, ?_, exactDifferences_diskStats c.name⟩
    rw [filter_collect hm, hpublished]
    rfl
  · intro ds hds
    have hpublished := (mem_disks_iff hm cur).mp hds
    rcases published_eq_some_iff.mp hpublished with ⟨p, c, hp, hc, _⟩
    rcases DiskSample.mem_of_find hc with ⟨hc, hshown⟩
    exact ⟨hshown, ⟨p, (DiskSample.mem_of_find hp).left⟩, ⟨c, hc⟩⟩

theorem run_keeps (first : DiskSample LacksFields) (later : List (DiskSample LacksFields)) :
    (runFrom collectSample (({} : DiskMonitor).init first.text) later).Keeps
      (lastSample first later) :=
  runFrom_last collect_keeps (init_keeps first) later

/-- After `Init` on the first sample and a `Collect` on each later one, the vector
holds the differences between the last two samples. -/
theorem reports_exact_disks (first : DiskSample LacksFields)
    (middle : List (DiskSample LacksFields)) (last : DiskSample LacksFields) :
    ReportsDisks
      (runFrom collectSample (({} : DiskMonitor).init first.text) (middle ++ [last])).disks
      (lastSample first middle) last := by
  rw [runFrom_concat]
  exact collect_reportsDisks (run_keeps first middle) last

/-!
## A malformed line that is taken for a device

With malformed lines taken as those of fewer than thirteen columns, the property
fails: a number ends before the first character that is not a digit, so a device
name may be glued to the minor number.
-/

def FewColumns (line : Str) : Prop :=
  (words line).length < 13

def gluedLine : Str :=
  "8 0sda 1 2 3 4 5 6 7 8 9 10".toList

def gluedSample : DiskSample FewColumns where
  lines := [.malformed gluedLine (by decide) (by unfold FewColumns; decide)]
  distinct := List.nodup_nil

theorem gluedSample_is_reported :
    ¬ ReportsDisks (runFrom collectSample (({} : DiskMonitor).init gluedSample.text)
      ([] ++ [gluedSample])).disks (lastSample gluedSample []) gluedSample := by
  intro hreports
  have hdevices : (runFrom collectSample (({} : DiskMonitor).init gluedSample.text)
      ([] ++ [gluedSample])).disks.map DiskStats.device = ["sda".toList] := by
    decide
  have hmem : "sda".toList ∈ (runFrom collectSample (({} : DiskMonitor).init gluedSample.text)
      ([] ++ [gluedSample])).disks.map DiskStats.device := by
    rw [hdevices]
    exact List.mem_singleton_self _
  rcases List.mem_map.mp hmem with ⟨ds, hds, _⟩
  rcases (hreports.only ds hds).right.left with ⟨p, hp, _⟩
  cases hp

end DiskMonitor

end Worker
end PerfMonitor
