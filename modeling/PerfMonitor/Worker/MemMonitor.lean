import Mathlib.Algebra.Order.Field.Basic
import Mathlib.Tactic.FieldSimp
import PerfMonitor.Foundation.Containers
import PerfMonitor.Foundation.Conversion
import PerfMonitor.Foundation.Counters
import PerfMonitor.Foundation.Text
import PerfMonitor.Worker.MonitorStructs

/-!
# Memory monitor

`Collect` of `worker/src/monitor/mem_monitor.cpp` over the text of `/proc/meminfo`.
A line counts if it has a colon and, after it, a `kB`; the number between them is
converted by `std::stoull`, whose exceptions nothing catches.
-/

namespace PerfMonitor
namespace Worker

open Foundation

namespace MemMonitor

def parseLine (line : Str) : Except ConversionError (Option (Str × UInt64)) :=
  match findChar ':' line with
  | none => .ok none
  | some pos =>
      let key := line.take pos
      let val := line.drop (pos + 1)
      match findText "kB".toList val with
      | none => .ok none
      | some kPos =>
          match stoull (val.take kPos) with
          | .error e => .error e
          | .ok kb => .ok (some (key, kb))

def readLines : List Str -> Table Str UInt64 -> Except ConversionError (Table Str UInt64)
  | [], m => .ok m
  | line :: rest, m =>
      match parseLine line with
      | .error e => .error e
      | .ok none => readLines rest m
      | .ok (some (key, kb)) => readLines rest (m.insert key kb)

/-- `m[key]`, which inserts a zero for a missing key. -/
def value (m : Table Str UInt64) (key : String) : UInt64 :=
  (m.lookup key.toList).getD 0

def toGb (kb : UInt64) : Rat :=
  (kb.toNat : Rat) / (1024 * 1024)

def usage (m : Table Str UInt64) : MemUsage :=
  let totalGb := toGb (value m "MemTotal")
  let freeGb := toGb (value m "MemFree")
  let cachedGb := toGb (value m "Cached")
  let buffersGb := toGb (value m "Buffers")
  let usedGb := totalGb - freeGb - cachedGb - buffersGb
  { totalGb := totalGb
    usedGb := usedGb
    freeGb := freeGb
    availableGb := toGb (value m "MemAvailable")
    cachedGb := cachedGb
    buffersGb := buffersGb
    swapTotalGb := toGb (value m "SwapTotal")
    swapUsedGb := toGb (value m "SwapTotal" - value m "SwapFree")
    usedPct := if 0 < totalGb then usedGb / totalGb * 100 else 0 }

def collect (content : Str) : Except ConversionError MemUsage :=
  (readLines (lines content) ∅).map usage

end MemMonitor

/-!
## The file
-/

/-- A line of `/proc/meminfo`: a key, a number and perhaps the unit. -/
structure MemRow where
  key : Str
  gap : Nat
  kb : UInt64
  unit : Bool
  valid : forall c, c ∈ key -> c ≠ ':' ∧ isSpace c = false
  spaced : 0 < gap

namespace MemRow

def unitText (r : MemRow) : Str :=
  if r.unit then " kB".toList else []

def text (r : MemRow) : Str :=
  r.key ++ ':' :: (column r.gap r.kb.toNat ++ r.unitText)

def amount (r : MemRow) : UInt64 :=
  if r.unit then r.kb else 0

def entry (r : MemRow) : Option (Str × UInt64) :=
  if r.unit then some (r.key, r.kb) else none

end MemRow

structure MemInfo (content : Str) where
  rows : List MemRow
  lines_eq : lines content = rows.map MemRow.text
  distinct : (rows.map MemRow.key).Nodup

namespace MemInfo

variable {content : Str}

def find (info : MemInfo content) (key : String) : Option MemRow :=
  info.rows.find? (fun r => decide (r.key = key.toList))

/-- The number of kilobytes under a key: a missing key, or one without the unit,
counts as zero. -/
def kb (info : MemInfo content) (key : String) : UInt64 :=
  ((info.find key).map MemRow.amount).getD 0

end MemInfo

/-!
## Reading the rows
-/

namespace MemRow

theorem notMem_column {c : Char} (hblank : c ≠ ' ') (hdigit : isDigit c = false) (gap n : Nat) :
    c ∉ column gap n := by
  intro hmem
  rcases List.mem_append.mp hmem with hmem | hmem
  · exact hblank (List.eq_of_mem_replicate hmem)
  · have htrue := isDigit_of_mem_toDigits hmem
    rw [hdigit] at htrue
    cases htrue

theorem findChar_text (r : MemRow) : findChar ':' r.text = some r.key.length :=
  findChar_append (fun hmem => (r.valid ':' hmem).left rfl) _

theorem take_text (r : MemRow) : r.text.take r.key.length = r.key :=
  List.take_left

theorem drop_text (r : MemRow) :
    r.text.drop (r.key.length + 1) = column r.gap r.kb.toNat ++ r.unitText := by
  unfold text
  rw [← List.drop_drop, List.drop_left]
  rfl

theorem findText_unit (r : MemRow) :
    findText "kB".toList (column r.gap r.kb.toNat ++ r.unitText) =
      if r.unit then some ((column r.gap r.kb.toNat).length + 1) else none := by
  have hfree : 'k' ∉ column r.gap r.kb.toNat := notMem_column (by decide) rfl _ _
  unfold unitText
  cases r.unit with
  | true =>
      have hfront : 'k' ∉ column r.gap r.kb.toNat ++ [' '] := by
        rw [List.mem_append]
        rintro (hmem | hmem)
        · exact hfree hmem
        · exact absurd hmem (by decide)
      have hfind : findText ('k' :: ['B'])
          ((column r.gap r.kb.toNat ++ [' ']) ++ ('k' :: ['B'] ++ [])) = _ :=
        findText_append hfront []
      rw [List.append_assoc, List.length_append] at hfind
      exact hfind
  | false =>
      have hnone : findText "kB".toList (column r.gap r.kb.toNat) = none := by
        apply findText_eq_none.mpr
        intro hpair
        exact hfree (hpair.subset List.mem_cons_self)
      rw [if_neg Bool.false_ne_true, if_neg Bool.false_ne_true, List.append_nil]
      exact hnone

theorem parseLine_text (r : MemRow) : MemMonitor.parseLine r.text = .ok r.entry := by
  unfold MemMonitor.parseLine entry
  simp only [findChar_text, take_text, drop_text, findText_unit]
  cases hunit : r.unit with
  | true =>
      have htake : (column r.gap r.kb.toNat ++ r.unitText).take
          ((column r.gap r.kb.toNat).length + 1) = column r.gap r.kb.toNat ++ [' '] := by
        rw [List.take_length_add_append, unitText, hunit]
        rfl
      have hvalue : stoull (column r.gap r.kb.toNat ++ [' ']) = .ok r.kb :=
        stoull_column r.gap r.kb (stopsAt_cons rfl [])
      simp only [if_true, htake, hvalue]
  | false => rfl

end MemRow

theorem readLines_rows (rows : List MemRow) (m : Table Str UInt64) :
    MemMonitor.readLines (rows.map MemRow.text) m =
      .ok (m.insertAll (rows.filterMap MemRow.entry)) := by
  induction rows generalizing m with
  | nil => rfl
  | cons r rest ih =>
      rw [List.map_cons, MemMonitor.readLines, r.parseLine_text]
      cases hentry : r.entry with
      | none =>
          rw [List.filterMap_cons_none hentry]
          exact ih m
      | some pair =>
          rw [List.filterMap_cons_some hentry]
          exact ih (m.insert pair.1 pair.2)

/-!
## What is published
-/

/-- The share is the same in gigabytes and in kilobytes. -/
theorem share_of_gigabytes {total : Rat} (htotal : 0 ≤ total) (free cached buffers : Rat) :
    (if 0 < total / (1024 * 1024) then
      (total / (1024 * 1024) - free / (1024 * 1024) - cached / (1024 * 1024) -
        buffers / (1024 * 1024)) / (total / (1024 * 1024)) * 100
      else 0) =
      if total = 0 then 0 else 100 * (total - free - cached - buffers) / total := by
  by_cases hzero : total = 0
  · rw [if_pos hzero, hzero, zero_div, if_neg (lt_irrefl 0)]
  · have hpos : 0 < total := lt_of_le_of_ne htotal (Ne.symm hzero)
    have hgb : 0 < total / (1024 * 1024) := div_pos hpos (by norm_num)
    rw [if_neg hzero, if_pos hgb]
    field_simp

theorem entry_eq_map (rows : List MemRow) :
    rows.filterMap MemRow.entry =
      (rows.filter MemRow.unit).map (fun r => (r.key, r.kb)) := by
  induction rows with
  | nil => rfl
  | cons r rest ih =>
      cases hunit : r.unit with
      | true =>
          have hentry : r.entry = some (r.key, r.kb) := if_pos hunit
          rw [List.filterMap_cons_some hentry, List.filter_cons_of_pos hunit, ih]
          rfl
      | false =>
          have hlacks : ¬ r.unit = true := by
            rw [hunit]
            exact Bool.false_ne_true
          have hentry : r.entry = none := if_neg hlacks
          rw [List.filterMap_cons_none hentry, List.filter_cons_of_neg hlacks, ih]

namespace MemInfo

variable {content : Str} (info : MemInfo content)

theorem value_insertAll (key : String) :
    MemMonitor.value ((∅ : Table Str UInt64).insertAll (info.rows.filterMap MemRow.entry)) key =
      info.kb key := by
  have hkept : ((info.rows.filter MemRow.unit).map MemRow.key).Nodup :=
    info.distinct.sublist (List.filter_sublist.map MemRow.key)
  unfold MemMonitor.value kb find
  rw [entry_eq_map, Table.lookup_insertAll_rows hkept MemRow.kb (AList.lookup_empty _),
    find?_key_filter info.distinct]
  cases info.rows.find? (fun r => decide (r.key = key.toList)) with
  | none => rfl
  | some r =>
      rw [Option.filter_some, Option.map_some, MemRow.amount]
      split
      · rfl
      · rfl

def amount (key : String) : Rat :=
  ((info.kb key).toNat : Rat)

theorem amount_nonneg (key : String) : 0 ≤ info.amount key :=
  Nat.cast_nonneg _

/-- The share of the memory that is neither free nor cached nor in buffers. -/
def usedPct : Rat :=
  if info.amount "MemTotal" = 0 then 0
  else
    100 * (info.amount "MemTotal" - info.amount "MemFree" - info.amount "Cached" -
      info.amount "Buffers") / info.amount "MemTotal"

theorem collect_eq :
    MemMonitor.collect content = .ok (MemMonitor.usage
      ((∅ : Table Str UInt64).insertAll (info.rows.filterMap MemRow.entry))) := by
  unfold MemMonitor.collect
  rw [info.lines_eq, readLines_rows]
  rfl

theorem usage_usedPct :
    (MemMonitor.usage
      ((∅ : Table Str UInt64).insertAll (info.rows.filterMap MemRow.entry))).usedPct =
        info.usedPct := by
  simp only [MemMonitor.usage, MemMonitor.toGb, value_insertAll]
  exact share_of_gigabytes (info.amount_nonneg "MemTotal") _ _ _

theorem usage_swapUsedGb (hswap : info.kb "SwapFree" ≤ info.kb "SwapTotal") :
    (MemMonitor.usage
      ((∅ : Table Str UInt64).insertAll (info.rows.filterMap MemRow.entry))).swapUsedGb =
        (info.amount "SwapTotal" - info.amount "SwapFree") / 2 ^ 20 := by
  show MemMonitor.toGb (MemMonitor.value _ "SwapTotal" - MemMonitor.value _ "SwapFree") = _
  rw [info.value_insertAll, info.value_insertAll, MemMonitor.toGb, toNat_sub_cast hswap]
  norm_num [amount]

end MemInfo

end Worker
end PerfMonitor
