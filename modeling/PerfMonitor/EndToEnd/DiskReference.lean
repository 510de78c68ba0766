import Mathlib.Algebra.BigOperators.Ring.Finset
import Mathlib.Algebra.Order.BigOperators.Group.List
import Mathlib.Algebra.Order.Field.Rat
import Mathlib.Tactic.LinearCombination
import PerfMonitor.EndToEnd.MemReference
import PerfMonitor.EndToEnd.Rates
import PerfMonitor.Foundation.Joining
import PerfMonitor.Foundation.Rounding

/-!
# The reference of the disk operations

`disk_raw` of `scripts/benchmark_resource_metric_accuracy.sh` adds up the fourth and the
eighth field of the lines of `/proc/diskstats` whose third field does not begin with
`loop` or `ram`.  These are the reads and writes of the devices that the monitor keeps.
The numbers of awk are doubles.
-/

namespace PerfMonitor
namespace EndToEnd

open Foundation Worker Manager

structure DiskRaws where
  reads : Rat := 0
  writes : Rat := 0
deriving DecidableEq, Repr

/-- `/^(loop|ram)/`. -/
def isLoopOrRam (text : Str) : Bool :=
  "loop".toList.isPrefixOf text || "ram".toList.isPrefixOf text

def DiskRaws.rule (vars : DiskRaws) (record : Str) : DiskRaws :=
  if isLoopOrRam (Awk.field record 3).text then vars
  else
    { reads := double (vars.reads + double (Awk.field record 4).number)
      writes := double (vars.writes + double (Awk.field record 8).number) }

/-- `printf "%.0f\n", reads+writes`. -/
def diskRaw (content : Str) : Rat :=
  let vars := (lines content).foldl DiskRaws.rule {}
  fixedPoint 0 (double (vars.reads + vars.writes))

/-- `printf "%.2f", b-a`. -/
def referenceIops (a b : Rat) : Rat :=
  fixedPoint 2 (double (double b - double a))

theorem referenceIops_eq {a b : Nat} (ha : a ≤ 2 ^ 53) (hb : b ≤ 2 ^ 53) :
    referenceIops a b = b - a := by
  have hdifference : |(b : Int) - a| ≤ 2 ^ 53 := by
    rw [abs_le]
    omega
  have hcast : (b : Rat) - a = (((b : Int) - a : Int) : Rat) := by
    push_cast
    rfl
  unfold referenceIops
  rw [double_natCast ha, double_natCast hb, hcast, double_intCast hdifference, fixedPoint_intCast]

/-!
## The fields of a row
-/

theorem fields_columns {cols : List (Nat × UInt64)} (hspaced : forall col, col ∈ cols -> 0 < col.1)
    (rest : List Char) {k : Nat} (hk : k + 1 < cols.length) :
    (Awk.fields (columns cols ++ rest))[k]? = some (Nat.toDigits 10 (cols[k]).2.toNat) := by
  induction cols generalizing k with
  | nil => exact absurd hk (Nat.not_lt_zero _)
  | cons col cols ih =>
      cases cols with
      | nil => exact absurd hk (by simp)
      | cons next cols =>
          have hnext := hspaced next (by simp)
          have hfields : Awk.fields (columns (col :: next :: cols) ++ rest) =
              Nat.toDigits 10 col.2.toNat :: Awk.fields (columns (next :: cols) ++ rest) := by
            have htext : columns (col :: next :: cols) ++ rest =
                blanks col.1 ++ (Nat.toDigits 10 col.2.toNat ++
                  (blanks next.1 ++ (Nat.toDigits 10 next.2.toNat ++ (columns cols ++ rest)))) := by
              simp only [columns, column, List.flatMap_cons, List.append_assoc]
            have hlater : columns (next :: cols) ++ rest =
                blanks next.1 ++ (Nat.toDigits 10 next.2.toNat ++ (columns cols ++ rest)) := by
              simp only [columns, column, List.flatMap_cons, List.append_assoc]
            rw [htext, Awk.fields_blanks, Awk.fields_cons (isWord_toDigits _) hnext, hlater,
              Awk.fields_blanks]
          rw [hfields]
          cases k with
          | zero => rfl
          | succ k =>
              exact ih (fun c hc => hspaced c (List.mem_cons_of_mem col hc))
                (Nat.lt_of_succ_lt_succ hk)

theorem fields_diskRow (r : DiskRow) :
    Awk.fields r.text =
      Nat.toDigits 10 r.major :: Nat.toDigits 10 r.minor :: r.name ::
        Awk.fields (columns r.stats ++ r.trail) := by
  have hstats : exists gap n rest, 0 < gap ∧
      columns r.stats ++ r.trail = blanks gap ++ (Nat.toDigits 10 n ++ rest) := by
    cases hcols : r.stats with
    | nil =>
        have hlen := r.enough
        rw [hcols] at hlen
        exact absurd hlen (by decide)
    | cons col cols =>
        refine ⟨col.1, col.2.toNat, columns cols ++ r.trail, ?_, ?_⟩
        · apply r.spaced
          rw [hcols]
          exact List.mem_cons_self
        · simp only [columns, column, List.flatMap_cons, List.append_assoc]
  rcases hstats with ⟨gap, n, rest, hgap, hrest⟩
  unfold DiskRow.text
  rw [hrest]
  simp only [column, List.append_assoc]
  rw [Awk.fields_blanks, Awk.fields_cons (isWord_toDigits _) r.minorSpaced,
    Awk.fields_cons (isWord_toDigits _) r.nameSpaced, Awk.fields_cons ⟨r.named, r.valid⟩ hgap,
    Awk.fields_blanks]

/-- The statistics of a row as awk reads them; the first three fields come before. -/
theorem field_stat (r : DiskRow) {i : Nat} (hi : i < 10) :
    Awk.field r.text (i + 4) =
      .input (Nat.toDigits 10 (r.stat ⟨i, Nat.lt_succ_of_lt hi⟩).toNat) := by
  have hget := fields_columns r.spaced r.trail (k := i) (Nat.lt_of_lt_of_le (by omega) r.enough)
  have hfield : (Awk.fields r.text)[i + 3]? =
      some (Nat.toDigits 10 (r.stat ⟨i, Nat.lt_succ_of_lt hi⟩).toNat) := by
    rw [fields_diskRow]
    exact hget
  exact Awk.field_of_fields hfield

def completed (r : DiskRow) : Nat :=
  (r.stat 0).toNat + (r.stat 4).toNat

theorem isLoopOrRam_iff (name : Str) : isLoopOrRam name = true <-> ¬ Shown name := by
  unfold isLoopOrRam Shown
  rw [Bool.or_eq_true, List.isPrefixOf_iff_prefix, List.isPrefixOf_iff_prefix, not_and_or,
    Classical.not_not, Classical.not_not]

theorem diskRule_text {reads writes : Nat} (r : DiskRow)
    (hreads : Shown r.name -> reads + (r.stat 0).toNat ≤ 2 ^ 53)
    (hwrites : Shown r.name -> writes + (r.stat 4).toNat ≤ 2 ^ 53) :
    ({ reads := (reads : Rat), writes := (writes : Rat) } : DiskRaws).rule r.text =
      if Shown r.name then
        { reads := ((reads + (r.stat 0).toNat : Nat) : Rat)
          writes := ((writes + (r.stat 4).toNat : Nat) : Rat) }
      else { reads := (reads : Rat), writes := (writes : Rat) } := by
  have hname : (Awk.field r.text 3).text = r.name := by
    simp [Awk.field, fields_diskRow, Awk.Value.text]
  have hread : (Awk.field r.text 4).number = ((r.stat 0).toNat : Rat) := by
    rw [field_stat r (i := 0) (by decide)]
    exact strtod_toDigits _
  have hwrite : (Awk.field r.text 8).number = ((r.stat 4).toNat : Rat) := by
    rw [field_stat r (i := 4) (by decide)]
    exact strtod_toDigits _
  unfold DiskRaws.rule
  rw [hname, hread, hwrite]
  by_cases hshown : Shown r.name
  · rw [if_pos hshown, if_neg (fun h => (isLoopOrRam_iff r.name).mp h hshown)]
    dsimp only
    rw [double_add_natCast (hreads hshown), double_add_natCast (hwrites hshown)]
  · rw [if_neg hshown, if_pos ((isLoopOrRam_iff r.name).mpr hshown)]

def shownRows (s : DiskSample LacksFields) : List DiskRow :=
  s.rows.filter (fun r => decide (Shown r.name))

def AllDevices (s : DiskSample LacksFields) : Prop :=
  s.lines = s.rows.map DiskLine.device

def diskTotal (s : DiskSample LacksFields) : Nat :=
  ((shownRows s).map completed).sum

theorem foldl_diskRule_text (rows : List DiskRow) {reads writes : Nat}
    (hfits : reads + writes +
      ((rows.filter (fun r => decide (Shown r.name))).map completed).sum ≤ 2 ^ 53) :
    exists reads' writes' : Nat,
      (rows.map DiskRow.text).foldl DiskRaws.rule
          { reads := (reads : Rat), writes := (writes : Rat) } =
        { reads := (reads' : Rat), writes := (writes' : Rat) } ∧
      reads' + writes' = reads + writes +
        ((rows.filter (fun r => decide (Shown r.name))).map completed).sum := by
  induction rows generalizing reads writes with
  | nil => exact ⟨reads, writes, rfl, rfl⟩
  | cons r rest ih =>
      by_cases hshown : Shown r.name
      · have hsum : (((r :: rest).filter (fun r => decide (Shown r.name))).map completed).sum =
            completed r + ((rest.filter (fun r => decide (Shown r.name))).map completed).sum := by
          rw [List.filter_cons_of_pos (by simpa using hshown), List.map_cons, List.sum_cons]
        have hboth : completed r = (r.stat 0).toNat + (r.stat 4).toNat := rfl
        rw [hsum] at hfits ⊢
        have hnext := @ih (reads + (r.stat 0).toNat) (writes + (r.stat 4).toNat) (by omega)
        rw [List.map_cons, List.foldl_cons, diskRule_text r (fun _ => by omega)
          (fun _ => by omega), if_pos hshown]
        rcases hnext with ⟨reads', writes', hfold, htotal⟩
        exact ⟨reads', writes', hfold, by omega⟩
      · rw [List.filter_cons_of_neg (by simpa using hshown)] at hfits ⊢
        rw [List.map_cons, List.foldl_cons, diskRule_text r (fun h => absurd h hshown)
          (fun h => absurd h hshown), if_neg hshown]
        exact ih hfits

theorem diskRaw_text {s : DiskSample LacksFields} (hdevices : AllDevices s)
    (hfits : diskTotal s ≤ 2 ^ 53) : diskRaw s.text = diskTotal s := by
  have hlines : lines s.text = s.rows.map DiskRow.text := by
    have htexts : s.lines.map DiskLine.text = s.rows.map DiskRow.text := by
      rw [hdevices, List.map_map]
      rfl
    unfold DiskSample.text
    rw [htexts]
    apply lines_flatMap
    intro l hl
    rcases List.mem_map.mp hl with ⟨r, _, heq⟩
    rw [← heq]
    exact r.newline_notMem_text
  have hrows : 0 + 0 +
      ((s.rows.filter (fun r => decide (Shown r.name))).map completed).sum = diskTotal s :=
    Nat.zero_add _
  rcases foldl_diskRule_text s.rows (hrows ▸ hfits) with ⟨reads, writes, hfold, hsum⟩
  have hprinted : fixedPoint 0 (diskTotal s : Rat) = diskTotal s := by
    exact_mod_cast fixedPoint_intCast 0 (diskTotal s)
  have hstart : ({} : DiskRaws) = { reads := ((0 : Nat) : Rat), writes := ((0 : Nat) : Rat) } := rfl
  unfold diskRaw
  rw [hlines, hstart, hfold]
  dsimp only
  rw [← Nat.cast_add, hsum, hrows, double_natCast hfits, hprinted]

/-!
## What the monitor publishes
-/

section Published

variable {m : DiskMonitor} {prev cur : DiskSample LacksFields}

theorem shown_distinct (s : DiskSample LacksFields) : ((shownRows s).map DiskRow.name).Nodup :=
  s.distinct.sublist (List.filter_sublist.map DiskRow.name)

def devicePairs (prev cur : DiskSample LacksFields) : List (DiskRow × DiskRow) :=
  paired DiskRow.name (shownRows prev) (shownRows cur)

theorem disks_perm (hm : m.Keeps prev) (cur : DiskSample LacksFields) :
    (m.collect cur.text).disks.Perm
      ((devicePairs prev cur).map (fun q => DiskMonitor.diskStats q.2.name q.1.raw q.2.raw)) := by
  have hentries : (m.collect cur.text).prevMap.entries.Perm
      ((shownRows cur).map (fun r => Sigma.mk r.name r.raw)) :=
    Table.entries_perm_rows (shown_distinct cur) (m.collect_keeps cur)
  have hpublished := hentries.filterMap (fun e => DiskMonitor.publish m.prevMap e.1 e.2)
  rw [List.filterMap_map] at hpublished
  refine hpublished.trans (List.Perm.of_eq ?_)
  unfold devicePairs
  rw [← List.filterMap_eq_map]
  refine Eq.trans ?_ (filterMap_partner DiskRow.name
    (fun p c => some (DiskMonitor.diskStats c.name p.raw c.raw)))
  apply List.filterMap_congr
  intro c _
  have hprev : m.prevMap.lookup c.name =
      (partner DiskRow.name (shownRows prev) c).map DiskRow.raw := hm c.name
  show (m.prevMap.lookup c.name).map _ = _
  rw [hprev]
  cases partner DiskRow.name (shownRows prev) c with
  | none => rfl
  | some p => rfl

variable (rises : forall p c, p ∈ prev.rows -> c ∈ cur.rows -> p.name = c.name ->
  forall i, p.stat i ≤ c.stat i)

include rises

theorem iops_eq {p c : DiskRow} (hpair : (p, c) ∈ devicePairs prev cur)
    (hfits : completed c < 2 ^ 64) :
    (completed c : Rat) - completed p = (DiskMonitor.diskStats c.name p.raw c.raw).iops := by
  rcases mem_paired.mp hpair with ⟨hc, hpartner⟩
  rcases mem_of_partner hpartner with ⟨hp, hname⟩
  have hrise := rises p c (List.mem_of_mem_filter hp) (List.mem_of_mem_filter hc) hname
  have hzero := UInt64.le_iff_toNat_le.mp (hrise 0)
  have hfour := UInt64.le_iff_toNat_le.mp (hrise 4)
  have hoperations : operations p c = completed c - completed p := by
    unfold operations completed
    omega
  have hle : completed p ≤ completed c := Nat.add_le_add hzero hfour
  have hiops : (DiskMonitor.diskStats c.name p.raw c.raw).iops =
      ((operations p c % 2 ^ 64 : Nat) : Rat) := congrArg Nat.cast (toNat_operations hrise)
  rw [hiops, Nat.mod_eq_of_lt (by omega), hoperations, Nat.cast_sub hle]

end Published

/-!
## The reference and the stored rate
-/

def unmatchedDevices (s other : DiskSample LacksFields) : Rat :=
  ((unpaired DiskRow.name (shownRows s) (shownRows other)).map
    (fun r => (completed r : Rat))).sum

def diskError (prev cur : DiskSample LacksFields) : Rat :=
  unmatchedDevices cur prev - unmatchedDevices prev cur

theorem diskError_eq_zero {prev cur : DiskSample LacksFields}
    (hsame : forall name, name ∈ (shownRows prev).map DiskRow.name <->
      name ∈ (shownRows cur).map DiskRow.name) : diskError prev cur = 0 := by
  unfold diskError unmatchedDevices
  rw [unpaired_eq_nil (fun name => (hsame name).mp), unpaired_eq_nil (fun name => (hsame name).mpr)]
  exact sub_self _

theorem diskTotal_cast (s : DiskSample LacksFields) :
    (diskTotal s : Rat) = ((shownRows s).map (fun r => (completed r : Rat))).sum := by
  unfold diskTotal
  rw [Nat.cast_list_sum, List.map_map]
  rfl

theorem completed_le_diskTotal {s : DiskSample LacksFields} {r : DiskRow}
    (hr : r ∈ shownRows s) : completed r ≤ diskTotal s :=
  List.le_sum_of_mem (List.mem_map_of_mem hr)

/-- After any number of earlier rounds, and where doubles keep the sums of the script: its
reference over the last two samples is the rate that the manager stores for them, up to the
devices that came or went.  Where none did they are equal. -/
theorem diskReference_eq (first : DiskSample LacksFields) (middle : List (DiskSample LacksFields))
    (last : DiskSample LacksFields)
    (hdevices : AllDevices (DiskMonitor.lastSample first middle) ∧ AllDevices last)
    (hrises : forall p c, p ∈ (DiskMonitor.lastSample first middle).rows -> c ∈ last.rows ->
      p.name = c.name -> forall i, p.stat i ≤ c.stat i)
    (hfits : diskTotal (DiskMonitor.lastSample first middle) ≤ 2 ^ 53 ∧ diskTotal last ≤ 2 ^ 53)
    (mgr : HostManager) (now : Int) (pusher : MonitorPusher) (inp : PushInput)
    (hdisks : inp.metrics.disks =
      (runFrom DiskMonitor.collectSample (({} : DiskMonitor).init first.text)
        (middle ++ [last])).disks) :
    let prev := DiskMonitor.lastSample first middle
    referenceIops (diskRaw prev.text) (diskRaw last.text) =
        (GrpcServer.storedSnapshot mgr now (pusher.report inp)).diskIops + diskError prev last ∧
      ((forall name, name ∈ (shownRows prev).map DiskRow.name <->
          name ∈ (shownRows last).map DiskRow.name) -> diskError prev last = 0) := by
  intro prev
  refine ⟨?_, diskError_eq_zero⟩
  have hiops := (stored_report mgr now pusher inp).right.right
  rw [hdisks, runFrom_concat] at hiops
  have hpublished := (disks_perm (DiskMonitor.run_keeps first middle) last).map DiskStats.iops
  have hstored : (GrpcServer.storedSnapshot mgr now (pusher.report inp)).diskIops =
      ((devicePairs prev last).map
        (fun q => (completed q.2 : Rat) - completed q.1)).sum := by
    rw [hiops]
    refine hpublished.sum_eq.trans ?_
    rw [List.map_map]
    congr 1
    apply List.map_congr_left
    rintro ⟨p, c⟩ hpair
    have hsmall : completed c < 2 ^ 64 :=
      Nat.lt_of_le_of_lt (completed_le_diskTotal (mem_paired.mp hpair).left)
        (Nat.lt_of_le_of_lt hfits.right (by decide))
    exact (iops_eq hrises hpair hsmall).symm
  have hdifference := sum_sub_sum_eq (fun r => (completed r : Rat)) (shown_distinct prev)
    (shown_distinct last)
  rw [diskRaw_text hdevices.left hfits.left, diskRaw_text hdevices.right hfits.right,
    referenceIops_eq hfits.left hfits.right, diskTotal_cast, diskTotal_cast]
  refine hdifference.trans ?_
  rw [hstored]
  unfold diskError unmatchedDevices devicePairs
  ring

/-- Two thousand reads and two thousand writes on one device. -/
theorem diskReference_eq_sda :
    (GrpcServer.storedSnapshot HostManager.empty 0 (({} : MonitorPusher).report
      { metrics := { disks :=
          (runFrom DiskMonitor.collectSample (({} : DiskMonitor).init (sdaSample 1000).text)
            ([] ++ [sdaSample 3000])).disks } })).diskIops = 4000 := by
  have hprevTotal : diskTotal (sdaSample 1000) = 2000 := by decide +kernel
  have hlastTotal : diskTotal (sdaSample 3000) = 6000 := by decide +kernel
  have hfits : diskTotal (sdaSample 1000) ≤ 2 ^ 53 ∧ diskTotal (sdaSample 3000) ≤ 2 ^ 53 := by
    rw [hprevTotal, hlastTotal]
    decide
  rcases diskReference_eq (sdaSample 1000) [] (sdaSample 3000) ⟨rfl, rfl⟩ rises_moved.disk hfits
    HostManager.empty 0 {}
    { metrics := { disks :=
        (runFrom DiskMonitor.collectSample (({} : DiskMonitor).init (sdaSample 1000).text)
          ([] ++ [sdaSample 3000])).disks } } rfl with ⟨hequal, hzero⟩
  rw [show DiskMonitor.lastSample (sdaSample 1000) [] = sdaSample 1000 from rfl] at hequal hzero
  have hdevices (value : UInt64) : AllDevices (sdaSample value) := rfl
  rw [hzero (fun _ => Iff.rfl), add_zero, diskRaw_text (hdevices 1000) hfits.left,
    diskRaw_text (hdevices 3000) hfits.right, referenceIops_eq hfits.left hfits.right, hprevTotal,
    hlastTotal] at hequal
  rw [← hequal]
  norm_num

end EndToEnd
end PerfMonitor
