import PerfMonitor.Worker.PerfDiagnoser

/-!
# Which files rotation keeps

Both diagnosers have a `cleanup_files`.  On the same directory, limit and prefix they
remove the same files: the oldest ones of the prefix, by modification time and then by
path, so that at most the limit remains.
-/

namespace PerfMonitor
namespace Worker

open Foundation

def BpfDiagnoser.cleanupFiles (s : BpfDiagnoser) (typePrefix : Str) : BpfDiagnoser :=
  { s with
    disk := s.disk.cleanupFiles s.settings.outputDir s.settings.limitFileNum typePrefix }

def PerfDiagnoser.cleanupFiles (d : PerfDiagnoser) (pre : Str) : PerfDiagnoser :=
  { d with disk := d.disk.cleanupFiles d.settings.outputDir d.settings.limitFileNum pre }

theorem BpfDiagnoser.report_eq_cleanupFiles (s : BpfDiagnoser) (ev : CppDiagnoseEvent) :
    report s ev =
      if s.disk.hasData ev.filePath then
        cleanupFiles { s with events := s.events ++ [ev] } ev.type
      else s :=
  rfl

theorem PerfDiagnoser.disk_settle (d : PerfDiagnoser) :
    d.settle.disk = if d.pendingEv.pending then (d.cleanupFiles perfFiles).disk else d.disk := by
  unfold settle
  split <;> rfl

namespace Disk

def age (path : Str) (st : FileStat) : Int ×ₗ Str :=
  toLex (st.mtime, path)

/-- Exactly the newest files of the prefix are kept, at most `limit` of them, and no
other file is touched. -/
structure KeepsNewest (dir : Str) (limit : Int) (pre : Str) (before after : Disk) : Prop where
  unlimited : limit ≤ 0 -> after = before
  count : 0 < limit -> (after.fileCount dir pre : Int) = min (before.fileCount dir pre : Int) limit
  kept : forall path st, after.lookup path = some st -> before.lookup path = some st
  newest : forall removed st path st', before.lookup removed = some st ->
    after.lookup removed = none -> isMatch dir pre path = true -> after.lookup path = some st' ->
      age removed st < age path st'
  untouched : forall path, isMatch dir pre path = false ->
    after.lookup path = before.lookup path

section Cleanup

variable {dir pre : Str} {limit : Int} {disk : Disk}

theorem mem_listing {f : Int ×ₗ Str} :
    f ∈ listing dir pre disk <->
      exists path st, disk.lookup path = some st ∧ isMatch dir pre path = true ∧
        f = age path st := by
  unfold listing
  rw [List.mem_map]
  constructor
  · rintro ⟨⟨path, st⟩, he, heq⟩
    rcases List.mem_filter.mp he with ⟨hentry, hmatch⟩
    exact ⟨path, st, AList.mem_lookup_iff.mpr hentry, hmatch, heq.symm⟩
  · rintro ⟨path, st, hlookup, hmatch, heq⟩
    refine ⟨⟨path, st⟩, ?_, heq.symm⟩
    exact List.mem_filter.mpr ⟨AList.mem_lookup_iff.mp hlookup, hmatch⟩

theorem lookup_cleanupFiles (path : Str) :
    (cleanupFiles dir limit pre disk).lookup path =
      if path ∈ doomed dir limit pre disk then none else disk.lookup path := by
  unfold cleanupFiles
  rw [Table.lookup_eraseIf]
  cases disk.lookup path with
  | none => exact (ite_self _).symm
  | some st =>
      rw [Option.filter_some]
      by_cases hdoomed : path ∈ doomed dir limit pre disk
      · simp [hdoomed]
      · simp [hdoomed]

theorem age_lt_of_doomed {removed path : Str} {st st' : FileStat}
    (hremoved : removed ∈ doomed dir limit pre disk) (hst : disk.lookup removed = some st)
    (hpath : path ∉ doomed dir limit pre disk) (hst' : disk.lookup path = some st')
    (hmatch : isMatch dir pre path = true) : age removed st < age path st' := by
  have hsorted := List.pairwise_insertionSort (· ≤ ·) (listing dir pre disk)
  have hperm := List.perm_insertionSort (· ≤ ·) (listing dir pre disk)
  have holdest : age removed st ∈ ((listing dir pre disk).insertionSort (· ≤ ·)).take
      (excess limit (listing dir pre disk).length) := by
    rcases List.mem_map.mp hremoved with ⟨f, hf, hfpath⟩
    rcases mem_listing.mp (hperm.mem_iff.mp (List.mem_of_mem_take hf)) with
      ⟨other, st'', hother, _, heq⟩
    rw [heq] at hf hfpath
    have hsame : other = removed := hfpath
    rw [hsame, hst] at hother
    injection hother with hother
    rw [hsame, ← hother] at hf
    exact hf
  have hnewer : age path st' ∈ ((listing dir pre disk).insertionSort (· ≤ ·)).drop
      (excess limit (listing dir pre disk).length) := by
    have hall := hperm.mem_iff.mpr (mem_listing.mpr ⟨path, st', hst', hmatch, rfl⟩)
    rw [← List.take_append_drop (excess limit (listing dir pre disk).length)
      ((listing dir pre disk).insertionSort (· ≤ ·))] at hall
    rcases List.mem_append.mp hall with htaken | hleft
    · exact absurd (List.mem_map.mpr ⟨_, htaken, rfl⟩) hpath
    · exact hleft
  apply lt_of_le_of_ne (hsorted.rel_of_mem_take_of_mem_drop holdest hnewer)
  intro heq
  have hsame : removed = path := congrArg (fun f => (ofLex f).2) heq
  rw [hsame] at hremoved
  exact hpath hremoved

theorem excess_of_lt {size : Nat} (hlimit : 0 < limit) (hsize : size < 2 ^ 31) :
    ((size - excess limit size : Nat) : Int) = min (size : Int) limit := by
  have hexact : Int.bmod size (2 ^ 32) = size := by
    apply Int.bmod_eq_of_le <;> omega
  unfold excess
  rw [if_neg (by omega), hexact]
  omega

theorem cleanupFiles_of_nonpos (hlimit : limit ≤ 0) : cleanupFiles dir limit pre disk = disk := by
  have hnone : doomed dir limit pre disk = [] := by
    unfold doomed excess
    simp only [if_pos hlimit, List.take_zero, List.map_nil]
  unfold cleanupFiles
  rw [hnone]
  exact Table.eraseIf_eq_self (fun _ _ => rfl)

theorem cleanupFiles_keepsNewest (hsize : fileCount dir pre disk < 2 ^ 31) :
    KeepsNewest dir limit pre disk (cleanupFiles dir limit pre disk) := by
  constructor
  case unlimited => exact fun hlimit => cleanupFiles_of_nonpos hlimit
  case count =>
    intro hlimit
    rw [fileCount_cleanupFiles]
    exact excess_of_lt hlimit hsize
  case kept =>
    intro path st hpath
    rw [lookup_cleanupFiles] at hpath
    split at hpath
    · cases hpath
    · exact hpath
  case newest =>
    intro removed st path st' hst hgone hmatch hst'
    rw [lookup_cleanupFiles] at hgone hst'
    split at hst'
    · cases hst'
    next hpath =>
      split at hgone
      next hremoved => exact age_lt_of_doomed hremoved hst hpath hst' hmatch
      next => rw [hst] at hgone; cases hgone
  case untouched =>
    intro path hmatch
    rw [lookup_cleanupFiles, if_neg]
    intro hdoomed
    rw [(mem_doomed hdoomed).left] at hmatch
    cases hmatch

end Cleanup

end Disk

/-- Both `cleanup_files` have the same effect on the same directory, limit and prefix,
and keep exactly the newest files. -/
theorem cleanupFiles_agree_and_keep_newest (s : BpfDiagnoser) (d : PerfDiagnoser) (pre : Str)
    (hdir : s.settings.outputDir = d.settings.outputDir)
    (hlimit : s.settings.limitFileNum = d.settings.limitFileNum) (hdisk : s.disk = d.disk)
    (hsize : s.disk.fileCount s.settings.outputDir pre < 2 ^ 31) :
    (s.cleanupFiles pre).disk = (d.cleanupFiles pre).disk ∧
      Disk.KeepsNewest s.settings.outputDir s.settings.limitFileNum pre s.disk
        (s.cleanupFiles pre).disk := by
  constructor
  · show s.disk.cleanupFiles _ _ pre = d.disk.cleanupFiles _ _ pre
    rw [hdir, hlimit, hdisk]
  · exact Disk.cleanupFiles_keepsNewest hsize

/-- Two recordings of one second, an older one, a hidden file and one of another kind. -/
def mixedFiles : Disk :=
  (∅ : Disk).insertAll
    [("d/perf_a_1.data".toList, { size := 1, mtime := 5 }),
      ("d/perf_b_1.data".toList, { size := 1, mtime := 5 }),
      ("d/perf_c_0.data".toList, { size := 1, mtime := 4 }),
      ("d/.perf_d".toList, { size := 1, mtime := 1 }),
      ("d/offcpu_a_0.data".toList, { size := 1, mtime := 1 })]

def bpfOnMixedFiles : BpfDiagnoser where
  settings := { outputDir := ['d'], limitFileNum := 1 }
  disk := mixedFiles

def perfOnMixedFiles : PerfDiagnoser where
  settings := { outputDir := ['d'], limitFileNum := 1 }
  disk := mixedFiles

theorem cleanupFiles_mixedFiles :
    (bpfOnMixedFiles.cleanupFiles "perf_".toList).disk =
        (perfOnMixedFiles.cleanupFiles "perf_".toList).disk ∧
      Disk.KeepsNewest ['d'] 1 "perf_".toList mixedFiles
        (bpfOnMixedFiles.cleanupFiles "perf_".toList).disk :=
  cleanupFiles_agree_and_keep_newest bpfOnMixedFiles perfOnMixedFiles "perf_".toList rfl rfl rfl
    (by decide)

end Worker
end PerfMonitor
