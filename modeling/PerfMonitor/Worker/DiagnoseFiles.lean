import Mathlib.Data.List.Sort
import Mathlib.Data.Prod.Lex
import Mathlib.Data.List.Lex
import Mathlib.Data.Char
import PerfMonitor.Foundation.Containers
import PerfMonitor.Proto.Messages

/-!
# Diagnose files on disk

The regular files of the machine as the diagnosers see them: a finite map from
full path to size and modification time.  `cleanup_files`, of which
`bpf_diagnoser.cpp` and `perf_diagnoser.cpp` hold equal copies, keeps the newest
files of one name prefix in the output directory.
-/

namespace PerfMonitor
namespace Worker

open Foundation

structure FileStat where
  size : Nat
  mtime : Int
deriving DecidableEq, Repr

abbrev Disk := Table Str FileStat

namespace Disk

/-- The name under which `readdir` of a directory lists a path, if it does.  There is no
directory with an empty path. -/
def nameIn (dir path : Str) : Option Str :=
  if dir ≠ [] ∧ (dir ++ ['/']).isPrefixOf path then
    let name := path.drop (dir.length + 1)
    if name.contains '/' || name.isEmpty then none else some name
  else none

/-- The test of `cleanup_files` on one directory entry: not hidden, and starting
with the prefix. -/
def isMatch (dir pre path : Str) : Bool :=
  match nameIn dir path with
  | none => false
  | some name => decide (name.head? ≠ some '.') && pre.isPrefixOf name

/-- The vector `files`: modification time and full path of every match. -/
def listing (dir pre : Str) (disk : Disk) : List (Int ×ₗ Str) :=
  (disk.entries.filter (fun e => isMatch dir pre e.1)).map (fun e => toLex (e.2.mtime, e.1))

/-- How many of `size` files are deleted; the size is cast to `int` first. -/
def excess (limit : Int) (size : Nat) : Nat :=
  if limit ≤ 0 then 0 else (Int.bmod size (2 ^ 32) - limit).toNat

/-- The paths that `cleanup_files` unlinks: the oldest ones. -/
def doomed (dir : Str) (limit : Int) (pre : Str) (disk : Disk) : List Str :=
  let files := listing dir pre disk
  ((files.insertionSort (· ≤ ·)).take (excess limit files.length)).map (fun f => (ofLex f).2)

def cleanupFiles (dir : Str) (limit : Int) (pre : Str) (disk : Disk) : Disk :=
  disk.eraseIf (fun path _ => decide (path ∈ doomed dir limit pre disk))

def fileCount (dir pre : Str) (disk : Disk) : Nat :=
  (listing dir pre disk).length

def write (path : Str) (st : FileStat) (disk : Disk) : Disk :=
  if path ∈ disk then disk.insert path st else disk

/-- `stat` succeeds and reports a size above zero. -/
def hasData (disk : Disk) (path : Str) : Bool :=
  match disk.lookup path with
  | none => false
  | some st => decide (0 < st.size)

theorem prefix_of_isMatch {dir pre path : Str} (h : isMatch dir pre path = true) :
    exists rest, path = dir ++ '/' :: (pre ++ rest) := by
  unfold isMatch nameIn at h
  by_cases hdir : dir ≠ [] ∧ (dir ++ ['/']).isPrefixOf path = true
  · rw [if_pos hdir] at h
    rcases List.isPrefixOf_iff_prefix.mp hdir.right with ⟨name, hname⟩
    have hdrop : path.drop (dir.length + 1) = name := by
      rw [← hname, show dir.length + 1 = (dir ++ ['/']).length by simp, List.drop_left]
    rw [hdrop] at h
    by_cases hbad : (name.contains '/' || name.isEmpty) = true
    · simp only [if_pos hbad] at h
      cases h
    · simp only [if_neg hbad, Bool.and_eq_true] at h
      rcases List.isPrefixOf_iff_prefix.mp h.right with ⟨rest, hrest⟩
      refine ⟨rest, ?_⟩
      rw [← hname, ← hrest, List.append_assoc]
      rfl
  · rw [if_neg hdir] at h
    cases h

theorem hasData_eraseIf (disk : Disk) (p : Str -> Bool) (path : Str) :
    hasData (disk.eraseIf (fun path _ => p path)) path = (disk.hasData path && !p path) := by
  unfold hasData
  rw [Table.lookup_eraseIf]
  cases disk.lookup path with
  | none => rfl
  | some st =>
      rw [Option.filter_some]
      cases p path with
      | true => simp
      | false => simp

/-!
## Counting files of a prefix
-/

theorem paths_listing (dir pre : Str) (disk : Disk) :
    (listing dir pre disk).map (fun f => (ofLex f).2) = disk.keys.filter (isMatch dir pre) := by
  unfold listing
  rw [List.map_map]
  show (disk.entries.filter _).map Sigma.fst = (disk.entries.map Sigma.fst).filter _
  rw [List.filter_map]
  rfl

theorem fileCount_eq (dir pre : Str) (disk : Disk) :
    fileCount dir pre disk = disk.keys.countP (isMatch dir pre) := by
  have hlen := congrArg List.length (paths_listing dir pre disk)
  rw [List.length_map, ← List.countP_eq_length_filter] at hlen
  exact hlen

theorem fileCount_insert_of_mem {path : Str} {disk : Disk} (hmem : path ∈ disk)
    (dir pre : Str) (st : FileStat) :
    fileCount dir pre (disk.insert path st) = fileCount dir pre disk := by
  rw [fileCount_eq, fileCount_eq]
  exact (Table.keys_insert_of_mem hmem st).countP_eq _

theorem fileCount_insert_le (dir pre path : Str) (st : FileStat) (disk : Disk) :
    fileCount dir pre (disk.insert path st) ≤
      fileCount dir pre disk + (if isMatch dir pre path then 1 else 0) := by
  by_cases hmem : path ∈ disk
  · rw [fileCount_insert_of_mem hmem]
    exact Nat.le_add_right _ _
  · rw [fileCount_eq, fileCount_eq, Table.keys_insert_of_notMem hmem, List.countP_cons]

theorem fileCount_write (dir pre path : Str) (st : FileStat) (disk : Disk) :
    fileCount dir pre (write path st disk) = fileCount dir pre disk := by
  unfold write
  by_cases hmem : path ∈ disk
  · rw [if_pos hmem, fileCount_insert_of_mem hmem]
  · rw [if_neg hmem]

/-!
## What rotation removes
-/

theorem excess_sub (limit : Int) (size : Nat) : excess limit (size - excess limit size) = 0 := by
  unfold excess
  by_cases hlimit : limit ≤ 0
  · rw [if_pos hlimit]
  · rw [if_neg hlimit, if_neg hlimit]
    by_cases hover : Int.bmod size (2 ^ 32) ≤ limit
    · have hzero : (Int.bmod size (2 ^ 32) - limit).toNat = 0 := by omega
      rw [hzero]
      exact hzero
    · have hlt : Int.bmod size (2 ^ 32) < (2 ^ 32 + 1) / 2 := Int.bmod_lt (by decide)
      have hle : Int.bmod size (2 ^ 32) ≤ size := by
        rw [Int.bmod_def]
        split <;> omega
      have hrest : ((size - (Int.bmod size (2 ^ 32) - limit).toNat : Nat) : Int) =
          limit + (size - Int.bmod size (2 ^ 32)) := by omega
      have hwrap : Int.bmod (limit + (size - Int.bmod size (2 ^ 32))) (2 ^ 32) = limit := by
        rw [Int.bmod_eq_iff (by decide)]
        refine ⟨by omega, by omega, ?_⟩
        have hdvd := Int.dvd_self_sub_bmod (x := size) (m := 2 ^ 32)
        have hneg : limit - (limit + ((size : Int) - Int.bmod size (2 ^ 32))) =
            -((size : Int) - Int.bmod size (2 ^ 32)) := by omega
        rw [hneg]
        exact (Int.dvd_neg).mpr hdvd
      rw [hrest, hwrap]
      omega

/-- Below `2 ^ 31` files the cast to `int` is exact and rotation leaves at most
`limit` of them. -/
theorem sub_excess_le {limit : Int} (hlimit : 0 < limit) {size : Nat} (hsize : size < 2 ^ 31) :
    ((size - excess limit size : Nat) : Int) ≤ limit := by
  have hexact : Int.bmod size (2 ^ 32) = size := by
    apply Int.bmod_eq_of_le <;> omega
  unfold excess
  rw [if_neg (by omega), hexact]
  omega

theorem doomed_eq_take (dir : Str) (limit : Int) (pre : Str) (disk : Disk) :
    doomed dir limit pre disk =
      (((listing dir pre disk).insertionSort (· ≤ ·)).map (fun f => (ofLex f).2)).take
        (excess limit (fileCount dir pre disk)) := by
  rw [← List.map_take]
  rfl

theorem sorted_paths_perm (dir pre : Str) (disk : Disk) :
    (((listing dir pre disk).insertionSort (· ≤ ·)).map (fun f => (ofLex f).2)).Perm
      (disk.keys.filter (isMatch dir pre)) := by
  rw [← paths_listing]
  exact (List.perm_insertionSort _ _).map _

theorem mem_doomed {dir : Str} {limit : Int} {pre path : Str} {disk : Disk}
    (h : path ∈ doomed dir limit pre disk) : isMatch dir pre path = true ∧ path ∈ disk := by
  rw [doomed_eq_take] at h
  have hkeys := (sorted_paths_perm dir pre disk).mem_iff.mp (List.mem_of_mem_take h)
  rcases List.mem_filter.mp hkeys with ⟨hmem, hmatch⟩
  exact ⟨hmatch, AList.mem_keys.mpr hmem⟩

theorem fileCount_cleanupFiles (dir : Str) (limit : Int) (pre : Str) (disk : Disk) :
    fileCount dir pre (cleanupFiles dir limit pre disk) =
      fileCount dir pre disk - excess limit (fileCount dir pre disk) := by
  have hnodup : (disk.keys.filter (isMatch dir pre)).Nodup := disk.keys_nodup.filter _
  have hcount := length_filter_notMem_take (sorted_paths_perm dir pre disk) hnodup
    (excess limit (fileCount dir pre disk))
  rw [← doomed_eq_take, List.filter_filter, ← List.countP_eq_length_filter,
    ← List.countP_eq_length_filter, ← fileCount_eq] at hcount
  rw [← hcount, fileCount_eq]
  unfold cleanupFiles
  rw [Table.keys_eraseIf, List.countP_filter]
  congr 1
  funext path
  apply Bool.eq_iff_iff.mpr
  simp [and_comm]

theorem listing_eraseIf {dir pre : Str} {p : Str -> Bool}
    (hp : forall path, isMatch dir pre path = true -> p path = false) (disk : Disk) :
    listing dir pre (disk.eraseIf (fun path _ => p path)) = listing dir pre disk := by
  unfold listing
  show ((disk.entries.filter _).filter _).map _ = _
  rw [List.filter_filter]
  congr 2
  funext e
  cases hmatch : isMatch dir pre e.1 with
  | false => rfl
  | true =>
      show (!p e.1) = true
      rw [hp e.1 hmatch]
      rfl

theorem doomed_eraseIf {dir pre : Str} {p : Str -> Bool}
    (hp : forall path, isMatch dir pre path = true -> p path = false) (limit : Int)
    (disk : Disk) :
    doomed dir limit pre (disk.eraseIf (fun path _ => p path)) = doomed dir limit pre disk := by
  unfold doomed
  rw [listing_eraseIf hp]

theorem fileCount_eraseIf {dir pre : Str} {p : Str -> Bool}
    (hp : forall path, isMatch dir pre path = true -> p path = false) (disk : Disk) :
    fileCount dir pre (disk.eraseIf (fun path _ => p path)) = fileCount dir pre disk := by
  unfold fileCount
  rw [listing_eraseIf hp]

theorem doomed_cleanupFiles (dir : Str) (limit : Int) (pre : Str) (disk : Disk) :
    doomed dir limit pre (cleanupFiles dir limit pre disk) = [] := by
  rw [doomed_eq_take, fileCount_cleanupFiles, excess_sub, List.take_zero]

end Disk

end Worker
end PerfMonitor
