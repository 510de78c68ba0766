import PerfMonitor.Foundation.Run
import PerfMonitor.Worker.CpuStatMonitor
import PerfMonitor.Worker.DiskMonitor
import PerfMonitor.Worker.NetMonitor

/-!
# Failed reads

`ReadFile` returns the empty string when the file cannot be read, and the monitors
take it for a sample: the saved snapshot becomes that of an empty file, and the next
`Collect` reports against it.  A failed read is harmless exactly where nothing is
saved that it could replace.
-/

namespace PerfMonitor
namespace Worker

open Foundation

def readable (content : Str) : Bool :=
  !content.isEmpty

/-- Every `Collect` whose read failed leaves the saved sample unchanged, and every
other one reports what it would have reported without the failed ones. -/
structure FailuresHarmless {state saved report : Type} (collect : state -> Str -> state)
    (sample : state -> saved) (published : state -> report) (s : state) (contents : List Str) :
    Prop where
  unchanged : EachStep collect
    (fun s content => readable content = false -> sample (collect s content) = sample s) s contents
  reports : forall before content after, contents = before ++ content :: after ->
    readable content = true ->
    published (runFrom collect s (before ++ [content])) =
      published (runFrom collect s (before.filter readable ++ [content]))

def FailsOnlyWhen {state : Type} (collect : state -> Str -> state) (P : state -> Prop) (s : state)
    (contents : List Str) : Prop :=
  EachStep collect (fun s content => readable content = false -> P s) s contents

theorem eq_nil_of_not_readable {content : Str} (h : readable content = false) : content = [] := by
  cases content with
  | nil => rfl
  | cons c rest => cases h

section Harmless

variable {state saved report view : Type} {collect : state -> Str -> state}
  {sample : state -> saved} {published : state -> report} {P : state -> Prop}

/-- The rule for a monitor: `look` is the part of its state that a `Collect` reads.
A failed read leaves the sample alone exactly when `P` holds, and then it leaves
`look` alone. -/
theorem failuresHarmless_iff (look : state -> view)
    (hsample : forall s, sample (collect s []) = sample s <-> P s)
    (hlook : forall s, P s -> look (collect s []) = look s)
    (hact : forall s s' content, look s = look s' ->
      look (collect s content) = look (collect s' content) ∧
        published (collect s content) = published (collect s' content))
    (s : state) (contents : List Str) :
    FailuresHarmless collect sample published s contents <->
      FailsOnlyWhen collect P s contents := by
  constructor
  · intro h
    have hunchanged := eachStep_iff_splits.mp h.unchanged
    apply eachStep_iff_splits.mpr
    intro before content after heq hfailed
    have hsame := hunchanged before content after heq hfailed
    rw [eq_nil_of_not_readable hfailed] at hsame
    exact (hsample _).mp hsame
  · intro h
    have hsplits := eachStep_iff_splits.mp h
    constructor
    · apply eachStep_iff_splits.mpr
      intro before content after heq hfailed
      rw [eq_nil_of_not_readable hfailed]
      exact (hsample _).mpr (hsplits before content after heq hfailed)
    · intro before content after heq hread
      have hframe : EachStep collect
          (fun s content => readable content = false -> look (collect s content) = look s)
          s before := by
        apply eachStep_iff_splits.mpr
        intro first content' second heq' hfailed
        rw [eq_nil_of_not_readable hfailed]
        apply hlook
        apply hsplits first content' (second ++ content :: after) _ hfailed
        rw [heq, heq', List.append_assoc]
        rfl
      have hsame := runFrom_filter (fun s s' content hl => (hact s s' content hl).left) rfl hframe
      rw [runFrom_concat, runFrom_concat]
      exact (hact _ _ content hsame).right

end Harmless

/-!
## The three monitors
-/

namespace CpuStatMonitor

theorem collect_nil_of_total_zero {m : CpuStatMonitor} (h : m.prev.total = 0) :
    m.collect [] = m := by
  apply collect_of_total_eq
  rw [h]
  rfl

theorem prev_collect_nil (m : CpuStatMonitor) :
    (m.collect []).prev = m.prev <-> m.prev.total = 0 := by
  constructor
  · intro h
    by_contra htotal
    have hne : (readStat {} []).total ≠ m.prev.total := fun heq => htotal heq.symm
    rw [prev_collect hne] at h
    rw [h] at hne
    exact hne rfl
  · intro h
    rw [collect_nil_of_total_zero h]

end CpuStatMonitor

/-- A failed read is harmless exactly when the saved sample has nothing in it: a zero
total, no device, no interface. -/
theorem failuresHarmless_iff_nothingSaved (stat diskstats netDev : Str)
    (stats disks nets : List Str) :
    (FailuresHarmless CpuStatMonitor.collect CpuStatMonitor.prev CpuStatMonitor.pct
        (({} : CpuStatMonitor).init stat) stats <->
      FailsOnlyWhen CpuStatMonitor.collect (fun m => m.prev.total = 0)
        (({} : CpuStatMonitor).init stat) stats) ∧
    (FailuresHarmless DiskMonitor.collect DiskMonitor.prevMap DiskMonitor.disks
        (({} : DiskMonitor).init diskstats) disks <->
      FailsOnlyWhen DiskMonitor.collect (fun m => m.prevMap = ∅)
        (({} : DiskMonitor).init diskstats) disks) ∧
    (FailuresHarmless NetMonitor.collect NetMonitor.prevNetMap NetMonitor.interfaces
        (({} : NetMonitor).init netDev) nets <->
      FailsOnlyWhen NetMonitor.collect (fun m => m.prevNetMap = ∅)
        (({} : NetMonitor).init netDev) nets) := by
  refine ⟨?_, ?_, ?_⟩
  · apply failuresHarmless_iff (fun m : CpuStatMonitor => m)
    · exact CpuStatMonitor.prev_collect_nil
    · intro m h
      exact CpuStatMonitor.collect_nil_of_total_zero h
    · intro m m' content h
      rw [h]
      exact ⟨rfl, rfl⟩
  · apply failuresHarmless_iff DiskMonitor.prevMap
    · intro m
      exact eq_comm
    · intro m h
      exact h.symm
    · intro m m' content h
      refine ⟨rfl, ?_⟩
      unfold DiskMonitor.collect
      rw [h]
  · apply failuresHarmless_iff NetMonitor.prevNetMap
    · intro m
      exact eq_comm
    · intro m h
      exact h.symm
    · intro m m' content h
      refine ⟨rfl, ?_⟩
      unfold NetMonitor.collect
      rw [h]

def statText : Str :=
  "cpu  10 0 5 100 3 0 1 0\n".toList

def diskstatsText : Str :=
  "8 0 sda 1 2 3 4 5 6 7 8 9 10 11\n".toList

def netDevText : Str :=
  "Inter-|   Receive\n face |bytes\n eth0: 1 2 3 4 5 6 7 8 9 10 11 12 13 14 15 16\n".toList

/-- One failed read between `Init` and a `Collect`: the counters are gone, and the
device and the interface are not reported. -/
theorem failedRead_not_harmless :
    ¬ FailuresHarmless CpuStatMonitor.collect CpuStatMonitor.prev CpuStatMonitor.pct
        (({} : CpuStatMonitor).init statText) [[], statText] ∧
      ¬ FailuresHarmless DiskMonitor.collect DiskMonitor.prevMap DiskMonitor.disks
        (({} : DiskMonitor).init diskstatsText) [[], diskstatsText] ∧
      ¬ FailuresHarmless NetMonitor.collect NetMonitor.prevNetMap NetMonitor.interfaces
        (({} : NetMonitor).init netDevText) [[], netDevText] := by
  refine ⟨?_, ?_, ?_⟩
  · intro h
    have hprev := h.unchanged.left rfl
    exact absurd hprev (by decide)
  · intro h
    have hlength := congrArg List.length (h.reports [[]] diskstatsText [] rfl (by decide))
    exact absurd hlength (by decide)
  · intro h
    have hlength := congrArg List.length (h.reports [[]] netDevText [] rfl (by decide))
    exact absurd hlength (by decide)

end Worker
end PerfMonitor
