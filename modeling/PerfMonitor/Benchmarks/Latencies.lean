import Mathlib.Algebra.Order.Field.Basic
import Mathlib.Data.List.GetD
import Mathlib.Data.List.Sort
import Mathlib.Data.Rat.Floor
import Mathlib.Tactic.NormNum
import PerfMonitor.Foundation.Rounding

/-!
# The latencies that the load generator prints

`percentile` sorts a copy of the latencies and takes one of them by its place.  The
threads note their latencies in any order, so what is printed must be a fact about how
many of the calls were how fast.  The place, the sum and the average are doubles.
-/

namespace PerfMonitor
namespace Benchmarks

open Foundation

/-!
## Places in a sorted list
-/

section Sorted

variable {α : Type*} [LinearOrder α]

theorem countP_sorted {before after : List α} {v : α}
    (h : (before ++ v :: after).Pairwise (· ≤ ·)) :
    before.length < (before ++ v :: after).countP (fun x => decide (x ≤ v)) ∧
      (before ++ v :: after).countP (fun x => decide (x < v)) ≤ before.length := by
  rcases List.pairwise_append.mp h with ⟨_hbefore, hrest, hacross⟩
  have hafter := (List.pairwise_cons.mp hrest).left
  constructor
  · have hall : before.countP (fun x => decide (x ≤ v)) = before.length := by
      apply List.countP_eq_length.mpr
      intro x hx
      exact decide_eq_true (hacross x hx v List.mem_cons_self)
    have hself : (v :: after).countP (fun x => decide (x ≤ v)) =
        after.countP (fun x => decide (x ≤ v)) + 1 :=
      List.countP_cons_of_pos (by simp)
    rw [List.countP_append, hall, hself]
    omega
  · have hnone : (v :: after).countP (fun x => decide (x < v)) = 0 := by
      apply List.countP_eq_zero.mpr
      intro x hx
      have hle : v ≤ x := by
        rcases List.mem_cons.mp hx with rfl | hx
        · exact le_refl x
        · exact hafter x hx
      simpa using hle
    rw [List.countP_append, hnone]
    exact List.countP_le_length

theorem countP_le_lt {l : List α} {v w : α} (h : v < w) :
    l.countP (fun x => decide (x ≤ v)) ≤ l.countP (fun x => decide (x < w)) := by
  apply List.countP_mono_left
  intro x _hx hle
  exact decide_eq_true (lt_of_le_of_lt (of_decide_eq_true hle) h)

end Sorted

/-!
## Percentiles
-/

/-- `(values.size() - 1) * pct`.  The conversion to `size_t` cuts off the fraction. -/
def place (count : Nat) (pct : Rat) : Nat :=
  ⌊double (double (count - 1 : Nat) * pct)⌋₊

def percentile (values : List Rat) (pct : Rat) : Rat :=
  if values = [] then 0
  else (values.insertionSort (· ≤ ·)).getD (place values.length pct) 0

theorem place_mono (count : Nat) {pct pct' : Rat} (h : pct ≤ pct') :
    place count pct ≤ place count pct' := by
  apply Nat.floor_mono
  apply double_mono
  exact mul_le_mul_of_nonneg_left h (double_nonneg (Nat.cast_nonneg _))

section Share

variable {count : Nat} {pct : Rat}

theorem share_le (hhigh : pct ≤ 1) : ((count - 1 : Nat) : Rat) * pct ≤ (count - 1 : Nat) :=
  mul_le_of_le_one_right (Nat.cast_nonneg _) hhigh

variable (hcount : count ≤ 2 ^ 53) (hhigh : pct ≤ 1)

include hcount

theorem place_eq : place count pct = ⌊double ((count - 1 : Nat) * pct)⌋₊ := by
  unfold place
  rw [double_natCast (Nat.le_trans (Nat.sub_le count 1) hcount)]

include hhigh

theorem place_between :
    ⌊((count - 1 : Nat) : Rat) * pct⌋₊ ≤ place count pct ∧
      place count pct ≤ ⌈((count - 1 : Nat) : Rat) * pct⌉₊ := by
  have hsmall : count - 1 ≤ 2 ^ 53 := Nat.le_trans (Nat.sub_le count 1) hcount
  have hshare : ((count - 1 : Nat) : Rat) * pct ≤ (count - 1 : Nat) := share_le hhigh
  rw [place_eq hcount]
  generalize ((count - 1 : Nat) : Rat) * pct = share at hshare
  constructor
  · rcases le_or_gt share 0 with hneg | hpos
    · rw [Nat.floor_of_nonpos hneg]
      exact Nat.zero_le _
    · have hfloor : ⌊share⌋₊ ≤ 2 ^ 53 :=
        Nat.le_trans (Nat.floor_le_of_le hshare) hsmall
      apply Nat.le_floor
      rw [← double_natCast hfloor]
      exact double_mono (Nat.floor_le (le_of_lt hpos))
  · have hceil : ⌈share⌉₊ ≤ 2 ^ 53 := Nat.le_trans (Nat.ceil_le.mpr hshare) hsmall
    apply Nat.floor_le_of_le
    rw [← double_natCast hceil]
    exact double_mono (Nat.le_ceil share)

theorem place_lt (hpos : 0 < count) : place count pct < count := by
  have hle := (place_between hcount hhigh).right
  have hceil : ⌈((count - 1 : Nat) : Rat) * pct⌉₊ ≤ count - 1 := Nat.ceil_le.mpr (share_le hhigh)
  omega

end Share

/-- At most so many of the calls were faster, and more of them were no slower. -/
structure IsRanked (values : List Rat) (rank : Nat) (value : Rat) : Prop where
  mem : value ∈ values
  below : values.countP (fun x => decide (x < value)) ≤ rank
  reached : rank < values.countP (fun x => decide (x ≤ value))

theorem IsRanked.le {values : List Rat} {rank rank' : Nat} {value value' : Rat} (hle : rank ≤ rank')
    (h : IsRanked values rank value) (h' : IsRanked values rank' value') : value ≤ value' := by
  by_contra hlt
  have hcount := countP_le_lt (l := values) (lt_of_not_ge hlt)
  have hbelow := h.below
  have hreached := h'.reached
  omega

theorem isRanked_percentile {values : List Rat} {pct : Rat}
    (hplace : place values.length pct < values.length) :
    IsRanked values (place values.length pct) (percentile values pct) := by
  have hne : values ≠ [] := List.length_pos_iff.mp (Nat.zero_lt_of_lt hplace)
  have hperm := List.perm_insertionSort (· ≤ ·) values
  have hsorted := List.pairwise_insertionSort (· ≤ ·) values
  have hlen : place values.length pct < (values.insertionSort (· ≤ ·)).length := by
    rw [hperm.length_eq]
    exact hplace
  have hvalue : percentile values pct =
      (values.insertionSort (· ≤ ·))[place values.length pct] := by
    unfold percentile
    rw [if_neg hne]
    exact List.getD_eq_getElem _ _ hlen
  generalize place values.length pct = rank at hlen hvalue
  have hsplit : (values.insertionSort (· ≤ ·)) =
      (values.insertionSort (· ≤ ·)).take rank ++
        percentile values pct :: (values.insertionSort (· ≤ ·)).drop (rank + 1) := by
    rw [hvalue, List.getElem_cons_drop, List.take_append_drop]
  have htake : ((values.insertionSort (· ≤ ·)).take rank).length = rank := by
    rw [List.length_take, min_eq_left (le_of_lt hlen)]
  rw [hsplit] at hsorted
  have hcounts := countP_sorted hsorted
  rw [← hsplit, htake, hperm.countP_eq, hperm.countP_eq] at hcounts
  constructor
  case mem =>
    rw [hvalue]
    exact hperm.mem_iff.mp (List.getElem_mem hlen)
  case below => exact hcounts.right
  case reached => exact hcounts.left

theorem percentile_iff {values : List Rat} {pct : Rat}
    (hplace : place values.length pct < values.length) (value : Rat) :
    percentile values pct = value <-> IsRanked values (place values.length pct) value := by
  have hranked := isRanked_percentile hplace
  constructor
  · intro h
    rw [← h]
    exact hranked
  · intro h
    exact le_antisymm (hranked.le (le_refl _) h) (h.le (le_refl _) hranked)

theorem percentile_mono {values : List Rat} {pct pct' : Rat} (hle : pct ≤ pct')
    (hplace : place values.length pct' < values.length) :
    percentile values pct ≤ percentile values pct' := by
  have hmono := place_mono values.length hle
  exact (isRanked_percentile (Nat.lt_of_le_of_lt hmono hplace)).le hmono
    (isRanked_percentile hplace)

/-!
## The average and the maximum
-/

/-- `std::accumulate` over the latencies, by their number. -/
def average (latencies : List Rat) : Rat :=
  if latencies = [] then 0
  else double (latencies.foldl (fun sum x => double (sum + x)) 0 / double latencies.length)

/-- `*std::max_element`. -/
def maximum (latencies : List Rat) : Rat :=
  match latencies with
  | [] => 0
  | first :: rest => rest.foldl (fun largest x => if largest < x then x else largest) first

theorem le_foldl_largest (rest : List Rat) (first : Rat) :
    first ≤ rest.foldl (fun largest x => if largest < x then x else largest) first ∧
      forall x, x ∈ rest ->
        x ≤ rest.foldl (fun largest x => if largest < x then x else largest) first := by
  induction rest generalizing first with
  | nil => exact ⟨le_refl first, List.forall_mem_nil _⟩
  | cons y rest ih =>
      have hrest := ih (if first < y then y else first)
      have hfirst : first ≤ (if first < y then y else first) ∧
          y ≤ (if first < y then y else first) := by
        split
        case isTrue h => exact ⟨le_of_lt h, le_refl y⟩
        case isFalse h => exact ⟨le_refl first, le_of_not_gt h⟩
      refine ⟨le_trans hfirst.left hrest.left, List.forall_mem_cons.mpr ⟨?_, hrest.right⟩⟩
      exact le_trans hfirst.right hrest.left

theorem le_maximum {latencies : List Rat} {x : Rat} (hx : x ∈ latencies) :
    x ≤ maximum latencies := by
  cases latencies with
  | nil => cases hx
  | cons first rest =>
      rcases List.mem_cons.mp hx with rfl | hx
      · exact (le_foldl_largest rest x).left
      · exact (le_foldl_largest rest first).right x hx

theorem foldl_sum_mono {latencies : List Rat} {bound : Rat}
    (h : forall x, x ∈ latencies -> x ≤ bound) {sum sum' : Rat} (hsum : sum ≤ sum') :
    latencies.foldl (fun sum x => double (sum + x)) sum ≤
      (List.replicate latencies.length bound).foldl (fun sum x => double (sum + x)) sum' := by
  induction latencies generalizing sum sum' with
  | nil => exact hsum
  | cons x rest ih =>
      rcases List.forall_mem_cons.mp h with ⟨hx, hrest⟩
      exact ih hrest (double_mono (add_le_add hsum hx))

/-- The sum of equal doubles may be off, so that the maximum itself is no bound. -/
theorem average_le {latencies : List Rat} (hne : latencies ≠ []) :
    average latencies ≤ average (List.replicate latencies.length (maximum latencies)) := by
  have hlen : latencies.length ≠ 0 := fun h => hne (List.length_eq_zero_iff.mp h)
  have hne' : List.replicate latencies.length (maximum latencies) ≠ [] :=
    fun h => hlen ((List.length_replicate ..).symm.trans (congrArg List.length h))
  unfold average
  rw [if_neg hne, if_neg hne', List.length_replicate]
  apply double_mono
  apply div_le_div_of_nonneg_right _ (double_nonneg (Nat.cast_nonneg _))
  exact foldl_sum_mono (fun _ hx => le_maximum hx) (le_refl 0)

/-- The numbers that the program prints about its latencies.  A percentile is the only
latency with so many faster calls and so many that were no slower, whatever the order in
which the threads noted them, and the place is the share of the calls up to the fraction
that is cut off.  The percentiles do not decrease and none exceeds the maximum; the average
is at most that of as many calls that all took the maximum. -/
theorem latency_summary {latencies : List Rat} (hne : latencies ≠ [])
    (hfits : latencies.length ≤ 2 ^ 53) :
    (forall pct value, 0 ≤ pct -> pct ≤ 1 ->
      (percentile latencies pct = value <-> IsRanked latencies (place latencies.length pct) value) ∧
      ⌊((latencies.length - 1 : Nat) : Rat) * pct⌋₊ ≤ place latencies.length pct ∧
      place latencies.length pct ≤ ⌈((latencies.length - 1 : Nat) : Rat) * pct⌉₊) ∧
    percentile latencies (double (50 / 100)) ≤ percentile latencies (double (95 / 100)) ∧
    percentile latencies (double (95 / 100)) ≤ percentile latencies (double (99 / 100)) ∧
    percentile latencies (double (99 / 100)) ≤ maximum latencies ∧
    average latencies ≤ average (List.replicate latencies.length (maximum latencies)) := by
  have hpos : 0 < latencies.length := List.length_pos_iff.mpr hne
  have hone : double 1 = 1 := by exact_mod_cast double_natCast (n := 1) (by norm_num)
  have hplace (pct : Rat) (hhigh : pct ≤ 1) := place_lt hfits hhigh hpos
  have hshares (pct : Rat) (h : pct ≤ 1) : double pct ≤ 1 := hone ▸ double_mono h
  have hnext := hplace _ (hshares (95 / 100) (by norm_num))
  have hlast := hplace _ (hshares (99 / 100) (by norm_num))
  refine ⟨fun pct value _hlow hhigh => ⟨percentile_iff (hplace pct hhigh) value,
    place_between hfits hhigh⟩, ?_, ?_, ?_, average_le hne⟩
  · exact percentile_mono (double_mono (by norm_num)) hnext
  · exact percentile_mono (double_mono (by norm_num)) hlast
  · exact le_maximum (isRanked_percentile hlast).mem

theorem latency_summary_three :
    percentile [5, 1, 3] (1 / 2) = 3 ∧
      percentile [5, 1, 3] (double (99 / 100)) ≤ maximum [5, 1, 3] := by
  have h := latency_summary (List.cons_ne_nil (5 : Rat) [1, 3]) (by norm_num)
  have hplace : place [(5 : Rat), 1, 3].length (1 / 2) = 1 := by
    have hshare : (([(5 : Rat), 1, 3].length - 1 : Nat) : Rat) * (1 / 2) = (1 : Nat) := by norm_num
    rw [place_eq (by norm_num), hshare, double_natCast (by norm_num), Nat.floor_natCast]
  refine ⟨(h.left (1 / 2) 3 (by norm_num) (by norm_num)).left.mpr ?_, h.right.right.right.left⟩
  rw [hplace]
  constructor
  case mem => simp
  case below => norm_num [List.countP_cons]
  case reached => norm_num [List.countP_cons]

end Benchmarks
end PerfMonitor
