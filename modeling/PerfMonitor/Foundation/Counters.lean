import Mathlib.Algebra.Order.Ring.Rat
import Mathlib.Tactic.Ring

/-!
# Differences of 64-bit counters

The difference of two unsigned counters is taken modulo `2 ^ 64`.  Between counters
that do not decrease it is the difference of their values.  Read as a signed number
it is negative from `2 ^ 63` on.
-/

namespace PerfMonitor
namespace Foundation

theorem sub_eq_zero_iff_eq {a b : UInt64} : a - b = 0 <-> a = b := by
  rw [UInt64.sub_eq_iff_eq_add, UInt64.zero_add]

theorem toNat_sub_cast {prev cur : UInt64} (h : prev ≤ cur) :
    ((cur - prev).toNat : Rat) = (cur.toNat : Rat) - (prev.toNat : Rat) := by
  rw [UInt64.toNat_sub_of_le _ _ h]
  exact Nat.cast_sub (UInt64.le_iff_toNat_le.mp h)

theorem toNat_sub_add_cast {prev prev' cur cur' : UInt64} (h : prev ≤ cur) (h' : prev' ≤ cur')
    (hlt : cur.toNat < 2 ^ 63) (hlt' : cur'.toNat < 2 ^ 63) :
    (((cur + cur') - (prev + prev')).toNat : Rat) =
      ((cur.toNat : Rat) - (prev.toNat : Rat)) + ((cur'.toNat : Rat) - (prev'.toNat : Rat)) := by
  have hnat := UInt64.le_iff_toNat_le.mp h
  have hnat' := UInt64.le_iff_toNat_le.mp h'
  have hcur : (cur + cur').toNat = cur.toNat + cur'.toNat := by
    rw [UInt64.toNat_add, Nat.mod_eq_of_lt]
    omega
  have hprev : (prev + prev').toNat = prev.toNat + prev'.toNat := by
    rw [UInt64.toNat_add, Nat.mod_eq_of_lt]
    omega
  have hle : prev + prev' ≤ cur + cur' := by
    rw [UInt64.le_iff_toNat_le, hcur, hprev]
    exact Nat.add_le_add hnat hnat'
  rw [toNat_sub_cast hle, hcur, hprev, Nat.cast_add, Nat.cast_add]
  ring

/-- A difference is at most the value subtracted from exactly when the counter did not
decrease: a wrapped difference is larger. -/
theorem toNat_sub_le_iff (prev cur : UInt64) : (cur - prev).toNat ≤ cur.toNat <-> prev ≤ cur := by
  have hprev := prev.toNat_lt
  have hcur := cur.toNat_lt
  rw [UInt64.le_iff_toNat_le, UInt64.toNat_sub]
  omega

/-- The same for the sums of two counters, against the exact sum of the current ones: it
may also hold where the old sum has a carry that the difference loses. -/
theorem toNat_sub_add_le_iff (prev prev' cur cur' : UInt64) :
    ((cur + cur') - (prev + prev')).toNat ≤ cur.toNat + cur'.toNat <->
      prev.toNat + prev'.toNat ≤ cur.toNat + cur'.toNat ∨
        (2 ^ 64 ≤ prev.toNat + prev'.toNat ∧
          prev.toNat + prev'.toNat ≤ cur.toNat + cur'.toNat + 2 ^ 64) := by
  have hprev := prev.toNat_lt
  have hprev' := prev'.toNat_lt
  have hcur := cur.toNat_lt
  have hcur' := cur'.toNat_lt
  rw [UInt64.toNat_sub, UInt64.toNat_add, UInt64.toNat_add]
  omega

theorem le_add_iff_lt (d e : UInt64) : d ≤ d + e <-> d.toNat + e.toNat < 2 ^ 64 := by
  have hd := d.toNat_lt
  have he := e.toNat_lt
  rw [UInt64.le_iff_toNat_le, UInt64.toNat_add]
  omega

/-!
## Signed readings
-/

theorem toInt_toInt64 (d : UInt64) :
    d.toInt64.toInt = if d.toNat < 2 ^ 63 then (d.toNat : Int) else (d.toNat : Int) - 2 ^ 64 := by
  have hcond := BitVec.toInt_eq_toNat_cond d.toBitVec
  have hbits : 2 * d.toBitVec.toNat < 2 ^ 64 <-> d.toNat < 2 ^ 63 := by
    rw [UInt64.toNat_toBitVec]
    omega
  simp only [hbits] at hcond
  exact hcond

theorem toInt_toInt64_of_lt {d : UInt64} (h : d.toNat < 2 ^ 63) :
    d.toInt64.toInt = (d.toNat : Int) := by
  rw [toInt_toInt64, if_pos h]

theorem toInt64_neg_of_le {d : UInt64} (h : 2 ^ 63 ≤ d.toNat) : d.toInt64 < 0 := by
  have hlt := d.toNat_lt
  rw [Int64.lt_iff_toInt_lt, toInt_toInt64, if_neg (Nat.not_lt.mpr h)]
  show (d.toNat : Int) - 2 ^ 64 < 0
  omega

end Foundation
end PerfMonitor
