import Mathlib.Data.Int.Log
import Mathlib.Data.Rat.Floor
import Mathlib.Tactic.Linarith
import Mathlib.Tactic.NormNum
import Mathlib.Tactic.Ring

/-!
# Rounding

An operation on doubles is the exact one and a rounding to 53 significant bits: to the
nearest such number, and to the even one of two.  It is monotone, and it keeps the numbers
that need no more bits.  Numbers beyond the largest double are left out.  `printf` rounds
in the same way to a number of decimal places.
-/

namespace PerfMonitor
namespace Foundation

def roundEven (x : Rat) : Int :=
  if x - ⌊x⌋ < 1 / 2 then ⌊x⌋
  else if 1 / 2 < x - ⌊x⌋ then ⌊x⌋ + 1
  else if ⌊x⌋ % 2 = 0 then ⌊x⌋
  else ⌊x⌋ + 1

def lastBit (x : Rat) : Int :=
  max (Int.log 2 |x| - 52) (-1074)

def double (x : Rat) : Rat :=
  roundEven (x / 2 ^ lastBit x) * 2 ^ lastBit x

/-- `printf` with a number of decimal places. -/
def fixedPoint (places : Nat) (x : Rat) : Rat :=
  roundEven (x * 10 ^ places) / 10 ^ places

/-!
## The nearest integer
-/

theorem roundEven_intCast (n : Int) : roundEven n = n := by
  unfold roundEven
  rw [Int.floor_intCast, sub_self, if_pos (by norm_num)]

theorem floor_le_roundEven (x : Rat) : ⌊x⌋ ≤ roundEven x := by
  unfold roundEven
  split
  · exact le_refl _
  · split
    · exact le_of_lt (Int.lt_succ _)
    · split
      · exact le_refl _
      · exact le_of_lt (Int.lt_succ _)

theorem roundEven_le_floor_add_one (x : Rat) : roundEven x ≤ ⌊x⌋ + 1 := by
  unfold roundEven
  split
  · exact le_of_lt (Int.lt_succ _)
  · split
    · exact le_refl _
    · split
      · exact le_of_lt (Int.lt_succ _)
      · exact le_refl _

theorem abs_roundEven_sub_le (x : Rat) : |(roundEven x : Rat) - x| ≤ 1 / 2 := by
  have hlow := Int.floor_le x
  have hhigh := Int.lt_floor_add_one x
  unfold roundEven
  split
  next hdown =>
    rw [abs_le]
    constructor <;> linarith
  next hdown =>
    rw [not_lt] at hdown
    split
    next hup =>
      rw [Int.cast_add, Int.cast_one, abs_le]
      constructor <;> linarith
    next hup =>
      rw [not_lt] at hup
      split
      · rw [abs_le]
        constructor <;> linarith
      · rw [Int.cast_add, Int.cast_one, abs_le]
        constructor <;> linarith

theorem roundEven_mono {x y : Rat} (h : x ≤ y) : roundEven x ≤ roundEven y := by
  rcases lt_or_ge ⌊x⌋ ⌊y⌋ with hlt | hge
  · exact (roundEven_le_floor_add_one x).trans ((Int.add_one_le_of_lt hlt).trans
      (floor_le_roundEven y))
  · have hsame : ⌊x⌋ = ⌊y⌋ := le_antisymm (Int.floor_mono h) hge
    have hpart : x - ⌊y⌋ ≤ y - ⌊y⌋ := sub_le_sub_right h _
    unfold roundEven
    rw [hsame]
    generalize ⌊y⌋ = f at hpart
    by_cases hdown : y - f < 1 / 2
    · rw [if_pos hdown, if_pos (lt_of_le_of_lt hpart hdown)]
    · rw [if_neg hdown]
      by_cases hup : 1 / 2 < x - f
      · have hup' : 1 / 2 < y - f := lt_of_lt_of_le hup hpart
        rw [if_neg (not_lt_of_gt hup), if_pos hup, if_pos hup']
      · rw [if_neg hup]
        split
        · split
          · exact le_of_lt (Int.lt_succ _)
          · split
            · exact le_refl _
            · exact le_of_lt (Int.lt_succ _)
        · split
          · split
            · exact le_of_lt (Int.lt_succ _)
            · exact le_refl _
          · split
            · exact le_refl _
            · exact le_refl _

theorem floor_neg_of_not_int {x : Rat} (h : x ≠ ⌊x⌋) : ⌊-x⌋ = -⌊x⌋ - 1 := by
  have hlow := lt_of_le_of_ne (Int.floor_le x) (Ne.symm h)
  have hhigh := Int.lt_floor_add_one x
  rw [Int.floor_eq_iff]
  push_cast
  constructor <;> linarith

theorem roundEven_neg (x : Rat) : roundEven (-x) = -roundEven x := by
  by_cases hint : x = ⌊x⌋
  · rw [hint, ← Int.cast_neg, roundEven_intCast, roundEven_intCast]
  · have hfloor := floor_neg_of_not_int hint
    have hpart : -x - (⌊-x⌋ : Rat) = 1 - (x - ⌊x⌋) := by
      rw [hfloor]
      push_cast
      ring
    unfold roundEven
    rw [hpart, hfloor]
    generalize ⌊x⌋ = f
    by_cases hdown : x - f < 1 / 2
    · rw [if_pos hdown, if_neg (by linarith), if_pos (by linarith)]
      ring
    · rw [if_neg hdown]
      by_cases hup : 1 / 2 < x - f
      · rw [if_pos hup, if_pos (by linarith)]
        ring
      · rw [if_neg hup, if_neg (by linarith), if_neg (by linarith)]
        by_cases heven : f % 2 = 0
        · rw [if_pos heven, if_neg (by omega)]
          ring
        · rw [if_neg heven, if_pos (by omega)]
          ring

/-!
## Decimal places
-/

theorem abs_fixedPoint_sub_le (places : Nat) (x : Rat) :
    |fixedPoint places x - x| ≤ 1 / 2 / 10 ^ places := by
  have hpos : (0 : Rat) < 10 ^ places := pow_pos (by norm_num) places
  have hscaled : fixedPoint places x - x =
      ((roundEven (x * 10 ^ places) : Rat) - x * 10 ^ places) / 10 ^ places := by
    unfold fixedPoint
    rw [sub_div, mul_div_cancel_right₀ _ (ne_of_gt hpos)]
  rw [hscaled, abs_div, abs_of_pos hpos]
  exact div_le_div_of_nonneg_right (abs_roundEven_sub_le _) (le_of_lt hpos)

theorem fixedPoint_intCast (places : Nat) (n : Int) : fixedPoint places n = n := by
  have hpos : (0 : Rat) < 10 ^ places := pow_pos (by norm_num) places
  have hcast : (n : Rat) * 10 ^ places = ((n * 10 ^ places : Int) : Rat) := by
    push_cast
    rfl
  unfold fixedPoint
  rw [hcast, roundEven_intCast, ← hcast, mul_div_cancel_right₀ _ (ne_of_gt hpos)]

/-!
## Doubles
-/

theorem double_of_scaled {x : Rat} {n : Int} (h : x / 2 ^ lastBit x = n) : double x = x := by
  have hpos : (0 : Rat) < 2 ^ lastBit x := zpow_pos (by norm_num) _
  unfold double
  rw [h, roundEven_intCast, ← h, div_mul_cancel₀ _ (ne_of_gt hpos)]

theorem double_of_lastBit_le {m e : Int} (h : lastBit (m * 2 ^ e) ≤ e) :
    double (m * 2 ^ e) = m * 2 ^ e := by
  generalize hlast : lastBit (m * 2 ^ e) = last at h
  obtain ⟨steps, hsteps⟩ := Int.eq_ofNat_of_zero_le (Int.sub_nonneg_of_le h)
  have he : e = last + steps := by omega
  apply double_of_scaled (n := m * 2 ^ steps)
  have hpos : (0 : Rat) < 2 ^ last := zpow_pos (by norm_num) _
  rw [hlast, he, zpow_add₀ (by norm_num), zpow_natCast, div_eq_iff (ne_of_gt hpos)]
  push_cast
  ring

theorem lastBit_le_of_abs_lt {x : Rat} {e : Int} (hx : x ≠ 0) (he : -1074 ≤ e)
    (h : |x| < 2 ^ (e + 53)) : lastBit x ≤ e := by
  have hlog : Int.log 2 |x| < e + 53 := by
    rw [← Int.lt_zpow_iff_log_lt (by decide) (abs_pos.mpr hx)]
    exact_mod_cast h
  exact max_le (by omega) he

/-- A number with a significand of 53 bits is kept. -/
theorem double_exact {m e : Int} (hm : |m| ≤ 2 ^ 53) (he : -1074 ≤ e) :
    double (m * 2 ^ e) = m * 2 ^ e := by
  have hstep : (0 : Rat) < 2 ^ e := zpow_pos (by norm_num) e
  by_cases hzero : m = 0
  · rw [hzero, Int.cast_zero, zero_mul]
    apply double_of_scaled (n := 0)
    rw [zero_div, Int.cast_zero]
  · have hne : (m : Rat) * 2 ^ e ≠ 0 := mul_ne_zero (Int.cast_ne_zero.mpr hzero) (ne_of_gt hstep)
    rcases lt_or_eq_of_le hm with hlt | heq
    · apply double_of_lastBit_le
      apply lastBit_le_of_abs_lt hne he
      rw [abs_mul, abs_of_pos hstep, zpow_add₀ (by norm_num), mul_comm]
      apply mul_lt_mul_of_pos_left _ hstep
      exact_mod_cast hlt
    · -- the bound itself has a shorter significand
      have heven : exists half : Int, m = half * 2 := by
        rcases abs_eq (by norm_num) |>.mp heq with hm | hm
        · exact ⟨2 ^ 52, by rw [hm]; norm_num⟩
        · exact ⟨-2 ^ 52, by rw [hm]; norm_num⟩
      rcases heven with ⟨half, hhalf⟩
      have hshift : (m : Rat) * 2 ^ e = half * 2 ^ (e + 1) := by
        rw [hhalf, zpow_add₀ (by norm_num), zpow_one]
        push_cast
        ring
      rw [hshift]
      apply double_of_lastBit_le
      rw [← hshift]
      apply lastBit_le_of_abs_lt hne (by omega)
      have hcast : |(m : Rat)| = 2 ^ 53 := by exact_mod_cast heq
      rw [abs_mul, abs_of_pos hstep, hcast, zpow_add₀ (by norm_num), zpow_add₀ (by norm_num),
        mul_comm, mul_assoc]
      apply mul_lt_mul_of_pos_left _ hstep
      norm_num

theorem double_intCast {n : Int} (hn : |n| ≤ 2 ^ 53) : double n = n := by
  have hexact := double_exact (e := 0) hn (by decide)
  rwa [zpow_zero, mul_one] at hexact

theorem double_natCast {n : Nat} (hn : n ≤ 2 ^ 53) : double n = n := by
  have hexact := double_intCast (n := n) (by rw [Nat.abs_cast]; exact_mod_cast hn)
  rwa [Int.cast_natCast] at hexact

theorem double_add_natCast {n k : Nat} (h : n + k ≤ 2 ^ 53) :
    double (n + double k) = ((n + k : Nat) : Rat) := by
  rw [double_natCast (Nat.le_trans (Nat.le_add_left k n) h), ← Nat.cast_add, double_natCast h]

theorem double_neg (x : Rat) : double (-x) = -double x := by
  have hlast : lastBit (-x) = lastBit x := by
    unfold lastBit
    rw [abs_neg]
  unfold double
  rw [hlast, neg_div, roundEven_neg]
  push_cast
  ring

theorem double_nonneg {x : Rat} (hx : 0 ≤ x) : 0 ≤ double x := by
  have hpos : (0 : Rat) < 2 ^ lastBit x := zpow_pos (by norm_num) _
  have hround : roundEven 0 ≤ roundEven (x / 2 ^ lastBit x) :=
    roundEven_mono (div_nonneg hx (le_of_lt hpos))
  have hzero : roundEven 0 = 0 := by
    have hcast := roundEven_intCast 0
    rwa [Int.cast_zero] at hcast
  rw [hzero] at hround
  exact mul_nonneg (Int.cast_nonneg hround) (le_of_lt hpos)

theorem lastBit_mono {x y : Rat} (hx : 0 < x) (h : x ≤ y) : lastBit x ≤ lastBit y := by
  unfold lastBit
  rw [abs_of_pos hx, abs_of_pos (lt_of_lt_of_le hx h)]
  exact max_le_max_right _ (Int.sub_le_sub_right (Int.log_mono_right hx h) 52)

theorem double_le_zpow {x : Rat} {p : Int} (hlast : lastBit x ≤ p) (h : x ≤ 2 ^ p) :
    double x ≤ 2 ^ p := by
  have hpos : (0 : Rat) < 2 ^ lastBit x := zpow_pos (by norm_num) _
  obtain ⟨steps, hsteps⟩ := Int.eq_ofNat_of_zero_le (Int.sub_nonneg_of_le hlast)
  have hp : p = lastBit x + steps := by omega
  have hpower : (2 : Rat) ^ p = ((2 ^ steps : Int) : Rat) * 2 ^ lastBit x := by
    rw [hp, zpow_add₀ (by norm_num), zpow_natCast]
    push_cast
    ring
  unfold double
  rw [hpower] at h ⊢
  apply mul_le_mul_of_nonneg_right _ (le_of_lt hpos)
  rw [Int.cast_le, ← roundEven_intCast (2 ^ steps)]
  exact roundEven_mono ((div_le_iff₀ hpos).mpr h)

theorem zpow_le_double {y : Rat} {p : Int} (hlast : lastBit y ≤ p) (h : 2 ^ p ≤ y) :
    2 ^ p ≤ double y := by
  have hpos : (0 : Rat) < 2 ^ lastBit y := zpow_pos (by norm_num) _
  obtain ⟨steps, hsteps⟩ := Int.eq_ofNat_of_zero_le (Int.sub_nonneg_of_le hlast)
  have hp : p = lastBit y + steps := by omega
  have hpower : (2 : Rat) ^ p = ((2 ^ steps : Int) : Rat) * 2 ^ lastBit y := by
    rw [hp, zpow_add₀ (by norm_num), zpow_natCast]
    push_cast
    ring
  unfold double
  rw [hpower] at h ⊢
  apply mul_le_mul_of_nonneg_right _ (le_of_lt hpos)
  rw [Int.cast_le, ← roundEven_intCast (2 ^ steps)]
  exact roundEven_mono ((le_div_iff₀ hpos).mpr h)

theorem double_mono_of_pos {x y : Rat} (hx : 0 < x) (h : x ≤ y) : double x ≤ double y := by
  rcases eq_or_lt_of_le (lastBit_mono hx h) with hsame | hless
  · have hpos : (0 : Rat) < 2 ^ lastBit y := zpow_pos (by norm_num) _
    unfold double
    rw [hsame]
    apply mul_le_mul_of_nonneg_right _ (le_of_lt hpos)
    exact Int.cast_le.mpr (roundEven_mono (div_le_div_of_nonneg_right h (le_of_lt hpos)))
  · -- the larger number has a power of two of its own below it
    have hy := lt_of_lt_of_le hx h
    have hlasty : lastBit y = Int.log 2 y - 52 := by
      unfold lastBit at hless ⊢
      rw [abs_of_pos hy] at hless ⊢
      omega
    have hlogx : Int.log 2 x < Int.log 2 y := by
      unfold lastBit at hless hlasty
      rw [abs_of_pos hx, abs_of_pos hy] at hless
      rw [abs_of_pos hy] at hlasty
      omega
    have hbelow : x < 2 ^ Int.log 2 y := by
      have hlog := (Int.lt_zpow_iff_log_lt (b := 2) (by decide) hx).mpr hlogx
      exact_mod_cast hlog
    have habove : (2 : Rat) ^ Int.log 2 y ≤ y := by
      have hlog := Int.zpow_log_le_self (b := 2) (by decide) hy
      exact_mod_cast hlog
    exact (double_le_zpow (by omega) (le_of_lt hbelow)).trans
      (zpow_le_double (by omega) habove)

/-- Rounding keeps the order. -/
theorem double_mono {x y : Rat} (h : x ≤ y) : double x ≤ double y := by
  rcases lt_or_ge 0 x with hx | hx
  · exact double_mono_of_pos hx h
  · have hlow : double x ≤ 0 := by
      rw [← neg_neg x, double_neg]
      exact neg_nonpos.mpr (double_nonneg (neg_nonneg.mpr hx))
    rcases le_or_gt 0 y with hy | hy
    · exact hlow.trans (double_nonneg hy)
    · rw [← neg_neg x, ← neg_neg y, double_neg, double_neg (-y)]
      exact neg_le_neg (double_mono_of_pos (neg_pos.mpr hy) (neg_le_neg h))

end Foundation
end PerfMonitor
