import PerfMonitor.Foundation.StreamFields

/-!
# Decimal numerals

The numerals of JSON: an optional minus sign, an integer without superfluous zeros,
an optional fraction and an optional exponent.  Printed integers are numerals.
-/

namespace PerfMonitor
namespace Foundation

def isDigits (text : List Char) : Bool :=
  !text.isEmpty && text.all isDigit

def isInteger (digits : List Char) : Bool :=
  isDigits digits && (decide (digits.head? ≠ some '0') || digits.length == 1)

def isExponent : List Char -> Bool
  | [] => true
  | c :: rest => (c == 'e' || c == 'E') && isDigits (InputStream.takeSign rest).2

def isFraction : List Char -> Bool
  | [] => true
  | c :: rest =>
      if c = '.' then isDigits (rest.takeWhile isDigit) && isExponent (rest.dropWhile isDigit)
      else isExponent (c :: rest)

def dropMinus (text : List Char) : List Char :=
  if text.head? = some '-' then text.tail else text

def isNumeral (text : List Char) : Bool :=
  isInteger ((dropMinus text).takeWhile isDigit) && isFraction ((dropMinus text).dropWhile isDigit)

def isNumberChar (c : Char) : Bool :=
  isDigit c || c == '-' || c == '+' || c == '.' || c == 'e' || c == 'E'

theorem isNumberChar_of_isDigit {c : Char} (h : isDigit c = true) : isNumberChar c = true := by
  simp [isNumberChar, h]

/-!
## The characters of a numeral
-/

theorem isNumberChar_of_isDigits {text : List Char} (h : isDigits text = true) {c : Char}
    (hc : c ∈ text) : isNumberChar c = true := by
  unfold isDigits at h
  rw [Bool.and_eq_true] at h
  exact isNumberChar_of_isDigit (List.all_eq_true.mp h.right c hc)

theorem mem_takeSign {text : List Char} {c : Char} (hc : c ∈ text) :
    c = '-' ∨ c = '+' ∨ c ∈ (InputStream.takeSign text).2 := by
  unfold InputStream.takeSign
  split
  · rcases List.mem_cons.mp hc with heq | hc
    · exact Or.inl heq
    · exact Or.inr (Or.inr hc)
  · rcases List.mem_cons.mp hc with heq | hc
    · exact Or.inr (Or.inl heq)
    · exact Or.inr (Or.inr hc)
  · exact Or.inr (Or.inr hc)

theorem isNumberChar_of_isExponent {text : List Char} (h : isExponent text = true) {c : Char}
    (hc : c ∈ text) : isNumberChar c = true := by
  cases text with
  | nil => cases hc
  | cons d rest =>
      simp only [isExponent, Bool.and_eq_true, Bool.or_eq_true, beq_iff_eq] at h
      rcases List.mem_cons.mp hc with heq | hc
      · rw [heq]
        rcases h.left with he | he
        · rw [he]
          decide
        · rw [he]
          decide
      · rcases mem_takeSign hc with heq | heq | hc
        · rw [heq]
          decide
        · rw [heq]
          decide
        · exact isNumberChar_of_isDigits h.right hc

theorem isNumberChar_of_isFraction {text : List Char} (h : isFraction text = true) {c : Char}
    (hc : c ∈ text) : isNumberChar c = true := by
  cases text with
  | nil => cases hc
  | cons d rest =>
      simp only [isFraction] at h
      split at h
      next hd =>
        rw [Bool.and_eq_true] at h
        rcases List.mem_cons.mp hc with heq | hc
        · rw [heq, hd]
          decide
        · rw [← List.takeWhile_append_dropWhile (p := isDigit) (l := rest)] at hc
          rcases List.mem_append.mp hc with hc | hc
          · exact isNumberChar_of_isDigits h.left hc
          · exact isNumberChar_of_isExponent h.right hc
      · exact isNumberChar_of_isExponent h hc

theorem mem_dropMinus {text : List Char} {c : Char} (hc : c ∈ text) :
    c = '-' ∨ c ∈ dropMinus text := by
  unfold dropMinus
  split
  next hminus =>
    cases text with
    | nil => cases hc
    | cons d rest =>
        rcases List.mem_cons.mp hc with heq | hc
        · rw [heq]
          exact Or.inl (Option.some.inj hminus)
        · exact Or.inr hc
  · exact Or.inr hc

theorem isNumberChar_of_isNumeral {text : List Char} (h : isNumeral text = true) {c : Char}
    (hc : c ∈ text) : isNumberChar c = true := by
  unfold isNumeral at h
  rw [Bool.and_eq_true] at h
  rcases mem_dropMinus hc with heq | hc
  · rw [heq]
    decide
  · rw [← List.takeWhile_append_dropWhile (p := isDigit) (l := dropMinus text)] at hc
    rcases List.mem_append.mp hc with hc | hc
    · exact isNumberChar_of_isDigit (List.mem_takeWhile_imp hc)
    · exact isNumberChar_of_isFraction h.right hc

theorem isNumeral_ne_nil {text : List Char} (h : isNumeral text = true) : text ≠ [] := by
  intro heq
  rw [heq] at h
  exact absurd h (by decide)

/-!
## Printed integers
-/

theorem head_toDigits_ne_zero {n : Nat} (hn : 0 < n) :
    (Nat.toDigits 10 n).head? ≠ some '0' := by
  induction n using Nat.strongRecOn with
  | ind n ih =>
      by_cases hsmall : n < 10
      · rw [Nat.toDigits_of_lt_base hsmall]
        intro heq
        have hdigit : n.digitChar = '0' := Option.some.inj heq
        have hzero : forall m, m < 10 -> 0 < m -> Nat.digitChar m ≠ '0' := by decide
        exact hzero n hsmall hn hdigit
      · have hbase : 10 ≤ n := Nat.le_of_not_lt hsmall
        rw [Nat.toDigits_of_base_le (by decide) hbase,
          List.head?_append_of_ne_nil _ Nat.toDigits_ne_nil]
        exact ih (n / 10) (by omega) (by omega)

theorem isInteger_toDigits (n : Nat) : isInteger (Nat.toDigits 10 n) = true := by
  have hdigits : isDigits (Nat.toDigits 10 n) = true := by
    unfold isDigits
    rw [Bool.and_eq_true]
    constructor
    · simp [Nat.toDigits_ne_nil]
    · exact List.all_eq_true.mpr (fun c hc => isDigit_of_mem_toDigits hc)
  unfold isInteger
  rw [hdigits, Bool.true_and, Bool.or_eq_true]
  rcases Nat.eq_zero_or_pos n with hzero | hpos
  · right
    rw [hzero]
    decide
  · left
    exact decide_eq_true (head_toDigits_ne_zero hpos)

theorem takeWhile_toDigits (n : Nat) :
    (Nat.toDigits 10 n).takeWhile isDigit = Nat.toDigits 10 n :=
  List.takeWhile_eq_self_iff.mpr (fun _ hc => isDigit_of_mem_toDigits hc)

theorem dropWhile_toDigits (n : Nat) : (Nat.toDigits 10 n).dropWhile isDigit = [] :=
  List.dropWhile_eq_nil_iff.mpr (fun _ hc => isDigit_of_mem_toDigits hc)

theorem dropMinus_toDigits (n : Nat) : dropMinus (Nat.toDigits 10 n) = Nat.toDigits 10 n := by
  unfold dropMinus
  rw [if_neg]
  intro hhead
  have hminus := isDigit_of_mem_toDigits (List.mem_of_head? hhead)
  exact absurd hminus (by decide)

theorem isNumeral_natToString (n : Nat) : isNumeral (toString n).toList = true := by
  show isNumeral n.repr.toList = true
  unfold isNumeral
  rw [Nat.toList_repr, dropMinus_toDigits, takeWhile_toDigits, dropWhile_toDigits,
    isInteger_toDigits]
  rfl

/-!
## Rendered integers
-/

theorem toList_toString_negSucc (n : Nat) :
    (toString (Int.negSucc n)).toList = '-' :: Nat.toDigits 10 (n + 1) := by
  show ("-" ++ (n + 1).repr).toList = _
  rw [String.toList_append, Nat.toList_repr]
  rfl

theorem toList_toString_ofNat (n : Nat) : (toString (Int.ofNat n)).toList = Nat.toDigits 10 n := by
  show n.repr.toList = _
  exact Nat.toList_repr

theorem isNumeral_intToString (n : Int) : isNumeral (toString n).toList = true := by
  cases n with
  | ofNat n => exact isNumeral_natToString n
  | negSucc n =>
      have hdrop : dropMinus ('-' :: Nat.toDigits 10 (n + 1)) = Nat.toDigits 10 (n + 1) := rfl
      unfold isNumeral
      rw [toList_toString_negSucc, hdrop, takeWhile_toDigits, dropWhile_toDigits,
        isInteger_toDigits]
      rfl

theorem mem_intToString {n : Int} {c : Char} (h : c ∈ (toString n).toList) :
    isDigit c = true ∨ c = '-' := by
  cases n with
  | ofNat n =>
      rw [toList_toString_ofNat] at h
      exact Or.inl (isDigit_of_mem_toDigits h)
  | negSucc n =>
      rw [toList_toString_negSucc] at h
      rcases List.mem_cons.mp h with heq | hdigit
      · exact Or.inr heq
      · exact Or.inl (isDigit_of_mem_toDigits hdigit)

theorem toDigits_injective {m n : Nat} (h : Nat.toDigits 10 m = Nat.toDigits 10 n) : m = n := by
  rw [← digitsValue_toDigits m, h, digitsValue_toDigits]

theorem minus_cons_ne_toDigits (digits : List Char) (n : Nat) :
    '-' :: digits ≠ Nat.toDigits 10 n := by
  intro h
  have hminus : '-' ∈ Nat.toDigits 10 n := by
    rw [← h]
    exact List.mem_cons_self
  exact absurd (isDigit_of_mem_toDigits hminus) (by decide)

theorem intToString_injective {m n : Int} (h : (toString m).toList = (toString n).toList) :
    m = n := by
  cases m with
  | ofNat m =>
      rw [toList_toString_ofNat] at h
      cases n with
      | ofNat n =>
          rw [toList_toString_ofNat] at h
          rw [toDigits_injective h]
      | negSucc n =>
          rw [toList_toString_negSucc] at h
          exact absurd h.symm (minus_cons_ne_toDigits _ m)
  | negSucc m =>
      rw [toList_toString_negSucc] at h
      cases n with
      | ofNat n =>
          rw [toList_toString_ofNat] at h
          exact absurd h (minus_cons_ne_toDigits _ n)
      | negSucc n =>
          rw [toList_toString_negSucc] at h
          injection h with _ h
          rw [Nat.succ.inj (toDigits_injective h)]

end Foundation
end PerfMonitor
