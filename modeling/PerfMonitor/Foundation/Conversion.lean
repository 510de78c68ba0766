import Mathlib.Algebra.Order.Ring.Rat
import PerfMonitor.Foundation.Numeral

/-!
# Conversions of texts to numbers

`std::stoull` skips white space, takes an optional sign and the digits after it and
leaves the rest alone; it throws if there is no digit or the number does not fit.
`strtod` is given for decimal notation: digits with an optional point among them and
an optional exponent.
-/

namespace PerfMonitor
namespace Foundation

/-- The exceptions of the conversions of `std::string`. -/
inductive ConversionError where
  | invalidArgument
  | outOfRange
deriving DecidableEq, Repr

/-- `std::stoull`. -/
def stoull (str : List Char) : Except ConversionError UInt64 :=
  let (negative, chars) := InputStream.takeSign (str.dropWhile isSpace)
  let digits := chars.takeWhile isDigit
  let value := digitsValue digits
  if digits = [] then .error .invalidArgument
  else if value < 2 ^ 64 then
    .ok (if negative then -UInt64.ofNat value else UInt64.ofNat value)
  else .error .outOfRange

theorem stoull_column (gap : Nat) (n : UInt64) {rest : List Char} (hrest : StopsAt isDigit rest) :
    stoull (column gap n.toNat ++ rest) = .ok n := by
  have hdigits := fun c (hc : c ∈ Nat.toDigits 10 n.toNat) => isDigit_of_mem_toDigits hc
  have hdrop : (column gap n.toNat ++ rest).dropWhile isSpace =
      Nat.toDigits 10 n.toNat ++ rest := by
    unfold column
    rw [List.append_assoc]
    exact dropWhile_span (fun _ h => isSpace_of_mem_blanks h) (stopsAt_toDigits _ _)
  unfold stoull
  simp only [hdrop, InputStream.takeSign_toDigits, takeWhile_span hdigits hrest,
    digitsValue_toDigits, if_neg Nat.toDigits_ne_nil, if_pos n.toNat_lt, Bool.false_eq_true,
    if_false, UInt64.ofNat_toNat]

/-- `std::stoi`. -/
def stoi (str : List Char) : Except ConversionError Int :=
  let (negative, chars) := InputStream.takeSign (str.dropWhile isSpace)
  let digits := chars.takeWhile isDigit
  let value := InputStream.signedValue negative digits
  if digits = [] then .error .invalidArgument
  else if -2 ^ 31 ≤ value ∧ value < 2 ^ 31 then .ok value
  else .error .outOfRange

theorem stoi_range {str : List Char} {n : Int} (h : stoi str = .ok n) :
    -2 ^ 31 ≤ n ∧ n < 2 ^ 31 := by
  unfold stoi at h
  simp only at h
  split at h
  · cases h
  · split at h
    case isTrue hrange =>
      injection h with h
      rw [← h]
      exact hrange
    case isFalse _hrange => cases h

/-!
## Decimal notation
-/

def takeExponent : List Char -> Int × List Char
  | [] => (0, [])
  | c :: rest =>
      let (negative, chars) := InputStream.takeSign rest
      let digits := chars.takeWhile isDigit
      if (c = 'e' ∨ c = 'E') ∧ digits ≠ [] then
        (InputStream.signedValue negative digits, chars.dropWhile isDigit)
      else (0, c :: rest)

def takeFraction : List Char -> List Char × List Char
  | '.' :: rest => (rest.takeWhile isDigit, rest.dropWhile isDigit)
  | chars => ([], chars)

def scale (mantissa : Rat) (exponent : Int) : Rat :=
  if 0 ≤ exponent then mantissa * 10 ^ exponent.toNat else mantissa / 10 ^ (-exponent).toNat

def takeNumber (text : List Char) : Option (Rat × List Char) :=
  let (negative, chars) := InputStream.takeSign text
  let whole := chars.takeWhile isDigit
  let (fraction, chars) := takeFraction (chars.dropWhile isDigit)
  let (exponent, chars) := takeExponent chars
  if whole ++ fraction = [] then none
  else
    let mantissa : Rat := digitsValue (whole ++ fraction)
    let value := scale mantissa (exponent - fraction.length)
    some (if negative then -value else value, chars)

/-- `strtod`. -/
def strtod (text : List Char) : Rat :=
  match takeNumber (text.dropWhile isSpace) with
  | some (value, _) => value
  | none => 0

def isNumber (text : List Char) : Bool :=
  match takeNumber text with
  | some (_, rest) => rest.isEmpty
  | none => false

theorem takeNumber_toDigits (n : Nat) : takeNumber (Nat.toDigits 10 n) = some ((n : Rat), []) := by
  have hsign := InputStream.takeSign_toDigits n []
  rw [List.append_nil] at hsign
  have hne : Nat.toDigits 10 n ++ [] ≠ [] := by
    rw [List.append_nil]
    exact Nat.toDigits_ne_nil
  have hscale : scale (n : Rat) (0 - ((0 : Nat) : Int)) = n := by
    unfold scale
    simp
  unfold takeNumber
  simp only [hsign, takeWhile_toDigits, dropWhile_toDigits, takeFraction, takeExponent, if_neg hne]
  rw [List.append_nil, digitsValue_toDigits, List.length_nil, hscale, if_neg Bool.false_ne_true]

theorem strtod_toDigits (n : Nat) : strtod (Nat.toDigits 10 n) = n := by
  have hdrop : (Nat.toDigits 10 n).dropWhile isSpace = Nat.toDigits 10 n := by
    rcases exists_toDigits_cons n with ⟨c, digits, hdigits, hc⟩
    have hspace : ¬ isSpace c = true := by
      rw [isSpace_of_isDigit hc]
      exact Bool.false_ne_true
    rw [hdigits, List.dropWhile_cons_of_neg hspace]
  unfold strtod
  rw [hdrop, takeNumber_toDigits]

theorem isNumber_toDigits (n : Nat) : isNumber (Nat.toDigits 10 n) = true := by
  unfold isNumber
  rw [takeNumber_toDigits]
  rfl

end Foundation
end PerfMonitor
