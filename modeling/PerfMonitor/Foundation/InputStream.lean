import Mathlib.Algebra.Ring.Int.Defs
import Mathlib.Algebra.Ring.Nat
import Mathlib.Data.List.Basic

/-!
# Formatted extraction from a string stream

`std::istringstream` with `operator>>` for words and integers, and the loop of
`std::getline` over a text.  Every extraction first skips white space; at the end
of the input, or when an earlier extraction failed, it fails and leaves its target
alone.  An integer is an optional sign and the decimal digits after it: without a
digit the target becomes zero, outside the range it becomes the nearest bound, and
both count as a failure.  A minus sign negates an unsigned integer modulo `2 ^ 64`.
-/

namespace PerfMonitor
namespace Foundation

/-- `isspace` in the C locale. -/
def isSpace (c : Char) : Bool :=
  c == ' ' || c == '\t' || c == '\n' || c == '\x0b' || c == '\x0c' || c == '\r'

def isDigit (c : Char) : Bool :=
  decide ('0' ≤ c) && decide (c ≤ '9')

def digitsValue (digits : List Char) : Nat :=
  digits.foldl (fun n c => 10 * n + (c.toNat - '0'.toNat)) 0

structure InputStream where
  rest : List Char
  ok : Bool := true
deriving DecidableEq, Repr

namespace InputStream

/-- The sentry of `operator>>`: the input after white space, or nothing. -/
def sentry (s : InputStream) : Option (List Char) :=
  if s.ok then
    match s.rest.dropWhile isSpace with
    | [] => none
    | c :: rest => some (c :: rest)
  else none

/-- `s >> word`. -/
def getWord (s : InputStream) (word : List Char) : List Char × InputStream :=
  match s.sentry with
  | none => (word, { s with ok := false })
  | some chars =>
      (chars.takeWhile (fun c => !isSpace c),
        { rest := chars.dropWhile (fun c => !isSpace c) })

def takeSign : List Char -> Bool × List Char
  | '-' :: rest => (true, rest)
  | '+' :: rest => (false, rest)
  | chars => (false, chars)

/-- `s >> n` for a 64-bit unsigned integer. -/
def getUInt64 (s : InputStream) (n : UInt64) : UInt64 × InputStream :=
  match s.sentry with
  | none => (n, { s with ok := false })
  | some chars =>
      let (negative, chars) := takeSign chars
      let digits := chars.takeWhile isDigit
      let rest := chars.dropWhile isDigit
      let value := digitsValue digits
      if digits = [] then (0, { rest := rest, ok := false })
      else if value < 2 ^ 64 then
        (if negative then -UInt64.ofNat value else UInt64.ofNat value, { rest := rest })
      else (UInt64.ofNat (2 ^ 64 - 1), { rest := rest, ok := false })

def signedValue (negative : Bool) (digits : List Char) : Int :=
  if negative then -digitsValue digits else digitsValue digits

/-- `s >> n` for a 32-bit signed integer. -/
def getInt (s : InputStream) (n : Int) : Int × InputStream :=
  match s.sentry with
  | none => (n, { s with ok := false })
  | some chars =>
      let (negative, chars) := takeSign chars
      let digits := chars.takeWhile isDigit
      let rest := chars.dropWhile isDigit
      let value := signedValue negative digits
      if digits = [] then (0, { rest := rest, ok := false })
      else if value < -2 ^ 31 then (-2 ^ 31, { rest := rest, ok := false })
      else if 2 ^ 31 ≤ value then (2 ^ 31 - 1, { rest := rest, ok := false })
      else (value, { rest := rest })

/-- `s >> std::ws`. -/
def skipSpace (s : InputStream) : InputStream :=
  if s.ok then { s with rest := s.rest.dropWhile isSpace } else s

/-- `for (int i = 1; i <= n && s >> field; ++i) {}`. -/
def skipWords : Nat -> InputStream -> InputStream
  | 0, s => s
  | n + 1, s =>
      let (_, s) := s.getWord []
      if s.ok then skipWords n s else s

end InputStream

/-- `std::getline` on a fresh stream: the characters before the first newline. -/
def firstLine (content : List Char) : List Char :=
  content.takeWhile (fun c => c ≠ '\n')

/-- The lines that `while (std::getline(stream, line))` goes through.  A newline at
the very end starts no further line. -/
def lines : List Char -> List (List Char)
  | [] => []
  | c :: rest =>
      if c = '\n' then [] :: lines rest
      else
        match lines rest with
        | [] => [[c]]
        | line :: more => (c :: line) :: more

theorem lines_append {line : List Char} (hline : '\n' ∉ line) (rest : List Char) :
    lines (line ++ '\n' :: rest) = line :: lines rest := by
  induction line with
  | nil => rfl
  | cons c line ih =>
      have hc : c ≠ '\n' := fun heq => hline (heq ▸ List.mem_cons_self)
      have htail := ih (fun hmem => hline (List.mem_cons_of_mem c hmem))
      rw [List.cons_append, lines, if_neg hc, htail]

theorem lines_flatMap {texts : List (List Char)} (htexts : forall l, l ∈ texts -> '\n' ∉ l) :
    lines (texts.flatMap (fun l => l ++ ['\n'])) = texts := by
  induction texts with
  | nil => rfl
  | cons l rest ih =>
      rw [List.flatMap_cons, List.append_assoc, List.singleton_append,
        lines_append (htexts l List.mem_cons_self),
        ih (fun l' hl' => htexts l' (List.mem_cons_of_mem l hl'))]

end Foundation
end PerfMonitor
