import Mathlib.Data.List.DropRight
import PerfMonitor.Foundation.InputStream

/-!
# The state bits of a string stream

`InputStream` knows of a stream only what is left of it and whether an extraction
has failed.  `std::istringstream` has two bits: an extraction that looks at the end
of the input sets `eofbit`, also when it succeeds, and the sentry of the next one
fails on a stream that is not good.  This module has the extractions with both bits
and shows that they return what those of `InputStream` return.
-/

namespace PerfMonitor
namespace Foundation

structure StreamState where
  rest : List Char
  eofbit : Bool := false
  failbit : Bool := false
deriving DecidableEq, Repr

namespace StreamState

def good (s : StreamState) : Bool :=
  !s.eofbit && !s.failbit

/-- `std::istream::sentry`: whether one may go on to read, and the stream it leaves. -/
def sentry (s : StreamState) (noskipws : Bool) : Bool × StreamState :=
  if s.good then
    if noskipws then (true, s)
    else if s.rest.dropWhile isSpace = [] then
      (false, { rest := [], eofbit := true, failbit := true })
    else (true, { s with rest := s.rest.dropWhile isSpace })
  else (false, { s with failbit := true })

/-- The stream after characters were read up to `rest`. -/
def upTo (rest : List Char) (ok : Bool) : StreamState where
  rest := rest
  eofbit := rest.isEmpty
  failbit := !ok

/-- An extraction.  A sentry that fails leaves the target alone; otherwise `read` says
what becomes of the target, which characters are left, and whether the extraction
succeeds. -/
def extract {α : Type*} (s : StreamState) (old : α)
    (read : List Char -> α × List Char × Bool) : α × StreamState :=
  match s.sentry false with
  | (false, s) => (old, s)
  | (true, s) => ((read s.rest).1, upTo (read s.rest).2.1 (read s.rest).2.2)

def readWord (chars : List Char) : List Char × List Char × Bool :=
  (chars.takeWhile (fun c => !isSpace c), chars.dropWhile (fun c => !isSpace c), true)

def readUInt64 (chars : List Char) : UInt64 × List Char × Bool :=
  let (negative, chars) := InputStream.takeSign chars
  let digits := chars.takeWhile isDigit
  let rest := chars.dropWhile isDigit
  let value := digitsValue digits
  if digits = [] then (0, rest, false)
  else if value < 2 ^ 64 then
    (if negative then -UInt64.ofNat value else UInt64.ofNat value, rest, true)
  else (UInt64.ofNat (2 ^ 64 - 1), rest, false)

def readInt (chars : List Char) : Int × List Char × Bool :=
  let (negative, chars) := InputStream.takeSign chars
  let digits := chars.takeWhile isDigit
  let rest := chars.dropWhile isDigit
  let value := InputStream.signedValue negative digits
  if digits = [] then (0, rest, false)
  else if value < -2 ^ 31 then (-2 ^ 31, rest, false)
  else if 2 ^ 31 ≤ value then (2 ^ 31 - 1, rest, false)
  else (value, rest, true)

/-- `s >> word`. -/
def getWord (s : StreamState) (word : List Char) : List Char × StreamState :=
  s.extract word readWord

/-- `s >> n` for a 64-bit unsigned integer. -/
def getUInt64 (s : StreamState) (n : UInt64) : UInt64 × StreamState :=
  s.extract n readUInt64

/-- `s >> n` for a 32-bit signed integer. -/
def getInt (s : StreamState) (n : Int) : Int × StreamState :=
  s.extract n readInt

/-- `s >> std::ws`, whose sentry does not skip. -/
def ws (s : StreamState) : StreamState :=
  match s.sentry true with
  | (false, s) => s
  | (true, s) => upTo (s.rest.dropWhile isSpace) true

/-!
## What the next extraction finds
-/

def next (s : StreamState) : Option (List Char) :=
  match s.sentry false with
  | (false, _) => none
  | (true, s) => some s.rest

def Shows (s : StreamState) (t : InputStream) : Prop :=
  s.next = t.sentry

structure Agrees {α : Type*} (a : α × StreamState) (b : α × InputStream) : Prop where
  value : a.1 = b.1
  failbit : a.2.failbit = !b.2.ok
  shows : Shows a.2 b.2

theorem next_of_not_good {s : StreamState} (h : s.good = false) : s.next = none := by
  unfold next sentry
  rw [h]
  rfl

theorem sentry_of_next_none {s : StreamState} (h : s.next = none) :
    exists s', s.sentry false = (false, s') ∧ s'.failbit = true := by
  unfold next at h
  by_cases hgood : s.good = true
  · by_cases hrest : s.rest.dropWhile isSpace = []
    · refine ⟨{ rest := [], eofbit := true, failbit := true }, ?_, rfl⟩
      unfold sentry
      rw [if_pos hgood, if_neg Bool.false_ne_true, if_pos hrest]
    · simp [sentry, hgood, hrest] at h
  · exact ⟨{ s with failbit := true }, by rw [sentry, if_neg hgood], rfl⟩

theorem sentry_of_next_some {s : StreamState} {chars : List Char} (h : s.next = some chars) :
    exists s', s.sentry false = (true, s') ∧ s'.rest = chars := by
  unfold next at h
  cases hsentry : s.sentry false with
  | mk ok s' =>
      rw [hsentry] at h
      cases ok with
      | false => cases h
      | true =>
          injection h with h
          exact ⟨s', rfl, h⟩

theorem shows_upTo (rest : List Char) (ok : Bool) :
    Shows (upTo rest ok) { rest := rest, ok := ok } := by
  unfold Shows next sentry InputStream.sentry upTo good
  cases ok with
  | false => simp
  | true =>
      cases rest with
      | nil => rfl
      | cons c rest => cases (c :: rest).dropWhile isSpace <;> simp

theorem shows_start (text : List Char) : Shows { rest := text } { rest := text } := by
  unfold Shows next sentry InputStream.sentry good
  cases text.dropWhile isSpace <;> simp

theorem agrees_upTo {α : Type*} (a : α) (rest : List Char) (ok : Bool) :
    Agrees (a, upTo rest ok) (a, { rest := rest, ok := ok }) :=
  ⟨rfl, rfl, shows_upTo rest ok⟩

theorem agrees_failed {α : Type*} (a : α) {s : StreamState} (hfail : s.failbit = true)
    (rest : List Char) : Agrees (a, s) (a, { rest := rest, ok := false }) := by
  refine ⟨rfl, hfail, ?_⟩
  have hgood : s.good = false := by
    unfold good
    rw [hfail]
    exact Bool.and_false _
  exact next_of_not_good hgood

def extractPlain {α : Type*} (t : InputStream) (old : α)
    (read : List Char -> α × List Char × Bool) : α × InputStream :=
  match t.sentry with
  | none => (old, { t with ok := false })
  | some chars => ((read chars).1, { rest := (read chars).2.1, ok := (read chars).2.2 })

theorem getWord_eq (t : InputStream) (word : List Char) :
    t.getWord word = extractPlain t word readWord :=
  rfl

theorem getUInt64_eq (t : InputStream) (n : UInt64) :
    t.getUInt64 n = extractPlain t n readUInt64 := by
  unfold InputStream.getUInt64 extractPlain readUInt64
  cases t.sentry with
  | none => rfl
  | some chars =>
      dsimp only
      split
      · rfl
      split
      · rfl
      · rfl

theorem getInt_eq (t : InputStream) (n : Int) : t.getInt n = extractPlain t n readInt := by
  unfold InputStream.getInt extractPlain readInt
  cases t.sentry with
  | none => rfl
  | some chars =>
      dsimp only
      split
      · rfl
      split
      · rfl
      split
      · rfl
      · rfl

section Extractions

variable {s : StreamState} {t : InputStream} (h : Shows s t)

include h

theorem agrees_extract {α : Type*} (old : α) (read : List Char -> α × List Char × Bool) :
    Agrees (s.extract old read) (extractPlain t old read) := by
  unfold extract extractPlain
  rw [← h]
  cases hnext : s.next with
  | none =>
      rcases sentry_of_next_none hnext with ⟨s', hs', hfail⟩
      rw [hs']
      exact agrees_failed old hfail t.rest
  | some chars =>
      rcases sentry_of_next_some hnext with ⟨s', hs', hrest⟩
      rw [hs', ← hrest]
      exact agrees_upTo _ _ _

theorem agrees_getWord (word : List Char) : Agrees (s.getWord word) (t.getWord word) := by
  rw [getWord_eq]
  exact agrees_extract h word readWord

theorem agrees_getUInt64 (n : UInt64) : Agrees (s.getUInt64 n) (t.getUInt64 n) := by
  rw [getUInt64_eq]
  exact agrees_extract h n readUInt64

theorem agrees_getInt (n : Int) : Agrees (s.getInt n) (t.getInt n) := by
  rw [getInt_eq]
  exact agrees_extract h n readInt

end Extractions

/-!
## Manipulators
-/

/-- `std::ws` changes what is left and may set a bit, but the next extraction would
have skipped the same characters and failed on the same streams. -/
theorem next_ws (s : StreamState) : s.ws.next = s.next := by
  by_cases hgood : s.good = true
  · have hws : s.ws = upTo (s.rest.dropWhile isSpace) true := by
      unfold ws sentry
      rw [if_pos hgood]
      rfl
    have hafter : s.ws.next = InputStream.sentry { rest := s.rest.dropWhile isSpace } := by
      rw [hws]
      exact shows_upTo _ true
    rw [hafter]
    unfold next sentry InputStream.sentry
    rw [if_pos hgood, List.dropWhile_idempotent isSpace]
    cases s.rest.dropWhile isSpace <;> simp
  · have hbad : s.good = false := eq_false_of_ne_true hgood
    have hws : s.ws.good = false := by
      unfold ws sentry
      rw [hbad]
      exact Bool.and_false _
    rw [next_of_not_good hbad, next_of_not_good hws]

theorem shows_ws {s : StreamState} {t : InputStream} (h : Shows s t) : Shows s.ws t :=
  (next_ws s).trans h

end StreamState

namespace InputStream

theorem sentry_skipSpace (t : InputStream) : t.skipSpace.sentry = t.sentry := by
  unfold skipSpace
  by_cases hok : t.ok = true
  · rw [if_pos hok]
    unfold sentry
    rw [if_pos hok, if_pos hok, List.dropWhile_idempotent isSpace]
  · rw [if_neg hok]

end InputStream

end Foundation
end PerfMonitor
