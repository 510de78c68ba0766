import Mathlib.Data.List.TakeWhile
import PerfMonitor.Foundation.InputStream

/-!
# Fields of a text line

What the extractions of `InputStream` do on lines made of fields.  On a rendered
column, some blanks and a decimal number, they return the number and stand at the
next column.  In the other direction, a chain of extractions that succeeds shows
that the line begins with fields of these kinds.
-/

namespace PerfMonitor
namespace Foundation

/-!
## Spans of characters
-/

def StopsAt (p : Char -> Bool) (rest : List Char) : Prop :=
  forall c, rest.head? = some c -> p c = false

theorem stopsAt_nil (p : Char -> Bool) : StopsAt p [] := by
  intro c hc
  cases hc

theorem stopsAt_cons {p : Char -> Bool} {c : Char} (hc : p c = false) (rest : List Char) :
    StopsAt p (c :: rest) := by
  intro c' hc'
  injection hc' with heq
  rw [← heq]
  exact hc

theorem ne_of_kind {p : Char -> Bool} {c d : Char} (hc : p c = true) (hd : p d = false) :
    c ≠ d := by
  intro heq
  rw [heq, hd] at hc
  cases hc

section Spans

variable {p : Char -> Bool} {word rest : List Char}

theorem takeWhile_span (hword : forall c, c ∈ word -> p c = true) (hrest : StopsAt p rest) :
    (word ++ rest).takeWhile p = word := by
  rw [List.takeWhile_append_of_pos hword]
  cases rest with
  | nil => exact List.append_nil word
  | cons c rest =>
      rw [List.takeWhile_cons_of_neg (by rw [hrest c rfl]; exact Bool.false_ne_true),
        List.append_nil]

theorem dropWhile_span (hword : forall c, c ∈ word -> p c = true) (hrest : StopsAt p rest) :
    (word ++ rest).dropWhile p = rest := by
  rw [List.dropWhile_append_of_pos hword]
  cases rest with
  | nil => rfl
  | cons c rest =>
      rw [List.dropWhile_cons_of_neg (by rw [hrest c rfl]; exact Bool.false_ne_true)]

theorem stopsAt_dropWhile (l : List Char) : StopsAt p (l.dropWhile p) := by
  intro c hc
  induction l with
  | nil => cases hc
  | cons d l ih =>
      cases hd : p d with
      | true =>
          rw [List.dropWhile_cons_of_pos hd] at hc
          exact ih hc
      | false =>
          rw [List.dropWhile_cons_of_neg (by rw [hd]; exact Bool.false_ne_true)] at hc
          injection hc with heq
          rw [← heq]
          exact hd

end Spans

def expectChar (skip : Char -> Bool) (c : Char) (text : List Char) : Option (List Char) :=
  match text.dropWhile skip with
  | [] => none
  | d :: rest => if d = c then some rest else none

section Expect

variable {skip : Char -> Bool} {gap : List Char} {c d : Char}

theorem expectChar_self (hgap : forall c, c ∈ gap -> skip c = true) (hc : skip c = false)
    (rest : List Char) : expectChar skip c (gap ++ c :: rest) = some rest := by
  unfold expectChar
  rw [dropWhile_span hgap (stopsAt_cons hc rest)]
  exact if_pos rfl

theorem expectChar_other (hgap : forall c, c ∈ gap -> skip c = true) (hc : skip c = false)
    (hne : c ≠ d) (rest : List Char) : expectChar skip d (gap ++ c :: rest) = none := by
  unfold expectChar
  rw [dropWhile_span hgap (stopsAt_cons hc rest)]
  exact if_neg hne

theorem expectChar_cons (hc : skip c = false) (rest : List Char) :
    expectChar skip c (c :: rest) = some rest := by
  have hgap : forall e, e ∈ ([] : List Char) -> skip e = true := by
    intro e he
    cases he
  exact expectChar_self hgap hc rest

theorem expectChar_cons_ne (hc : skip c = false) (hne : c ≠ d) (rest : List Char) :
    expectChar skip d (c :: rest) = none := by
  have hgap : forall e, e ∈ ([] : List Char) -> skip e = true := by
    intro e he
    cases he
  exact expectChar_other hgap hc hne rest

theorem expectChar_of_other {text rest : List Char} (h : expectChar skip c text = some rest)
    (hne : c ≠ d) : expectChar skip d text = none := by
  unfold expectChar at h ⊢
  cases hdrop : text.dropWhile skip with
  | nil => rfl
  | cons e tail =>
      rw [hdrop] at h
      have he : e = c := by
        by_contra hec
        have hnone : (if e = c then some tail else none) = none := if_neg hec
        exact Option.some_ne_none rest (h.symm.trans hnone)
      rw [he]
      exact if_neg hne

end Expect

/-!
## Decimal digits
-/

theorem isDigit_eq (c : Char) : isDigit c = c.isDigit := by
  simp [isDigit, Char.isDigit, Char.le_def, UInt32.le_iff_toNat_le]

theorem isDigit_of_mem_toDigits {n : Nat} {c : Char} (hc : c ∈ Nat.toDigits 10 n) :
    isDigit c = true := by
  rw [isDigit_eq]
  exact Nat.isDigit_of_mem_toDigits (by decide) (by decide) hc

theorem exists_toDigits_cons (n : Nat) :
    exists c digits, Nat.toDigits 10 n = c :: digits ∧ isDigit c = true := by
  cases hdigits : Nat.toDigits 10 n with
  | nil => exact absurd hdigits Nat.toDigits_ne_nil
  | cons c digits =>
      have hc : c ∈ Nat.toDigits 10 n := by
        rw [hdigits]
        exact List.mem_cons_self
      exact ⟨c, digits, rfl, isDigit_of_mem_toDigits hc⟩

theorem digitsValue_toDigits (n : Nat) : digitsValue (Nat.toDigits 10 n) = n :=
  Nat.ofDigitChars_ten_toDigits

theorem isSpace_of_isDigit {c : Char} (hc : isDigit c = true) : isSpace c = false := by
  cases hspace : isSpace c with
  | false => rfl
  | true =>
      exfalso
      simp only [isSpace, Bool.or_eq_true, beq_iff_eq] at hspace
      rcases hspace with ((((heq | heq) | heq) | heq) | heq) | heq <;>
        (rw [heq] at hc; exact absurd hc (by decide))

theorem takeSign_of_isDigit {c : Char} (hc : isDigit c = true) (rest : List Char) :
    InputStream.takeSign (c :: rest) = (false, c :: rest) := by
  unfold InputStream.takeSign
  split
  · rename_i heq
    injection heq with heq
    rw [heq] at hc
    exact absurd hc (by decide)
  · rename_i heq
    injection heq with heq
    rw [heq] at hc
    exact absurd hc (by decide)
  · rfl

/-!
## Reading columns
-/

def blanks (n : Nat) : List Char :=
  List.replicate n ' '

def column (gap n : Nat) : List Char :=
  blanks gap ++ Nat.toDigits 10 n

theorem isSpace_of_mem_blanks {n : Nat} {c : Char} (hc : c ∈ blanks n) : isSpace c = true := by
  rw [List.eq_of_mem_replicate hc]
  rfl

theorem sentry_blanks (n : Nat) {word : List Char} (hne : word ≠ [])
    (hword : forall c, c ∈ word -> isSpace c = false) (rest : List Char) :
    InputStream.sentry { rest := blanks n ++ (word ++ rest) } = some (word ++ rest) := by
  cases word with
  | nil => exact absurd rfl hne
  | cons c word =>
      have hc : isSpace c = false := hword c List.mem_cons_self
      have hdrop : (blanks n ++ (c :: word ++ rest)).dropWhile isSpace = c :: word ++ rest :=
        dropWhile_span (fun _ h => isSpace_of_mem_blanks h) (stopsAt_cons hc _)
      unfold InputStream.sentry
      simp only [if_true, hdrop]
      rfl

namespace InputStream

theorem getWord_blanks (gap : Nat) {word : List Char} (hne : word ≠ [])
    (hword : forall c, c ∈ word -> isSpace c = false) {rest : List Char}
    (hrest : StopsAt (fun c => !isSpace c) rest) (old : List Char) :
    getWord { rest := blanks gap ++ (word ++ rest) } old = (word, { rest := rest }) := by
  have hinside : forall c, c ∈ word -> (!isSpace c) = true := by
    intro c hc
    rw [hword c hc]
    rfl
  unfold getWord
  rw [sentry_blanks gap hne hword]
  simp only [takeWhile_span hinside hrest, dropWhile_span hinside hrest]

theorem sentry_column (gap n : Nat) (rest : List Char) :
    sentry { rest := column gap n ++ rest } = some (Nat.toDigits 10 n ++ rest) := by
  unfold column
  rw [List.append_assoc]
  exact sentry_blanks gap Nat.toDigits_ne_nil
    (fun _ hc => isSpace_of_isDigit (isDigit_of_mem_toDigits hc)) rest

theorem takeSign_toDigits (n : Nat) (rest : List Char) :
    takeSign (Nat.toDigits 10 n ++ rest) = (false, Nat.toDigits 10 n ++ rest) := by
  rcases exists_toDigits_cons n with ⟨c, digits, hdigits, hc⟩
  rw [hdigits]
  exact takeSign_of_isDigit hc _

section Numbers

variable (gap : Nat) {rest : List Char} (hrest : StopsAt isDigit rest)

include hrest

theorem getUInt64_column (n old : UInt64) :
    getUInt64 { rest := column gap n.toNat ++ rest } old = (n, { rest := rest }) := by
  have hdigits := fun c (hc : c ∈ Nat.toDigits 10 n.toNat) => isDigit_of_mem_toDigits hc
  unfold getUInt64
  rw [sentry_column]
  simp only [takeSign_toDigits, takeWhile_span hdigits hrest, dropWhile_span hdigits hrest,
    digitsValue_toDigits, if_neg Nat.toDigits_ne_nil, if_pos n.toNat_lt, Bool.false_eq_true,
    if_false, UInt64.ofNat_toNat]

theorem getInt_column {n : Nat} (hn : n < 2 ^ 31) (old : Int) :
    getInt { rest := column gap n ++ rest } old = ((n : Int), { rest := rest }) := by
  have hdigits := fun c (hc : c ∈ Nat.toDigits 10 n) => isDigit_of_mem_toDigits hc
  have hvalue : signedValue false (Nat.toDigits 10 n) = n := by
    show (digitsValue (Nat.toDigits 10 n) : Int) = n
    rw [digitsValue_toDigits]
  have hlow : ¬ (n : Int) < -2 ^ 31 := by omega
  have hhigh : ¬ 2 ^ 31 ≤ (n : Int) := by omega
  unfold getInt
  rw [sentry_column]
  simp only [takeSign_toDigits, takeWhile_span hdigits hrest, dropWhile_span hdigits hrest,
    hvalue, if_neg Nat.toDigits_ne_nil, if_neg hlow, if_neg hhigh]

end Numbers

end InputStream

def columns (cols : List (Nat × UInt64)) : List Char :=
  cols.flatMap (fun col => column col.1 col.2.toNat)

theorem stopsAt_column {p : Char -> Bool} (hblank : p ' ' = false) {gap : Nat} (hgap : 0 < gap)
    (rest : List Char) : StopsAt p (blanks gap ++ rest) := by
  cases gap with
  | zero => exact absurd hgap (Nat.lt_irrefl 0)
  | succ gap => exact stopsAt_cons hblank (blanks gap ++ rest)

theorem stopsAt_columns {p : Char -> Bool} (hblank : p ' ' = false) {cols : List (Nat × UInt64)}
    (hspaced : forall col, col ∈ cols -> 0 < col.1) {tail : List Char} (htail : StopsAt p tail) :
    StopsAt p (columns cols ++ tail) := by
  cases cols with
  | nil => exact htail
  | cons col cols =>
      unfold columns column
      rw [List.flatMap_cons, List.append_assoc, List.append_assoc]
      exact stopsAt_column hblank (hspaced col List.mem_cons_self) _

theorem getUInt64_columns (gap : Nat) (n old : UInt64) {cols : List (Nat × UInt64)}
    (hspaced : forall col, col ∈ cols -> 0 < col.1) {tail : List Char}
    (htail : StopsAt isDigit tail) :
    InputStream.getUInt64 { rest := columns ((gap, n) :: cols) ++ tail } old =
      (n, { rest := columns cols ++ tail }) := by
  unfold columns
  rw [List.flatMap_cons, List.append_assoc]
  exact InputStream.getUInt64_column gap (stopsAt_columns rfl hspaced htail) n old

theorem getUInt64_drop {cols : List (Nat × UInt64)}
    (hspaced : forall col, col ∈ cols.tail -> 0 < col.1) {tail : List Char}
    (htail : StopsAt isDigit tail) {k : Nat} (hk : k < cols.length) (old : UInt64) :
    InputStream.getUInt64 { rest := columns (cols.drop k) ++ tail } old =
      (cols[k].2, { rest := columns (cols.drop (k + 1)) ++ tail }) := by
  rw [List.drop_eq_getElem_cons hk]
  apply getUInt64_columns _ _ _ _ htail
  intro col hcol
  apply hspaced
  rw [← List.drop_one]
  exact List.drop_subset_drop_left cols (Nat.le_add_left 1 k) hcol

theorem stopsAt_toDigits (n : Nat) (rest : List Char) :
    StopsAt isSpace (Nat.toDigits 10 n ++ rest) := by
  rcases exists_toDigits_cons n with ⟨c, digits, hdigits, hc⟩
  rw [hdigits]
  exact stopsAt_cons (isSpace_of_isDigit hc) _

theorem skipSpace_columns (gap : Nat) (n : UInt64) (cols : List (Nat × UInt64))
    (tail : List Char) :
    InputStream.skipSpace { rest := columns ((gap, n) :: cols) ++ tail } =
      { rest := columns ((0, n) :: cols) ++ tail } := by
  have hdrop : (columns ((gap, n) :: cols) ++ tail).dropWhile isSpace =
      columns ((0, n) :: cols) ++ tail := by
    unfold columns column
    simp only [List.flatMap_cons, List.append_assoc]
    exact dropWhile_span (fun _ h => isSpace_of_mem_blanks h) (stopsAt_toDigits _ _)
  unfold InputStream.skipSpace
  simp only [if_true, hdrop]

theorem stopsAt_isDigit_of_space {rest : List Char} (h : StopsAt (fun c => !isSpace c) rest) :
    StopsAt isDigit rest := by
  intro c hc
  have hspace : (!isSpace c) = false := h c hc
  cases hdigit : isDigit c with
  | false => rfl
  | true =>
      rw [isSpace_of_isDigit hdigit] at hspace
      cases hspace

theorem stopsAt_blanks (n : Nat) : StopsAt isDigit (blanks n) := by
  intro c hc
  have hmem : c ∈ blanks n := List.mem_of_mem_head? hc
  rw [List.eq_of_mem_replicate hmem]
  rfl

theorem newline_notMem_blanks (n : Nat) : '\n' ∉ blanks n := by
  intro hmem
  exact absurd (List.eq_of_mem_replicate hmem) (by decide)

theorem newline_notMem_column (gap n : Nat) : '\n' ∉ column gap n := by
  intro hmem
  rcases List.mem_append.mp hmem with hblank | hdigit
  · exact newline_notMem_blanks gap hblank
  · exact absurd (isDigit_of_mem_toDigits hdigit) (by decide)

theorem newline_notMem_columns (cols : List (Nat × UInt64)) : '\n' ∉ columns cols := by
  intro hmem
  rcases List.mem_flatMap.mp hmem with ⟨col, _, hcol⟩
  exact newline_notMem_column _ _ hcol

/-!
## Skipping words
-/

def spaced (fields : List (List Char)) : List Char :=
  fields.flatMap (fun word => ' ' :: word)

def IsWord (word : List Char) : Prop :=
  word ≠ [] ∧ forall c, c ∈ word -> isSpace c = false

theorem stopsAt_spaced {p : Char -> Bool} (hblank : p ' ' = false) (fields : List (List Char))
    {tail : List Char} (htail : StopsAt p tail) : StopsAt p (spaced fields ++ tail) := by
  cases fields with
  | nil => exact htail
  | cons word fields => exact stopsAt_cons hblank _

theorem skipWords_spaced {fields : List (List Char)}
    (hfields : forall word, word ∈ fields -> IsWord word) {tail : List Char}
    (htail : StopsAt (fun c => !isSpace c) tail) :
    InputStream.skipWords fields.length { rest := spaced fields ++ tail } = { rest := tail } := by
  induction fields with
  | nil => rfl
  | cons word fields ih =>
      rcases hfields word List.mem_cons_self with ⟨hne, hword⟩
      have hstops : StopsAt (fun c => !isSpace c) (spaced fields ++ tail) :=
        stopsAt_spaced rfl fields htail
      have hfirst := InputStream.getWord_blanks 1 hne hword hstops []
      have hstart : spaced (word :: fields) ++ tail =
          blanks 1 ++ (word ++ (spaced fields ++ tail)) := by
        unfold spaced
        rw [List.flatMap_cons, List.append_assoc]
        rfl
      rw [hstart, List.length_cons, InputStream.skipWords, hfirst]
      exact ih (fun word' hword' => hfields word' (List.mem_cons_of_mem word hword'))

theorem mem_spaced {fields : List (List Char)} {c : Char} (hc : c ∈ spaced fields) :
    c = ' ' ∨ exists word, word ∈ fields ∧ c ∈ word := by
  rcases List.mem_flatMap.mp hc with ⟨word, hword, hmem⟩
  rcases List.mem_cons.mp hmem with heq | hmem
  · exact Or.inl heq
  · exact Or.inr ⟨word, hword, hmem⟩

/-!
## Lines that begin with given fields

A number ends where its digits end, a word where white space or the end of the
line follows.
-/

inductive FieldKind where
  | int
  | uint64
  | word
deriving DecidableEq, Repr

structure SplitsNumber (text rest : List Char) (negative : Bool) (digits : List Char) : Prop where
  parts : exists space sign, text = space ++ (sign ++ (digits ++ rest)) ∧
    (forall c, c ∈ space -> isSpace c = true) ∧
    (if negative then sign = ['-'] else sign = [] ∨ sign = ['+'])
  nonempty : digits ≠ []
  digits : forall c, c ∈ digits -> isDigit c = true
  stops : StopsAt isDigit rest

/-- The text begins with a field of the kind, and `rest` comes after it. -/
def FieldKind.Splits (text rest : List Char) : FieldKind -> Prop
  | .int => exists negative digits, SplitsNumber text rest negative digits ∧
      -2 ^ 31 ≤ InputStream.signedValue negative digits ∧
      InputStream.signedValue negative digits < 2 ^ 31
  | .uint64 => exists negative digits, SplitsNumber text rest negative digits ∧
      digitsValue digits < 2 ^ 64
  | .word => exists space word, text = space ++ (word ++ rest) ∧
      (forall c, c ∈ space -> isSpace c = true) ∧ word ≠ [] ∧
      (forall c, c ∈ word -> isSpace c = false) ∧ StopsAt (fun c => !isSpace c) rest

def FirstFields : List FieldKind -> List Char -> Prop
  | [], _ => True
  | kind :: kinds, text => exists rest, kind.Splits text rest ∧ FirstFields kinds rest

namespace InputStream

theorem ok_of_sentry {s : InputStream} {chars : List Char} (h : s.sentry = some chars) :
    s.ok = true := by
  cases hok : s.ok with
  | true => rfl
  | false => simp [sentry, hok] at h

theorem sentry_splits {s : InputStream} {chars : List Char} (h : s.sentry = some chars) :
    chars ≠ [] ∧ StopsAt isSpace chars ∧
      exists space, s.rest = space ++ chars ∧ forall c, c ∈ space -> isSpace c = true := by
  have hok := ok_of_sentry h
  have hdrop : s.rest.dropWhile isSpace = chars ∧ chars ≠ [] := by
    unfold sentry at h
    rw [if_pos hok] at h
    cases hrest : s.rest.dropWhile isSpace with
    | nil =>
        rw [hrest] at h
        cases h
    | cons c rest =>
        rw [hrest] at h
        injection h with h
        exact ⟨h, by rw [← h]; exact List.cons_ne_nil c rest⟩
  refine ⟨hdrop.right, ?_, s.rest.takeWhile isSpace, ?_, ?_⟩
  · rw [← hdrop.left]
    exact stopsAt_dropWhile s.rest
  · rw [← hdrop.left, List.takeWhile_append_dropWhile]
  · intro c hc
    exact List.mem_takeWhile_imp hc

theorem takeSign_splits (chars : List Char) :
    exists sign, chars = sign ++ (takeSign chars).2 ∧
      (if (takeSign chars).1 then sign = ['-'] else sign = [] ∨ sign = ['+']) := by
  unfold takeSign
  split
  · exact ⟨['-'], rfl, rfl⟩
  · exact ⟨['+'], rfl, Or.inr rfl⟩
  · exact ⟨[], rfl, Or.inl rfl⟩

theorem splitsNumber_of_sentry {s : InputStream} {chars : List Char} (h : s.sentry = some chars)
    (hdigits : (takeSign chars).2.takeWhile isDigit ≠ []) :
    SplitsNumber s.rest ((takeSign chars).2.dropWhile isDigit) (takeSign chars).1
      ((takeSign chars).2.takeWhile isDigit) := by
  rcases sentry_splits h with ⟨_, _, space, hspace, hall⟩
  rcases takeSign_splits chars with ⟨sign, hchars, hsign⟩
  constructor
  · refine ⟨space, sign, ?_, hall, hsign⟩
    rw [List.takeWhile_append_dropWhile, ← hchars]
    exact hspace
  · exact hdigits
  · intro c hc
    exact List.mem_takeWhile_imp hc
  · exact stopsAt_dropWhile _

theorem splits_of_getUInt64 {s : InputStream} {old : UInt64} (hok : (s.getUInt64 old).2.ok = true) :
    FieldKind.Splits s.rest (s.getUInt64 old).2.rest .uint64 := by
  cases hs : s.sentry with
  | none => simp [getUInt64, hs] at hok
  | some chars =>
      by_cases hdigits : (takeSign chars).2.takeWhile isDigit = []
      · simp [getUInt64, hs, hdigits] at hok
      · have hnumber := splitsNumber_of_sentry hs hdigits
        simp only [getUInt64, hs, if_neg hdigits] at hok ⊢
        split at hok
        next hvalue =>
          rw [if_pos hvalue]
          exact ⟨_, _, hnumber, hvalue⟩
        · cases hok

theorem splits_of_getInt {s : InputStream} {old : Int} (hok : (s.getInt old).2.ok = true) :
    FieldKind.Splits s.rest (s.getInt old).2.rest .int := by
  cases hs : s.sentry with
  | none => simp [getInt, hs] at hok
  | some chars =>
      by_cases hdigits : (takeSign chars).2.takeWhile isDigit = []
      · simp [getInt, hs, hdigits] at hok
      · have hnumber := splitsNumber_of_sentry hs hdigits
        simp only [getInt, hs, if_neg hdigits] at hok ⊢
        split at hok
        · cases hok
        next hlow =>
        split at hok
        · cases hok
        next hhigh =>
        rw [if_neg hlow, if_neg hhigh]
        exact ⟨_, _, hnumber, Int.not_lt.mp hlow, Int.not_le.mp hhigh⟩

theorem splits_of_getWord {s : InputStream} {old : List Char} (hok : (s.getWord old).2.ok = true) :
    FieldKind.Splits s.rest (s.getWord old).2.rest .word := by
  cases hs : s.sentry with
  | none => simp [getWord, hs] at hok
  | some chars =>
      rcases sentry_splits hs with ⟨hne, hstops, space, hspace, hall⟩
      simp only [getWord, hs]
      refine ⟨space, chars.takeWhile (fun c => !isSpace c), ?_, hall, ?_, ?_, ?_⟩
      · rw [List.takeWhile_append_dropWhile]
        exact hspace
      · cases chars with
        | nil => exact absurd rfl hne
        | cons c chars =>
            have hc : isSpace c = false := hstops c rfl
            rw [List.takeWhile_cons_of_pos (by rw [hc]; rfl)]
            exact List.cons_ne_nil _ _
      · intro c hc
        simpa using List.mem_takeWhile_imp hc
      · exact stopsAt_dropWhile _

/-- An extraction that succeeds does not depend on what its target held. -/
theorem getUInt64_target (s : InputStream) (old old' : UInt64) :
    (s.getUInt64 old).2 = (s.getUInt64 old').2 ∧
      ((s.getUInt64 old).2.ok = true -> (s.getUInt64 old).1 = (s.getUInt64 old').1) := by
  unfold getUInt64
  cases s.sentry with
  | none =>
      refine ⟨rfl, ?_⟩
      intro hok
      cases hok
  | some chars => exact ⟨rfl, fun _ => rfl⟩

theorem ok_of_getUInt64 {s : InputStream} {old : UInt64} (h : (s.getUInt64 old).2.ok = true) :
    s.ok = true := by
  unfold getUInt64 at h
  cases hs : s.sentry with
  | none =>
      rw [hs] at h
      cases h
  | some chars => exact ok_of_sentry hs

def GoesOn (kinds : List FieldKind) (s : InputStream) : Prop :=
  s.ok = true ∧ FirstFields kinds s.rest

theorem goesOn_getUInt64 {s : InputStream} {old : UInt64} {kinds : List FieldKind}
    (h : GoesOn kinds (s.getUInt64 old).2) : GoesOn (.uint64 :: kinds) s := by
  exact ⟨ok_of_getUInt64 h.left, (s.getUInt64 old).2.rest, splits_of_getUInt64 h.left, h.right⟩

theorem goesOn_getInt {s : InputStream} {old : Int} {kinds : List FieldKind}
    (h : GoesOn kinds (s.getInt old).2) : GoesOn (.int :: kinds) s := by
  refine ⟨?_, (s.getInt old).2.rest, splits_of_getInt h.left, h.right⟩
  have hok := h.left
  cases hs : s.sentry with
  | none => simp [getInt, hs] at hok
  | some chars => exact ok_of_sentry hs

theorem goesOn_getWord {s : InputStream} {old : List Char} {kinds : List FieldKind}
    (h : GoesOn kinds (s.getWord old).2) : GoesOn (.word :: kinds) s := by
  refine ⟨?_, (s.getWord old).2.rest, splits_of_getWord h.left, h.right⟩
  have hok := h.left
  cases hs : s.sentry with
  | none => simp [getWord, hs] at hok
  | some chars => exact ok_of_sentry hs

end InputStream

def words (text : List Char) : List (List Char) :=
  (text.splitOnP isSpace).filter (fun word => !word.isEmpty)

end Foundation
end PerfMonitor
