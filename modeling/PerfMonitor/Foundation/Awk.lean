import PerfMonitor.Foundation.Conversion

/-!
# Fields and values of awk

A record is a line and its fields are what blanks separate in it.  A value is that of
a variable before any assignment, or a text that was read, which counts as a number
where it looks like one.
-/

namespace PerfMonitor
namespace Foundation
namespace Awk

def isBlank (c : Char) : Bool :=
  c == ' ' || c == '\t' || c == '\n'

def fields (record : List Char) : List (List Char) :=
  (record.splitOnP isBlank).filter (fun field => !field.isEmpty)

inductive Value where
  | uninitialized
  | input (text : List Char)
deriving DecidableEq, Repr

/-- `$i`, which is uninitialized behind the last field. -/
def field (record : List Char) : Nat -> Value
  | 0 => .input record
  | i + 1 =>
      match (fields record)[i]? with
      | none => .uninitialized
      | some text => .input text

theorem field_of_fields {record text : List Char} {i : Nat} (h : (fields record)[i]? = some text) :
    field record (i + 1) = .input text := by
  simp only [field, h]

namespace Value

def text : Value -> List Char
  | .uninitialized => []
  | .input text => text

def number : Value -> Rat
  | .uninitialized => 0
  | .input text => strtod text

/-- `value > 0`, which compares texts where the value does not look like a number. -/
def isPositive : Value -> Bool
  | .uninitialized => false
  | .input text => if isNumber text then decide (0 < strtod text) else decide (['0'] < text)

end Value

/-!
## The fields of a text put together from words
-/

theorem isSpace_of_isBlank {c : Char} (hc : isBlank c = true) : isSpace c = true := by
  simp only [isBlank, Bool.or_eq_true, beq_iff_eq] at hc
  rcases hc with (heq | heq) | heq <;> (rw [heq]; rfl)

theorem fields_append_blank {c : Char} (hc : isBlank c = true) (x y : List Char) :
    fields (x ++ c :: y) = fields x ++ fields y := by
  unfold fields
  rw [List.splitOnP_append_cons x y hc, List.filter_append]

theorem fields_nil : fields [] = [] :=
  rfl

theorem fields_blanks (n : Nat) (rest : List Char) : fields (blanks n ++ rest) = fields rest := by
  induction n with
  | zero => rfl
  | succ n ih =>
      have hfirst := fields_append_blank (c := ' ') rfl [] (blanks n ++ rest)
      rw [fields_nil, List.nil_append, List.nil_append, ih] at hfirst
      exact hfirst

theorem fields_word {word : List Char} (hword : IsWord word) : fields word = [word] := by
  have hsolid : forall c, c ∈ word -> isBlank c = false := by
    intro c hc
    cases hblank : isBlank c with
    | false => rfl
    | true =>
        have hspace := hword.right c hc
        rw [isSpace_of_isBlank hblank] at hspace
        cases hspace
  have hempty : word.isEmpty = false := List.isEmpty_eq_false_iff.mpr hword.left
  unfold fields
  rw [List.splitOnP_eq_singleton hsolid]
  simp [hempty]

theorem text_field {record text : List Char} {i : Nat} (h : (fields record)[i]? = some text) :
    (field record (i + 1)).text = text := by
  show (match (fields record)[i]? with
    | none => Value.uninitialized
    | some text => Value.input text).text = text
  rw [h]
  rfl

theorem fields_cons {word : List Char} (hword : IsWord word) {gap : Nat} (hgap : 0 < gap)
    (rest : List Char) : fields (word ++ (blanks gap ++ rest)) = word :: fields rest := by
  cases gap with
  | zero => exact absurd hgap (Nat.lt_irrefl 0)
  | succ gap =>
      have hsplit := fields_append_blank (c := ' ') rfl word (blanks gap ++ rest)
      rw [fields_word hword, fields_blanks] at hsplit
      exact hsplit

/-!
## A field separator that stands for a run of characters
-/

section Runs

variable (sep : Char -> Bool)

def splitRuns : List Char -> List (List Char)
  | [] => [[]]
  | c :: rest =>
      if sep c then
        if rest.head?.any sep then splitRuns rest else [] :: splitRuns rest
      else (splitRuns rest).modifyHead (fun field => c :: field)

def runFields (record : List Char) : List (List Char) :=
  if record.isEmpty then [] else splitRuns sep record

/-- `$i` with `-F`. -/
def runField (record : List Char) : Nat -> Value
  | 0 => .input record
  | i + 1 =>
      match (runFields sep record)[i]? with
      | none => .uninitialized
      | some text => .input text

variable {sep}

theorem runField_of_runFields {record text : List Char} {i : Nat}
    (h : (runFields sep record)[i]? = some text) : runField sep record (i + 1) = .input text := by
  simp only [runField, h]

theorem splitRuns_run {run rest : List Char} (hne : run ≠ [])
    (hrun : forall c, c ∈ run -> sep c = true) (hrest : StopsAt sep rest) :
    splitRuns sep (run ++ rest) = [] :: splitRuns sep rest := by
  induction run with
  | nil => exact absurd rfl hne
  | cons c run ih =>
      have hc := hrun c List.mem_cons_self
      have hlater : forall d, d ∈ run -> sep d = true :=
        fun d hd => hrun d (List.mem_cons_of_mem c hd)
      rw [List.cons_append, splitRuns, if_pos hc]
      cases run with
      | nil =>
          have hend : rest.head?.any sep = false := by
            cases rest with
            | nil => rfl
            | cons d _ => exact hrest d rfl
          rw [List.nil_append, hend, if_neg Bool.false_ne_true]
      | cons d run =>
          have hmore : ((d :: run) ++ rest).head?.any sep = true := hlater d List.mem_cons_self
          rw [hmore, if_pos rfl]
          exact ih (List.cons_ne_nil d run) hlater

theorem splitRuns_word_append {word : List Char} (hword : forall c, c ∈ word -> sep c = false)
    (rest : List Char) :
    splitRuns sep (word ++ rest) =
      (splitRuns sep rest).modifyHead (fun field => word ++ field) := by
  induction word with
  | nil =>
      rw [List.nil_append]
      cases splitRuns sep rest with
      | nil => rfl
      | cons _ _ => rfl
  | cons c word ih =>
      have hc := hword c List.mem_cons_self
      rw [List.cons_append, splitRuns, if_neg (Bool.eq_false_iff.mp hc),
        ih (fun d hd => hword d (List.mem_cons_of_mem c hd)), List.modifyHead_modifyHead]
      rfl

theorem splitRuns_word {word : List Char} (hword : forall c, c ∈ word -> sep c = false) :
    splitRuns sep word = [word] := by
  have hsplit := splitRuns_word_append hword []
  rw [List.append_nil] at hsplit
  rw [hsplit, splitRuns, List.modifyHead_cons, List.append_nil]

theorem splitRuns_cons {word run rest : List Char} (hword : forall c, c ∈ word -> sep c = false)
    (hne : run ≠ []) (hrun : forall c, c ∈ run -> sep c = true) (hrest : StopsAt sep rest) :
    splitRuns sep (word ++ (run ++ rest)) = word :: splitRuns sep rest := by
  rw [splitRuns_word_append hword, splitRuns_run hne hrun hrest, List.modifyHead_cons,
    List.append_nil]

end Runs

end Awk
end Foundation
end PerfMonitor
