import PerfMonitor.Foundation.Numeral
import PerfMonitor.Foundation.QuotedText
import PerfMonitor.Foundation.Separated
import Mathlib.Data.List.Nodup

/-!
# Text exposition of metrics

The text format for metrics, version 0.0.4: a reader of pages, and the rules that
the lines of a page have to keep.  A family is a metric with one sample, written as
its `HELP` line, its `TYPE` line and the sample, with label values put between quotes
as they are.  A page of families is read back exactly when all label values are
clean, and it keeps the rules exactly when no two families have the same name.
-/

namespace PerfMonitor
namespace Foundation
namespace Exposition

inductive Line where
  | help (name doc : List Char)
  | type (name kind : List Char)
  | sample (name : List Char) (labels : List (List Char × List Char)) (value : List Char)
      (timestamp : Option (List Char))
deriving DecidableEq

/-!
## Words and names
-/

def isBlank (c : Char) : Bool :=
  c == ' ' || c == '\t'

def isWordChar (c : Char) : Bool :=
  !isBlank c && c != '\n'

def word (text : List Char) : List Char × List Char :=
  ((text.dropWhile isBlank).takeWhile isWordChar, (text.dropWhile isBlank).dropWhile isWordChar)

def isLabelChar (c : Char) : Bool :=
  c.isAlpha || c == '_' || isDigit c

def isNameChar (c : Char) : Bool :=
  isLabelChar c || c == ':'

def isIdentifier (p : Char -> Bool) (name : List Char) : Bool :=
  !name.isEmpty && name.all p && !name.head?.any isDigit

def isValue (value : List Char) : Bool :=
  isNumeral value || decide (value ∈ ["NaN".toList, "+Inf".toList, "-Inf".toList])

def isTimestamp (stamp : List Char) : Bool :=
  isDigits (dropMinus stamp)

def kinds : List (List Char) :=
  ["counter".toList, "gauge".toList, "histogram".toList, "summary".toList, "untyped".toList]

/-!
## Label values and help texts
-/

def unescape : List Char -> Option (Char × List Char)
  | [] => none
  | c :: rest =>
      if c = 'n' then some ('\n', rest)
      else if c = '\\' ∨ c = '"' then some (c, rest)
      else none

theorem unescape_splits (text : List Char) (c : Char) (rest : List Char)
    (h : unescape text = some (c, rest)) :
    exists seq, text = seq ++ rest ∧ seq ≠ [] ∧ ((seq = ['"'] ∧ c = '"') ∨ '"' ∉ seq) := by
  cases text with
  | nil => cases h
  | cons d tail =>
      simp only [unescape] at h
      split at h
      next hd =>
        injection h with h
        injection h with _ hrest
        refine ⟨[d], by rw [hrest]; rfl, List.cons_ne_nil _ _, Or.inr ?_⟩
        rw [hd]
        decide
      · split at h
        next hd =>
          injection h with h
          injection h with hc hrest
          refine ⟨[d], by rw [hrest]; rfl, List.cons_ne_nil _ _, ?_⟩
          rcases hd with hd | hd
          · right
            rw [hd]
            decide
          · left
            rw [← hc, hd]
            exact ⟨rfl, rfl⟩
        · cases h

def quoted : QuotedFormat where
  unescape := unescape
  plain c := decide (c ≠ '\n')
  unescape_splits := unescape_splits

def unescapeDoc : List Char -> Option (List Char)
  | [] => some []
  | [c] => if c = '\\' then none else some [c]
  | c :: d :: rest =>
      if c = '\\' then
        if d = 'n' then (unescapeDoc rest).map fun doc => '\n' :: doc
        else if d = '\\' then (unescapeDoc rest).map fun doc => '\\' :: doc
        else none
      else (unescapeDoc (d :: rest)).map fun doc => c :: doc

/-!
## The reader
-/

/-- What follows the `#` of a line.  A comment has no meaning. -/
def readComment (line : List Char) : Option (Option Line) :=
  let (keyword, rest) := word line
  let (name, rest) := word rest
  if keyword = "HELP".toList then
    if isIdentifier isNameChar name then
      (unescapeDoc (rest.dropWhile isBlank)).map fun doc => some (.help name doc)
    else none
  else if keyword = "TYPE".toList then
    let (kind, rest) := word rest
    if isIdentifier isNameChar name && decide (kind ∈ kinds) &&
        (rest.dropWhile isBlank).isEmpty then
      some (some (.type name kind))
    else none
  else some none

def readLabel (text : List Char) : Option ((List Char × List Char) × List Char) :=
  let text := text.dropWhile isBlank
  let name := text.takeWhile isLabelChar
  if isIdentifier isLabelChar name then
    (expectChar isBlank '=' (text.dropWhile isLabelChar)).bind fun rest =>
      (expectChar isBlank '"' rest).bind fun rest =>
        (quoted.readString rest).map fun p => ((name, p.1), p.2)
  else none

/-- The labels after an opening brace, with the closing one.  A comma may stand after
the last label. -/
def readLabels : Nat -> List Char -> Option (List (List Char × List Char) × List Char)
  | 0, _ => none
  | fuel + 1, text =>
      match expectChar isBlank '\x7d' text with
      | some rest => some ([], rest)
      | none =>
          (readLabel text).bind fun p =>
            match expectChar isBlank ',' p.2 with
            | some rest => (readLabels fuel rest).map fun q => (p.1 :: q.1, q.2)
            | none => (expectChar isBlank '\x7d' p.2).map fun rest => ([p.1], rest)

def readLabelSet (text : List Char) : Option (List (List Char × List Char) × List Char) :=
  match expectChar isBlank '\x7b' text with
  | some rest => readLabels (rest.length + 1) rest
  | none => some ([], text)

def readValue (text : List Char) : Option ((List Char × Option (List Char)) × List Char) :=
  let (value, rest) := word text
  if isValue value then
    match expectChar isBlank '\n' rest with
    | some rest => some ((value, none), rest)
    | none =>
        let (stamp, rest) := word rest
        if isTimestamp stamp then
          (expectChar isBlank '\n' rest).map fun rest => ((value, some stamp), rest)
        else none
  else none

def readSample (text : List Char) : Option (Line × List Char) :=
  let name := text.takeWhile isNameChar
  if isIdentifier isNameChar name then
    (readLabelSet (text.dropWhile isNameChar)).bind fun l =>
      (readValue l.2).map fun v => (.sample name l.1 v.1.1 v.1.2, v.2)
  else none

/-- One line with its line feed.  An empty line has no meaning. -/
def readLine (text : List Char) : Option (Option Line × List Char) :=
  match text.dropWhile isBlank with
  | [] => none
  | c :: rest =>
      if c = '\n' then some (none, rest)
      else if c = '#' then
        match rest.dropWhile (fun d => d != '\n') with
        | [] => none
        | _ :: after =>
            (readComment (rest.takeWhile (fun d => d != '\n'))).map fun line => (line, after)
      else (readSample (c :: rest)).map fun p => (some p.1, p.2)

def readLines : Nat -> List Char -> Option (List Line)
  | 0, _ => none
  | fuel + 1, text =>
      if text = [] then some []
      else
        (readLine text).bind fun p =>
          (readLines fuel p.2).map fun lines => p.1.toList ++ lines

def parsePage (text : List Char) : Option (List Line) :=
  readLines (text.length + 1) text

/-!
## The rules of a page
-/

def Line.name : Line -> List Char
  | .help name _ => name
  | .type name _ => name
  | .sample name _ _ _ => name

def Line.helpName : Line -> Option (List Char)
  | .help name _ => some name
  | _ => none

def Line.typeName : Line -> Option (List Char)
  | .type name _ => some name
  | _ => none

def Line.series : Line -> Option (List Char × List (List Char × List Char))
  | .sample name labels _ _ => some (name, labels)
  | _ => none

def Grouped {α : Type*} (l : List α) : Prop :=
  forall x y, [x, y, x].Sublist l -> y = x

/-- At most one `HELP` and one `TYPE` line for each metric, the lines of a metric in
one group, and no two samples with the same metric and the same set of labels. -/
structure Valid (lines : List Line) : Prop where
  oneHelp : (lines.filterMap Line.helpName).Nodup
  oneType : (lines.filterMap Line.typeName).Nodup
  grouped : Grouped (lines.map Line.name)
  distinct : (lines.filterMap Line.series).Pairwise
    (fun s t => ¬ (s.1 = t.1 ∧ s.2.Perm t.2))

/-!
## Families
-/

structure Family where
  name : List Char
  doc : List Char
  kind : List Char
  labels : List (List Char × List Char)
  value : List Char

namespace Family

def lines (f : Family) : List Line :=
  [.help f.name f.doc, .type f.name f.kind, .sample f.name f.labels f.value none]

def helpText (f : Family) : List Char :=
  "# HELP ".toList ++ (f.name ++ ' ' :: (f.doc ++ ['\n']))

def typeText (f : Family) : List Char :=
  "# TYPE ".toList ++ (f.name ++ ' ' :: (f.kind ++ ['\n']))

def labelText (l : List Char × List Char) : List Char :=
  l.1 ++ '=' :: '"' :: (l.2 ++ ['"'])

def labelItem (l : List Char × List Char) : Item (List Char × List Char) where
  text := labelText l
  value := l
  ok := quoted.Clean l.2

def labelsText : List (List Char × List Char) -> List Char
  | [] => []
  | l :: rest => '\x7b' :: (separated (labelItem l) (rest.map labelItem) ++ ['\x7d'])

def sampleText (f : Family) : List Char :=
  f.name ++ (labelsText f.labels ++ ' ' :: (f.value ++ ['\n']))

def text (f : Family) : List Char :=
  f.helpText ++ (f.typeText ++ f.sampleText)

structure WellFormed (f : Family) : Prop where
  name : isIdentifier isNameChar f.name = true
  doc : StopsAt isBlank f.doc ∧ '\n' ∉ f.doc ∧ '\\' ∉ f.doc
  kind : f.kind ∈ kinds
  labels : forall l, l ∈ f.labels -> isIdentifier isLabelChar l.1 = true
  value : isValue f.value = true

def Plain (f : Family) : Prop :=
  forall l, l ∈ f.labels -> quoted.Clean l.2

end Family

/-!
## Characters
-/

theorem isWordChar_iff (c : Char) : isWordChar c = true <-> c ≠ ' ' ∧ c ≠ '\t' ∧ c ≠ '\n' := by
  simp [isWordChar, isBlank, and_assoc]

theorem isBlank_of_isWordChar {c : Char} (h : isWordChar c = true) : isBlank c = false := by
  unfold isWordChar at h
  rw [Bool.and_eq_true, Bool.not_eq_true'] at h
  exact h.left

theorem isWordChar_of_isNameChar {c : Char} (h : isNameChar c = true) : isWordChar c = true := by
  exact (isWordChar_iff c).mpr ⟨ne_of_kind h rfl, ne_of_kind h rfl, ne_of_kind h rfl⟩

theorem isNameChar_of_isLabelChar {c : Char} (h : isLabelChar c = true) : isNameChar c = true := by
  unfold isNameChar
  rw [h]
  rfl

theorem isIdentifier_ne_nil {p : Char -> Bool} {name : List Char}
    (h : isIdentifier p name = true) : name ≠ [] := by
  intro heq
  rw [heq] at h
  cases h

theorem of_mem_isIdentifier {p : Char -> Bool} {name : List Char}
    (h : isIdentifier p name = true) {c : Char} (hc : c ∈ name) : p c = true := by
  unfold isIdentifier at h
  rw [Bool.and_eq_true, Bool.and_eq_true] at h
  exact List.all_eq_true.mp h.left.right c hc

theorem of_mem_isValue {value : List Char} (h : isValue value = true) {c : Char}
    (hc : c ∈ value) : isWordChar c = true ∧ c ≠ '\x7b' := by
  have hnumber : isNumberChar c = true -> isWordChar c = true ∧ c ≠ '\x7b' := by
    intro hc
    have hword : c ≠ ' ' ∧ c ≠ '\t' ∧ c ≠ '\n' :=
      ⟨ne_of_kind hc rfl, ne_of_kind hc rfl, ne_of_kind hc rfl⟩
    exact ⟨(isWordChar_iff c).mpr hword, ne_of_kind hc rfl⟩
  have hnames : forall name, name ∈ ["NaN".toList, "+Inf".toList, "-Inf".toList] ->
      name.all (fun d => isWordChar d && d != '\x7b') = true := by
    decide
  unfold isValue at h
  rw [Bool.or_eq_true, decide_eq_true_eq] at h
  rcases h with h | h
  · exact hnumber (isNumberChar_of_isNumeral h hc)
  · have hboth := List.all_eq_true.mp (hnames value h) c hc
    rw [Bool.and_eq_true, bne_iff_ne] at hboth
    exact hboth

theorem isValue_ne_nil {value : List Char} (h : isValue value = true) : value ≠ [] := by
  intro heq
  rw [heq] at h
  exact absurd h (by decide)

theorem word_append {gap w rest : List Char} (hgap : forall c, c ∈ gap -> isBlank c = true)
    (hne : w ≠ []) (hw : forall c, c ∈ w -> isWordChar c = true)
    (hrest : StopsAt isWordChar rest) : word (gap ++ (w ++ rest)) = (w, rest) := by
  have hstop : StopsAt isBlank (w ++ rest) := by
    cases w with
    | nil => exact absurd rfl hne
    | cons c w => exact stopsAt_cons (isBlank_of_isWordChar (hw c List.mem_cons_self)) (w ++ rest)
  unfold word
  rw [dropWhile_span hgap hstop, takeWhile_span hw hrest, dropWhile_span hw hrest]

theorem word_blank {w rest : List Char} (hne : w ≠ [])
    (hw : forall c, c ∈ w -> isWordChar c = true) (hrest : StopsAt isWordChar rest) :
    word (' ' :: (w ++ rest)) = (w, rest) := by
  have hgap : forall c, c ∈ " ".toList -> isBlank c = true := List.all_eq_true.mp rfl
  exact word_append hgap hne hw hrest

/-!
## Comment lines
-/

theorem unescapeDoc_of_notMem {doc : List Char} (h : '\\' ∉ doc) : unescapeDoc doc = some doc := by
  induction doc with
  | nil => rfl
  | cons c doc ih =>
      have hc : c ≠ '\\' := fun heq => h (heq ▸ List.mem_cons_self)
      have hdoc := ih (fun hmem => h (List.mem_cons_of_mem c hmem))
      cases doc with
      | nil => exact if_neg hc
      | cons d doc =>
          unfold unescapeDoc
          rw [if_neg hc, hdoc]
          rfl

theorem readLine_comment {line : List Char} (hline : '\n' ∉ line) (rest : List Char) :
    readLine ('#' :: (line ++ '\n' :: rest)) =
      (readComment line).map fun l => (l, rest) := by
  have hchars : forall c, c ∈ line -> (c != '\n') = true := by
    intro c hc
    exact bne_iff_ne.mpr (fun heq => hline (heq ▸ hc))
  have hstop : StopsAt (fun d => d != '\n') ('\n' :: rest) := stopsAt_cons rfl rest
  have hskip : ('#' :: (line ++ '\n' :: rest)).dropWhile isBlank =
      '#' :: (line ++ '\n' :: rest) := rfl
  unfold readLine
  rw [hskip]
  dsimp only
  rw [if_neg (by decide), if_pos rfl, dropWhile_span hchars hstop, takeWhile_span hchars hstop]

namespace Family

variable {f : Family}

theorem isWordChar_of_mem_name (hf : f.WellFormed) :
    forall c, c ∈ f.name -> isWordChar c = true :=
  fun _ hc => isWordChar_of_isNameChar (of_mem_isIdentifier hf.name hc)

theorem newline_notMem_name (hf : f.WellFormed) : '\n' ∉ f.name :=
  fun hmem => absurd (isWordChar_of_mem_name hf _ hmem) (by decide)

theorem helpText_append (f : Family) (rest : List Char) :
    f.helpText ++ rest =
      '#' :: ((" HELP ".toList ++ (f.name ++ ' ' :: f.doc)) ++ '\n' :: rest) := by
  unfold helpText
  simp only [List.append_assoc, List.cons_append, List.nil_append]
  rfl

theorem typeText_append (f : Family) (rest : List Char) :
    f.typeText ++ rest =
      '#' :: ((" TYPE ".toList ++ (f.name ++ ' ' :: f.kind)) ++ '\n' :: rest) := by
  unfold typeText
  simp only [List.append_assoc, List.cons_append, List.nil_append]
  rfl

theorem words_comment (hf : f.WellFormed) {keyword : List Char} (hne : keyword ≠ [])
    (hkeyword : forall c, c ∈ keyword -> isWordChar c = true) (rest : List Char) :
    word (' ' :: (keyword ++ ' ' :: (f.name ++ ' ' :: rest))) =
        (keyword, ' ' :: (f.name ++ ' ' :: rest)) ∧
      word (' ' :: (f.name ++ ' ' :: rest)) = (f.name, ' ' :: rest) := by
  constructor
  · exact word_blank hne hkeyword (stopsAt_cons rfl _)
  · exact word_blank (isIdentifier_ne_nil hf.name) (isWordChar_of_mem_name hf) (stopsAt_cons rfl _)

theorem readLine_helpText (hf : f.WellFormed) (rest : List Char) :
    readLine (f.helpText ++ rest) = some (some (.help f.name f.doc), rest) := by
  rcases hf.doc with ⟨hstart, hnewline, hslash⟩
  have hline : '\n' ∉ " HELP ".toList ++ (f.name ++ ' ' :: f.doc) := by
    simp only [List.mem_append, List.mem_cons, not_or]
    exact ⟨by decide, newline_notMem_name hf, by decide, hnewline⟩
  have hkeyword : "HELP".toList ≠ [] := by decide
  have hwords := words_comment hf hkeyword (List.all_eq_true.mp rfl) f.doc
  have hdoc : (' ' :: f.doc).dropWhile isBlank = f.doc := by
    have hgap : forall c, c ∈ " ".toList -> isBlank c = true := List.all_eq_true.mp rfl
    exact dropWhile_span hgap hstart
  have hcomment : readComment (" HELP ".toList ++ (f.name ++ ' ' :: f.doc)) =
      some (some (.help f.name f.doc)) := by
    show readComment (' ' :: ("HELP".toList ++ ' ' :: (f.name ++ ' ' :: f.doc))) = _
    unfold readComment
    rw [hwords.left]
    dsimp only
    rw [hwords.right]
    dsimp only
    rw [if_pos rfl, if_pos hf.name, hdoc, unescapeDoc_of_notMem hslash]
    rfl
  rw [helpText_append, readLine_comment hline, hcomment]
  rfl

theorem readLine_typeText (hf : f.WellFormed) (rest : List Char) :
    readLine (f.typeText ++ rest) = some (some (.type f.name f.kind), rest) := by
  have hkinds : forall kind, kind ∈ kinds ->
      kind ≠ [] ∧ kind.all isWordChar = true := by
    decide
  rcases hkinds f.kind hf.kind with ⟨hne, hall⟩
  have hchars := List.all_eq_true.mp hall
  have hkind : '\n' ∉ f.kind := fun hmem => absurd (hchars _ hmem) (by decide)
  have hline : '\n' ∉ " TYPE ".toList ++ (f.name ++ ' ' :: f.kind) := by
    simp only [List.mem_append, List.mem_cons, not_or]
    exact ⟨by decide, newline_notMem_name hf, by decide, hkind⟩
  have hkeyword : "TYPE".toList ≠ [] := by decide
  have hwords := words_comment hf hkeyword (List.all_eq_true.mp rfl) f.kind
  have hlast : word (' ' :: f.kind) = (f.kind, []) := by
    have hword := word_blank hne hchars (stopsAt_nil isWordChar)
    rw [List.append_nil] at hword
    exact hword
  have hcomment : readComment (" TYPE ".toList ++ (f.name ++ ' ' :: f.kind)) =
      some (some (.type f.name f.kind)) := by
    show readComment (' ' :: ("TYPE".toList ++ ' ' :: (f.name ++ ' ' :: f.kind))) = _
    unfold readComment
    rw [hwords.left]
    dsimp only
    rw [hwords.right]
    dsimp only
    rw [if_neg (by decide), if_pos rfl, hlast]
    dsimp only
    rw [hf.name, decide_eq_true hf.kind]
    rfl
  rw [typeText_append, readLine_comment hline, hcomment]
  rfl

/-!
## Labels
-/

theorem labelText_append (l : List Char × List Char) (rest : List Char) :
    labelText l ++ rest = l.1 ++ '=' :: '"' :: (l.2 ++ '"' :: rest) := by
  unfold labelText
  simp only [List.append_assoc, List.cons_append, List.nil_append]

section Labels

variable {l : List Char × List Char} (hname : isIdentifier isLabelChar l.1 = true)

include hname

theorem labelText_head (rest : List Char) :
    exists c tail, labelText l ++ rest = c :: tail ∧ isLabelChar c = true ∧ isBlank c = false := by
  rw [labelText_append]
  cases hl : l.1 with
  | nil => exact absurd hl (isIdentifier_ne_nil hname)
  | cons c name =>
      have hc : isLabelChar c = true := by
        apply of_mem_isIdentifier hname
        rw [hl]
        exact List.mem_cons_self
      exact ⟨c, _, rfl, hc,
        isBlank_of_isWordChar (isWordChar_of_isNameChar (isNameChar_of_isLabelChar hc))⟩

theorem expectChar_labelText {d : Char} (hd : isLabelChar d = false) (rest : List Char) :
    expectChar isBlank d (labelText l ++ rest) = none := by
  rcases labelText_head hname rest with ⟨c, tail, heq, hc, hblank⟩
  rw [heq]
  exact expectChar_cons_ne hblank (ne_of_kind hc hd) tail

theorem readLabel_labelText (rest : List Char) :
    readLabel (labelText l ++ rest) =
      (quoted.readString (l.2 ++ '"' :: rest)).map fun p => ((l.1, p.1), p.2) := by
  have hskip : (labelText l ++ rest).dropWhile isBlank = labelText l ++ rest := by
    rcases labelText_head hname rest with ⟨c, tail, heq, _, hblank⟩
    rw [heq]
    exact List.dropWhile_cons_of_neg (by rw [hblank]; exact Bool.false_ne_true)
  have hchars := fun c (hc : c ∈ l.1) => of_mem_isIdentifier hname hc
  have hstop : StopsAt isLabelChar ('=' :: '"' :: (l.2 ++ '"' :: rest)) := stopsAt_cons rfl _
  unfold readLabel
  rw [hskip, labelText_append]
  dsimp only
  rw [takeWhile_span hchars hstop, dropWhile_span hchars hstop, if_pos hname, expectChar_cons rfl,
    Option.bind_some, expectChar_cons rfl, Option.bind_some]

end Labels

theorem readLabels_cons {fuel : Nat} {l : List Char × List Char}
    {labels : List (List Char × List Char)} {after rest : List Char}
    (hname : isIdentifier isLabelChar l.1 = true)
    (h : readLabels (fuel + 1) (labelText l ++ after) = some (l :: labels, rest)) :
    quoted.Clean l.2 ∧
      ((exists next, expectChar isBlank ',' after = some next ∧
          readLabels fuel next = some (labels, rest)) ∨
        (expectChar isBlank ',' after = none ∧ expectChar isBlank '\x7d' after = some rest)) := by
  unfold readLabels at h
  rw [expectChar_labelText hname rfl, readLabel_labelText hname] at h
  dsimp only at h
  rcases Option.bind_eq_some_iff.mp h with ⟨⟨l', tail⟩, hlabel, htail⟩
  rcases Option.map_eq_some_iff.mp hlabel with ⟨⟨value, tail'⟩, hread, hpair⟩
  rcases Prod.mk.inj hpair with ⟨hl', htail'⟩
  dsimp only at hl' htail' htail
  have hclean : l' = l -> quoted.Clean l.2 ∧ tail = after := by
    intro heq
    have hvalue : value = l.2 := by
      rw [heq] at hl'
      exact congrArg Prod.snd hl'
    rw [hvalue, htail'] at hread
    exact quoted.clean_of_readString hread
  split at htail
  next next hcomma =>
    rcases Option.map_eq_some_iff.mp htail with ⟨⟨labels', rest'⟩, hnext, hpair⟩
    rcases Prod.mk.inj hpair with ⟨hlist, hrest⟩
    rcases List.cons.inj hlist with ⟨hhead, hlabels⟩
    dsimp only at hlabels hrest
    rcases hclean hhead with ⟨hok, hsame⟩
    rw [hlabels, hrest] at hnext
    rw [hsame] at hcomma
    exact ⟨hok, Or.inl ⟨next, hcomma, hnext⟩⟩
  next hcomma =>
    rcases Option.map_eq_some_iff.mp htail with ⟨rest', hclose, hpair⟩
    rcases Prod.mk.inj hpair with ⟨hlist, hrest⟩
    rcases hclean (List.cons.inj hlist).left with ⟨hok, hsame⟩
    rw [hsame] at hcomma hclose
    rw [hrest] at hclose
    exact ⟨hok, Or.inr ⟨hcomma, hclose⟩⟩

theorem readLabels_succ {l : List Char × List Char}
    (hname : isIdentifier isLabelChar l.1 = true) (hok : quoted.Clean l.2) (fuel : Nat)
    (after : List Char) :
    readLabels (fuel + 1) (labelText l ++ after) =
      match expectChar isBlank ',' after with
      | some rest => (readLabels fuel rest).map fun q => (l :: q.1, q.2)
      | none => (expectChar isBlank '\x7d' after).map fun rest => ([l], rest) := by
  rw [readLabels, expectChar_labelText hname rfl, readLabel_labelText hname,
    quoted.readString_of_clean hok]
  rfl

theorem readBy_labelItem {l : List Char × List Char}
    (hname : isIdentifier isLabelChar l.1 = true) :
    (labelItem l).ReadBy readLabels ['\x7d'] where
  sound_comma {fuel next rest values} h := by
    cases fuel with
    | zero => cases h
    | succ fuel =>
        rcases readLabels_cons hname h with ⟨hok, htail⟩
        rw [expectChar_cons rfl] at htail
        rcases htail with ⟨next', hcomma, hnext⟩ | ⟨hcomma, _⟩
        · injection hcomma with hcomma
          rw [← hcomma] at hnext
          exact ⟨hok, fuel, hnext⟩
        · cases hcomma
  sound_closing {fuel rest rest'} h := by
    cases fuel with
    | zero => cases h
    | succ fuel =>
        rw [List.singleton_append] at h
        rcases readLabels_cons hname h with ⟨hok, htail⟩
        rw [expectChar_cons_ne rfl (by decide), expectChar_cons rfl] at htail
        rcases htail with ⟨next', hcomma, _⟩ | ⟨_, hclose⟩
        · cases hcomma
        · injection hclose with hclose
          exact ⟨hok, hclose.symm⟩
  complete_comma hok {fuel next rest values} hfuel hnext := by
    show readLabels (fuel + 1) (labelText l ++ ',' :: next) = _
    rw [readLabels_succ hname hok, expectChar_cons rfl]
    dsimp only
    rw [hnext]
    rfl
  complete_closing hok {fuel} rest hfuel := by
    show readLabels (fuel + 1) (labelText l ++ '\x7d' :: rest) = _
    rw [readLabels_succ hname hok, expectChar_cons_ne rfl (by decide), expectChar_cons rfl]
    rfl

theorem map_value_labelItem (labels : List (List Char × List Char)) :
    (labels.map labelItem).map Item.value = labels := by
  rw [List.map_map]
  exact List.map_id' labels

/-!
## Samples
-/

theorem expectChar_brace_value (hf : f.WellFormed) (rest : List Char) :
    expectChar isBlank '\x7b' (' ' :: (f.value ++ rest)) = none := by
  have hgap : forall c, c ∈ " ".toList -> isBlank c = true := List.all_eq_true.mp rfl
  cases hvalue : f.value with
  | nil => exact absurd hvalue (isValue_ne_nil hf.value)
  | cons c value =>
      have hc : c ∈ f.value := by
        rw [hvalue]
        exact List.mem_cons_self
      rcases of_mem_isValue hf.value hc with ⟨hword, hbrace⟩
      exact expectChar_other hgap (isBlank_of_isWordChar hword) hbrace (value ++ rest)

theorem labelsText_cons_append (l : List Char × List Char) (ls : List (List Char × List Char))
    (rest : List Char) :
    labelsText (l :: ls) ++ rest =
      '\x7b' :: (separated (labelItem l) (ls.map labelItem) ++ (['\x7d'] ++ rest)) := by
  unfold labelsText
  rw [List.cons_append, List.append_assoc]

theorem readBy_labels (hf : f.WellFormed) {l : List Char × List Char}
    {ls : List (List Char × List Char)} (hlabels : f.labels = l :: ls) :
    forall q, q ∈ labelItem l :: ls.map labelItem -> q.ReadBy readLabels ['\x7d'] := by
  intro q hq
  rw [← List.map_cons] at hq
  rcases List.mem_map.mp hq with ⟨m, hm, heq⟩
  rw [← heq]
  apply readBy_labelItem
  apply hf.labels
  rw [hlabels]
  exact hm

theorem readLabelSet_sound (hf : f.WellFormed) {rest rest' : List Char}
    (h : readLabelSet (labelsText f.labels ++ ' ' :: (f.value ++ rest)) =
      some (f.labels, rest')) : f.Plain ∧ rest' = ' ' :: (f.value ++ rest) := by
  unfold Plain
  unfold readLabelSet at h
  cases hlabels : f.labels with
  | nil =>
      rw [hlabels] at h
      rw [labelsText, List.nil_append, expectChar_brace_value hf] at h
      injection h with hpair
      refine ⟨?_, (Prod.mk.inj hpair).right.symm⟩
      intro l hl
      cases hl
  | cons l ls =>
      rw [hlabels] at h
      rw [labelsText_cons_append, expectChar_cons rfl, ← map_value_labelItem (l :: ls)] at h
      rcases separated_sound (readBy_labels hf hlabels) h with ⟨hoks, hsame⟩
      refine ⟨?_, hsame⟩
      intro m hm
      exact hoks (labelItem m) (List.mem_map_of_mem hm)

theorem readLabelSet_complete (hf : f.WellFormed) (hplain : f.Plain) (rest : List Char) :
    readLabelSet (labelsText f.labels ++ ' ' :: (f.value ++ rest)) =
      some (f.labels, ' ' :: (f.value ++ rest)) := by
  unfold Plain at hplain
  unfold readLabelSet
  cases hlabels : f.labels with
  | nil => rw [labelsText, List.nil_append, expectChar_brace_value hf]
  | cons l ls =>
      have hoks : forall q, q ∈ labelItem l :: ls.map labelItem -> q.ok := by
        intro q hq
        rw [← List.map_cons] at hq
        rcases List.mem_map.mp hq with ⟨m, hm, heq⟩
        rw [← heq]
        apply hplain
        rw [hlabels]
        exact hm
      rw [labelsText_cons_append, expectChar_cons rfl]
      dsimp only
      rw [separated_complete (readBy_labels hf hlabels) hoks]
      · rw [← List.map_cons, map_value_labelItem]
      · simp only [List.length_append, List.length_cons, List.length_nil]
        omega

theorem readValue_value (hf : f.WellFormed) (rest : List Char) :
    readValue (' ' :: (f.value ++ '\n' :: rest)) = some ((f.value, none), rest) := by
  have hword : word (' ' :: (f.value ++ '\n' :: rest)) = (f.value, '\n' :: rest) :=
    word_blank (isValue_ne_nil hf.value) (fun _ hc => (of_mem_isValue hf.value hc).left)
      (stopsAt_cons rfl rest)
  unfold readValue
  rw [hword]
  dsimp only
  rw [if_pos hf.value, expectChar_cons rfl]

theorem sampleText_append (f : Family) (rest : List Char) :
    f.sampleText ++ rest =
      f.name ++ (labelsText f.labels ++ ' ' :: (f.value ++ '\n' :: rest)) := by
  unfold sampleText
  simp only [List.append_assoc, List.cons_append, List.nil_append]

theorem readSample_sampleText (hf : f.WellFormed) (rest : List Char) :
    readSample (f.sampleText ++ rest) =
      (readLabelSet (labelsText f.labels ++ ' ' :: (f.value ++ '\n' :: rest))).bind fun l =>
        (readValue l.2).map fun v => (.sample f.name l.1 v.1.1 v.1.2, v.2) := by
  have hchars := fun c (hc : c ∈ f.name) => of_mem_isIdentifier hf.name hc
  have hstop : StopsAt isNameChar (labelsText f.labels ++ ' ' :: (f.value ++ '\n' :: rest)) := by
    cases f.labels with
    | nil => exact stopsAt_cons rfl _
    | cons l ls => exact stopsAt_cons rfl _
  unfold readSample
  rw [sampleText_append]
  dsimp only
  rw [takeWhile_span hchars hstop, dropWhile_span hchars hstop, if_pos hf.name]

theorem readLine_sampleText (hf : f.WellFormed) (rest : List Char) :
    readLine (f.sampleText ++ rest) =
      (readSample (f.sampleText ++ rest)).map fun p => (some p.1, p.2) := by
  rw [sampleText_append]
  cases hname : f.name with
  | nil => exact absurd hname (isIdentifier_ne_nil hf.name)
  | cons c name =>
      have hc : isNameChar c = true := by
        apply of_mem_isIdentifier hf.name
        rw [hname]
        exact List.mem_cons_self
      have hblank := isBlank_of_isWordChar (isWordChar_of_isNameChar hc)
      unfold readLine
      rw [List.cons_append, List.dropWhile_cons_of_neg (by rw [hblank]; exact Bool.false_ne_true)]
      dsimp only
      rw [if_neg (ne_of_kind hc rfl), if_neg (ne_of_kind hc rfl)]

def sampleLine (f : Family) : Line :=
  .sample f.name f.labels f.value none

theorem readLine_sample_sound (hf : f.WellFormed) {rest rest' : List Char}
    (h : readLine (f.sampleText ++ rest) = some (some f.sampleLine, rest')) :
    f.Plain ∧ rest' = rest := by
  rw [readLine_sampleText hf, readSample_sampleText hf] at h
  rcases Option.map_eq_some_iff.mp h with ⟨⟨line, tail⟩, hsample, hpair⟩
  rcases Prod.mk.inj hpair with ⟨hline, htail⟩
  injection hline with hline
  dsimp only at hline htail
  rcases Option.bind_eq_some_iff.mp hsample with ⟨⟨labels, after⟩, hlabels, hvalue⟩
  rcases Option.map_eq_some_iff.mp hvalue with ⟨⟨⟨value, stamp⟩, tail'⟩, hread, hpair⟩
  rcases Prod.mk.inj hpair with ⟨hline', htail'⟩
  rw [hline] at hline'
  injection hline' with _ hsame _ _
  dsimp only at hsame hread htail'
  rw [hsame] at hlabels
  rcases readLabelSet_sound hf hlabels with ⟨hplain, hafter⟩
  rw [hafter, readValue_value hf] at hread
  injection hread with hread
  rcases Prod.mk.inj hread with ⟨_, hrest⟩
  rw [hrest, htail', htail]
  exact ⟨hplain, rfl⟩

theorem readLine_sample_complete (hf : f.WellFormed) (hplain : f.Plain) (rest : List Char) :
    readLine (f.sampleText ++ rest) = some (some f.sampleLine, rest) := by
  rw [readLine_sampleText hf, readSample_sampleText hf, readLabelSet_complete hf hplain,
    Option.bind_some]
  dsimp only
  rw [readValue_value hf]
  rfl

end Family

/-!
## Pages of families
-/

theorem readLines_of_ne_nil {text : List Char} (htext : text ≠ []) (fuel : Nat) :
    readLines (fuel + 1) text =
      (readLine text).bind fun p =>
        (readLines fuel p.2).map fun lines => p.1.toList ++ lines := by
  rw [readLines, if_neg htext]

theorem readLines_cons {text rest : List Char} {line : Line} (htext : text ≠ [])
    (hread : readLine text = some (some line, rest)) {fuel : Nat} {lines : List Line}
    (h : readLines fuel rest = some lines) : readLines (fuel + 1) text = some (line :: lines) := by
  rw [readLines_of_ne_nil htext, hread, Option.bind_some]
  dsimp only
  rw [h]
  rfl

theorem readLines_tail {text rest : List Char} {line : Line} (htext : text ≠ [])
    (hread : readLine text = some (some line, rest)) {fuel : Nat} {line' : Line}
    {lines : List Line} (h : readLines fuel text = some (line' :: lines)) :
    exists fuel', readLines fuel' rest = some lines := by
  cases fuel with
  | zero => cases h
  | succ fuel =>
      rw [readLines_of_ne_nil htext, hread, Option.bind_some] at h
      rcases Option.map_eq_some_iff.mp h with ⟨lines', hrest, heq⟩
      have htail : lines' = lines := (List.cons.inj heq).right
      rw [htail] at hrest
      exact ⟨fuel, hrest⟩

namespace Family

variable {f : Family}

theorem helpText_append_ne_nil (f : Family) (rest : List Char) : f.helpText ++ rest ≠ [] := by
  rw [helpText_append]
  exact List.cons_ne_nil _ _

theorem typeText_append_ne_nil (f : Family) (rest : List Char) : f.typeText ++ rest ≠ [] := by
  rw [typeText_append]
  exact List.cons_ne_nil _ _

theorem sampleText_append_ne_nil (hf : f.WellFormed) (rest : List Char) :
    f.sampleText ++ rest ≠ [] := by
  rw [sampleText_append]
  exact List.append_ne_nil_of_left_ne_nil (isIdentifier_ne_nil hf.name) _

theorem readLines_sample_sound (hf : f.WellFormed) {fuel : Nat} {rest : List Char}
    {lines : List Line}
    (h : readLines fuel (f.sampleText ++ rest) = some (f.sampleLine :: lines)) :
    f.Plain ∧ exists fuel', readLines fuel' rest = some lines := by
  have hne := sampleText_append_ne_nil hf rest
  cases fuel with
  | zero => cases h
  | succ fuel =>
      have hinner := h
      rw [readLines_of_ne_nil hne] at hinner
      rcases Option.bind_eq_some_iff.mp hinner with ⟨⟨line, tail⟩, hread, hmap⟩
      rcases Option.map_eq_some_iff.mp hmap with ⟨lines', hrest, heq⟩
      have hline : line = some f.sampleLine := by
        rw [readLine_sampleText hf] at hread
        rcases Option.map_eq_some_iff.mp hread with ⟨p, _, hpair⟩
        rw [← (Prod.mk.inj hpair).left] at heq ⊢
        rw [(List.cons.inj heq).left]
      rw [hline] at hread
      rcases readLine_sample_sound hf hread with ⟨hplain, hsame⟩
      rw [hsame] at hread
      exact ⟨hplain, readLines_tail hne hread h⟩

theorem readLines_sound {families : List Family}
    (hall : forall f, f ∈ families -> f.WellFormed) {fuel : Nat}
    (h : readLines fuel (families.flatMap text) = some (families.flatMap lines)) :
    forall f, f ∈ families -> f.Plain := by
  induction families generalizing fuel with
  | nil =>
      intro f hf
      cases hf
  | cons f families ih =>
      have hf := hall f List.mem_cons_self
      rw [List.flatMap_cons, text, List.append_assoc, List.append_assoc] at h
      rcases readLines_tail (helpText_append_ne_nil f _) (readLine_helpText hf _) h with
        ⟨fuel₁, htype⟩
      rcases readLines_tail (typeText_append_ne_nil f _) (readLine_typeText hf _) htype with
        ⟨fuel₂, hsample⟩
      rcases readLines_sample_sound hf hsample with ⟨hplain, fuel₃, hrest⟩
      have hlater := ih (fun g hg => hall g (List.mem_cons_of_mem f hg)) hrest
      intro g hg
      rcases List.mem_cons.mp hg with hg | hg
      · rw [hg]
        exact hplain
      · exact hlater g hg

theorem readLines_complete {families : List Family}
    (hall : forall f, f ∈ families -> f.WellFormed)
    (hplain : forall f, f ∈ families -> f.Plain) {fuel : Nat}
    (hfuel : 3 * families.length < fuel) :
    readLines fuel (families.flatMap text) = some (families.flatMap lines) := by
  induction families generalizing fuel with
  | nil =>
      cases fuel with
      | zero => cases hfuel
      | succ fuel => rfl
  | cons f families ih =>
      have hf := hall f List.mem_cons_self
      have hroom : exists fuel', fuel = fuel' + 3 ∧ 3 * families.length < fuel' := by
        rw [List.length_cons] at hfuel
        exact ⟨fuel - 3, by omega, by omega⟩
      rcases hroom with ⟨fuel', hfuel', hless⟩
      have hlater := ih (fun g hg => hall g (List.mem_cons_of_mem f hg))
        (fun g hg => hplain g (List.mem_cons_of_mem f hg)) hless
      have hsample := readLines_cons (sampleText_append_ne_nil hf _)
        (readLine_sample_complete hf (hplain f List.mem_cons_self) _) hlater
      have htype := readLines_cons (typeText_append_ne_nil f _) (readLine_typeText hf _) hsample
      have hhelp := readLines_cons (helpText_append_ne_nil f _) (readLine_helpText hf _) htype
      rw [List.flatMap_cons, text, List.append_assoc, List.append_assoc, hfuel']
      exact hhelp

theorem length_flatMap_text (families : List Family) :
    3 * families.length ≤ (families.flatMap text).length := by
  induction families with
  | nil => exact Nat.le_refl 0
  | cons f families ih =>
      have htext : exists tail, f.text = '#' :: ' ' :: 'H' :: tail := ⟨_, rfl⟩
      rcases htext with ⟨tail, htext⟩
      have hlength : f.text.length = tail.length + 3 := by
        rw [htext]
        rfl
      rw [List.flatMap_cons, List.length_append, List.length_cons, hlength]
      omega

/-- A page of families is read back exactly when the label values are clean. -/
theorem parsePage_iff {families : List Family}
    (hall : forall f, f ∈ families -> f.WellFormed) :
    parsePage (families.flatMap text) = some (families.flatMap lines) <->
      forall f, f ∈ families -> f.Plain := by
  constructor
  · intro h
    exact readLines_sound hall h
  · intro hplain
    exact readLines_complete hall hplain (Nat.lt_succ_of_le (length_flatMap_text families))

/-!
## The rules on a page of families
-/

theorem helpNames_flatMap (families : List Family) :
    (families.flatMap lines).filterMap Line.helpName = families.map name := by
  induction families with
  | nil => rfl
  | cons f families ih =>
      rw [List.flatMap_cons, List.filterMap_append, ih]
      rfl

theorem typeNames_flatMap (families : List Family) :
    (families.flatMap lines).filterMap Line.typeName = families.map name := by
  induction families with
  | nil => rfl
  | cons f families ih =>
      rw [List.flatMap_cons, List.filterMap_append, ih]
      rfl

theorem series_flatMap (families : List Family) :
    (families.flatMap lines).filterMap Line.series =
      families.map (fun f => (f.name, f.labels)) := by
  induction families with
  | nil => rfl
  | cons f families ih =>
      rw [List.flatMap_cons, List.filterMap_append, ih]
      rfl

end Family

theorem grouped_append {α : Type*} {x : α} {n : Nat} {rest : List α} (hx : x ∉ rest)
    (hrest : Grouped rest) : Grouped (List.replicate n x ++ rest) := by
  intro y z hsub
  rcases List.sublist_append_iff.mp hsub with ⟨front, back, heq, hfront, hback⟩
  have hall : forall w, w ∈ front -> w = x := by
    intro w hw
    exact List.eq_of_mem_replicate (hfront.subset hw)
  have hnone : x ∈ back -> False := fun hmem => hx (hback.subset hmem)
  -- how much of the three elements lies in the block of `x`
  match front, heq with
  | [], heq =>
      rw [List.nil_append] at heq
      rw [← heq] at hback
      exact hrest y z hback
  | [a], heq =>
      rw [List.singleton_append] at heq
      injection heq with hy hback'
      exfalso
      apply hnone
      rw [← hall a List.mem_cons_self, ← hy, ← hback']
      simp
  | [a, b], heq =>
      rw [List.cons_append, List.singleton_append] at heq
      injection heq with hy heq
      injection heq with hz hback'
      exfalso
      apply hnone
      rw [← hall a List.mem_cons_self, ← hy, ← hback']
      exact List.mem_cons_self
  | a :: b :: c :: front, heq =>
      injection heq with hy heq
      injection heq with hz heq
      rw [hy, hz, hall a (by simp), hall b (by simp)]

namespace Family

theorem grouped_flatMap {families : List Family} (h : (families.map name).Nodup) :
    Grouped ((families.flatMap lines).map Line.name) := by
  induction families with
  | nil =>
      intro x y hsub
      cases hsub
  | cons f families ih =>
      rw [List.map_cons, List.nodup_cons] at h
      rw [List.flatMap_cons, List.map_append]
      have hnot : f.name ∉ (families.flatMap lines).map Line.name := by
        intro hmem
        rcases List.mem_map.mp hmem with ⟨line, hline, heq⟩
        rcases List.mem_flatMap.mp hline with ⟨g, hg, hline⟩
        have hname : line.name = g.name := by
          simp only [lines, List.mem_cons, List.not_mem_nil, or_false] at hline
          rcases hline with rfl | rfl | rfl
          · rfl
          · rfl
          · rfl
        apply h.left
        rw [← heq, hname]
        exact List.mem_map_of_mem hg
      exact grouped_append (n := 3) hnot (ih h.right)

/-- A page of families keeps the rules exactly when no name occurs twice. -/
theorem valid_iff_nodup (families : List Family) :
    Valid (families.flatMap lines) <-> (families.map name).Nodup := by
  constructor
  · intro h
    have hhelp := h.oneHelp
    rw [helpNames_flatMap] at hhelp
    exact hhelp
  · intro hnodup
    constructor
    case oneHelp =>
      rw [helpNames_flatMap]
      exact hnodup
    case oneType =>
      rw [typeNames_flatMap]
      exact hnodup
    case grouped => exact grouped_flatMap hnodup
    case distinct =>
      rw [series_flatMap, List.pairwise_map]
      have hpairs := List.pairwise_map.mp hnodup
      exact hpairs.imp (fun hne hsame => hne hsame.left)

end Family

end Exposition
end Foundation
end PerfMonitor
