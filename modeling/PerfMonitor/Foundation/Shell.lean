import Mathlib.Data.List.DropRight
import PerfMonitor.Foundation.InputStream

/-!
# Plain shell pipelines

How `/bin/sh` reads a command line that needs no more of the shell than words,
redirections and pipes.  A line with a quote, an expansion, a separator or another
special character is outside this fragment and has no plain reading.
-/

namespace PerfMonitor
namespace Foundation

def isShellSpecial (c : Char) : Bool :=
  isSpace c || c == '\x27' || c == '"' || c == '\\' || c == ';' || c == '|' || c == '&' ||
    c == '<' || c == '>' || c == '(' || c == ')' || c == '$' || c == '\x60' || c == '*' ||
    c == '?' || c == '[' || c == '#' || c == '~'

def IsLiteral (text : List Char) : Prop :=
  forall c, c ∈ text -> isShellSpecial c = false

instance (text : List Char) : Decidable (IsLiteral text) :=
  List.decidableBAll (fun c => isShellSpecial c = false) text

inductive Direction where
  | input
  | output
deriving DecidableEq, Repr

inductive ShellToken where
  | word (text : List Char)
  | pipe
  | redirect (fd : Nat) (direction : Direction)
deriving DecidableEq, Repr

structure ShellCommand where
  words : List (List Char) := []
  redirects : List (Nat × Direction × List Char) := []
deriving DecidableEq, Repr

def endWord (word : List Char) : List ShellToken :=
  if word = [] then [] else [.word word]

def redirectTokens (word : List Char) (direction : Direction) : List ShellToken :=
  if word ≠ [] ∧ word.all isDigit = true then [.redirect (digitsValue word) direction]
  else
    match direction with
    | .input => endWord word ++ [.redirect 0 direction]
    | .output => endWord word ++ [.redirect 1 direction]

def tokens (word : List Char) : List Char -> Option (List ShellToken)
  | [] => some (endWord word)
  | c :: rest =>
      if c = ' ' ∨ c = '\t' then (tokens [] rest).map (fun ts => endWord word ++ ts)
      else if c = '|' then (tokens [] rest).map (fun ts => endWord word ++ .pipe :: ts)
      else if c = '<' then (tokens [] rest).map (fun ts => redirectTokens word .input ++ ts)
      else if c = '>' then (tokens [] rest).map (fun ts => redirectTokens word .output ++ ts)
      else if isShellSpecial c then none
      else tokens (word ++ [c]) rest

def commands : List ShellToken -> Option (List ShellCommand)
  | [] => some [{}]
  | .pipe :: rest => (commands rest).map (fun cmds => {} :: cmds)
  | .word text :: rest =>
      match commands rest with
      | some (cmd :: cmds) => some ({ cmd with words := text :: cmd.words } :: cmds)
      | _ => none
  | .redirect fd direction :: .word text :: rest =>
      match commands rest with
      | some (cmd :: cmds) =>
          some ({ cmd with redirects := (fd, direction, text) :: cmd.redirects } :: cmds)
      | _ => none
  | .redirect _ _ :: _ => none

def parsePipeline (line : List Char) : Option (List ShellCommand) :=
  match tokens [] line with
  | none => none
  | some ts => (commands ts).filter (fun cmds => cmds.all (fun cmd => decide (cmd ≠ {})))

/-!
## Reading a line word by word
-/

theorem ne_of_isShellSpecial {c d : Char} (hc : isShellSpecial c = false)
    (hd : isShellSpecial d = true) : c ≠ d := by
  intro heq
  rw [heq, hd] at hc
  cases hc

theorem tokens_literal {text : List Char} (htext : IsLiteral text) (word rest : List Char) :
    tokens word (text ++ rest) = tokens (word ++ text) rest := by
  induction text generalizing word with
  | nil => rw [List.nil_append, List.append_nil]
  | cons c text ih =>
      have hc : isShellSpecial c = false := htext c List.mem_cons_self
      have htail := ih (fun d hd => htext d (List.mem_cons_of_mem c hd)) (word ++ [c])
      have hblank : ¬ (c = ' ' ∨ c = '\t') := by
        rintro (heq | heq)
        · exact ne_of_isShellSpecial hc (by decide) heq
        · exact ne_of_isShellSpecial hc (by decide) heq
      rw [List.cons_append, tokens, if_neg hblank,
        if_neg (ne_of_isShellSpecial hc (by decide)), if_neg (ne_of_isShellSpecial hc (by decide)),
        if_neg (ne_of_isShellSpecial hc (by decide)), hc, if_neg Bool.false_ne_true, htail,
        List.append_assoc]
      rfl

theorem tokens_blank (word rest : List Char) :
    tokens word (' ' :: rest) = (tokens [] rest).map (fun ts => endWord word ++ ts) := by
  rw [tokens, if_pos (Or.inl rfl)]

theorem tokens_word {text : List Char} (htext : IsLiteral text) (hne : text ≠ [])
    (rest : List Char) :
    tokens [] (text ++ ' ' :: rest) = (tokens [] rest).map (fun ts => .word text :: ts) := by
  rw [tokens_literal htext, List.nil_append, tokens_blank]
  unfold endWord
  rw [if_neg hne]
  rfl

theorem tokens_pipe (rest : List Char) :
    tokens [] ('|' :: ' ' :: rest) = (tokens [] rest).map (fun ts => .pipe :: ts) := by
  rw [tokens, if_neg (by decide), if_pos rfl, tokens_blank, Option.map_map]
  rfl

theorem tokens_input (rest : List Char) :
    tokens [] ('<' :: ' ' :: rest) = (tokens [] rest).map (fun ts => .redirect 0 .input :: ts) := by
  rw [tokens, if_neg (by decide), if_neg (by decide), if_pos rfl, tokens_blank, Option.map_map]
  rfl

/-!
## Command substitution
-/

def isNewline (c : Char) : Bool :=
  c == '\n'

/-- What `$(...)` stands for: bytes of value zero and newlines at the end are dropped. -/
def substituted (output : List Char) : List Char :=
  (output.filter (fun c => decide (c ≠ '\x00'))).rdropWhile isNewline

def written (records : List (List Char)) : List Char :=
  records.flatMap (fun record => record ++ ['\n'])

theorem lines_written_append {records : List (List Char)}
    (hrecords : forall r, r ∈ records -> '\n' ∉ r) (rest : List Char) :
    lines (written records ++ rest) = records ++ lines rest := by
  induction records with
  | nil => rfl
  | cons r records ih =>
      have hlater := ih (fun r' hr' => hrecords r' (List.mem_cons_of_mem r hr'))
      unfold written at hlater ⊢
      rw [List.flatMap_cons, List.append_assoc, List.append_assoc, List.singleton_append,
        lines_append (hrecords r List.mem_cons_self), hlater]
      rfl

theorem rdropWhile_record {record : List Char} (hne : record ≠ []) (hrecord : '\n' ∉ record)
    (front : List Char) : (front ++ record).rdropWhile isNewline = front ++ record := by
  rcases List.eq_nil_or_concat record with hnil | ⟨init, last, hconcat⟩
  · exact absurd hnil hne
  · rw [List.concat_eq_append] at hconcat
    have hlast : last ≠ '\n' := by
      intro heq
      apply hrecord
      rw [hconcat, ← heq]
      exact List.mem_concat_self
    rw [hconcat, ← List.append_assoc]
    exact List.rdropWhile_concat_neg isNewline _ last (fun h => hlast (beq_iff_eq.mp h))

theorem rdropWhile_newlines {record : List Char} (hne : record ≠ []) (hrecord : '\n' ∉ record)
    (front rest : List Char) :
    exists rest', (front ++ record ++ '\n' :: rest).rdropWhile isNewline ++ ['\n'] =
      front ++ record ++ '\n' :: rest' := by
  induction rest using List.reverseRecOn with
  | nil =>
      refine ⟨[], ?_⟩
      rw [List.rdropWhile_concat_pos isNewline _ '\n' rfl, rdropWhile_record hne hrecord]
  | append_singleton rest c ih =>
      rw [← List.cons_append, ← List.append_assoc]
      by_cases hc : c = '\n'
      · rw [List.rdropWhile_concat_pos isNewline _ c (beq_iff_eq.mpr hc)]
        exact ih
      · rw [List.rdropWhile_concat_neg isNewline _ c (fun h => hc (beq_iff_eq.mp h))]
        exact ⟨rest ++ [c, '\n'], by simp⟩

theorem filter_written {records : List (List Char)}
    (hrecords : forall r, r ∈ records -> '\x00' ∉ r) :
    (written records).filter (fun c => decide (c ≠ '\x00')) = written records := by
  apply List.filter_eq_self.mpr
  intro c hc
  rcases List.mem_flatMap.mp hc with ⟨r, hr, hc⟩
  apply decide_eq_true
  intro heq
  rw [heq] at hc
  rcases List.mem_append.mp hc with hc | hc
  · exact hrecords r hr hc
  · exact absurd (List.mem_singleton.mp hc) (by decide)

theorem lines_substituted {records : List (List Char)} {last : List Char} (hne : last ≠ [])
    (hrecords : forall r, r ∈ records ++ [last] -> '\n' ∉ r ∧ '\x00' ∉ r) (rest : List Char) :
    exists rest', lines (substituted (written (records ++ [last]) ++ rest) ++ ['\n']) =
      records ++ [last] ++ rest' := by
  have hkept := filter_written (fun r hr => (hrecords r hr).right)
  have hfront : forall rest', written (records ++ [last]) ++ rest' =
      written records ++ last ++ '\n' :: rest' := by
    intro rest'
    unfold written
    rw [List.flatMap_append, List.flatMap_singleton]
    simp only [List.append_assoc, List.singleton_append]
  have hlast := (hrecords last (List.mem_append_right _ List.mem_cons_self)).left
  rcases rdropWhile_newlines hne hlast (written records)
    (rest.filter (fun c => decide (c ≠ '\x00'))) with ⟨rest', hrest⟩
  refine ⟨lines rest', ?_⟩
  unfold substituted
  rw [List.filter_append, hkept, hfront, hrest, ← hfront,
    lines_written_append (fun r hr => (hrecords r hr).left)]

theorem substituted_record {record : List Char} (hnewline : '\n' ∉ record)
    (hnul : '\x00' ∉ record) : substituted (record ++ ['\n']) = record := by
  have hwritten : record ++ ['\n'] = written [record] :=
    (List.flatMap_singleton (fun r => r ++ ['\n']) record).symm
  have hkept := filter_written (fun r (hr : r ∈ [record]) => List.mem_singleton.mp hr ▸ hnul)
  unfold substituted
  rw [hwritten, hkept, ← hwritten, List.rdropWhile_concat_pos isNewline _ '\n' rfl]
  by_cases hne : record = []
  · rw [hne]
    rfl
  · exact rdropWhile_record hne hnewline []

end Foundation
end PerfMonitor
