import PerfMonitor.Foundation.Numeral
import PerfMonitor.Worker.RecycledPid

/-!
# The line of a stat file

`/proc/[pid]/stat` holds the command name between parentheses, and the name may
hold anything but a newline: spaces, digits, parentheses, the text of another stat
line.  No parenthesis comes after it, so the last one of the line closes it, eleven
words later the ticks begin, and both places of `perf_diagnoser.cpp` that read the
file find them.
-/

namespace PerfMonitor
namespace Worker

open Foundation

/-- A line of a stat file and what follows it in the file.  `before` has the fields
from `ppid` to `cmajflt`; a state is a visible character, and no parenthesis. -/
structure StatLine where
  pid : Pid
  comm : Str
  state : Char
  before : List Int
  utime : UInt64
  stime : UInt64
  rest : List Int
  after : Str
  commLine : '\n' ∉ comm
  stateVisible : isSpace state = false
  stateOpen : state ≠ ')'
  beforeLength : before.length = 10
  ended : StopsAt (fun c => decide (c ≠ '\n')) after

/-- The letters that stand for a state qualify. -/
example : "RSDZTtXxKWPI".toList.all (fun c => !isSpace c && decide (c ≠ ')')) = true := by decide

namespace StatLine

def numerals (ns : List Int) : List Str :=
  ns.map (fun n => (toString n).toList)

def front (r : StatLine) : Str :=
  (toString r.pid).toList ++ " (".toList ++ r.comm

def ticks (r : StatLine) : Str :=
  column 1 r.utime.toNat ++ (column 1 r.stime.toNat ++ spaced (numerals r.rest))

def fields (r : StatLine) : Str :=
  r.state :: (spaced (numerals r.before) ++ r.ticks)

def text (r : StatLine) : Str :=
  r.front ++ ')' :: ' ' :: r.fields

def file (r : StatLine) : Str :=
  r.text ++ r.after

/-!
## The last parenthesis
-/

theorem isWord_numeral (n : Int) : IsWord (toString n).toList := by
  constructor
  · exact isNumeral_ne_nil (isNumeral_intToString n)
  · intro c hc
    rcases mem_intToString hc with hdigit | hminus
    · exact isSpace_of_isDigit hdigit
    · rw [hminus]
      rfl

theorem isWord_of_mem_numerals {ns : List Int} {word : Str} (h : word ∈ numerals ns) :
    IsWord word := by
  rcases List.mem_map.mp h with ⟨n, _, heq⟩
  rw [← heq]
  exact isWord_numeral n

def IsFieldChar (c : Char) : Prop :=
  c = ' ' ∨ isDigit c = true ∨ c = '-'

theorem isFieldChar_spaced {ns : List Int} {c : Char} (hc : c ∈ spaced (numerals ns)) :
    IsFieldChar c := by
  rcases mem_spaced hc with hblank | ⟨word, hword, hmem⟩
  · exact Or.inl hblank
  · rcases List.mem_map.mp hword with ⟨n, _, heq⟩
    rw [← heq] at hmem
    exact Or.inr (mem_intToString hmem)

theorem isFieldChar_column {n : Nat} {c : Char} (hc : c ∈ column 1 n) : IsFieldChar c := by
  rcases List.mem_append.mp hc with hblank | hdigit
  · exact Or.inl (List.eq_of_mem_replicate hblank)
  · exact Or.inr (Or.inl (isDigit_of_mem_toDigits hdigit))

theorem mem_fields {r : StatLine} {c : Char} (hc : c ∈ r.fields) :
    c = r.state ∨ IsFieldChar c := by
  unfold fields ticks at hc
  rcases List.mem_cons.mp hc with heq | hc
  · exact Or.inl heq
  right
  rcases List.mem_append.mp hc with hbefore | hc
  · exact isFieldChar_spaced hbefore
  rcases List.mem_append.mp hc with hutime | hc
  · exact isFieldChar_column hutime
  rcases List.mem_append.mp hc with hstime | hrest
  · exact isFieldChar_column hstime
  · exact isFieldChar_spaced hrest

theorem not_isFieldChar_of {c : Char} (hblank : c ≠ ' ') (hminus : c ≠ '-')
    (hdigit : isDigit c = false) : ¬ IsFieldChar c := by
  rintro (heq | hd | heq)
  · exact hblank heq
  · rw [hdigit] at hd
    cases hd
  · exact hminus heq

theorem closing_notMem_fields (r : StatLine) : ')' ∉ ' ' :: r.fields := by
  intro hmem
  rcases List.mem_cons.mp hmem with heq | hmem
  · exact absurd heq (by decide)
  rcases mem_fields hmem with heq | hfield
  · exact r.stateOpen heq.symm
  · exact not_isFieldChar_of (by decide) (by decide) (by decide) hfield

theorem rfind_text (r : StatLine) : rfind ')' r.text = some r.front.length :=
  rfind_append r.front r.closing_notMem_fields

theorem newline_notMem_text (r : StatLine) : '\n' ∉ r.text := by
  intro hmem
  unfold text front at hmem
  rcases List.mem_append.mp hmem with hfront | hmem
  · rcases List.mem_append.mp hfront with hpid | hcomm
    · rcases List.mem_append.mp hpid with hpid | hopen
      · rcases mem_intToString hpid with hdigit | hminus
        · exact absurd hdigit (by decide)
        · exact absurd hminus (by decide)
      · exact absurd hopen (by decide)
    · exact r.commLine hcomm
  rcases List.mem_cons.mp hmem with heq | hmem
  · exact absurd heq (by decide)
  rcases List.mem_cons.mp hmem with heq | hmem
  · exact absurd heq (by decide)
  rcases mem_fields hmem with heq | hfield
  · have hvisible := r.stateVisible
    rw [← heq] at hvisible
    exact absurd hvisible (by decide)
  · exact not_isFieldChar_of (by decide) (by decide) (by decide) hfield

theorem firstLine_file (r : StatLine) : firstLine r.file = r.text := by
  apply takeWhile_span _ r.ended
  intro c hc
  apply decide_eq_true
  intro heq
  rw [heq] at hc
  exact r.newline_notMem_text hc

theorem statFields_file (r : StatLine) :
    statFields (some r.file) = .fields { rest := r.fields } := by
  have hlength : r.front.length + 2 ≤ r.text.length := by
    unfold text
    simp only [List.length_append, List.length_cons]
    omega
  have hdrop : r.text.drop (r.front.length + 2) = r.fields := by
    unfold text
    rw [← List.drop_drop, List.drop_left]
    rfl
  unfold statFields
  simp only [firstLine_file, rfind_text, if_pos hlength, hdrop]

/-!
## The ticks
-/

theorem stopsAt_ticks {p : Char -> Bool} (hblank : p ' ' = false) (r : StatLine) :
    StopsAt p r.ticks :=
  stopsAt_column hblank Nat.one_pos _

theorem stopsAt_rest {p : Char -> Bool} (hblank : p ' ' = false) (r : StatLine) :
    StopsAt p (spaced (numerals r.rest)) := by
  rw [← List.append_nil (spaced (numerals r.rest))]
  exact stopsAt_spaced hblank _ (stopsAt_nil p)

theorem isWord_state (r : StatLine) : IsWord [r.state] := by
  constructor
  · exact List.cons_ne_nil _ _
  · intro c hc
    rw [List.mem_singleton.mp hc]
    exact r.stateVisible

theorem skipWords_fields (r : StatLine) :
    InputStream.skipWords 11 { rest := r.fields } = { rest := r.ticks } := by
  have hstops : StopsAt (fun c => !isSpace c) (spaced (numerals r.before) ++ r.ticks) :=
    stopsAt_spaced rfl _ (r.stopsAt_ticks rfl)
  have hstate : InputStream.getWord { rest := r.fields } [] =
      ([r.state], { rest := spaced (numerals r.before) ++ r.ticks }) :=
    InputStream.getWord_blanks 0 r.isWord_state.left r.isWord_state.right hstops []
  have hbefore : InputStream.skipWords (numerals r.before).length
      { rest := spaced (numerals r.before) ++ r.ticks } = { rest := r.ticks } :=
    skipWords_spaced (fun _ hword => isWord_of_mem_numerals hword) (r.stopsAt_ticks rfl)
  have hlength : (numerals r.before).length = 10 := by
    unfold numerals
    rw [List.length_map, r.beforeLength]
  rw [hlength] at hbefore
  rw [InputStream.skipWords, hstate]
  exact hbefore

theorem getUInt64_utime (r : StatLine) (old : UInt64) :
    InputStream.getUInt64 { rest := r.ticks } old =
      (r.utime, { rest := column 1 r.stime.toNat ++ spaced (numerals r.rest) }) :=
  InputStream.getUInt64_column 1 (stopsAt_column rfl Nat.one_pos _) r.utime old

theorem getUInt64_stime (r : StatLine) (old : UInt64) :
    InputStream.getUInt64 { rest := column 1 r.stime.toNat ++ spaced (numerals r.rest) } old =
      (r.stime, { rest := spaced (numerals r.rest) }) :=
  InputStream.getUInt64_column 1 (r.stopsAt_rest rfl) r.stime old

theorem readProcCpuPct_file (r : StatLine) (prev : ProcSample) (deltaMs : UInt64) :
    readProcCpuPct (some r.file) prev deltaMs =
      if prev.totalTime = 0 then some (-1)
      else some ((((r.utime + r.stime) - (prev.utime + prev.stime)).toNat : Rat) * 100 /
        (deltaMs.toNat : Rat)) := by
  unfold readProcCpuPct
  simp only [statFields_file, skipWords_fields, getUInt64_utime, getUInt64_stime, if_true]

theorem refreshSample_file (r : StatLine) (prev : ProcSample) :
    refreshSample (some r.file) prev =
      some { utime := r.utime, stime := r.stime, totalTime := r.utime + r.stime } := by
  unfold refreshSample
  simp only [statFields_file, skipWords_fields, getUInt64_utime, getUInt64_stime]

theorem statTimes_file (r : StatLine) : statTimes (some r.file) = some (r.utime, r.stime) := by
  unfold statTimes
  simp only [statFields_file, skipWords_fields, getUInt64_utime, getUInt64_stime, if_true]

/-- Both places find the ticks of any line: the percentage is computed from them, and
they become the stored sample. -/
theorem parsers_find_times (r : StatLine) (prev : ProcSample) (deltaMs : UInt64) :
    statTimes (some r.file) = some (r.utime, r.stime) ∧
      (readProcCpuPct (some r.file) prev deltaMs =
        if prev.totalTime = 0 then some (-1)
        else some ((((r.utime + r.stime) - (prev.utime + prev.stime)).toNat : Rat) * 100 /
          (deltaMs.toNat : Rat))) ∧
      refreshSample (some r.file) prev =
        some { utime := r.utime, stime := r.stime, totalTime := r.utime + r.stime } :=
  ⟨r.statTimes_file, r.readProcCpuPct_file prev deltaMs, r.refreshSample_file prev⟩

def imitation : StatLine where
  pid := 42
  comm := "a) R 1 1 1 0 0 0 0 0 0 0 999 999 (b".toList
  state := 'S'
  before := [1, 42, 42, 0, -1, 4194304, 100, 0, 0, 0]
  utime := 7
  stime := 5
  rest := [0, 0, 20, 0]
  after := ['\n']
  commLine := by decide
  stateVisible := rfl
  stateOpen := by decide
  beforeLength := rfl
  ended := by
    intro c hc
    cases hc
    rfl

theorem parsers_find_times_imitation :
    imitation.file =
        ("42 (a) R 1 1 1 0 0 0 0 0 0 0 999 999 (b) S 1 42 42 0 -1 4194304 100 0 0 0 7 5 0 0 20 0\n"
          ).toList ∧
      statTimes (some imitation.file) = some (7, 5) ∧
      (readProcCpuPct (some imitation.file) { utime := 1, stime := 1, totalTime := 2 } 5000 =
        some (1 / 5)) ∧
      refreshSample (some imitation.file) {} =
        some { utime := 7, stime := 5, totalTime := 12 } := by
  rcases parsers_find_times imitation { utime := 1, stime := 1, totalTime := 2 } 5000 with
    ⟨htimes, hpct, _⟩
  refine ⟨by decide +kernel, htimes, hpct.trans (by decide +kernel), ?_⟩
  exact (parsers_find_times imitation {} 5000).right.right

end StatLine

end Worker
end PerfMonitor
