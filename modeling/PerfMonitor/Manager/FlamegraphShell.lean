import PerfMonitor.Foundation.Shell
import PerfMonitor.Manager.HttpServer

/-!
# Shell commands of the flamegraph endpoint

`api_flamegraph` splices the requested name into a command for `popen`.  As long as
the name is literal, the shell reads the command as the intended pipeline with the
path as one word.  `is_safe_filename` does not ask for that, so whether every request
is harmless depends on the names of the files in the directory.
-/

namespace PerfMonitor
namespace Manager

open Foundation

namespace MetricsExporter

def nullDevice : Nat × Direction × Str :=
  (2, .output, "/dev/null".toList)

def flamegraphPipeline (name : Str) : List ShellCommand :=
  if "perf_".toList.isPrefixOf name then
    [{ words := ["perf".toList, "script".toList, "-i".toList, diagnoseDir ++ name] },
      { words := ["/opt/FlameGraph/stackcollapse-perf.pl".toList] },
      { words := ["/opt/FlameGraph/flamegraph.pl".toList], redirects := [nullDevice] }]
  else
    [{ words := ["/opt/FlameGraph/flamegraph.pl".toList],
       redirects := [(0, .input, diagnoseDir ++ name), nullDevice] }]

/-- Every command that the request causes has a literal file name in it and is read
as the intended pipeline. -/
def ShellInert (sys : HttpSystem) (showDouble : Rat -> Str) (hosts : List HostSnapshot)
    (sent : Str) : Prop :=
  let name := parseParam (requestTarget sent).2 "file".toList
  forall cmd, .popen cmd ∈ (serveRequest sys showDouble hosts sent).1 ->
    IsLiteral name ∧ parsePipeline cmd = some (flamegraphPipeline name)

/-- A name that a request can carry: it is not cut at an ampersand, a NUL or the end
of the request line, and it fits into the buffer with the path around it. -/
structure Carriable (name : Str) : Prop where
  noAmpersand : '&' ∉ name
  noNul : '\x00' ∉ name
  noLineEnd : ¬ "\r\n".toList <:+: name
  fits : name.length ≤ 4072

/-!
## What the shell reads
-/

theorem isLiteral_path {name : Str} (hname : IsLiteral name) : IsLiteral (diagnoseDir ++ name) := by
  have hdir : IsLiteral diagnoseDir := by decide
  intro c hc
  rcases List.mem_append.mp hc with hmem | hmem
  · exact hdir c hmem
  · exact hname c hmem

theorem path_ne_nil (name : Str) : diagnoseDir ++ name ≠ [] := by
  intro h
  have hdir := (List.append_eq_nil_iff.mp h).left
  exact absurd hdir (by decide)

theorem tokens_nullDevice :
    tokens [] "2>/dev/null".toList = some [.redirect 2 .output, .word "/dev/null".toList] := by
  decide

theorem parse_perfPipeline {name : Str} (hname : IsLiteral name) :
    parsePipeline (perfPipeline (diagnoseDir ++ name)) =
      some
        [{ words := ["perf".toList, "script".toList, "-i".toList, diagnoseDir ++ name] },
          { words := ["/opt/FlameGraph/stackcollapse-perf.pl".toList] },
          { words := ["/opt/FlameGraph/flamegraph.pl".toList], redirects := [nullDevice] }] := by
  have hfront : "perf script -i ".toList =
      "perf".toList ++ ' ' :: ("script".toList ++ ' ' :: ("-i".toList ++ [' '])) := by decide
  have hback : (" | /opt/FlameGraph/stackcollapse-perf.pl" ++
      " | /opt/FlameGraph/flamegraph.pl 2>/dev/null").toList =
        ' ' :: '|' :: ' ' :: ("/opt/FlameGraph/stackcollapse-perf.pl".toList ++
          ' ' :: '|' :: ' ' :: ("/opt/FlameGraph/flamegraph.pl".toList ++
            ' ' :: "2>/dev/null".toList)) := by decide
  have hline : perfPipeline (diagnoseDir ++ name) =
      "perf".toList ++ ' ' :: ("script".toList ++ ' ' :: ("-i".toList ++
        ' ' :: ((diagnoseDir ++ name) ++ ' ' :: '|' :: ' ' ::
          ("/opt/FlameGraph/stackcollapse-perf.pl".toList ++
            ' ' :: '|' :: ' ' :: ("/opt/FlameGraph/flamegraph.pl".toList ++
              ' ' :: "2>/dev/null".toList))))) := by
    unfold perfPipeline
    rw [hfront, hback]
    simp only [List.append_assoc, List.cons_append, List.nil_append]
  have htokens : tokens [] (perfPipeline (diagnoseDir ++ name)) =
      some [.word "perf".toList, .word "script".toList, .word "-i".toList,
        .word (diagnoseDir ++ name), .pipe, .word "/opt/FlameGraph/stackcollapse-perf.pl".toList,
        .pipe, .word "/opt/FlameGraph/flamegraph.pl".toList, .redirect 2 .output,
        .word "/dev/null".toList] := by
    rw [hline, tokens_word (by decide) (by decide), tokens_word (by decide) (by decide),
      tokens_word (by decide) (by decide), tokens_word (isLiteral_path hname) (path_ne_nil name),
      tokens_pipe, tokens_word (by decide) (by decide), tokens_pipe,
      tokens_word (by decide) (by decide), tokens_nullDevice]
    rfl
  unfold parsePipeline
  rw [htokens]
  rfl

theorem parse_collapsedPipeline {name : Str} (hname : IsLiteral name) :
    parsePipeline (collapsedPipeline (diagnoseDir ++ name)) =
      some
        [{ words := ["/opt/FlameGraph/flamegraph.pl".toList],
           redirects := [(0, .input, diagnoseDir ++ name), nullDevice] }] := by
  have hfront : "/opt/FlameGraph/flamegraph.pl < ".toList =
      "/opt/FlameGraph/flamegraph.pl".toList ++ ' ' :: '<' :: [' '] := by decide
  have hback : " 2>/dev/null".toList = ' ' :: "2>/dev/null".toList := by decide
  have hline : collapsedPipeline (diagnoseDir ++ name) =
      "/opt/FlameGraph/flamegraph.pl".toList ++ ' ' :: '<' :: ' ' ::
        ((diagnoseDir ++ name) ++ ' ' :: "2>/dev/null".toList) := by
    unfold collapsedPipeline
    rw [hfront, hback]
    simp only [List.append_assoc, List.cons_append, List.nil_append]
  have htokens : tokens [] (collapsedPipeline (diagnoseDir ++ name)) =
      some [.word "/opt/FlameGraph/flamegraph.pl".toList, .redirect 0 .input,
        .word (diagnoseDir ++ name), .redirect 2 .output, .word "/dev/null".toList] := by
    rw [hline, tokens_word (by decide) (by decide), tokens_input,
      tokens_word (isLiteral_path hname) (path_ne_nil name), tokens_nullDevice]
    rfl
  unfold parsePipeline
  rw [htokens]
  rfl

theorem parse_flamegraphCommand {name : Str} (hname : IsLiteral name) :
    parsePipeline (flamegraphCommand name (diagnoseDir ++ name)) =
      some (flamegraphPipeline name) := by
  unfold flamegraphCommand flamegraphPipeline
  split
  · exact parse_perfPipeline hname
  · exact parse_collapsedPipeline hname

/-!
## Names that requests carry
-/

theorem carriable_of_requested {sent : Str}
    (hroute : (requestTarget sent).1 = "/api/flamegraph".toList)
    (hne : parseParam (requestTarget sent).2 "file".toList ≠ []) :
    Carriable (parseParam (requestTarget sent).2 "file".toList) := by
  rcases parseParam_split (requestTarget sent).2 "file".toList with ⟨hampersand, hsplit⟩
  rcases hsplit with hempty | ⟨before, after, hquery⟩
  · exact absurd hempty hne
  have hnul : '\x00' ∉ parseParam (requestTarget sent).2 "file".toList :=
    fun hmem => nul_notMem_query sent (mem_parseParam hmem)
  have hfull : fullPath (requestLine (readRequest sent)) =
      "/api/flamegraph".toList ++ '?' :: (requestTarget sent).2 := by
    rcases splitQuery_split (fullPath (requestLine (readRequest sent))) with hnone | hfull
    · exfalso
      change (requestTarget sent).2 = [] at hnone
      rw [hnone] at hquery
      have hname := (List.append_eq_nil_iff.mp hquery.symm).right
      exact absurd (List.append_eq_nil_iff.mp hname).left (by decide)
    · rw [← hroute]
      exact hfull
  rcases fullPath_split (requestLine (readRequest sent)) with hroot | ⟨method, version, hline⟩
  · rw [hroot] at hfull
    have hlen := congrArg List.length hfull
    have hone : "/".toList.length = 1 := by decide
    have hfifteen : "/api/flamegraph".toList.length = 15 := by decide
    rw [List.length_append, hone, hfifteen] at hlen
    omega
  generalize parseParam (requestTarget sent).2 "file".toList = name at hquery hampersand hnul
  have hparts : requestLine (readRequest sent) =
      (method ++ ' ' :: ("/api/flamegraph".toList ++ '?' :: (before ++
        ("file".toList ++ ['='])))) ++ name ++ (after ++ ' ' :: version) := by
    rw [hline, hfull, hquery]
    simp only [List.append_assoc, List.cons_append]
  refine ⟨hampersand, hnul, ?_, ?_⟩
  · intro hinfix
    apply notInfix_requestLine (readRequest sent)
    rw [hparts]
    exact hinfix.trans ⟨_, _, rfl⟩
  · have hlen := congrArg List.length hparts
    have hmax := length_requestLine sent
    have hfifteen : "/api/flamegraph".toList.length = 15 := by decide
    have hfour : "file".toList.length = 4 := by decide
    simp only [List.length_append, List.length_cons, List.length_nil, hfifteen, hfour] at hlen
    omega

def plainRequest (name : Str) : Str :=
  ' ' :: (("/api/flamegraph".toList ++ '?' :: ("file".toList ++ '=' :: name)) ++ [' '])

theorem requestTarget_plainRequest {name : Str} (h : Carriable name) :
    requestTarget (plainRequest name) =
      ("/api/flamegraph".toList, "file".toList ++ '=' :: name) := by
  have hlen : (plainRequest name).length ≤ 4095 := by
    have hfifteen : "/api/flamegraph".toList.length = 15 := by decide
    have hfour : "file".toList.length = 4 := by decide
    have hfits := h.fits
    unfold plainRequest
    simp only [List.length_append, List.length_cons, List.length_nil, hfifteen, hfour]
    omega
  have hnul : '\x00' ∉ plainRequest name := by
    unfold plainRequest
    simp only [List.mem_cons, List.mem_append, List.not_mem_nil, or_false, not_or]
    exact ⟨by decide, ⟨by decide, by decide, by decide, by decide, h.noNul⟩, by decide⟩
  have hfront : ¬ "\r\n".toList <:+: ' ' :: ("/api/flamegraph".toList ++ '?' :: "file".toList) := by
    intro hinfix
    have hmem : '\r' ∈ ' ' :: ("/api/flamegraph".toList ++ '?' :: "file".toList) :=
      hinfix.subset List.mem_cons_self
    exact absurd hmem (by decide)
  have hline : requestLine (plainRequest name) = plainRequest name := by
    have hnone : findText "\r\n".toList (plainRequest name) = none := by
      apply findText_eq_none.mpr
      intro hinfix
      have hparts : plainRequest name =
          (' ' :: ("/api/flamegraph".toList ++ '?' :: "file".toList)) ++
            '=' :: (name ++ ' ' :: []) := by
        unfold plainRequest
        simp only [List.append_assoc, List.cons_append]
      rw [hparts] at hinfix
      rcases pair_infix_append (x := '\r') (y := '\n') (by decide) (by decide) hinfix with
        hleft | hright
      · exact hfront hleft
      · rcases pair_infix_append (x := '\r') (y := '\n') (by decide) (by decide) hright with
          hname | hnil
        · exact h.noLineEnd hname
        · have hlength := hnil.length_le
          exact absurd hlength (by decide)
    unfold requestLine
    rw [hnone]
  have hparts : requestLine (plainRequest name) = [] ++ ' ' :: (("/api/flamegraph".toList ++
      '?' :: ("file".toList ++ '=' :: name)) ++ ' ' :: []) := hline
  exact requestTarget_of_line (readRequest_of_fits hlen hnul) hparts List.not_mem_nil
    List.not_mem_nil (by decide)

/-!
## Which directories are harmless
-/

section Directories

variable (sys : HttpSystem) (showDouble : Rat -> Str) (hosts : List HostSnapshot)

theorem popen_mem_iff (sent cmd : Str) :
    .popen cmd ∈ (serveRequest sys showDouble hosts sent).1 <->
      (requestTarget sent).1 = "/api/flamegraph".toList ∧
        isSafeFilename (parseParam (requestTarget sent).2 "file".toList) = true ∧
        0 < (sys.statSize (diagnoseDir ++ parseParam (requestTarget sent).2 "file".toList)).getD 0 ∧
        cmd = flamegraphCommand (parseParam (requestTarget sent).2 "file".toList)
          (diagnoseDir ++ parseParam (requestTarget sent).2 "file".toList) := by
  rw [serveRequest_calls]
  by_cases hroute : (requestTarget sent).1 = "/api/flamegraph".toList
  · rw [if_pos hroute, apiFlamegraph_calls sys (nul_notMem_query sent)]
    dsimp only
    generalize parseParam (requestTarget sent).2 "file".toList = name
    by_cases hsafe : isSafeFilename name = true
    · rw [if_pos hsafe]
      by_cases hdata : 0 < (sys.statSize (diagnoseDir ++ name)).getD 0
      · rw [if_pos hdata]
        simp only [List.mem_cons, List.not_mem_nil, or_false, reduceCtorEq, false_or,
          SystemCall.popen.injEq, hroute, hsafe, hdata, true_and]
      · rw [if_neg hdata]
        simp only [List.mem_cons, List.not_mem_nil, or_false, reduceCtorEq, hdata, false_and,
          and_false]
    · rw [if_neg hsafe]
      constructor
      · intro h
        cases h
      · intro h
        exact absurd h.right.left hsafe
  · rw [if_neg hroute]
    simp only [List.not_mem_nil, hroute, false_and]

/-- Every request is harmless exactly when the files with data that the endpoint would
accept and a request can name all have literal names. -/
theorem shellInert_iff_literalNames :
    (forall sent, ShellInert sys showDouble hosts sent) <->
      forall name, isSafeFilename name = true -> Carriable name ->
        0 < (sys.statSize (diagnoseDir ++ name)).getD 0 -> IsLiteral name := by
  constructor
  · intro hinert name hsafe hcarriable hdata
    have htarget := requestTarget_plainRequest hcarriable
    have hname : parseParam (requestTarget (plainRequest name)).2 "file".toList = name := by
      rw [htarget]
      exact parseParam_append hcarriable.noAmpersand
    have hroute : (requestTarget (plainRequest name)).1 = "/api/flamegraph".toList := by
      rw [htarget]
    have hmem := (popen_mem_iff sys showDouble hosts (plainRequest name) _).mpr
      ⟨hroute, by rw [hname]; exact hsafe, by rw [hname]; exact hdata, rfl⟩
    have hliteral := (hinert (plainRequest name) _ hmem).left
    rw [hname] at hliteral
    exact hliteral
  · intro hnames sent cmd hmem
    rcases (popen_mem_iff sys showDouble hosts sent cmd).mp hmem with
      ⟨hroute, hsafe, hdata, hcmd⟩
    have hne := (confined_of_isSafeFilename hsafe).nonempty
    have hliteral := hnames _ hsafe (carriable_of_requested hroute hne) hdata
    refine ⟨hliteral, ?_⟩
    rw [hcmd]
    exact parse_flamegraphCommand hliteral

end Directories

/-!
## A file with a command in its name
-/

def injectedName : Str :=
  "perf_a;id_1.data".toList

def injectedSystem : HttpSystem where
  statSize := fun path => if path = diagnoseDir ++ injectedName then some 1 else none

theorem injectedName_not_inert :
    ¬ ShellInert injectedSystem (fun _ => []) []
      "GET /api/flamegraph?file=perf_a;id_1.data HTTP/1.1\r\n\r\n".toList := by
  intro hinert
  have hliteral := (hinert (perfPipeline (diagnoseDir ++ injectedName)) (by decide +kernel)).left
  revert hliteral
  decide +kernel

end MetricsExporter

end Manager
end PerfMonitor
