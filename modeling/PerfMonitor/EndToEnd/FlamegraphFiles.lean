import PerfMonitor.Foundation.Numeral
import PerfMonitor.Manager.HttpServer
import PerfMonitor.Worker.PerfDiagnoser

/-!
# Files of the worker at the flamegraph endpoint

The worker names a file after the kind of the tool, the process, the thread and the
time; the Manager learns of it by the base name of its path, gets it back as a
request parameter, and has to recognise it.  For names without separators the way
through both programs ends at the file that the worker wrote.
-/

namespace PerfMonitor
namespace EndToEnd

open Foundation Manager Worker

/-- The kinds of files: those of the two BPF tools, and recordings. -/
inductive FileKind where
  | tool (kind : ToolKind)
  | perf
deriving DecidableEq, Repr

/-- The configured `output_dir_` of the worker. -/
def outputDir : Str :=
  "/tmp/monitor_system/diagnose".toList

def eventPath (kind : FileKind) (process thread : Str) (now : Int) : Str :=
  match kind with
  | .tool kind => BpfDiagnoser.outFile outputDir kind process thread now
  | .perf => PerfDiagnoser.perfOut outputDir process now

def flamegraphRequest (name headers : Str) : Str :=
  "GET /api/flamegraph?file=".toList ++ name ++ " HTTP/1.1\r\n".toList ++ headers

/-- A process or thread name that does not get in the way of the request. -/
structure PlainName (name : Str) : Prop where
  noSlash : '/' ∉ name
  noAmpersand : '&' ∉ name
  noNul : '\x00' ∉ name
  noReturn : '\r' ∉ name
  noNewline : '\n' ∉ name
  noDots : ¬ "..".toList <:+: name

/-!
## The base name
-/

namespace FileKind

def type : FileKind -> Str
  | .tool kind => kind.type
  | .perf => "perf".toList

def tag (kind : FileKind) (process thread : Str) : Str :=
  match kind with
  | .tool _ => BpfDiagnoser.makeTag process thread
  | .perf => process

end FileKind

def fileName (kind : FileKind) (process thread : Str) (now : Int) : Str :=
  kind.type ++ '_' :: (kind.tag process thread ++
    '_' :: (BpfDiagnoser.decimal now ++ ".data".toList))

theorem eventPath_eq (kind : FileKind) (process thread : Str) (now : Int) :
    eventPath kind process thread now = outputDir ++ '/' :: fileName kind process thread now := by
  cases kind with
  | tool kind =>
      simp only [eventPath, BpfDiagnoser.outFile, fileName, FileKind.type, FileKind.tag,
        List.append_assoc, List.cons_append, List.nil_append]
  | perf =>
      have hperf : "/perf_".toList = '/' :: ("perf".toList ++ ['_']) := rfl
      simp only [eventPath, PerfDiagnoser.perfOut, fileName, FileKind.type, FileKind.tag, hperf,
        List.append_assoc, List.cons_append, List.nil_append]

def isNameChar (c : Char) : Bool :=
  isDigit c || (decide ('a' ≤ c) && decide (c ≤ 'z')) || c == '-' || c == '_' || c == '.'

theorem isNameChar_of_mem_type {kind : FileKind} {c : Char} (h : c ∈ kind.type) :
    isNameChar c = true := by
  have hall : forall kind : FileKind, kind.type.all isNameChar = true := by
    intro kind
    cases kind with
    | tool kind =>
        cases kind with
        | offcpu => decide
        | profile => decide
    | perf => decide
  exact List.all_eq_true.mp (hall kind) c h

theorem mem_fileName {kind : FileKind} {process thread : Str} {now : Int} {c : Char}
    (h : c ∈ fileName kind process thread now) :
    c ∈ kind.tag process thread ∨ isNameChar c = true := by
  unfold fileName at h
  rcases List.mem_append.mp h with htype | h
  · exact Or.inr (isNameChar_of_mem_type htype)
  rcases List.mem_cons.mp h with heq | h
  · rw [heq]
    exact Or.inr (by decide)
  rcases List.mem_append.mp h with htag | h
  · exact Or.inl htag
  rcases List.mem_cons.mp h with heq | h
  · rw [heq]
    exact Or.inr (by decide)
  rcases List.mem_append.mp h with hdecimal | hdata
  · right
    rcases mem_intToString hdecimal with hdigit | heq
    · unfold isNameChar
      rw [hdigit]
      rfl
    · rw [heq]
      decide
  · have hall : ".data".toList.all isNameChar = true := by decide
    exact Or.inr (List.all_eq_true.mp hall c hdata)

theorem notMem_tag {kind : FileKind} {process thread : Str} {c : Char} (hc : c ≠ '_')
    (hprocess : c ∉ process) (hthread : c ∉ thread) : c ∉ kind.tag process thread := by
  intro h
  cases kind with
  | tool kind =>
      rcases List.mem_append.mp h with hmem | hmem
      · exact hprocess hmem
      · split at hmem
        · cases hmem
        · rcases List.mem_cons.mp hmem with heq | hmem
          · exact hc heq
          · exact hthread hmem
  | perf => exact hprocess h

theorem plainName_tag (kind : FileKind) {process thread : Str} (hprocess : PlainName process)
    (hthread : PlainName thread) : PlainName (kind.tag process thread) := by
  constructor
  · exact notMem_tag (by decide) hprocess.noSlash hthread.noSlash
  · exact notMem_tag (by decide) hprocess.noAmpersand hthread.noAmpersand
  · exact notMem_tag (by decide) hprocess.noNul hthread.noNul
  · exact notMem_tag (by decide) hprocess.noReturn hthread.noReturn
  · exact notMem_tag (by decide) hprocess.noNewline hthread.noNewline
  · intro h
    cases kind with
    | tool kind =>
        change "..".toList <:+: process ++ (if thread = [] then [] else '_' :: thread) at h
        split at h
        · rw [List.append_nil] at h
          exact hprocess.noDots h
        · rcases pair_infix_append (x := '.') (y := '.') (by decide) (by decide) h with
            hleft | hright
          · exact hprocess.noDots hleft
          · exact hthread.noDots hright
    | perf => exact hprocess.noDots h

theorem noDots_of_count {s : Str} (h : s.count '.' ≤ 1) : ¬ "..".toList <:+: s := by
  intro hinfix
  have hcount := hinfix.sublist.count_le '.'
  have htwo : "..".toList.count '.' = 2 := by decide
  omega

theorem plainName_fileName (kind : FileKind) {process thread : Str} (hprocess : PlainName process)
    (hthread : PlainName thread) (now : Int) : PlainName (fileName kind process thread now) := by
  have htag := plainName_tag kind hprocess hthread
  have hnot : forall c, isNameChar c = false -> c ∉ kind.tag process thread ->
      c ∉ fileName kind process thread now := by
    intro c hchar hmem h
    rcases mem_fileName h with htag | hname
    · exact hmem htag
    · rw [hchar] at hname
      cases hname
  constructor
  · exact hnot '/' (by decide) htag.noSlash
  · exact hnot '&' (by decide) htag.noAmpersand
  · exact hnot '\x00' (by decide) htag.noNul
  · exact hnot '\r' (by decide) htag.noReturn
  · exact hnot '\n' (by decide) htag.noNewline
  · intro h
    have htype : ¬ "..".toList <:+: kind.type := by
      apply noDots_of_count
      cases kind with
      | tool kind =>
          cases kind with
          | offcpu => decide
          | profile => decide
      | perf => decide
    have hend : ¬ "..".toList <:+: BpfDiagnoser.decimal now ++ ".data".toList := by
      apply noDots_of_count
      rw [List.count_append, List.count_eq_zero_of_not_mem]
      · decide
      · intro hmem
        rcases mem_intToString hmem with hdigit | heq
        · exact absurd hdigit (by decide)
        · exact absurd heq (by decide)
    rcases pair_infix_append (x := '.') (y := '.') (by decide) (by decide) h with hleft | h
    · exact htype hleft
    · rcases pair_infix_append (x := '.') (y := '.') (by decide) (by decide) h with hleft | hright
      · exact htag.noDots hleft
      · exact hend hright

theorem basename_eventPath (kind : FileKind) {process thread : Str}
    (hprocess : PlainName process) (hthread : PlainName thread) (now : Int) :
    MetricsExporter.basename (eventPath kind process thread now) =
      fileName kind process thread now := by
  have hslash := (plainName_fileName kind hprocess hthread now).noSlash
  rw [eventPath_eq]
  unfold MetricsExporter.basename
  rw [rfind_append outputDir hslash]
  dsimp only
  rw [← List.drop_drop, List.drop_left]
  rfl

/-!
## The request
-/

theorem requestTarget_flamegraph {name headers : Str} (hname : PlainName name)
    (hheaders : '\x00' ∉ headers) (hfits : (flamegraphRequest name headers).length ≤ 4095) :
    MetricsExporter.requestTarget (flamegraphRequest name headers) =
      ("/api/flamegraph".toList, "file=".toList ++ name) := by
  have hnul : '\x00' ∉ flamegraphRequest name headers := by
    unfold flamegraphRequest
    simp only [List.mem_append, not_or]
    exact ⟨⟨⟨by decide, hname.noNul⟩, by decide⟩, hheaders⟩
  have hline : MetricsExporter.requestLine (flamegraphRequest name headers) =
      "GET".toList ++ ' ' :: (("/api/flamegraph?file=".toList ++ name) ++
        ' ' :: "HTTP/1.1".toList) := by
    have hparts : flamegraphRequest name headers =
        ("GET".toList ++ ' ' :: (("/api/flamegraph?file=".toList ++ name) ++
          ' ' :: "HTTP/1.1".toList)) ++ ('\r' :: ['\n'] ++ headers) := by
      unfold flamegraphRequest
      have hget : "GET /api/flamegraph?file=".toList =
          "GET".toList ++ ' ' :: "/api/flamegraph?file=".toList := by decide
      have hversion : " HTTP/1.1\r\n".toList =
          ' ' :: ("HTTP/1.1".toList ++ '\r' :: ['\n']) := by decide
      rw [hget, hversion]
      simp only [List.append_assoc, List.cons_append]
    have hnoReturn : '\r' ∉ "GET".toList ++ ' ' :: (("/api/flamegraph?file=".toList ++ name) ++
        ' ' :: "HTTP/1.1".toList) := by
      simp only [List.mem_append, List.mem_cons, not_or]
      exact ⟨by decide, by decide, ⟨by decide, hname.noReturn⟩, by decide, by decide⟩
    have hfind : findText "\r\n".toList (flamegraphRequest name headers) =
        some ("GET".toList ++ ' ' :: (("/api/flamegraph?file=".toList ++ name) ++
          ' ' :: "HTTP/1.1".toList)).length := by
      rw [hparts]
      exact findText_append hnoReturn headers
    unfold MetricsExporter.requestLine
    rw [hfind]
    dsimp only
    rw [hparts, List.take_left]
  have hpath : "/api/flamegraph?file=".toList ++ name =
      "/api/flamegraph".toList ++ '?' :: ("file=".toList ++ name) := by
    have hfront : "/api/flamegraph?file=".toList =
        "/api/flamegraph".toList ++ '?' :: "file=".toList := by decide
    rw [hfront, List.append_assoc]
    rfl
  rw [hpath] at hline
  exact MetricsExporter.requestTarget_of_line (MetricsExporter.readRequest_of_fits hfits hnul)
    hline (by decide) (by decide) (by decide)

theorem isSafeFilename_fileName (kind : FileKind) {process thread : Str}
    (hprocess : PlainName process) (hthread : PlainName thread) (now : Int) :
    MetricsExporter.isSafeFilename (fileName kind process thread now) = true := by
  have hplain := plainName_fileName kind hprocess hthread now
  have hdata : ".data".toList <:+ fileName kind process thread now := by
    refine ⟨kind.type ++ '_' :: (kind.tag process thread ++
      '_' :: BpfDiagnoser.decimal now), ?_⟩
    simp only [fileName, List.append_assoc, List.cons_append]
  have hlength : 6 ≤ (fileName kind process thread now).length := by
    unfold fileName
    have hfive : ".data".toList.length = 5 := by decide
    simp only [List.length_append, List.length_cons, hfive]
    omega
  refine (MetricsExporter.isSafeFilename_iff _).mpr
    ⟨hplain.noSlash, hplain.noDots, hlength, hdata, ?_⟩
  unfold fileName
  cases kind with
  | tool kind =>
      cases kind with
      | offcpu => exact Or.inr (Or.inl ⟨_, rfl⟩)
      | profile => exact Or.inr (Or.inr ⟨_, rfl⟩)
  | perf => exact Or.inl ⟨_, rfl⟩

theorem perf_prefix_iff (kind : FileKind) (process thread : Str) (now : Int) :
    "perf_".toList.isPrefixOf (fileName kind process thread now) = true <-> kind = .perf := by
  cases kind with
  | tool kind =>
      cases kind with
      | offcpu =>
          constructor
          · intro h
            cases h
          · intro h
            cases h
      | profile =>
          constructor
          · intro h
            cases h
          · intro h
            cases h
  | perf => exact ⟨fun _ => rfl, fun _ => rfl⟩

/-!
## Retrieval
-/

structure Retrieves (kind : FileKind) (path name sent : Str) : Prop where
  routed : (MetricsExporter.requestTarget sent).1 = "/api/flamegraph".toList
  parsed : MetricsExporter.parseParam (MetricsExporter.requestTarget sent).2 "file".toList = name
  accepted : MetricsExporter.isSafeFilename name = true
  /-- The file is looked up, and drawn by the pipeline of its kind if it has data. -/
  calls : forall sys showDouble hosts,
    (MetricsExporter.serveRequest sys showDouble hosts sent).1 =
      if 0 < (sys.statSize path).getD 0 then
        [.stat path,
          .popen (if kind = .perf then MetricsExporter.perfPipeline path
            else MetricsExporter.collapsedPipeline path)]
      else [.stat path]

theorem worker_file_retrieved (kind : FileKind) (process thread : Str) (now : Int) (headers : Str)
    (hprocess : PlainName process) (hthread : PlainName thread) (hheaders : '\x00' ∉ headers)
    (hfits : (flamegraphRequest (MetricsExporter.basename (eventPath kind process thread now))
      headers).length ≤ 4095) :
    Retrieves kind (eventPath kind process thread now)
      (MetricsExporter.basename (eventPath kind process thread now))
      (flamegraphRequest (MetricsExporter.basename (eventPath kind process thread now))
        headers) := by
  rw [basename_eventPath kind hprocess hthread now] at hfits ⊢
  have hplain := plainName_fileName kind hprocess hthread now
  have htarget := requestTarget_flamegraph hplain hheaders hfits
  have hsafe := isSafeFilename_fileName kind hprocess hthread now
  have hfile : "file=".toList ++ fileName kind process thread now =
      "file".toList ++ '=' :: fileName kind process thread now := rfl
  have hparsed : MetricsExporter.parseParam
      ("file=".toList ++ fileName kind process thread now) "file".toList =
        fileName kind process thread now := by
    rw [hfile]
    exact MetricsExporter.parseParam_append hplain.noAmpersand
  have hpath : MetricsExporter.diagnoseDir ++ fileName kind process thread now =
      eventPath kind process thread now := by
    have hdir : MetricsExporter.diagnoseDir = outputDir ++ ['/'] := by decide
    rw [eventPath_eq, hdir, List.append_assoc]
    rfl
  have hcommand : MetricsExporter.flamegraphCommand (fileName kind process thread now)
      (eventPath kind process thread now) =
        if kind = .perf then MetricsExporter.perfPipeline (eventPath kind process thread now)
        else MetricsExporter.collapsedPipeline (eventPath kind process thread now) := by
    unfold MetricsExporter.flamegraphCommand
    simp only [perf_prefix_iff]
  have hroute : (MetricsExporter.requestTarget
      (flamegraphRequest (fileName kind process thread now) headers)).1 =
        "/api/flamegraph".toList := by
    rw [htarget]
  have hname : MetricsExporter.parseParam (MetricsExporter.requestTarget
      (flamegraphRequest (fileName kind process thread now) headers)).2 "file".toList =
        fileName kind process thread now := by
    rw [htarget]
    exact hparsed
  refine ⟨hroute, hname, hsafe, ?_⟩
  intro sys showDouble hosts
  rw [MetricsExporter.serveRequest_calls, if_pos hroute,
    MetricsExporter.apiFlamegraph_calls sys (MetricsExporter.nul_notMem_query _)]
  dsimp only
  rw [hname, if_pos hsafe, hpath, hcommand]

/-- A recording of a process with a blank and a question mark in its name. -/
theorem worker_file_retrieved_perf :
    Retrieves .perf (eventPath .perf "my app?".toList [] 1700000000)
      (MetricsExporter.basename (eventPath .perf "my app?".toList [] 1700000000))
      (flamegraphRequest (MetricsExporter.basename
        (eventPath .perf "my app?".toList [] 1700000000)) []) :=
  worker_file_retrieved .perf "my app?".toList [] 1700000000 []
    ⟨by decide, by decide, by decide, by decide, by decide, noDots_of_count (by decide)⟩
    ⟨by decide, by decide, by decide, by decide, by decide, noDots_of_count (by decide)⟩
    (by decide) (by decide +kernel)

end EndToEnd
end PerfMonitor
