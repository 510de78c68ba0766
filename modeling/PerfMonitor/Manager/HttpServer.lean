import PerfMonitor.Foundation.Text
import PerfMonitor.Manager.MetricsExporter

/-!
# Embedded HTTP server

One turn of `serve_loop` in `manager/src/rpc/metrics_exporter.cpp`: the request
line is cut out of the buffer, split into path and query, and answered.  What the
flamegraph endpoint asks of the system, `stat` and `popen`, is written down as the
calls of the turn; the file system and the output of a pipeline are parameters.
-/

namespace PerfMonitor
namespace Manager

open Foundation

inductive SystemCall where
  | stat (path : Str)
  | popen (cmd : Str)
deriving DecidableEq, Repr

/-- The system as a turn meets it: the size of a file for which `stat` succeeds, and
what a pipeline writes. -/
structure HttpSystem where
  statSize : Str -> Option Nat := fun _ => none
  pipelineOutput : Str -> Str := fun _ => []

namespace MetricsExporter

def parseParam (query key : Str) : Str :=
  let name := key ++ ['=']
  match findText name query with
  | none => []
  | some pos =>
      let pos := pos + name.length
      match findChar '&' (query.drop pos) with
      | none => query.drop pos
      | some len => substr query pos len

def isSafeFilename (name : Str) : Bool :=
  if '/' ∈ name then false
  else if (findText "..".toList name).isSome then false
  else if name.length < 6 || !".data".toList.isSuffixOf name then false
  else "perf_".toList.isPrefixOf name || "offcpu_".toList.isPrefixOf name ||
    "profile_".toList.isPrefixOf name

/-!
## The endpoints
-/

def basename (filePath : Str) : Str :=
  match rfind '/' filePath with
  | none => filePath
  | some slash => filePath.drop (slash + 1)

/-- One element of the array of `api_events`. -/
def eventText (showDouble : Rat -> Str) (h : HostSnapshot) (de : DiagnoseRecord) : Str :=
  "  \x7b\"host\":\"".toList ++ h.hostname ++ "\"".toList ++
  ",\"type\":\"".toList ++ de.type ++ "\"".toList ++
  ",\"process\":\"".toList ++ de.processName ++ "\"".toList ++
  ",\"file\":\"".toList ++ basename de.filePath ++ "\"".toList ++
  ",\"timestamp\":".toList ++ (toString de.timestamp).toList ++
  ",\"cpu_percent\":".toList ++ showDouble de.cpuPercent ++
  "\x7d".toList

def joinEvents : Bool -> List Str -> Str
  | _, [] => []
  | firstEv, text :: rest =>
      (if firstEv then [] else ",\n".toList) ++ text ++ joinEvents false rest

def apiEvents (showDouble : Rat -> Str) (hosts : List HostSnapshot) : Str :=
  "[\n".toList ++
  joinEvents true
    (hosts.flatMap (fun h => h.diagnoseEvents.map (fun de => eventText showDouble h de))) ++
  "\n]".toList

def diagnoseDir : Str :=
  "/tmp/monitor_system/diagnose/".toList

def perfPipeline (path : Str) : Str :=
  "perf script -i ".toList ++ path ++
    (" | /opt/FlameGraph/stackcollapse-perf.pl" ++
      " | /opt/FlameGraph/flamegraph.pl 2>/dev/null").toList

def collapsedPipeline (path : Str) : Str :=
  "/opt/FlameGraph/flamegraph.pl < ".toList ++ path ++ " 2>/dev/null".toList

def flamegraphCommand (filename path : Str) : Str :=
  if "perf_".toList.isPrefixOf filename then perfPipeline path else collapsedPipeline path

/-- `run_pipeline`. -/
def runPipeline (sys : HttpSystem) (cmd : Str) : List SystemCall × Str :=
  ([.popen (cString cmd)], sys.pipelineOutput (cString cmd))

def apiFlamegraph (sys : HttpSystem) (query : Str) : List SystemCall × Str :=
  let filename := parseParam query "file".toList
  if isSafeFilename filename then
    let path := diagnoseDir ++ filename
    match sys.statSize (cString path) with
    | none => ([.stat (cString path)], [])
    | some 0 => ([.stat (cString path)], [])
    | some (_ + 1) =>
        let (calls, out) := runPipeline sys (flamegraphCommand filename path)
        (.stat (cString path) :: calls, out)
  else ([], [])

/-!
## A turn of the loop
-/

def readRequest (sent : Str) : Str :=
  cString (sent.take 4095)

def requestLine (req : Str) : Str :=
  match findText "\r\n".toList req with
  | none => req
  | some lineEnd => req.take lineEnd

def fullPath (reqLine : Str) : Str :=
  match findChar ' ' reqLine, rfind ' ' reqLine with
  | some p1, some p2 => if p1 < p2 then substr reqLine (p1 + 1) (p2 - p1 - 1) else "/".toList
  | _, _ => "/".toList

def splitQuery (fullPath : Str) : Str × Str :=
  match findChar '?' fullPath with
  | none => (fullPath, [])
  | some qPos => (fullPath.take qPos, fullPath.drop (qPos + 1))

def requestTarget (sent : Str) : Str × Str :=
  splitQuery (fullPath (requestLine (readRequest sent)))

def okResponse (headers body : Str) : Str :=
  "HTTP/1.1 200 OK\r\nContent-Type: ".toList ++ headers ++ "Content-Length: ".toList ++
    (toString body.length).toList ++ "\r\n\r\n".toList ++ body

/-- One accepted connection: the calls that it causes and the response. -/
def serveRequest (sys : HttpSystem) (showDouble : Rat -> Str) (hosts : List HostSnapshot)
    (sent : Str) : List SystemCall × Str :=
  let (path, query) := requestTarget sent
  if path = "/healthz".toList then
    ([], "HTTP/1.1 200 OK\r\nContent-Type: text/plain\r\n\r\nOK".toList)
  else if path = "/api/events".toList then
    ([], okResponse "application/json\r\nAccess-Control-Allow-Origin: *\r\n".toList
      (apiEvents showDouble hosts))
  else if path = "/api/flamegraph".toList then
    let (calls, body) := apiFlamegraph sys query
    if body = [] then
      (calls, ("HTTP/1.1 400 Bad Request\r\nContent-Type: text/plain\r\n\r\n" ++
        "Invalid or missing file parameter").toList)
    else
      (calls, okResponse "image/svg+xml\r\nAccess-Control-Allow-Origin: *\r\n".toList body)
  else
    ([], okResponse "text/plain; version=0.0.4\r\n".toList
      (render showDouble (prometheusMetrics hosts)))

/-!
## Well-formed requests
-/

theorem fullPath_append {method version : Str} (hmethod : ' ' ∉ method) (hversion : ' ' ∉ version)
    (target : Str) : fullPath (method ++ ' ' :: (target ++ ' ' :: version)) = target := by
  have hlast : method ++ ' ' :: (target ++ ' ' :: version) =
      (method ++ ' ' :: target) ++ ' ' :: version := by
    rw [List.append_assoc]
    rfl
  have hrfind : rfind ' ' (method ++ ' ' :: (target ++ ' ' :: version)) =
      some (method ++ ' ' :: target).length := by
    rw [hlast]
    exact rfind_append _ hversion
  have hlen : (method ++ ' ' :: target).length = method.length + 1 + target.length := by
    simp only [List.length_append, List.length_cons]
    omega
  have hsplit : method ++ ' ' :: (target ++ ' ' :: version) =
      (method ++ [' ']) ++ (target ++ ' ' :: version) := by
    rw [List.append_assoc]
    rfl
  have hfront : method.length + 1 = (method ++ [' ']).length := by
    rw [List.length_append]
    rfl
  have hrest : method.length + 1 + target.length - method.length - 1 = target.length := by omega
  unfold fullPath
  simp only [findChar_append hmethod, hrfind, hlen]
  rw [if_pos (by omega), hrest, hsplit, hfront]
  exact substr_append _ target _

theorem splitQuery_append {path : Str} (hpath : '?' ∉ path) (query : Str) :
    splitQuery (path ++ '?' :: query) = (path, query) := by
  unfold splitQuery
  rw [findChar_append hpath]
  dsimp only
  rw [List.take_left, ← List.drop_drop, List.drop_left]
  rfl

theorem readRequest_of_fits {sent : Str} (hlength : sent.length ≤ 4095) (hnul : '\x00' ∉ sent) :
    readRequest sent = sent := by
  unfold readRequest
  rw [List.take_of_length_le hlength]
  exact cString_of_notMem hnul

theorem requestTarget_of_line {sent method path query version : Str}
    (hread : readRequest sent = sent)
    (hline : requestLine sent = method ++ ' ' :: ((path ++ '?' :: query) ++ ' ' :: version))
    (hmethod : ' ' ∉ method) (hversion : ' ' ∉ version) (hpath : '?' ∉ path) :
    requestTarget sent = (path, query) := by
  unfold requestTarget
  rw [hread, hline, fullPath_append hmethod hversion, splitQuery_append hpath]

theorem parseParam_append {key value : Str} (hvalue : '&' ∉ value) :
    parseParam (key ++ '=' :: value) key = value := by
  have hname : key ++ '=' :: value = (key ++ ['=']) ++ value := by
    rw [List.append_assoc]
    rfl
  unfold parseParam
  dsimp only
  rw [hname, findText_of_isPrefix ⟨value, rfl⟩]
  dsimp only
  rw [Nat.zero_add, List.drop_left, findChar_of_notMem hvalue]

/-!
## Where the parts of a request come from
-/

theorem parseParam_split (query key : Str) :
    '&' ∉ parseParam query key ∧
      (parseParam query key = [] ∨
        exists before after,
          query = before ++ ((key ++ ['=']) ++ (parseParam query key ++ after))) := by
  unfold parseParam
  dsimp only
  cases hfind : findText (key ++ ['=']) query with
  | none => exact ⟨List.not_mem_nil, Or.inl rfl⟩
  | some pos =>
      rcases (findText_split hfind).left with ⟨before, rest, heq, hpos⟩
      have hdrop : query.drop (pos + (key ++ ['=']).length) = rest := by
        rw [← hpos, ← List.drop_drop, heq, List.drop_left, List.drop_left]
      dsimp only
      rw [hdrop]
      rcases findChar_cases '&' rest with ⟨hnone, hchar⟩ | ⟨value, after, hrest, hvalue, hchar⟩
      · rw [hchar]
        refine ⟨hnone, Or.inr ⟨before, [], ?_⟩⟩
        rw [List.append_nil]
        exact heq
      · rw [hchar]
        have hsubstr : substr query (pos + (key ++ ['=']).length) value.length = value := by
          unfold substr
          rw [hdrop, hrest, List.take_left]
        dsimp only
        rw [hsubstr]
        refine ⟨hvalue, Or.inr ⟨before, '&' :: after, ?_⟩⟩
        rw [← hrest]
        exact heq

theorem splitQuery_split (full : Str) :
    (splitQuery full).2 = [] ∨ full = (splitQuery full).1 ++ '?' :: (splitQuery full).2 := by
  rcases findChar_cases '?' full with ⟨hnone, hfind⟩ | ⟨path, query, heq, hpath, hfind⟩
  · left
    unfold splitQuery
    rw [hfind]
  · right
    rw [heq, splitQuery_append hpath]

theorem fullPath_split (line : Str) :
    fullPath line = "/".toList ∨
      exists method version, line = method ++ ' ' :: (fullPath line ++ ' ' :: version) := by
  rcases findChar_cases ' ' line with ⟨hnone, hfind⟩ | ⟨method, rest, heq, hmethod, hfind⟩
  · left
    unfold fullPath
    rw [hfind]
  · rcases rfind_cases ' ' rest with ⟨hlast, hrfind⟩ | ⟨target, version, hrest, hversion, hrfind⟩
    · left
      have hsame : rfind ' ' line = some method.length := by
        rw [heq]
        exact rfind_append method hlast
      unfold fullPath
      rw [hfind, hsame]
      dsimp only
      rw [if_neg (Nat.lt_irrefl _)]
    · right
      refine ⟨method, version, ?_⟩
      rw [heq, hrest, fullPath_append hmethod hversion]

theorem notInfix_requestLine (req : Str) : ¬ "\r\n".toList <:+: requestLine req := by
  unfold requestLine
  split
  next hnone => exact findText_eq_none.mp hnone
  next hsome => exact notInfix_take_findText (by decide) hsome

theorem length_requestLine (sent : Str) : (requestLine (readRequest sent)).length ≤ 4095 := by
  have hread : (readRequest sent).length ≤ 4095 := by
    have hprefix := (List.takeWhile_prefix (fun c => decide (c ≠ '\x00')) (l := sent.take 4095))
    exact Nat.le_trans hprefix.length_le (List.length_take_le 4095 sent)
  unfold requestLine
  split
  · exact hread
  · exact Nat.le_trans (List.length_take_le' _ _) hread

/-!
## Path confinement
-/

structure Confined (name : Str) : Prop where
  nonempty : name ≠ []
  noSlash : '/' ∉ name
  notDot : name ≠ ".".toList
  notDotDot : name ≠ "..".toList
  known : "perf_".toList <+: name ∨ "offcpu_".toList <+: name ∨ "profile_".toList <+: name
  data : ".data".toList <:+ name

theorem isSafeFilename_iff (name : Str) :
    isSafeFilename name = true <->
      '/' ∉ name ∧ ¬ "..".toList <:+: name ∧ 6 ≤ name.length ∧ ".data".toList <:+ name ∧
        ("perf_".toList <+: name ∨ "offcpu_".toList <+: name ∨ "profile_".toList <+: name) := by
  unfold isSafeFilename
  by_cases hslash : '/' ∈ name
  · simp [hslash]
  · rw [if_neg hslash]
    cases hdots : findText "..".toList name with
    | some i =>
        have hinfix : "..".toList <:+: name := by
          rcases (findText_split hdots).left with ⟨a, b, heq, _⟩
          exact ⟨a, b, by rw [heq, List.append_assoc]⟩
        rw [if_pos (Option.isSome_some)]
        constructor
        · intro h
          cases h
        · intro h
          exact absurd hinfix h.right.left
    | none =>
        have hinfix := findText_eq_none.mp hdots
        rw [if_neg (by simp)]
        by_cases hsize : (name.length < 6 || !".data".toList.isSuffixOf name) = true
        · rw [if_pos hsize]
          simp only [Bool.or_eq_true, decide_eq_true_eq, Bool.not_eq_true'] at hsize
          constructor
          · intro h
            cases h
          · rintro ⟨_, _, hlen, hsuffix, _⟩
            rcases hsize with hshort | hno
            · omega
            · rw [List.isSuffixOf_iff_suffix.mpr hsuffix] at hno
              cases hno
        · rw [if_neg hsize]
          simp only [Bool.or_eq_true, decide_eq_true_eq, Bool.not_eq_true', not_or, not_lt,
            Bool.not_eq_false, List.isSuffixOf_iff_suffix] at hsize
          simp only [Bool.or_eq_true, List.isPrefixOf_iff_prefix, or_assoc]
          constructor
          · intro hknown
            exact ⟨hslash, hinfix, hsize.left, hsize.right, hknown⟩
          · rintro ⟨_, _, _, _, hknown⟩
            exact hknown

theorem confined_of_isSafeFilename {name : Str} (h : isSafeFilename name = true) :
    Confined name := by
  rcases (isSafeFilename_iff name).mp h with ⟨hslash, hdots, hlen, hdata, hknown⟩
  refine ⟨?_, hslash, ?_, ?_, hknown, hdata⟩
  · intro heq
    rw [heq] at hlen
    exact absurd hlen (by decide)
  · intro heq
    rw [heq] at hlen
    exact absurd hlen (by decide)
  · intro heq
    rw [heq] at hlen
    exact absurd hlen (by decide)

theorem mem_substr {s : Str} {pos len : Nat} {c : Char} (h : c ∈ substr s pos len) : c ∈ s :=
  List.mem_of_mem_drop (List.mem_of_mem_take h)

theorem mem_parseParam {query key : Str} {c : Char} (h : c ∈ parseParam query key) : c ∈ query := by
  unfold parseParam at h
  dsimp only at h
  split at h
  · cases h
  · split at h
    · exact List.mem_of_mem_drop h
    · exact mem_substr h

theorem mem_splitQuery {full : Str} {c : Char} (h : c ∈ (splitQuery full).2) : c ∈ full := by
  unfold splitQuery at h
  split at h
  · cases h
  · exact List.mem_of_mem_drop h

theorem mem_fullPath {line : Str} {c : Char} (h : c ∈ fullPath line) : c ∈ line ∨ c = '/' := by
  have hroot : c ∈ "/".toList -> c ∈ line ∨ c = '/' := by
    intro hc
    exact Or.inr (List.mem_singleton.mp hc)
  unfold fullPath at h
  split at h
  · split at h
    · exact Or.inl (mem_substr h)
    · exact hroot h
  · exact hroot h

theorem mem_requestLine {req : Str} {c : Char} (h : c ∈ requestLine req) : c ∈ req := by
  unfold requestLine at h
  split at h
  · exact h
  · exact List.mem_of_mem_take h

theorem nul_notMem_query (sent : Str) : '\x00' ∉ (requestTarget sent).2 := by
  intro hmem
  rcases mem_fullPath (mem_splitQuery hmem) with hline | hroot
  · exact nul_notMem_cString _ (mem_requestLine hline)
  · exact absurd hroot (by decide)

theorem nul_notMem_path {name : Str} (hname : '\x00' ∉ name) : '\x00' ∉ diagnoseDir ++ name :=
  List.not_mem_append (by decide) hname

theorem cString_path {name : Str} (hname : '\x00' ∉ name) :
    cString (diagnoseDir ++ name) = diagnoseDir ++ name :=
  cString_of_notMem (nul_notMem_path hname)

theorem cString_flamegraphCommand {name : Str} (hname : '\x00' ∉ name) :
    cString (flamegraphCommand name (diagnoseDir ++ name)) =
      flamegraphCommand name (diagnoseDir ++ name) := by
  have hpath := nul_notMem_path hname
  apply cString_of_notMem
  unfold flamegraphCommand perfPipeline collapsedPipeline
  split
  · exact List.not_mem_append (List.not_mem_append (by decide) hpath) (by decide)
  · exact List.not_mem_append (List.not_mem_append (by decide) hpath) (by decide)

theorem apiFlamegraph_calls (sys : HttpSystem) {query : Str} (hquery : '\x00' ∉ query) :
    (apiFlamegraph sys query).1 =
      let name := parseParam query "file".toList
      if isSafeFilename name then
        if 0 < (sys.statSize (diagnoseDir ++ name)).getD 0 then
          [.stat (diagnoseDir ++ name), .popen (flamegraphCommand name (diagnoseDir ++ name))]
        else [.stat (diagnoseDir ++ name)]
      else [] := by
  have hname : '\x00' ∉ parseParam query "file".toList := fun hmem => hquery (mem_parseParam hmem)
  unfold apiFlamegraph runPipeline
  dsimp only
  rw [cString_path hname, cString_flamegraphCommand hname]
  split
  · cases sys.statSize (diagnoseDir ++ parseParam query "file".toList) with
    | none => rfl
    | some size =>
        cases size with
        | zero => rfl
        | succ size => rfl
  · rfl

theorem serveRequest_calls (sys : HttpSystem) (showDouble : Rat -> Str)
    (hosts : List HostSnapshot) (sent : Str) :
    (serveRequest sys showDouble hosts sent).1 =
      if (requestTarget sent).1 = "/api/flamegraph".toList then
        (apiFlamegraph sys (requestTarget sent).2).1
      else [] := by
  unfold serveRequest
  dsimp only
  split
  next hpath =>
    rw [if_neg]
    rw [hpath]
    decide
  · split
    next hpath =>
      rw [if_neg]
      rw [hpath]
      decide
    · split
      · split
        · rfl
        · rfl
      · rfl

/-- Whatever is sent, the paths that are looked up or put into a command are those of
single known components of the diagnose directory. -/
theorem serveRequest_confined (sys : HttpSystem) (showDouble : Rat -> Str)
    (hosts : List HostSnapshot) (sent : Str) :
    (serveRequest sys showDouble hosts sent).1 = [] ∨
      (requestTarget sent).1 = "/api/flamegraph".toList ∧
        exists name, name = parseParam (requestTarget sent).2 "file".toList ∧ Confined name ∧
          ((serveRequest sys showDouble hosts sent).1 = [.stat (diagnoseDir ++ name)] ∨
            exists cmd, (cmd = perfPipeline (diagnoseDir ++ name) ∨
                cmd = collapsedPipeline (diagnoseDir ++ name)) ∧
              (serveRequest sys showDouble hosts sent).1 =
                [.stat (diagnoseDir ++ name), .popen cmd]) := by
  rw [serveRequest_calls]
  by_cases hpath : (requestTarget sent).1 = "/api/flamegraph".toList
  · rw [if_pos hpath, apiFlamegraph_calls sys (nul_notMem_query sent)]
    dsimp only
    by_cases hsafe : isSafeFilename (parseParam (requestTarget sent).2 "file".toList) = true
    · right
      refine ⟨hpath, _, rfl, confined_of_isSafeFilename hsafe, ?_⟩
      rw [if_pos hsafe]
      split
      · right
        refine ⟨_, ?_, rfl⟩
        unfold flamegraphCommand
        split
        · exact Or.inl rfl
        · exact Or.inr rfl
      · exact Or.inl rfl
    · left
      rw [if_neg hsafe]
  · left
    rw [if_neg hpath]

end MetricsExporter

end Manager
end PerfMonitor
