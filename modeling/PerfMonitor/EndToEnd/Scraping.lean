import PerfMonitor.Foundation.Awk
import PerfMonitor.Foundation.Shell
import PerfMonitor.Manager.MetricsPage
import PerfMonitor.Manager.Responses

/-!
# Metrics as the benchmark scripts read them

The scripts fetch `/metrics` with `curl -sf` and take from the page, for a metric, the
second field of the first record whose first field begins with its name.  What they get
is the value of the host that the page lists first.
-/

namespace PerfMonitor
namespace EndToEnd

open Foundation Manager
open MetricsExporter

/-- `curl -sf`, which writes no body from status 400 on. -/
def curlOutput (response : Str) : Str :=
  match Http.read response with
  | none => []
  | some (r, _) => if 400 ≤ r.status then [] else r.body

/-- `awk -v n="$name" '$1 ~ ("^" n) {print $2; exit}'`.  A name has no character that is
special in a pattern. -/
def metricScan (name input : Str) : Str :=
  match (lines input).find? (fun record => name.isPrefixOf (Awk.field record 1).text) with
  | none => []
  | some record => (Awk.field record 2).text ++ ['\n']

def scraped (name response : Str) : Str :=
  let metrics := substituted (curlOutput response)
  let value := substituted (metricScan name (metrics ++ ['\n']))
  if value = [] then "nan".toList else value

/-!
## The records of the page
-/

variable (showDouble : Rat -> Str)

def recordText : MetricLine -> Str
  | .help metric => "# HELP ".toList ++ metric.name ++ " ".toList ++ metric.help
  | .type metric => "# TYPE ".toList ++ metric.name ++ " gauge".toList
  | .sample metric labels value =>
      metric.name ++ renderLabels labels ++ " ".toList ++ renderValue showDouble value

theorem recordText_ne_nil (line : MetricLine) : recordText showDouble line ≠ [] := by
  cases line with
  | help metric =>
      exact List.append_ne_nil_of_left_ne_nil (List.append_ne_nil_of_left_ne_nil
        (List.append_ne_nil_of_left_ne_nil (by decide) _) _) _
  | type metric =>
      exact List.append_ne_nil_of_left_ne_nil
        (List.append_ne_nil_of_left_ne_nil (by decide) _) _
  | sample metric labels value =>
      have hname := Exposition.isIdentifier_ne_nil (isIdentifier_metric metric)
      exact List.append_ne_nil_of_left_ne_nil (List.append_ne_nil_of_left_ne_nil
        (List.append_ne_nil_of_left_ne_nil hname _) _) _

theorem render_eq_written (lines : List MetricLine) :
    render showDouble lines = written (lines.map (recordText showDouble)) := by
  have hline : forall line, renderLine showDouble line = recordText showDouble line ++ ['\n'] := by
    intro line
    cases line with
    | help metric => rfl
    | type metric => rfl
    | sample metric labels value => rfl
  unfold render written
  rw [List.flatMap_map]
  exact congrArg (fun f => lines.flatMap f) (funext hline)

def firstLines (hosts : List HostSnapshot) (first : HostSnapshot) : List MetricLine :=
  (countBlock hosts :: fixedBlocks first).flatMap Block.lines

theorem render_firstLines (first : HostSnapshot) (others : List HostSnapshot) :
    exists later, render showDouble (prometheusMetrics (first :: others)) =
      written ((firstLines (first :: others) first).map (recordText showDouble)) ++ later := by
  have hblocks : blocks (first :: others) =
      (countBlock (first :: others) :: fixedBlocks first) ++
        (first.diagnoseEvents.map (eventBlock first) ++ others.flatMap hostBlocks) := by
    unfold blocks hostBlocks
    rw [List.flatMap_cons, List.append_assoc, List.cons_append]
  refine ⟨render showDouble ((first.diagnoseEvents.map (eventBlock first) ++
    others.flatMap hostBlocks).flatMap Block.lines), ?_⟩
  rw [prometheusMetrics_eq, hblocks, List.flatMap_append, ← render_eq_written]
  exact List.flatMap_append

def OneLine (text : Str) : Prop :=
  '\n' ∉ text ∧ '\x00' ∉ text

instance (text : Str) : Decidable (OneLine text) :=
  inferInstanceAs (Decidable (_ ∧ _))

theorem oneLine_append {x y : Str} (hx : OneLine x) (hy : OneLine y) : OneLine (x ++ y) :=
  ⟨List.not_mem_append hx.left hy.left, List.not_mem_append hx.right hy.right⟩

def PlainWord (name : Str) : Prop :=
  forall c, c ∈ name -> isSpace c = false ∧ c ≠ '\x00'

instance (name : Str) : Decidable (PlainWord name) :=
  List.decidableBAll (fun c => isSpace c = false ∧ c ≠ '\x00') name

theorem plainWord_append {x y : Str} (hx : PlainWord x) (hy : PlainWord y) :
    PlainWord (x ++ y) := by
  intro c hc
  rcases List.mem_append.mp hc with hc | hc
  · exact hx c hc
  · exact hy c hc

theorem oneLine_of_plainWord {name : Str} (h : PlainWord name) : OneLine name :=
  ⟨fun hc => absurd (h _ hc).left (by decide), fun hc => (h _ hc).right rfl⟩

theorem plainWord_metric (metric : Metric) : PlainWord metric.name := by
  cases metric <;> decide

theorem oneLine_help (metric : Metric) : OneLine metric.help := by
  cases metric <;> decide

theorem plainWord_of_isNumeral {text : Str} (h : isNumeral text = true) : PlainWord text := by
  intro c hc
  have hkind := isNumberChar_of_isNumeral h hc
  constructor
  · cases hspace : isSpace c with
    | false => rfl
    | true =>
        unfold isSpace at hspace
        simp only [Bool.or_eq_true, beq_iff_eq] at hspace
        rcases hspace with (((((h | h) | h) | h) | h) | h) <;>
          (rw [h] at hkind; exact absurd hkind (by decide))
  · intro heq
    rw [heq] at hkind
    exact absurd hkind (by decide)

section FirstHost

variable {showDouble} (hnum : forall x, isNumeral (showDouble x) = true)

include hnum

theorem isNumeral_renderValue (value : MetricValue) :
    isNumeral (renderValue showDouble value) = true := by
  cases value with
  | double value => exact hnum value
  | int64 value => exact isNumeral_intToString value
  | size value => exact isNumeral_natToString value

end FirstHost

theorem plainWord_hostLabel {first : HostSnapshot} (h : PlainWord first.hostname) :
    PlainWord (renderLabels (hostLabel first)) := by
  have hend : PlainWord "\"\x7d".toList := by decide
  have hstart : PlainWord "\x7bhost=\"".toList := by decide
  have htext : renderLabels (hostLabel first) =
      "\x7bhost=\"".toList ++ (first.hostname ++ "\"\x7d".toList) := by
    show "\x7b".toList ++ ("host".toList ++ "=\"".toList ++ first.hostname ++ "\"".toList ++ []) ++
      "\x7d".toList = _
    simp only [List.append_assoc, List.append_nil]
    rfl
  rw [htext]
  exact plainWord_append hstart (plainWord_append h hend)

theorem firstBlocks_cases {hosts : List HostSnapshot} {first : HostSnapshot} {b : Block}
    (hb : b ∈ countBlock hosts :: fixedBlocks first) :
    (b.metric = .hostCount ∧ b.labels = []) ∨
      (b.metric ∈ fixedMetrics ∧ b.labels = hostLabel first ∧
        hostValue first b.metric = [b.value]) := by
  rcases List.mem_cons.mp hb with heq | hb
  · rw [heq]
    exact Or.inl ⟨rfl, rfl⟩
  · refine Or.inr ⟨?_, labels_fixedBlocks hb, ?_⟩
    · exact List.mem_map_of_mem hb
    · simp only [fixedBlocks, List.mem_cons, List.not_mem_nil, or_false] at hb
      rcases hb with h | h | h | h | h | h | h | h | h | h | h | h | h <;> (rw [h]; rfl)

theorem eq_of_same_start {metric other : Metric} (hmetric : metric ∈ fixedMetrics)
    (hother : other ∈ Metric.hostCount :: fixedMetrics) (h : metric.name <+: other.name) :
    metric = other := by
  have hall : forall m, m ∈ fixedMetrics -> forall m', m' ∈ Metric.hostCount :: fixedMetrics ->
      m.name <+: m'.name -> m = m' := by
    decide +kernel
  exact hall metric hmetric other hother h

theorem field_comment (rest : Str) : (Awk.field ("# ".toList ++ rest) 1).text = ['#'] := by
  have hword : IsWord ['#'] := by
    constructor
    · exact List.cons_ne_nil _ _
    · intro c hc
      rw [List.mem_singleton.mp hc]
      rfl
  have hfields := Awk.fields_cons hword Nat.one_pos rest
  apply Awk.text_field
  show (Awk.fields (['#'] ++ (blanks 1 ++ rest)))[0]? = some ['#']
  rw [hfields]
  rfl

theorem not_prefix_comment (metric : Metric) (rest : Str) :
    ¬ metric.name <+: (Awk.field ("# ".toList ++ rest) 1).text := by
  rw [field_comment]
  cases metric <;> decide

section FirstHost

variable {showDouble} (hnum : forall x, isNumeral (showDouble x) = true)
  {hosts : List HostSnapshot} {first : HostSnapshot} (hplain : PlainWord first.hostname)

include hplain

theorem plainWord_labels {b : Block} (hb : b ∈ countBlock hosts :: fixedBlocks first) :
    PlainWord (renderLabels b.labels) := by
  rcases firstBlocks_cases hb with ⟨_, hlabels⟩ | ⟨_, hlabels, _⟩
  · rw [hlabels]
    exact List.forall_mem_nil _
  · rw [hlabels]
    exact plainWord_hostLabel hplain

include hnum

theorem fields_sample {b : Block} (hb : b ∈ countBlock hosts :: fixedBlocks first) :
    Awk.fields (recordText showDouble (.sample b.metric b.labels b.value)) =
      [b.metric.name ++ renderLabels b.labels, renderValue showDouble b.value] := by
  have hnumeral := isNumeral_renderValue hnum b.value
  have hfirst : IsWord (b.metric.name ++ renderLabels b.labels) := by
    constructor
    · apply List.append_ne_nil_of_left_ne_nil
      exact Exposition.isIdentifier_ne_nil (isIdentifier_metric b.metric)
    · intro c hc
      exact (plainWord_append (plainWord_metric b.metric) (plainWord_labels hplain hb) c hc).left
  have hvalue : IsWord (renderValue showDouble b.value) :=
    ⟨isNumeral_ne_nil hnumeral, fun c hc => (plainWord_of_isNumeral hnumeral c hc).left⟩
  have htext : recordText showDouble (.sample b.metric b.labels b.value) =
      (b.metric.name ++ renderLabels b.labels) ++
        (blanks 1 ++ renderValue showDouble b.value) := by
    show b.metric.name ++ renderLabels b.labels ++ " ".toList ++ renderValue showDouble b.value = _
    rw [List.append_assoc _ " ".toList]
    rfl
  rw [htext, Awk.fields_cons hfirst Nat.one_pos, Awk.fields_word hvalue]

theorem oneLine_recordText {line : MetricLine} (hline : line ∈ firstLines hosts first) :
    OneLine (recordText showDouble line) := by
  rcases List.mem_flatMap.mp hline with ⟨b, hb, hline⟩
  simp only [Block.lines, MetricsExporter.gauge, List.mem_cons, List.not_mem_nil, or_false] at hline
  rcases hline with heq | heq | heq
  · rw [heq]
    exact oneLine_append (oneLine_append (oneLine_append (by decide)
      (oneLine_of_plainWord (plainWord_metric b.metric))) (by decide)) (oneLine_help b.metric)
  · rw [heq]
    exact oneLine_append (oneLine_append (by decide)
      (oneLine_of_plainWord (plainWord_metric b.metric))) (by decide)
  · have hvalue := plainWord_of_isNumeral (isNumeral_renderValue hnum b.value)
    rw [heq]
    exact oneLine_append (oneLine_append (oneLine_append
      (oneLine_of_plainWord (plainWord_metric b.metric))
      (oneLine_of_plainWord (plainWord_labels hplain hb))) (by decide))
      (oneLine_of_plainWord hvalue)

/-- The script finds the sample of its metric and no other record. -/
theorem isPrefixOf_field_iff {metric : Metric} (hmetric : metric ∈ fixedMetrics) {b : Block}
    (hb : b ∈ countBlock hosts :: fixedBlocks first) {line : MetricLine} (hline : line ∈ b.lines) :
    metric.name.isPrefixOf (Awk.field (recordText showDouble line) 1).text = true <->
      line = .sample b.metric b.labels b.value ∧ b.metric = metric := by
  simp only [Block.lines, MetricsExporter.gauge, List.mem_cons, List.not_mem_nil, or_false] at hline
  rw [List.isPrefixOf_iff_prefix]
  rcases hline with heq | heq | heq
  · rw [heq]
    refine iff_of_false ?_ (fun h => by cases h.left)
    show ¬ metric.name <+: (Awk.field (("# ".toList ++ "HELP ".toList) ++ b.metric.name ++
      " ".toList ++ b.metric.help) 1).text
    simp only [List.append_assoc]
    exact not_prefix_comment metric _
  · rw [heq]
    refine iff_of_false ?_ (fun h => by cases h.left)
    show ¬ metric.name <+: (Awk.field (("# ".toList ++ "TYPE ".toList) ++ b.metric.name ++
      " gauge".toList) 1).text
    simp only [List.append_assoc]
    exact not_prefix_comment metric _
  · have hfield : (Awk.field (recordText showDouble (.sample b.metric b.labels b.value)) 1).text =
        b.metric.name ++ renderLabels b.labels := by
      apply Awk.text_field
      rw [fields_sample hnum hplain hb]
      rfl
    rw [heq, hfield]
    constructor
    · intro hprefix
      refine ⟨rfl, ?_⟩
      rcases firstBlocks_cases hb with ⟨hcount, hlabels⟩ | ⟨hfixed, hlabels, _⟩
      · rw [hlabels, hcount] at hprefix
        rw [hcount]
        exact (eq_of_same_start hmetric List.mem_cons_self
          (by rwa [show renderLabels [] = [] from rfl, List.append_nil] at hprefix)).symm
      · have hbrace : '\x7b' ∉ metric.name := by
          cases metric <;> decide
        rw [hlabels] at hprefix
        have hname := prefix_of_prefix_append_sep hbrace hprefix
        exact (eq_of_same_start hmetric (List.mem_cons_of_mem _ hfixed) hname).symm
    · intro h
      rw [← h.right]
      exact List.prefix_append _ _

/-!
## What a script gets
-/

variable (hosts) in
theorem find_firstLines {metric : Metric} (hmetric : metric ∈ fixedMetrics) :
    exists b, b ∈ countBlock hosts :: fixedBlocks first ∧ hostValue first metric = [b.value] ∧
      ((firstLines hosts first).map (recordText showDouble)).find?
          (fun record => metric.name.isPrefixOf (Awk.field record 1).text) =
        some (recordText showDouble (.sample b.metric b.labels b.value)) := by
  have hmetrics : (fixedBlocks first).map Block.metric = fixedMetrics := rfl
  rw [← hmetrics] at hmetric
  rcases List.mem_map.mp hmetric with ⟨b, hfixed, heq⟩
  rw [hmetrics] at hmetric
  have hb : b ∈ countBlock hosts :: fixedBlocks first := List.mem_cons_of_mem _ hfixed
  have hvalue : forall b', b' ∈ countBlock hosts :: fixedBlocks first -> b'.metric = metric ->
      hostValue first metric = [b'.value] ∧ b'.labels = hostLabel first := by
    intro b' hb' heq'
    rcases firstBlocks_cases hb' with ⟨hcount, _⟩ | ⟨_, hlabels, hvalue⟩
    · rw [← heq', hcount] at hmetric
      exact absurd hmetric (by decide)
    · rw [heq'] at hvalue
      exact ⟨hvalue, hlabels⟩
  refine ⟨b, hb, (hvalue b hb heq).left, ?_⟩
  apply find?_eq_some_of_unique
  · apply List.mem_map_of_mem
    exact List.mem_flatMap.mpr ⟨b, hb, by simp [Block.lines, MetricsExporter.gauge]⟩
  · exact (isPrefixOf_field_iff hnum hplain hmetric hb
      (by simp [Block.lines, MetricsExporter.gauge])).mpr ⟨rfl, heq⟩
  · intro record hrecord hmatch
    rcases List.mem_map.mp hrecord with ⟨line, hline, htext⟩
    rcases List.mem_flatMap.mp hline with ⟨b', hb', hline⟩
    rw [← htext] at hmatch
    rcases (isPrefixOf_field_iff hnum hplain hmetric hb' hline).mp hmatch with ⟨hsample, heq'⟩
    have hvalues := (hvalue b hb heq).left.symm.trans (hvalue b' hb' heq').left
    have hlabels := (hvalue b hb heq).right.trans (hvalue b' hb' heq').right.symm
    injection hvalues with hvalues
    rw [← htext, hsample, heq', heq, hvalues, hlabels]

theorem scraped_first {metric : Metric} (hmetric : metric ∈ fixedMetrics)
    {others : List HostSnapshot} {response : Str}
    (hresponse : curlOutput response = render showDouble (prometheusMetrics (first :: others))) :
    exists value, hostValue first metric = [value] ∧
      scraped metric.name response = renderValue showDouble value := by
  rcases find_firstLines hnum (first :: others) hplain hmetric with ⟨b, hb, hvalue, hfind⟩
  rcases render_firstLines showDouble first others with ⟨later, hpage⟩
  rcases List.eq_nil_or_concat ((firstLines (first :: others) first).map (recordText showDouble))
    with hnil | ⟨records, last, hconcat⟩
  · rw [hnil] at hfind
    cases hfind
  · have hrecords : forall r, r ∈ records ++ [last] -> '\n' ∉ r ∧ '\x00' ∉ r := by
      rw [← List.concat_eq_append, ← hconcat]
      intro r hr
      rcases List.mem_map.mp hr with ⟨line, hline, heq⟩
      rw [← heq]
      exact oneLine_recordText hnum hplain hline
    have hlast : last ≠ [] := by
      have hmem : last ∈ (firstLines (first :: others) first).map (recordText showDouble) := by
        rw [hconcat, List.concat_eq_append]
        exact List.mem_concat_self
      rcases List.mem_map.mp hmem with ⟨line, _, heq⟩
      rw [← heq]
      exact recordText_ne_nil showDouble line
    rcases lines_substituted hlast hrecords later with ⟨rest', hlines⟩
    have hnumeral := isNumeral_renderValue hnum b.value
    have hone := oneLine_of_plainWord (plainWord_of_isNumeral hnumeral)
    have hfield : (Awk.field (recordText showDouble (.sample b.metric b.labels b.value)) 2).text =
        renderValue showDouble b.value := by
      apply Awk.text_field
      rw [fields_sample hnum hplain hb]
      rfl
    have hscan : metricScan metric.name (substituted (curlOutput response) ++ ['\n']) =
        renderValue showDouble b.value ++ ['\n'] := by
      unfold metricScan
      rw [hresponse, hpage, hconcat, List.concat_eq_append, hlines, List.find?_append,
        ← List.concat_eq_append, ← hconcat, hfind, Option.some_or]
      dsimp only
      rw [hfield]
    refine ⟨b.value, hvalue, ?_⟩
    unfold scraped
    dsimp only
    rw [hscan, substituted_record hone.left hone.right, if_neg (isNumeral_ne_nil hnumeral)]

end FirstHost

theorem scraped_empty (metric : Metric) (hmetric : metric ∈ fixedMetrics) {response : Str}
    (hresponse : curlOutput response = render showDouble (prometheusMetrics [])) :
    scraped metric.name response = "nan".toList := by
  have hpage : render showDouble (prometheusMetrics []) =
      written ["# HELP monitor_host_count Number of active hosts".toList,
        "# TYPE monitor_host_count gauge".toList, "monitor_host_count 0".toList] := by
    rw [render_eq_written]
    rfl
  have hnone : forall m, m ∈ fixedMetrics ->
      metricScan m.name (substituted (written
        ["# HELP monitor_host_count Number of active hosts".toList,
          "# TYPE monitor_host_count gauge".toList, "monitor_host_count 0".toList]) ++ ['\n']) =
        [] := by
    decide +kernel
  unfold scraped
  dsimp only
  rw [hresponse, hpage, hnone metric hmetric]
  rfl

theorem curlOutput_metrics (sys : HttpSystem) (hosts : List HostSnapshot) {sent : Str}
    (hpath : (requestTarget sent).1 = "/metrics".toList) :
    curlOutput (serveRequest sys showDouble hosts sent).2 =
      render showDouble (prometheusMetrics hosts) := by
  have hanswer : answer sys showDouble hosts sent =
      okAnswer [contentType "text/plain; version=0.0.4"]
        (render showDouble (prometheusMetrics hosts)) := by
    unfold answer
    dsimp only
    rw [hpath, if_neg (by decide), if_neg (by decide), if_neg (by decide)]
  unfold curlOutput
  rw [serveRequest_eq_render, Http.read_render (answer_valid sys showDouble hosts sent), hanswer]
  dsimp only [okAnswer]
  rw [if_neg (by decide)]

/-- In every state that reports and sweeps lead to, and in whatever order the hash table
is gone through: a script that fetches `/metrics` gets `nan` when there is no host, and
else the value that the log of the first host says, where its name is plain. -/
theorem scraped_of_run {showDouble : Rat -> Str}
    (hnum : forall x, isNumeral (showDouble x) = true) (sys : HttpSystem) (ops : List ManagerOp)
    {hosts : List HostSnapshot} (hperm : hosts.Perm (ManagerOp.run ops).getAll) {sent : Str}
    (hpath : (requestTarget sent).1 = "/metrics".toList) :
    (hosts = [] -> forall metric, metric ∈ fixedMetrics ->
      scraped metric.name (serveRequest sys showDouble hosts sent).2 = "nan".toList) ∧
    forall first others, hosts = first :: others -> PlainWord first.hostname ->
      exists log, HostLogs.run ops first.hostname = some log ∧
        forall metric, metric ∈ fixedMetrics -> exists value,
          hostValue (HostLog.snapshot first.hostname log) metric = [value] ∧
            scraped metric.name (serveRequest sys showDouble hosts sent).2 =
              renderValue showDouble value := by
  have hresponse := curlOutput_metrics showDouble sys hosts hpath
  constructor
  · intro hnil metric hmetric
    rw [hnil] at hresponse ⊢
    exact scraped_empty showDouble metric hmetric hresponse
  · intro first others hhosts hplain
    have hmem : first ∈ (ManagerOp.run ops).getAll.filter
        (fun snap => decide (snap.hostname = first.hostname)) := by
      apply List.mem_filter.mpr
      refine ⟨hperm.mem_iff.mp ?_, decide_eq_true rfl⟩
      rw [hhosts]
      exact List.mem_cons_self
    rw [getAll_of_refines (refines_run ops), Option.mem_toList] at hmem
    rcases Option.map_eq_some_iff.mp hmem with ⟨log, hlog, hsnapshot⟩
    refine ⟨log, hlog, ?_⟩
    intro metric hmetric
    rw [hsnapshot]
    rw [hhosts] at hresponse ⊢
    exact scraped_first hnum hplain hmetric hresponse

def busyReport : Proto.MonitorInfo where
  hostname := "web-1".toList
  cpuStat := { idlePct := 75 }

def busyLog : HostLog where
  earlier := []
  last := { now := 100, request := busyReport }

def metricsRequest : Str :=
  "GET /metrics HTTP/1.1\r\nAccept: */*\r\n\r\n".toList

/-- A host that is idle for 75 percent of the time. -/
theorem scraped_of_run_busyHost :
    scraped Metric.cpuUsedPct.name (serveRequest {} showWhole
      (ManagerOp.run [.setMonitorInfo 100 busyReport]).getAll metricsRequest).2 =
        "25".toList := by
  have hpath : (requestTarget metricsRequest).1 = "/metrics".toList := by
    decide +kernel
  have hnum : forall x, isNumeral (showWhole x) = true := fun x => isNumeral_intToString x.num
  have hhosts : (ManagerOp.run [.setMonitorInfo 100 busyReport]).getAll =
      [HostLog.snapshot "web-1".toList busyLog] := by
    decide +kernel
  have hbusy : hostValue (HostLog.snapshot "web-1".toList busyLog) .cpuUsedPct =
      [.double 25] := by
    decide +kernel
  rcases (scraped_of_run hnum {} [.setMonitorInfo 100 busyReport] (List.Perm.refl _) hpath).right
    (HostLog.snapshot "web-1".toList busyLog) [] hhosts (by decide) with ⟨log, hlog, hvalues⟩
  have hsame : busyLog = log := Option.some.inj hlog
  rcases hvalues .cpuUsedPct (by decide) with ⟨value, hvalue, hscraped⟩
  rw [← hsame] at hvalue
  have hvalues := List.cons.inj (hvalue.symm.trans hbusy)
  rw [hscraped, hvalues.left]
  decide

end EndToEnd
end PerfMonitor
