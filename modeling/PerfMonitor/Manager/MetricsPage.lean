import PerfMonitor.Foundation.Exposition
import PerfMonitor.Manager.MetricsExporter

/-!
# The metrics page as a text

The text that `prometheus_metrics` writes against the exposition format that its
content type announces.  Every metric of every host and every diagnose event comes
with `HELP` and `TYPE` lines of its own, and label values are not escaped.  The text
is therefore a valid page that says what is stored exactly when there is at most one
host with at most one event, and no string in it needs an escape.
-/

namespace PerfMonitor
namespace Manager

open Foundation
open Proto

namespace MetricsExporter

open Exposition (Line Family)

/-!
## What the page should say
-/

def lineMeaning (showDouble : Rat -> Str) : MetricLine -> Line
  | .help metric => .help metric.name metric.help
  | .type metric => .type metric.name "gauge".toList
  | .sample metric labels value =>
      .sample metric.name labels (renderValue showDouble value) none

def pageLines (showDouble : Rat -> Str) (hosts : List HostSnapshot) : List Line :=
  (prometheusMetrics hosts).map (lineMeaning showDouble)

def hostOfLine : Line -> Option Str
  | .sample name [(_, host)] _ _ => if name = Metric.hostHealthScore.name then some host else none
  | _ => none

def eventOfLine : Line -> Option (Str × Str × Str × Str × Str)
  | .sample name [(_, host), (_, type), (_, process), (_, file)] value _ =>
      if name = Metric.diagnoseEvent.name then some (host, type, process, file, value) else none
  | _ => none

structure FaithfulPage (showDouble : Rat -> Str) (hosts : List HostSnapshot) : Prop where
  parses : Exposition.parsePage (render showDouble (prometheusMetrics hosts)) =
    some (pageLines showDouble hosts)
  valid : Exposition.Valid (pageLines showDouble hosts)
  hostnames : (pageLines showDouble hosts).filterMap hostOfLine = hosts.map HostSnapshot.hostname
  events : (pageLines showDouble hosts).filterMap eventOfLine =
    hosts.flatMap (fun h => h.diagnoseEvents.map (fun de =>
      (h.hostname, de.type, de.processName, de.filePath, showDouble de.cpuPercent)))

def PlainLabels (de : DiagnoseRecord) : Prop :=
  Exposition.quoted.Clean de.type ∧ Exposition.quoted.Clean de.processName ∧
    Exposition.quoted.Clean de.filePath

instance (de : DiagnoseRecord) : Decidable (PlainLabels de) :=
  inferInstanceAs (Decidable (_ ∧ _ ∧ _))

structure SingleEvent (h : HostSnapshot) : Prop where
  single : h.diagnoseEvents.length ≤ 1
  hostname : Exposition.quoted.Clean h.hostname
  events : forall de, de ∈ h.diagnoseEvents -> PlainLabels de

/-!
## The page as a list of families
-/

structure Block where
  metric : Metric
  labels : List (Str × Str)
  value : MetricValue

def Block.lines (b : Block) : List MetricLine :=
  gauge b.metric b.labels b.value

def Block.family (showDouble : Rat -> Str) (b : Block) : Family where
  name := b.metric.name
  doc := b.metric.help
  kind := "gauge".toList
  labels := b.labels
  value := renderValue showDouble b.value

def eventBlock (h : HostSnapshot) (de : DiagnoseRecord) : Block where
  metric := .diagnoseEvent
  labels := diagnoseLabel h de
  value := .double de.cpuPercent

def fixedBlocks (h : HostSnapshot) : List Block :=
  [{ metric := .hostHealthScore, labels := hostLabel h, value := .double h.healthScore },
   { metric := .cpuLoad1m, labels := hostLabel h, value := .double h.load1m },
   { metric := .cpuUsedPct, labels := hostLabel h, value := .double h.cpuUsedPct },
   { metric := .memUsedPct, labels := hostLabel h, value := .double h.memUsedPct },
   { metric := .diskIops, labels := hostLabel h, value := .double h.diskIops },
   { metric := .netRxMbps, labels := hostLabel h, value := .double h.netRxMbps },
   { metric := .netTxMbps, labels := hostLabel h, value := .double h.netTxMbps },
   { metric := .observeProcExec, labels := hostLabel h, value := .int64 h.procExecCount },
   { metric := .observeProcExit, labels := hostLabel h, value := .int64 h.procExitCount },
   { metric := .observeTcpFlows, labels := hostLabel h, value := .int64 h.tcpFlowCount },
   { metric := .observeTcpBytesSent, labels := hostLabel h, value := .int64 h.tcpBytesSent },
   { metric := .observeTcpBytesRecv, labels := hostLabel h, value := .int64 h.tcpBytesRecv },
   { metric := .diagnoseEventCount, labels := hostLabel h,
     value := .size h.diagnoseEvents.length }]

def hostBlocks (h : HostSnapshot) : List Block :=
  fixedBlocks h ++ h.diagnoseEvents.map (eventBlock h)

def countBlock (hosts : List HostSnapshot) : Block where
  metric := .hostCount
  labels := []
  value := .size hosts.length

def blocks (hosts : List HostSnapshot) : List Block :=
  countBlock hosts :: hosts.flatMap hostBlocks

theorem hostLines_eq (h : HostSnapshot) : hostLines h = (hostBlocks h).flatMap Block.lines := by
  unfold hostBlocks hostLines
  rw [List.flatMap_append, List.flatMap_map]
  rfl

theorem prometheusMetrics_eq (hosts : List HostSnapshot) :
    prometheusMetrics hosts = (blocks hosts).flatMap Block.lines := by
  have hlines : hostLines = fun h => (hostBlocks h).flatMap Block.lines := funext hostLines_eq
  unfold prometheusMetrics blocks
  rw [List.flatMap_cons, List.flatMap_assoc, hlines]
  rfl

theorem renderLabel_eq (l : Str × Str) : renderLabel l = Family.labelText l := by
  unfold renderLabel Family.labelText
  rw [List.append_assoc, List.append_assoc]
  rfl

theorem intercalate_renderLabel (l : Str × Str) (ls : List (Str × Str)) :
    ",".toList.intercalate ((l :: ls).map renderLabel) =
      separated (Family.labelItem l) (ls.map Family.labelItem) := by
  induction ls generalizing l with
  | nil =>
      show renderLabel l ++ [] = Family.labelText l
      rw [List.append_nil, renderLabel_eq]
  | cons m ls ih =>
      show _ = Family.labelText l ++
        ',' :: separated (Family.labelItem m) (ls.map Family.labelItem)
      rw [← ih m, ← renderLabel_eq]
      rfl

theorem renderLabels_eq (labels : List (Str × Str)) :
    renderLabels labels = Family.labelsText labels := by
  cases labels with
  | nil => rfl
  | cons l ls =>
      show "\x7b".toList ++ ",".toList.intercalate ((l :: ls).map renderLabel) ++
        "\x7d".toList = Family.labelsText (l :: ls)
      rw [intercalate_renderLabel, List.append_assoc]
      rfl

section Families

variable (showDouble : Rat -> Str)

def families (hosts : List HostSnapshot) : List Family :=
  (blocks hosts).map (Block.family showDouble)

theorem renderLine_help (b : Block) :
    renderLine showDouble (.help b.metric) = (b.family showDouble).helpText := by
  show "# HELP ".toList ++ b.metric.name ++ " ".toList ++ b.metric.help ++ ['\n'] =
    "# HELP ".toList ++ (b.metric.name ++ ' ' :: (b.metric.help ++ ['\n']))
  simp only [List.append_assoc]
  rfl

theorem renderLine_type (b : Block) :
    renderLine showDouble (.type b.metric) = (b.family showDouble).typeText := by
  show "# TYPE ".toList ++ b.metric.name ++ " gauge".toList ++ ['\n'] =
    "# TYPE ".toList ++ (b.metric.name ++ ' ' :: ("gauge".toList ++ ['\n']))
  simp only [List.append_assoc]
  rfl

theorem renderLine_sample (b : Block) :
    renderLine showDouble (.sample b.metric b.labels b.value) =
      (b.family showDouble).sampleText := by
  show b.metric.name ++ renderLabels b.labels ++ " ".toList ++ renderValue showDouble b.value ++
      ['\n'] =
    b.metric.name ++
      (Family.labelsText b.labels ++ ' ' :: (renderValue showDouble b.value ++ ['\n']))
  rw [renderLabels_eq]
  simp only [List.append_assoc]
  rfl

theorem render_lines (b : Block) :
    render showDouble b.lines = (b.family showDouble).text := by
  show renderLine showDouble (.help b.metric) ++ (renderLine showDouble (.type b.metric) ++
    (renderLine showDouble (.sample b.metric b.labels b.value) ++ [])) = _
  rw [renderLine_help, renderLine_type, renderLine_sample, List.append_nil]
  rfl

theorem render_prometheusMetrics (hosts : List HostSnapshot) :
    render showDouble (prometheusMetrics hosts) =
      (families showDouble hosts).flatMap Family.text := by
  unfold render families
  rw [prometheusMetrics_eq, List.flatMap_assoc, List.flatMap_map]
  exact congrArg (fun f => (blocks hosts).flatMap f) (funext (render_lines showDouble))

theorem pageLines_eq (hosts : List HostSnapshot) :
    pageLines showDouble hosts = (families showDouble hosts).flatMap Family.lines := by
  unfold pageLines families
  rw [prometheusMetrics_eq, List.map_flatMap, List.flatMap_map]
  rfl

end Families

/-!
## Well-formed families
-/

theorem isIdentifier_metric (metric : Metric) :
    Exposition.isIdentifier Exposition.isNameChar metric.name = true := by
  cases metric <;> rfl

theorem help_metric (metric : Metric) :
    StopsAt Exposition.isBlank metric.help ∧ '\n' ∉ metric.help ∧ '\\' ∉ metric.help := by
  refine ⟨?_, ?_, ?_⟩
  · cases metric <;> exact stopsAt_cons rfl _
  · cases metric <;> decide
  · cases metric <;> decide

theorem mem_blocks {hosts : List HostSnapshot} {b : Block} (hb : b ∈ blocks hosts) :
    b = countBlock hosts ∨ exists h, h ∈ hosts ∧
      (b ∈ fixedBlocks h ∨ exists de, de ∈ h.diagnoseEvents ∧ b = eventBlock h de) := by
  rcases List.mem_cons.mp hb with hb | hb
  · exact Or.inl hb
  · rcases List.mem_flatMap.mp hb with ⟨h, hh, hb⟩
    rcases List.mem_append.mp hb with hb | hb
    · exact Or.inr ⟨h, hh, Or.inl hb⟩
    · rcases List.mem_map.mp hb with ⟨de, hde, heq⟩
      exact Or.inr ⟨h, hh, Or.inr ⟨de, hde, heq.symm⟩⟩

theorem labels_fixedBlocks {h : HostSnapshot} {b : Block} (hb : b ∈ fixedBlocks h) :
    b.labels = hostLabel h := by
  simp only [fixedBlocks, List.mem_cons, List.not_mem_nil, or_false] at hb
  rcases hb with h | h | h | h | h | h | h | h | h | h | h | h | h <;> rw [h]

theorem isIdentifier_label {hosts : List HostSnapshot} {b : Block} (hb : b ∈ blocks hosts)
    {l : Str × Str} (hl : l ∈ b.labels) :
    Exposition.isIdentifier Exposition.isLabelChar l.1 = true := by
  rcases mem_blocks hb with heq | ⟨h, _, hfixed | ⟨de, _, heq⟩⟩
  · rw [heq] at hl
    cases hl
  · rw [labels_fixedBlocks hfixed] at hl
    rw [List.mem_singleton.mp hl]
    rfl
  · rw [heq] at hl
    simp only [eventBlock, diagnoseLabel, List.mem_cons, List.not_mem_nil, or_false] at hl
    rcases hl with hl | hl | hl | hl <;> (rw [hl]; rfl)

theorem isValue_renderValue {showDouble : Rat -> Str}
    (hnum : forall x, isNumeral (showDouble x) = true) (value : MetricValue) :
    Exposition.isValue (renderValue showDouble value) = true := by
  have hnumeral : isNumeral (renderValue showDouble value) = true := by
    cases value with
    | double value => exact hnum value
    | int64 value => exact isNumeral_intToString value
    | size value => exact isNumeral_natToString value
  unfold Exposition.isValue
  rw [hnumeral]
  rfl

theorem wellFormed_families {showDouble : Rat -> Str}
    (hnum : forall x, isNumeral (showDouble x) = true) (hosts : List HostSnapshot) :
    forall f, f ∈ families showDouble hosts -> f.WellFormed := by
  intro f hf
  rcases List.mem_map.mp hf with ⟨b, hb, heq⟩
  rw [← heq]
  constructor
  case name => exact isIdentifier_metric b.metric
  case doc => exact help_metric b.metric
  case kind =>
    show "gauge".toList ∈ Exposition.kinds
    decide
  case labels =>
    intro l hl
    exact isIdentifier_label hb hl
  case value => exact isValue_renderValue hnum b.value

/-!
## Escapes and names
-/

theorem plain_families_iff (showDouble : Rat -> Str) (hosts : List HostSnapshot) :
    (forall f, f ∈ families showDouble hosts -> f.Plain) <->
      forall h, h ∈ hosts -> Exposition.quoted.Clean h.hostname ∧
        forall de, de ∈ h.diagnoseEvents -> PlainLabels de := by
  have hmem : forall h, h ∈ hosts -> forall b, b ∈ hostBlocks h ->
      b.family showDouble ∈ families showDouble hosts := by
    intro h hh b hb
    apply List.mem_map_of_mem
    exact List.mem_cons_of_mem _ (List.mem_flatMap.mpr ⟨h, hh, hb⟩)
  constructor
  · intro hplain h hh
    constructor
    · have hfirst : (fixedBlocks h).head (by simp [fixedBlocks]) ∈ hostBlocks h :=
        List.mem_append_left _ (List.head_mem _)
      exact hplain _ (hmem h hh _ hfirst) ("host".toList, h.hostname) List.mem_cons_self
    · intro de hde
      have hevent : eventBlock h de ∈ hostBlocks h :=
        List.mem_append_right _ (List.mem_map_of_mem hde)
      have hlabels := hplain _ (hmem h hh _ hevent)
      refine ⟨hlabels ("type".toList, de.type) ?_,
        hlabels ("process".toList, de.processName) ?_, hlabels ("file".toList, de.filePath) ?_⟩
      · exact List.mem_cons_of_mem _ List.mem_cons_self
      · exact List.mem_cons_of_mem _ (List.mem_cons_of_mem _ List.mem_cons_self)
      · exact List.mem_cons_of_mem _
          (List.mem_cons_of_mem _ (List.mem_cons_of_mem _ List.mem_cons_self))
  · intro hclean f hf l hl
    rcases List.mem_map.mp hf with ⟨b, hb, heq⟩
    rw [← heq] at hl
    rcases mem_blocks hb with heq | ⟨h, hh, hfixed | ⟨de, hde, heq⟩⟩
    · rw [heq] at hl
      cases hl
    · change l ∈ b.labels at hl
      rw [labels_fixedBlocks hfixed] at hl
      rw [List.mem_singleton.mp hl]
      exact (hclean h hh).left
    · rw [heq] at hl
      rcases hclean h hh with ⟨hname, hevents⟩
      rcases hevents de hde with ⟨htype, hprocess, hfile⟩
      simp only [Block.family, eventBlock, diagnoseLabel, List.mem_cons, List.not_mem_nil,
        or_false] at hl
      rcases hl with hl | hl | hl | hl
      · rw [hl]
        exact hname
      · rw [hl]
        exact htype
      · rw [hl]
        exact hprocess
      · rw [hl]
        exact hfile

def fixedMetrics : List Metric :=
  [.hostHealthScore, .cpuLoad1m, .cpuUsedPct, .memUsedPct, .diskIops, .netRxMbps, .netTxMbps,
   .observeProcExec, .observeProcExit, .observeTcpFlows, .observeTcpBytesSent,
   .observeTcpBytesRecv, .diagnoseEventCount]

theorem mem_metrics (metric : Metric) :
    metric ∈ Metric.hostCount :: (fixedMetrics ++ [Metric.diagnoseEvent]) := by
  cases metric <;> decide

theorem name_injective : Function.Injective Metric.name := by
  intro m n h
  have hnodup : ((Metric.hostCount :: (fixedMetrics ++ [Metric.diagnoseEvent])).map
      Metric.name).Nodup := by
    decide +kernel
  exact List.inj_on_of_nodup_map hnodup (mem_metrics m) (mem_metrics n) h

theorem metrics_hostBlocks (h : HostSnapshot) :
    (hostBlocks h).map Block.metric =
      fixedMetrics ++ List.replicate h.diagnoseEvents.length .diagnoseEvent := by
  unfold hostBlocks
  rw [List.map_append, List.map_map]
  congr 1
  exact List.map_const'

theorem nodup_metrics_iff (hosts : List HostSnapshot) :
    ((blocks hosts).map Block.metric).Nodup <->
      hosts.length ≤ 1 ∧ forall h, h ∈ hosts -> h.diagnoseEvents.length ≤ 1 := by
  have hmetrics : (blocks hosts).map Block.metric =
      .hostCount :: hosts.flatMap (fun h =>
        fixedMetrics ++ List.replicate h.diagnoseEvents.length .diagnoseEvent) := by
    unfold blocks
    rw [List.map_cons, List.map_flatMap]
    exact congrArg (fun f => Metric.hostCount :: hosts.flatMap f) (funext metrics_hostBlocks)
  rw [hmetrics]
  constructor
  · intro hnodup
    rcases List.nodup_flatMap.mp (List.nodup_cons.mp hnodup).right with ⟨heach, hdisjoint⟩
    constructor
    · cases hosts with
      | nil => exact Nat.zero_le 1
      | cons h hosts =>
          cases hosts with
          | nil => exact Nat.le_refl 1
          | cons h' hosts =>
              exfalso
              have hpair := (List.pairwise_cons.mp hdisjoint).left h' List.mem_cons_self
              have hscore : Metric.hostHealthScore ∈ fixedMetrics := List.mem_cons_self
              exact hpair (List.mem_append_left _ hscore) (List.mem_append_left _ hscore)
    · intro h hh
      exact List.nodup_replicate.mp (List.nodup_append.mp (heach h hh)).right.left
  · rintro ⟨hone, hevents⟩
    cases hosts with
    | nil => decide
    | cons h hosts =>
        have hnil : hosts = [] :=
          List.length_eq_zero_iff.mp (Nat.le_zero.mp (Nat.le_of_succ_le_succ hone))
        have hsingle := hevents h List.mem_cons_self
        rw [hnil]
        show (Metric.hostCount :: ((fixedMetrics ++
          List.replicate h.diagnoseEvents.length .diagnoseEvent) ++ [])).Nodup
        cases hlength : h.diagnoseEvents.length with
        | zero => decide
        | succ n =>
            have hn : n = 0 := by omega
            rw [hn]
            decide

theorem nodup_names_iff (showDouble : Rat -> Str) (hosts : List HostSnapshot) :
    ((families showDouble hosts).map Family.name).Nodup <->
      hosts.length ≤ 1 ∧ forall h, h ∈ hosts -> h.diagnoseEvents.length ≤ 1 := by
  have hnames : (families showDouble hosts).map Family.name =
      ((blocks hosts).map Block.metric).map Metric.name := by
    unfold families
    rw [List.map_map, List.map_map]
    rfl
  rw [hnames, List.nodup_map_iff name_injective, nodup_metrics_iff]

/-!
## Hosts and events of the lines
-/

section Decoding

variable (showDouble : Rat -> Str)

theorem hostOfLine_hostBlocks (h : HostSnapshot) :
    ((hostBlocks h).flatMap (fun b => (b.family showDouble).lines)).filterMap hostOfLine =
      [h.hostname] := by
  have hevents : forall events : List DiagnoseRecord,
      ((events.map (eventBlock h)).flatMap (fun b => (b.family showDouble).lines)).filterMap
        hostOfLine = [] := by
    intro events
    induction events with
    | nil => rfl
    | cons de events ih => exact ih
  unfold hostBlocks
  rw [List.flatMap_append, List.filterMap_append, hevents]
  rfl

theorem eventOfLine_hostBlocks (h : HostSnapshot) :
    ((hostBlocks h).flatMap (fun b => (b.family showDouble).lines)).filterMap eventOfLine =
      h.diagnoseEvents.map (fun de =>
        (h.hostname, de.type, de.processName, de.filePath, showDouble de.cpuPercent)) := by
  have hevents : forall events : List DiagnoseRecord,
      ((events.map (eventBlock h)).flatMap (fun b => (b.family showDouble).lines)).filterMap
        eventOfLine = events.map (fun de =>
          (h.hostname, de.type, de.processName, de.filePath, showDouble de.cpuPercent)) := by
    intro events
    induction events with
    | nil => rfl
    | cons de events ih =>
        rw [List.map_cons, List.map_cons, ← ih]
        rfl
  unfold hostBlocks
  rw [List.flatMap_append, List.filterMap_append, hevents]
  rfl

theorem pageLines_cons (hosts : List HostSnapshot) :
    pageLines showDouble hosts =
      ((countBlock hosts).family showDouble).lines ++
        hosts.flatMap (fun h => (hostBlocks h).flatMap (fun b => (b.family showDouble).lines)) := by
  rw [pageLines_eq]
  unfold families blocks
  rw [List.flatMap_map, List.flatMap_cons, List.flatMap_assoc]

theorem hostOfLine_pageLines (hosts : List HostSnapshot) :
    (pageLines showDouble hosts).filterMap hostOfLine = hosts.map HostSnapshot.hostname := by
  rw [pageLines_cons, List.filterMap_append, List.filterMap_flatMap]
  simp only [hostOfLine_hostBlocks]
  exact List.map_eq_flatMap.symm

theorem eventOfLine_pageLines (hosts : List HostSnapshot) :
    (pageLines showDouble hosts).filterMap eventOfLine =
      hosts.flatMap (fun h => h.diagnoseEvents.map (fun de =>
        (h.hostname, de.type, de.processName, de.filePath, showDouble de.cpuPercent))) := by
  rw [pageLines_cons, List.filterMap_append, List.filterMap_flatMap]
  simp only [eventOfLine_hostBlocks]
  rfl

end Decoding

/-- The page is faithful exactly when there is at most one host, with at most one
event, and no string needs an escape. -/
theorem faithfulPage_iff {showDouble : Rat -> Str}
    (hnum : forall x, isNumeral (showDouble x) = true) (hosts : List HostSnapshot) :
    FaithfulPage showDouble hosts <->
      hosts.length ≤ 1 ∧ forall h, h ∈ hosts -> SingleEvent h := by
  have hparses : Exposition.parsePage (render showDouble (prometheusMetrics hosts)) =
      some (pageLines showDouble hosts) <->
        forall h, h ∈ hosts -> Exposition.quoted.Clean h.hostname ∧
          forall de, de ∈ h.diagnoseEvents -> PlainLabels de := by
    rw [render_prometheusMetrics, pageLines_eq,
      Family.parsePage_iff (wellFormed_families hnum hosts), plain_families_iff]
  have hvalid : Exposition.Valid (pageLines showDouble hosts) <->
      hosts.length ≤ 1 ∧ forall h, h ∈ hosts -> h.diagnoseEvents.length ≤ 1 := by
    rw [pageLines_eq, Family.valid_iff_nodup, nodup_names_iff]
  constructor
  · intro hpage
    rcases hvalid.mp hpage.valid with ⟨hone, hsingle⟩
    refine ⟨hone, ?_⟩
    intro h hh
    rcases hparses.mp hpage.parses h hh with ⟨hname, hevents⟩
    exact ⟨hsingle h hh, hname, hevents⟩
  · rintro ⟨hone, hall⟩
    constructor
    case parses => exact hparses.mpr (fun h hh => ⟨(hall h hh).hostname, (hall h hh).events⟩)
    case valid => exact hvalid.mpr ⟨hone, fun h hh => (hall h hh).single⟩
    case hostnames => exact hostOfLine_pageLines showDouble hosts
    case events => exact eventOfLine_pageLines showDouble hosts

end MetricsExporter

/-!
## Runs of the store
-/

/-- In whatever order the hash table is walked, the metrics page is faithful. -/
def ExposesStore (showDouble : Rat -> Str) (mgr : HostManager) : Prop :=
  forall hosts, hosts.Perm mgr.getAll -> MetricsExporter.FaithfulPage showDouble hosts

/-- A report finds no other host in the store, makes for at most one stored event, and
has no string that needs an escape. -/
def LoneReport (mgr : HostManager) : ManagerOp -> Prop
  | .setMonitorInfo _ request =>
      (forall h, h ∈ mgr.hosts.keys -> h = request.hostname) ∧
        (mgr.get request.hostname).diagnoseEvents.length + request.diagnoseEvents.length ≤ 1 ∧
        Exposition.quoted.Clean request.hostname ∧
        forall de, de ∈ request.diagnoseEvents ->
          MetricsExporter.PlainLabels (GrpcServer.toRecord de)
  | _ => True

instance (mgr : HostManager) (op : ManagerOp) : Decidable (LoneReport mgr op) :=
  match op with
  | .setMonitorInfo _ request =>
      inferInstanceAs (Decidable ((forall h, h ∈ mgr.hosts.keys -> h = request.hostname) ∧
        (mgr.get request.hostname).diagnoseEvents.length + request.diagnoseEvents.length ≤ 1 ∧
        Exposition.quoted.Clean request.hostname ∧
        forall de, de ∈ request.diagnoseEvents ->
          MetricsExporter.PlainLabels (GrpcServer.toRecord de)))
  | .removeExpired _ _ => inferInstanceAs (Decidable True)
  | .getMonitorInfo _ => inferInstanceAs (Decidable True)
  | .getAll => inferInstanceAs (Decidable True)

structure LoneStore (mgr : HostManager) : Prop where
  one : forall h h', h ∈ mgr.hosts -> h' ∈ mgr.hosts -> h = h'
  entry : forall h snap, mgr.hosts.lookup h = some snap ->
    snap.hostname = h ∧ MetricsExporter.SingleEvent snap

theorem exposesStore_iff {showDouble : Rat -> Str}
    (hnum : forall x, isNumeral (showDouble x) = true) (mgr : HostManager) :
    ExposesStore showDouble mgr <->
      mgr.getAll.length ≤ 1 ∧
        forall snap, snap ∈ mgr.getAll -> MetricsExporter.SingleEvent snap := by
  constructor
  · intro hpage
    exact (MetricsExporter.faithfulPage_iff hnum mgr.getAll).mp
      (hpage mgr.getAll (List.Perm.refl _))
  · rintro ⟨hone, hall⟩ hosts hperm
    apply (MetricsExporter.faithfulPage_iff hnum hosts).mpr
    rw [hperm.length_eq]
    refine ⟨hone, ?_⟩
    intro h hh
    exact hall h (hperm.mem_iff.mp hh)

theorem exposesStore_of_loneStore {showDouble : Rat -> Str}
    (hnum : forall x, isNumeral (showDouble x) = true) {mgr : HostManager}
    (hlone : LoneStore mgr) : ExposesStore showDouble mgr := by
  apply (exposesStore_iff hnum mgr).mpr
  refine ⟨Table.length_values_le_one_iff.mpr hlone.one, ?_⟩
  intro snap hsnap
  rcases Table.mem_values.mp hsnap with ⟨h, hlookup⟩
  exact (hlone.entry h snap hlookup).right

theorem mem_hosts_iff {mgr : HostManager} {h : Str} :
    h ∈ mgr.hosts <-> (mgr.hosts.lookup h).isSome = true :=
  AList.lookup_isSome.symm

theorem mem_step_hosts {mgr : HostManager} {now : Int} {request : MonitorInfo} {h : Str} :
    h ∈ (ManagerOp.step mgr (.setMonitorInfo now request)).hosts <->
      h = request.hostname ∨ h ∈ mgr.hosts :=
  AList.mem_insert _

theorem entry_of_loneReport {mgr : HostManager} {now : Int} {request : MonitorInfo}
    (hfew : (mgr.get request.hostname).diagnoseEvents.length +
      request.diagnoseEvents.length ≤ 1) {snap : HostSnapshot}
    (hlookup : (ManagerOp.step mgr (.setMonitorInfo now request)).hosts.lookup
      request.hostname = some snap) :
    snap.hostname = request.hostname ∧
      snap.diagnoseEvents = (mgr.get request.hostname).diagnoseEvents ++
        request.diagnoseEvents.map GrpcServer.toRecord := by
  have hentry := HostManager.lookup_update_self mgr request.hostname
    (GrpcServer.snapshot now request)
  have hsnap := Option.some.inj (hlookup.symm.trans hentry)
  rw [hsnap]
  refine ⟨rfl, ?_⟩
  dsimp only
  rw [diagnoseEvents_snapshot]
  apply rtake_of_length_le
  rw [List.length_append, List.length_map]
  omega

theorem loneStore_setMonitorInfo {mgr : HostManager} (hlone : LoneStore mgr) (now : Int)
    {request : MonitorInfo} (hreport : LoneReport mgr (.setMonitorInfo now request)) :
    LoneStore (ManagerOp.step mgr (.setMonitorInfo now request)) := by
  rcases hreport with ⟨hkeys, hfew, hname, hevents⟩
  have hall : forall h, h ∈ (ManagerOp.step mgr (.setMonitorInfo now request)).hosts ->
      h = request.hostname := by
    intro h hh
    rcases mem_step_hosts.mp hh with heq | hold
    · exact heq
    · exact hkeys h hold
  constructor
  case one =>
    intro h h' hh hh'
    rw [hall h hh, hall h' hh']
  case entry =>
    intro h snap hlookup
    have hh : h = request.hostname := by
      apply hall
      apply mem_hosts_iff.mpr
      rw [hlookup]
      rfl
    rw [hh] at hlookup ⊢
    rcases entry_of_loneReport hfew hlookup with ⟨hhost, hmerged⟩
    refine ⟨hhost, ?_⟩
    constructor
    case single =>
      rw [hmerged, List.length_append, List.length_map]
      exact hfew
    case hostname =>
      rw [hhost]
      exact hname
    case events =>
      intro de hde
      rw [hmerged] at hde
      rcases List.mem_append.mp hde with hold | hnew
      · unfold HostManager.get at hold
        cases hentry : mgr.hosts.lookup request.hostname with
        | none =>
            rw [hentry] at hold
            cases hold
        | some entry =>
            rw [hentry] at hold
            exact (hlone.entry _ _ hentry).right.events de hold
      · rcases List.mem_map.mp hnew with ⟨event, hevent, heq⟩
        rw [← heq]
        exact hevents event hevent

theorem loneStore_step (mgr : HostManager) (op : ManagerOp) (hlone : LoneStore mgr)
    (hop : LoneReport mgr op) : LoneStore (ManagerOp.step mgr op) := by
  cases op with
  | setMonitorInfo now request => exact loneStore_setMonitorInfo hlone now hop
  | removeExpired now maxAgeS =>
      have hkept : forall h snap,
          (ManagerOp.step mgr (.removeExpired now maxAgeS)).hosts.lookup h = some snap ->
            mgr.hosts.lookup h = some snap := by
        intro h snap hlookup
        have hfilter := HostManager.lookup_removeExpired mgr now maxAgeS h
        exact (Option.filter_eq_some_iff.mp (hfilter.symm.trans hlookup)).left
      have hpresent : forall h,
          h ∈ (ManagerOp.step mgr (.removeExpired now maxAgeS)).hosts -> h ∈ mgr.hosts := by
        intro h hh
        rcases Option.isSome_iff_exists.mp (mem_hosts_iff.mp hh) with ⟨snap, hsnap⟩
        apply mem_hosts_iff.mpr
        rw [hkept h snap hsnap]
        rfl
      constructor
      case one =>
        intro h h' hh hh'
        exact hlone.one h h' (hpresent h hh) (hpresent h' hh')
      case entry =>
        intro h snap hlookup
        exact hlone.entry h snap (hkept h snap hlookup)
  | getMonitorInfo request => exact hlone
  | getAll => exact hlone

/-- A page that is faithful after a report was written from this report alone. -/
theorem loneReport_of_exposes {showDouble : Rat -> Str}
    (hnum : forall x, isNumeral (showDouble x) = true) (mgr : HostManager) (op : ManagerOp)
    (hpage : ExposesStore showDouble (ManagerOp.step mgr op)) : LoneReport mgr op := by
  cases op with
  | setMonitorInfo now request =>
      rcases (exposesStore_iff hnum _).mp hpage with ⟨hone, hall⟩
      have hsame := Table.length_values_le_one_iff.mp hone
      have hentry := HostManager.lookup_update_self mgr request.hostname
        (GrpcServer.snapshot now request)
      have hsingle := hall _ (Table.mem_values.mpr ⟨_, hentry⟩)
      have hfew : (mgr.get request.hostname).diagnoseEvents.length +
          request.diagnoseEvents.length ≤ 1 := by
        have hlength := hsingle.single
        rw [diagnoseEvents_snapshot] at hlength
        simp only [List.rtake, List.length_drop, List.length_append, List.length_map] at hlength
        omega
      refine ⟨?_, hfew, hsingle.hostname, ?_⟩
      · intro h hh
        exact hsame h request.hostname (mem_step_hosts.mpr (Or.inr hh))
          (mem_step_hosts.mpr (Or.inl rfl))
      · intro de hde
        apply hsingle.events
        rw [(entry_of_loneReport hfew hentry).right]
        exact List.mem_append_right _ (List.mem_map_of_mem hde)
  | removeExpired now maxAgeS => trivial
  | getMonitorInfo request => trivial
  | getAll => trivial

/-- The metrics page is a valid page that says what is stored in every state of a run
exactly when every report of the run finds itself alone in the store. -/
theorem exposesStore_iff_loneReports (showDouble : Rat -> Str)
    (hnum : forall x, isNumeral (showDouble x) = true) (ops : List ManagerOp) :
    Throughout ManagerOp.step (ExposesStore showDouble) HostManager.empty ops <->
      EachStep ManagerOp.step LoneReport HostManager.empty ops := by
  apply throughout_iff_eachStep loneStore_step
  · intro mgr op _ hpage
    exact loneReport_of_exposes hnum mgr op hpage
  · intro mgr hlone
    exact exposesStore_of_loneStore hnum hlone
  · constructor
    case one =>
      intro h h' hh
      cases hh
    case entry =>
      intro h snap hlookup
      cases hlookup

def plainReport (hostname : Str) : ManagerOp :=
  .setMonitorInfo 100 { hostname := hostname }

def recordedReport (hostname : Str) : ManagerOp :=
  .setMonitorInfo 100
    { hostname := hostname
      diagnoseEvents :=
        [{ type := "offcpu".toList, processName := "nginx".toList,
           filePath := "/tmp/offcpu_nginx_5.data".toList }] }

theorem loneHost_exposed :
    Throughout ManagerOp.step (ExposesStore MetricsExporter.showWhole) HostManager.empty
      [recordedReport "web-1".toList, plainReport "web-1".toList] :=
  (exposesStore_iff_loneReports MetricsExporter.showWhole
    (fun x => isNumeral_intToString x.num) _).mpr (by decide)

/-- With two hosts every metric has two `HELP` lines, in two groups. -/
theorem twoHosts_not_exposed :
    ¬ Throughout ManagerOp.step (ExposesStore MetricsExporter.showWhole) HostManager.empty
      [plainReport "web-1".toList, plainReport "web-2".toList] := by
  intro hall
  have hlone := loneReport_of_exposes (fun x => isNumeral_intToString x.num)
    (ManagerOp.step HostManager.empty (plainReport "web-1".toList))
    (plainReport "web-2".toList) (throughout_final hall)
  exact absurd hlone (by decide)

end Manager
end PerfMonitor
