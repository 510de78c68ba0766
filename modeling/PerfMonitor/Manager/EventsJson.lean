import PerfMonitor.Foundation.Json
import PerfMonitor.Manager.HttpServer

/-!
# Events as JSON

The text of `api_events` against what it is meant to say: an array with one object
per stored event, in the order of `GetAll`.  The strings of an event are put between
quotes as they are, so the text says this exactly when none of them has a quote, a
backslash or a control character.  Numbers are opaque numerals: the printed form of
a `double` is a parameter that is assumed to be one.
-/

namespace PerfMonitor
namespace Manager

open Foundation
open Proto

namespace MetricsExporter

def lastComponent (path : Str) : Str :=
  path.rtakeWhile (fun c => decide (c ≠ '/'))

def eventValue (showDouble : Rat -> Str) (h : HostSnapshot) (de : DiagnoseRecord) : JsonValue :=
  .object
    [("host".toList, .string h.hostname),
     ("type".toList, .string de.type),
     ("process".toList, .string de.processName),
     ("file".toList, .string (lastComponent de.filePath)),
     ("timestamp".toList, .number (toString de.timestamp).toList),
     ("cpu_percent".toList, .number (showDouble de.cpuPercent))]

def eventsValue (showDouble : Rat -> Str) (hosts : List HostSnapshot) : JsonValue :=
  .array (hosts.flatMap (fun h => h.diagnoseEvents.map (eventValue showDouble h)))

def PlainEvent (hostname : Str) (de : DiagnoseRecord) : Prop :=
  Json.quoted.Clean hostname ∧ Json.quoted.Clean de.type ∧ Json.quoted.Clean de.processName ∧
    Json.quoted.Clean (lastComponent de.filePath)

instance (hostname : Str) (de : DiagnoseRecord) : Decidable (PlainEvent hostname de) :=
  inferInstanceAs (Decidable (_ ∧ _ ∧ _ ∧ _))

theorem basename_eq_lastComponent (path : Str) : basename path = lastComponent path := by
  unfold basename lastComponent
  rcases rfind_cases '/' path with ⟨hnone, hfind⟩ | ⟨dir, file, heq, hfile, hfind⟩
  · rw [hfind]
    symm
    apply List.rtakeWhile_eq_self_iff.mpr
    intro c hc
    exact decide_eq_true (fun hslash => hnone (hslash ▸ hc))
  · have hall : forall c, c ∈ file.reverse -> decide (c ≠ '/') = true := by
      intro c hc
      exact decide_eq_true (fun hslash => hfile (hslash ▸ List.mem_reverse.mp hc))
    have hstop : StopsAt (fun c => decide (c ≠ '/')) (['/'] ++ dir.reverse) :=
      stopsAt_cons (decide_eq_false (fun hne => hne rfl)) dir.reverse
    rw [hfind]
    dsimp only
    rw [heq, ← List.drop_drop, List.drop_left]
    unfold List.rtakeWhile
    rw [List.reverse_append, List.reverse_cons, List.append_assoc,
      takeWhile_span hall hstop, List.reverse_reverse]
    rfl

/-!
## One event
-/

section Events

variable (showDouble : Rat -> Str)

def hostMember (h : HostSnapshot) : Item (Str × JsonValue) :=
  Json.member "host".toList (Json.ofString h.hostname)

def eventMembers (de : DiagnoseRecord) : List (Item (Str × JsonValue)) :=
  [Json.member "type".toList (Json.ofString de.type),
   Json.member "process".toList (Json.ofString de.processName),
   Json.member "file".toList (Json.ofString (basename de.filePath)),
   Json.member "timestamp".toList (Json.ofNumeral (toString de.timestamp).toList),
   Json.member "cpu_percent".toList (Json.ofNumeral (showDouble de.cpuPercent))]

theorem eventText_eq (h : HostSnapshot) (de : DiagnoseRecord) :
    eventText showDouble h de =
      "  ".toList ++ Json.objectText (hostMember h) (eventMembers showDouble de) := by
  unfold eventText eventMembers Json.objectText
  simp only [hostMember, separated, Json.member, Json.ofString, Json.ofNumeral,
    List.append_assoc, List.cons_append, List.nil_append]
  rfl

theorem eventMembers_value (h : HostSnapshot) (de : DiagnoseRecord) :
    .object ((hostMember h :: eventMembers showDouble de).map Item.value) =
      eventValue showDouble h de := by
  unfold eventValue
  rw [← basename_eq_lastComponent]
  rfl

theorem eventMembers_ok_iff (h : HostSnapshot) (de : DiagnoseRecord) :
    (forall m, m ∈ hostMember h :: eventMembers showDouble de -> m.ok) <->
      PlainEvent h.hostname de := by
  unfold PlainEvent
  rw [← basename_eq_lastComponent]
  simp only [hostMember, eventMembers, List.forall_mem_cons, Json.member, Json.ofString,
    Json.ofNumeral, List.not_mem_nil, false_implies, implies_true, and_true]

variable {showDouble} (hnum : forall x, isNumeral (showDouble x) = true)

include hnum

theorem eventMembers_readBy (h : HostSnapshot) (de : DiagnoseRecord) :
    forall m, m ∈ hostMember h :: eventMembers showDouble de ->
      m.ReadBy Json.parseMembers ['\x7d'] := by
  simp only [hostMember, eventMembers, List.forall_mem_cons, List.not_mem_nil, false_implies,
    implies_true, and_true]
  refine ⟨Json.readBy_member ?_ (Json.faithful_ofString _),
    Json.readBy_member ?_ (Json.faithful_ofString _),
    Json.readBy_member ?_ (Json.faithful_ofString _),
    Json.readBy_member ?_ (Json.faithful_ofString _),
    Json.readBy_member ?_ (Json.faithful_ofNumeral (isNumeral_intToString _)),
    Json.readBy_member ?_ (Json.faithful_ofNumeral (hnum _))⟩
  all_goals decide

theorem spells_event (h : HostSnapshot) (de : DiagnoseRecord) :
    Json.Spells ('\n' :: eventText showDouble h de) (eventValue showDouble h de)
      (PlainEvent h.hostname de) := by
  have hobject := Json.spells_object (eventMembers_readBy hnum h de)
  rw [eventMembers_value, eventMembers_ok_iff] at hobject
  have hgap : forall c, c ∈ "\n  ".toList -> Json.isBlank c = true := List.all_eq_true.mp rfl
  rw [eventText_eq]
  exact hobject.blanks hgap

end Events

/-!
## The whole text
-/

section Page

variable (showDouble : Rat -> Str)

def eventPiece (h : HostSnapshot) (de : DiagnoseRecord) : Item JsonValue where
  text := '\n' :: eventText showDouble h de
  value := eventValue showDouble h de
  ok := PlainEvent h.hostname de

def eventPieces (hosts : List HostSnapshot) : List (Item JsonValue) :=
  hosts.flatMap (fun h => h.diagnoseEvents.map (eventPiece showDouble h))

/-- Comma and line break before each element but the first are, read from the other
side, a line break in each element and a comma between any two. -/
theorem joinEvents_eq (p : Item JsonValue) (ps : List (Item JsonValue)) (texts : List Str)
    (htexts : (p :: ps).map Item.text = texts.map (fun t => '\n' :: t)) :
    '\n' :: joinEvents true texts = separated p ps := by
  induction ps generalizing p texts with
  | nil =>
      cases texts with
      | nil => cases htexts
      | cons t texts =>
          injection htexts with hhead htail
          have hnil : texts = [] := List.map_eq_nil_iff.mp htail.symm
          rw [hnil]
          show '\n' :: ([] ++ t ++ []) = p.text
          rw [List.append_nil, hhead]
          rfl
  | cons q ps ih =>
      cases texts with
      | nil => cases htexts
      | cons t texts =>
          injection htexts with hhead htail
          cases texts with
          | nil => cases htail
          | cons t' texts =>
              have hlater := ih q (t' :: texts) htail
              show '\n' :: ([] ++ t ++ (",\n".toList ++ t' ++ joinEvents false texts)) =
                p.text ++ ',' :: separated q ps
              rw [← hlater, hhead, List.nil_append, List.append_assoc]
              rfl

theorem eventPieces_text (hosts : List HostSnapshot) :
    (eventPieces showDouble hosts).map Item.text =
      (hosts.flatMap (fun h => h.diagnoseEvents.map (fun de => eventText showDouble h de))).map
        (fun t => '\n' :: t) := by
  unfold eventPieces
  rw [List.map_flatMap, List.map_flatMap]
  simp only [List.map_map]
  rfl

theorem eventPieces_value (hosts : List HostSnapshot) :
    .array ((eventPieces showDouble hosts).map Item.value) =
      eventsValue showDouble hosts := by
  unfold eventPieces eventsValue
  rw [List.map_flatMap]
  simp only [List.map_map]
  rfl

theorem eventPieces_ok_iff (hosts : List HostSnapshot) :
    (forall p, p ∈ eventPieces showDouble hosts -> p.ok) <->
      forall h, h ∈ hosts -> forall de, de ∈ h.diagnoseEvents -> PlainEvent h.hostname de := by
  unfold eventPieces
  constructor
  · intro hok h hh de hde
    exact hok (eventPiece showDouble h de)
      (List.mem_flatMap.mpr ⟨h, hh, List.mem_map.mpr ⟨de, hde, rfl⟩⟩)
  · intro hplain p hp
    rcases List.mem_flatMap.mp hp with ⟨h, hh, hp⟩
    rcases List.mem_map.mp hp with ⟨de, hde, heq⟩
    rw [← heq]
    exact hplain h hh de hde

theorem apiEvents_eq (hosts : List HostSnapshot) :
    exists gap, (forall c, c ∈ gap -> Json.isBlank c = true) ∧
      apiEvents showDouble hosts = Json.arrayText gap (eventPieces showDouble hosts) := by
  have htexts := eventPieces_text showDouble hosts
  unfold apiEvents
  cases hpieces : eventPieces showDouble hosts with
  | nil =>
      rw [hpieces] at htexts
      rw [List.map_eq_nil_iff.mp htexts.symm]
      exact ⟨"\n\n".toList, List.all_eq_true.mp rfl, rfl⟩
  | cons p ps =>
      rw [hpieces] at htexts
      have hjoin := joinEvents_eq p ps _ htexts
      refine ⟨"\n".toList, List.all_eq_true.mp rfl, ?_⟩
      show _ = '[' :: (separated p ps ++ ("\n".toList ++ [']']))
      rw [← hjoin]
      rfl

variable {showDouble} (hnum : forall x, isNumeral (showDouble x) = true)

include hnum

/-- The text reads back as the stored events exactly when all their strings are
plain. -/
theorem parseJson_apiEvents_iff (hosts : List HostSnapshot) :
    Json.parseJson (apiEvents showDouble hosts) = some (eventsValue showDouble hosts) <->
      forall h, h ∈ hosts -> forall de, de ∈ h.diagnoseEvents -> PlainEvent h.hostname de := by
  have hfaithful : forall p, p ∈ eventPieces showDouble hosts -> Json.Faithful p := by
    intro p hp
    rcases List.mem_flatMap.mp hp with ⟨h, _, hp⟩
    rcases List.mem_map.mp hp with ⟨de, _, heq⟩
    rw [← heq]
    exact spells_event hnum h de
  rcases apiEvents_eq showDouble hosts with ⟨gap, hgap, htext⟩
  have hspells := Json.spells_array hgap hfaithful
  rw [← htext, eventPieces_value, eventPieces_ok_iff] at hspells
  exact hspells.parseJson_iff

end Page

end MetricsExporter

/-!
## Runs of the store
-/

/-- In whatever order the hash table is walked, the text of `api_events` reads back
as the stored events. -/
def EncodesEvents (showDouble : Rat -> Str) (mgr : HostManager) : Prop :=
  forall hosts, hosts.Perm mgr.getAll ->
    Json.parseJson (MetricsExporter.apiEvents showDouble hosts) =
      some (MetricsExporter.eventsValue showDouble hosts)

/-- The strings of the events that a report leaves in the store are plain: those of
its last twenty events. -/
def PlainReport : ManagerOp -> Prop
  | .setMonitorInfo _ request =>
      forall de, de ∈ request.diagnoseEvents.rtake 20 ->
        MetricsExporter.PlainEvent request.hostname (GrpcServer.toRecord de)
  | _ => True

instance (op : ManagerOp) : Decidable (PlainReport op) :=
  match op with
  | .setMonitorInfo _ request =>
      inferInstanceAs (Decidable (forall de, de ∈ request.diagnoseEvents.rtake 20 ->
        MetricsExporter.PlainEvent request.hostname (GrpcServer.toRecord de)))
  | .removeExpired _ _ => inferInstanceAs (Decidable True)
  | .getMonitorInfo _ => inferInstanceAs (Decidable True)
  | .getAll => inferInstanceAs (Decidable True)

def PlainStore (mgr : HostManager) : Prop :=
  forall h snap, mgr.hosts.lookup h = some snap ->
    snap.hostname = h ∧ forall de, de ∈ snap.diagnoseEvents -> MetricsExporter.PlainEvent h de

theorem encodesEvents_iff {showDouble : Rat -> Str}
    (hnum : forall x, isNumeral (showDouble x) = true) (mgr : HostManager) :
    EncodesEvents showDouble mgr <->
      forall snap, snap ∈ mgr.getAll -> forall de, de ∈ snap.diagnoseEvents ->
        MetricsExporter.PlainEvent snap.hostname de := by
  constructor
  · intro hencodes
    exact (MetricsExporter.parseJson_apiEvents_iff hnum mgr.getAll).mp
      (hencodes mgr.getAll (List.Perm.refl _))
  · intro hplain hosts hperm
    apply (MetricsExporter.parseJson_apiEvents_iff hnum hosts).mpr
    intro h hh
    exact hplain h (hperm.mem_iff.mp hh)

theorem plainStore_step (mgr : HostManager) (op : ManagerOp) (hplain : PlainStore mgr)
    (hop : PlainReport op) : PlainStore (ManagerOp.step mgr op) := by
  intro h snap hlookup
  cases hconcerns : ManagerOp.concerns h op with
  | false =>
      rw [lookup_step_of_not_concerns h mgr op hconcerns] at hlookup
      exact hplain h snap hlookup
  | true =>
      rw [lookup_step_of_concerns h mgr op hconcerns] at hlookup
      cases op with
      | setMonitorInfo now request =>
          have hname : request.hostname = h := of_decide_eq_true hconcerns
          injection hlookup with hsnap
          rw [← hsnap]
          refine ⟨rfl, ?_⟩
          intro de hde
          dsimp only at hde
          rw [diagnoseEvents_snapshot, rtake_append, rtake_map] at hde
          rcases List.mem_append.mp hde with hold | hnew
          · cases hentry : mgr.hosts.lookup h with
            | none =>
                rw [hentry] at hold
                cases List.mem_of_mem_drop hold
            | some entry =>
                rw [hentry] at hold
                exact (hplain h entry hentry).right de (List.mem_of_mem_drop hold)
          · rcases List.mem_map.mp hnew with ⟨event, hevent, heq⟩
            rw [← heq, ← hname]
            exact hop event hevent
      | removeExpired now maxAgeS =>
          exact hplain h snap (Option.filter_eq_some_iff.mp hlookup).left
      | getMonitorInfo request => cases hconcerns
      | getAll => cases hconcerns

theorem plainReport_of_encodes {showDouble : Rat -> Str}
    (hnum : forall x, isNumeral (showDouble x) = true) (mgr : HostManager) (op : ManagerOp)
    (hencodes : EncodesEvents showDouble (ManagerOp.step mgr op)) : PlainReport op := by
  cases op with
  | setMonitorInfo now request =>
      intro de hde
      have hentry := HostManager.lookup_update_self mgr request.hostname
        (GrpcServer.snapshot now request)
      apply (encodesEvents_iff hnum _).mp hencodes _ (Table.mem_values.mpr ⟨_, hentry⟩)
      dsimp only
      rw [diagnoseEvents_snapshot, rtake_append, rtake_map]
      exact List.mem_append_right _ (List.mem_map.mpr ⟨de, hde, rfl⟩)
  | removeExpired now maxAgeS => trivial
  | getMonitorInfo request => trivial
  | getAll => trivial

/-- The events are read back in every state of a run exactly when every report of the
run has only plain strings in its last twenty events. -/
theorem encodesEvents_iff_plainReports (showDouble : Rat -> Str)
    (hnum : forall x, isNumeral (showDouble x) = true) (ops : List ManagerOp) :
    Throughout ManagerOp.step (EncodesEvents showDouble) HostManager.empty ops <->
      forall op, op ∈ ops -> PlainReport op := by
  rw [← eachStep_iff_forall_mem ManagerOp.step HostManager.empty]
  apply throughout_iff_eachStep plainStore_step
  · intro mgr op _ hencodes
    exact plainReport_of_encodes hnum mgr op hencodes
  · intro mgr hplain
    apply (encodesEvents_iff hnum mgr).mpr
    intro snap hsnap
    rcases Table.mem_values.mp hsnap with ⟨h, hlookup⟩
    rcases hplain h snap hlookup with ⟨hname, hevents⟩
    rw [hname]
    exact hevents
  · intro h snap hlookup
    cases hlookup

def perfReport (processName : Str) : ManagerOp :=
  .setMonitorInfo 100
    { hostname := "web-1".toList
      diagnoseEvents :=
        [{ type := "perf".toList
           processName := processName
           filePath := "/tmp/monitor_system/diagnose/perf_7.data".toList
           timestamp := 100 }] }

theorem nginxReport_encoded :
    Throughout ManagerOp.step (EncodesEvents MetricsExporter.showWhole) HostManager.empty
      [perfReport "nginx".toList] :=
  (encodesEvents_iff_plainReports MetricsExporter.showWhole
    (fun x => isNumeral_intToString x.num) _).mpr (by decide)

/-- A process name with a quote in it ends the string of the name early. -/
theorem quotedName_not_encoded :
    ¬ Throughout ManagerOp.step (EncodesEvents MetricsExporter.showWhole) HostManager.empty
      [perfReport "a\"b".toList] := by
  intro hall
  have hplain := plainReport_of_encodes (fun x => isNumeral_intToString x.num) HostManager.empty
    (perfReport "a\"b".toList) (throughout_final hall)
  exact absurd hplain (by decide)

end Manager
end PerfMonitor
