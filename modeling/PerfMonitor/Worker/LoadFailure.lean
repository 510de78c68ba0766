import PerfMonitor.Worker.ConfigManager

/-!
# Files that cannot be loaded

`Load` catches the exceptions of the parser and reports them by its result.  Nothing
catches those of the conversions that follow, and by then the entries are cleared and
some settings may be assigned.  A load fails cleanly exactly when the file is not JSON
at all or every member that `Load` reads has the type it is converted to.
-/

namespace PerfMonitor
namespace Worker

open Foundation

inductive SettingKind where
  | text
  | integer
deriving DecidableEq, Repr

def SettingKind.Fits : SettingKind -> JsonValue -> Prop
  | text, value => exists text, value = .string text
  | integer, value => (exists numeral, value = .number numeral) ∨ exists b, value = .bool b

namespace ConfigManager

def offcpuKinds : List (Str × SettingKind) :=
  [("process_name".toList, .text), ("thread_name".toList, .text),
    ("min_block_us".toList, .integer), ("max_block_us".toList, .integer),
    ("interval_s".toList, .integer), ("limit_file_size_mb".toList, .integer),
    ("limit_file_num".toList, .integer)]

def profileKinds : List (Str × SettingKind) :=
  [("process_name".toList, .text), ("thread_name".toList, .text), ("max_nr".toList, .integer),
    ("max_size_kb".toList, .integer), ("cpus".toList, .text),
    ("cpu_threshold_pct".toList, .integer)]

def perfKinds : List (Str × SettingKind) :=
  [("cpu_threshold_pct".toList, .integer), ("overflow_duration_s".toList, .integer)]

def pathKinds : List (Str × SettingKind) :=
  [("offcpu_bin".toList, .text), ("profile_bin".toList, .text), ("perf_bin".toList, .text),
    ("output_dir".toList, .text)]

def HasKinds (value : JsonValue) (kinds : List (Str × SettingKind)) : Prop :=
  forall kind, kind ∈ kinds -> forall v, find value kind.1 = some v -> kind.2.Fits v

/-- Every member of the document that `Load` converts has the type that it is converted
to. -/
structure WellTyped (raw : JsonValue) : Prop where
  offcpu : forall item, item ∈ items raw "offcpu".toList -> HasKinds item offcpuKinds
  profile : forall item, item ∈ items raw "profile".toList -> HasKinds item profileKinds
  perf : forall p, find raw "perf".toList = some p -> HasKinds p perfKinds ∧
    (forall tp, tp ∈ items p "target_processes".toList -> SettingKind.text.Fits tp) ∧
    forall tt, tt ∈ items p "target_threads".toList -> SettingKind.text.Fits tt
  paths : forall pt, find raw "paths".toList = some pt -> HasKinds pt pathKinds

/-- `Load` returns, and unless it returns true every setting is as before. -/
def LoadsCleanly (lib : JsonLibrary) (s : ConfigManager) (file : Option Str) : Prop :=
  (load lib s file).1 ≠ .threw ∧
    ((load lib s file).1 ≠ .returned true -> (load lib s file).2.toSettings = s.toSettings)

/-!
## Conversions
-/

theorem toText_isSome_iff (value : JsonValue) :
    (toText value).isSome = true <-> SettingKind.text.Fits value := by
  cases value with
  | string text => exact ⟨fun _ => ⟨text, rfl⟩, fun _ => rfl⟩
  | _ =>
      constructor
      · intro h
        cases h
      · rintro ⟨text, htext⟩
        cases htext

section

variable (lib : JsonLibrary)

theorem toInt_isSome_iff (value : JsonValue) :
    (toInt lib value).isSome = true <-> SettingKind.integer.Fits value := by
  cases value with
  | number numeral => exact ⟨fun _ => Or.inl ⟨numeral, rfl⟩, fun _ => rfl⟩
  | bool b => exact ⟨fun _ => Or.inr ⟨b, rfl⟩, fun _ => rfl⟩
  | _ =>
      constructor
      · intro h
        cases h
      · rintro (⟨numeral, hnumeral⟩ | ⟨b, hb⟩)
        · cases hnumeral
        · cases hb

theorem offcpuEntry_isSome_iff (item : JsonValue) :
    (offcpuEntry lib item).isSome = true <-> HasKinds item offcpuKinds := by
  have hperform : (offcpuEntry lib item).isSome = (perform (offcpuFields lib item) {}).1 := by
    unfold offcpuEntry
    split
    next e h => rw [h]; rfl
    next e h => rw [h]; rfl
  rw [hperform, perform_true_iff]
  unfold HasKinds offcpuKinds offcpuFields
  simp only [List.forall_mem_append, assign_isSome_iff, toText_isSome_iff, toInt_isSome_iff,
    List.forall_mem_cons, List.not_mem_nil, false_implies, implies_true, and_true, and_assoc]

theorem profileEntry_isSome_iff (item : JsonValue) :
    (profileEntry lib item).isSome = true <-> HasKinds item profileKinds := by
  have hperform : (profileEntry lib item).isSome = (perform (profileFields lib item) {}).1 := by
    unfold profileEntry
    split
    next e h => rw [h]; rfl
    next e h => rw [h]; rfl
  rw [hperform, perform_true_iff]
  unfold HasKinds profileKinds profileFields
  simp only [List.forall_mem_append, assign_isSome_iff, toText_isSome_iff, toInt_isSome_iff,
    List.forall_mem_cons, List.not_mem_nil, false_implies, implies_true, and_true, and_assoc]

/-!
## Sections
-/

theorem inSection_isSome_iff {raw : JsonValue} {name : Str}
    {body : JsonValue -> List (Option (Settings -> Settings))} :
    (forall x, x ∈ inSection raw name body -> x.isSome = true) <->
      forall value, find raw name = some value ->
        forall x, x ∈ body value -> x.isSome = true := by
  unfold inSection
  cases find raw name with
  | none =>
      constructor
      · intro _ value hvalue
        cases hvalue
      · intro _ x hx
        cases hx
  | some value =>
      constructor
      · intro h value' hvalue'
        injection hvalue' with hvalue'
        rw [← hvalue']
        exact h
      · intro h
        exact h value rfl

theorem loadOffcpu_isSome_iff (raw : JsonValue) :
    (forall x, x ∈ loadOffcpu lib raw -> x.isSome = true) <->
      forall item, item ∈ items raw "offcpu".toList -> HasKinds item offcpuKinds := by
  unfold loadOffcpu
  rw [List.forall_mem_cons, push_isSome_iff]
  simp only [offcpuEntry_isSome_iff, Option.isSome_some, true_and]

theorem loadProfile_isSome_iff (raw : JsonValue) :
    (forall x, x ∈ loadProfile lib raw -> x.isSome = true) <->
      forall item, item ∈ items raw "profile".toList -> HasKinds item profileKinds := by
  unfold loadProfile
  rw [List.forall_mem_cons, push_isSome_iff]
  simp only [profileEntry_isSome_iff, Option.isSome_some, true_and]

theorem loadPerf_isSome_iff (p : JsonValue) :
    (forall x, x ∈ loadPerf lib p -> x.isSome = true) <->
      HasKinds p perfKinds ∧
        (forall tp, tp ∈ items p "target_processes".toList -> SettingKind.text.Fits tp) ∧
        forall tt, tt ∈ items p "target_threads".toList -> SettingKind.text.Fits tt := by
  unfold loadPerf HasKinds perfKinds
  simp only [List.forall_mem_append, assign_isSome_iff, push_isSome_iff, toText_isSome_iff,
    toInt_isSome_iff, List.forall_mem_cons, List.not_mem_nil, false_implies, implies_true,
    and_true, and_assoc]

theorem loadPaths_isSome_iff (pt : JsonValue) :
    (forall x, x ∈ loadPaths pt -> x.isSome = true) <-> HasKinds pt pathKinds := by
  unfold loadPaths HasKinds pathKinds
  simp only [List.forall_mem_append, assign_isSome_iff, toText_isSome_iff, List.forall_mem_cons,
    List.not_mem_nil, false_implies, implies_true, and_true, and_assoc]

theorem perform_statements_iff (raw : JsonValue) (s : Settings) :
    (perform (statements lib raw) s).1 = true <-> WellTyped raw := by
  rw [perform_true_iff]
  unfold statements
  rw [List.forall_mem_append, List.forall_mem_append, List.forall_mem_append,
    loadOffcpu_isSome_iff, loadProfile_isSome_iff, inSection_isSome_iff, inSection_isSome_iff]
  simp only [loadPerf_isSome_iff, loadPaths_isSome_iff]
  constructor
  · rintro ⟨⟨⟨hoffcpu, hprofile⟩, hperf⟩, hpaths⟩
    exact ⟨hoffcpu, hprofile, hperf, hpaths⟩
  · rintro ⟨hoffcpu, hprofile, hperf, hpaths⟩
    exact ⟨⟨⟨hoffcpu, hprofile⟩, hperf⟩, hpaths⟩

/-!
## Load
-/

/-- A load fails cleanly, from any settings, exactly when the file cannot be opened or
parsed or every member that `Load` reads has its type. -/
theorem loadsCleanly_iff_wellTyped (s : ConfigManager) (file : Option Str) :
    LoadsCleanly lib s file <->
      forall raw, file.bind lib.parse = some raw -> WellTyped raw := by
  cases hparse : file.bind lib.parse with
  | none =>
      have hload : load lib s file = (.returned false, s) := by
        cases file with
        | none => rfl
        | some text =>
            have htext : lib.parse text = none := hparse
            unfold load
            simp only [htext]
      unfold LoadsCleanly
      rw [hload]
      constructor
      · intro _ raw hraw
        cases hraw
      · intro _
        refine ⟨?_, fun _ => rfl⟩
        intro hthrew
        cases hthrew
  | some raw =>
      have hload : (load lib s file).1 =
          if (perform (statements lib raw) s.toSettings).1 then .returned true else .threw := by
        rcases Option.bind_eq_some_iff.mp hparse with ⟨text, hfile, htext⟩
        rw [hfile]
        unfold load
        simp only [htext]
      unfold LoadsCleanly
      rw [hload]
      constructor
      · rintro ⟨hreturns, _⟩ raw' hraw'
        injection hraw' with hraw'
        rw [← hraw']
        apply (perform_statements_iff lib raw s.toSettings).mp
        by_contra hthrows
        rw [if_neg hthrows] at hreturns
        exact hreturns rfl
      · intro htyped
        have hperform := (perform_statements_iff lib raw s.toSettings).mpr (htyped raw rfl)
        rw [if_pos hperform]
        exact ⟨by decide, fun hne => absurd rfl hne⟩

end

def oneEntry : Str :=
  "\x7b\"offcpu\": [\x7b\"process_name\": \"nginx\"\x7d]\x7d".toList

def numberForName : Str :=
  "\x7b\"offcpu\": [\x7b\"process_name\": 5\x7d]\x7d".toList

/-- A number where a name is expected: `Load` throws, and the entry loaded before is
gone. -/
theorem numberForName_not_loadsCleanly :
    ¬ LoadsCleanly textLibrary (run textLibrary [some oneEntry]) (some numberForName) ∧
      (run textLibrary [some oneEntry]).offcpuEntries = [{ processName := "nginx".toList }] ∧
      (run textLibrary [some oneEntry, some numberForName]).offcpuEntries = [] := by
  refine ⟨?_, ?_, ?_⟩
  · rintro ⟨hreturns, _⟩
    exact hreturns (by decide +kernel)
  · decide +kernel
  · decide +kernel

end ConfigManager

end Worker
end PerfMonitor
