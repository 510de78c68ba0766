import PerfMonitor.Worker.ConfigManager

/-!
# Hot reload

After a reload the settings should be those that the file gives to a fresh
`ConfigManager`.  The entries of the tools are cleared before they are read again; the
target lists are only appended to, and a threshold or path that the file does not name
keeps its old value.  The reload depends on the file alone exactly when nothing of this
is left from before.
-/

namespace PerfMonitor
namespace Worker

open Foundation

namespace ConfigManager

def setting (raw : JsonValue) (name key : Str) : Option JsonValue :=
  (find raw name).bind (fun value => find value key)

def settingItems (raw : JsonValue) (name key : Str) : List JsonValue :=
  match find raw name with
  | none => []
  | some value => items value key

section

variable (lib : JsonLibrary)

/-- What `Load` makes of the settings if it does not throw. -/
def loaded (raw : JsonValue) (s : Settings) : Settings where
  offcpuEntries := (items raw "offcpu".toList).filterMap (offcpuEntry lib)
  profileEntries := (items raw "profile".toList).filterMap (profileEntry lib)
  perfCpuThresholdPct :=
    ((setting raw "perf".toList "cpu_threshold_pct".toList).bind (toInt lib)).getD
      s.perfCpuThresholdPct
  perfOverflowDurationS :=
    ((setting raw "perf".toList "overflow_duration_s".toList).bind (toInt lib)).getD
      s.perfOverflowDurationS
  perfTargetProcesses := s.perfTargetProcesses ++
    (settingItems raw "perf".toList "target_processes".toList).filterMap toText
  perfTargetThreads := s.perfTargetThreads ++
    (settingItems raw "perf".toList "target_threads".toList).filterMap toText
  offcpuBin :=
    ((setting raw "paths".toList "offcpu_bin".toList).bind toText).getD s.offcpuBin
  profileBin :=
    ((setting raw "paths".toList "profile_bin".toList).bind toText).getD s.profileBin
  perfBin := ((setting raw "paths".toList "perf_bin".toList).bind toText).getD s.perfBin
  outputDir := ((setting raw "paths".toList "output_dir".toList).bind toText).getD s.outputDir

/-- Nothing is left from before: no targets, and no other value than the default where
the file is silent. -/
structure NothingLeft (raw : JsonValue) (s : Settings) : Prop where
  targetProcesses : s.perfTargetProcesses = []
  targetThreads : s.perfTargetThreads = []
  cpuThreshold : (setting raw "perf".toList "cpu_threshold_pct".toList).isSome = true ∨
    s.perfCpuThresholdPct = 80
  overflowDuration : (setting raw "perf".toList "overflow_duration_s".toList).isSome = true ∨
    s.perfOverflowDurationS = 10
  offcpuBin : (setting raw "paths".toList "offcpu_bin".toList).isSome = true ∨
    s.offcpuBin = "/usr/bin/offcpu".toList
  profileBin : (setting raw "paths".toList "profile_bin".toList).isSome = true ∨
    s.profileBin = "/usr/bin/profile".toList
  perfBin : (setting raw "paths".toList "perf_bin".toList).isSome = true ∨
    s.perfBin = "/usr/bin/perf".toList
  outputDir : (setting raw "paths".toList "output_dir".toList).isSome = true ∨
    s.outputDir = "/tmp/monitor_system/diagnose".toList

/-!
## The effect of the statements
-/

theorem effect_loadOffcpu (raw : JsonValue) (s : Settings) :
    effect (loadOffcpu lib raw) s =
      { s with
        offcpuEntries := (items raw "offcpu".toList).filterMap (offcpuEntry lib) } := by
  unfold loadOffcpu
  rw [effect_cons_some, effect_push (fun es s => ({ s with
    offcpuEntries := s.offcpuEntries ++ es } : Settings))]
  · rfl
  · intro s
    simp
  · intro e rest s
    simp [pushOffcpu]

theorem effect_loadProfile (raw : JsonValue) (s : Settings) :
    effect (loadProfile lib raw) s =
      { s with
        profileEntries := (items raw "profile".toList).filterMap (profileEntry lib) } := by
  unfold loadProfile
  rw [effect_cons_some, effect_push (fun es s => ({ s with
    profileEntries := s.profileEntries ++ es } : Settings))]
  · rfl
  · intro s
    simp
  · intro e rest s
    simp [pushProfile]

theorem effect_pushProcess (names : List JsonValue) (s : Settings) :
    effect (names.map (fun tp => (toText tp).map pushProcess)) s =
      { s with perfTargetProcesses := s.perfTargetProcesses ++ names.filterMap toText } := by
  apply effect_push (fun names s => ({ s with
    perfTargetProcesses := s.perfTargetProcesses ++ names } : Settings))
  · intro s
    simp
  · intro name rest s
    simp [pushProcess]

theorem effect_pushThread (names : List JsonValue) (s : Settings) :
    effect (names.map (fun tt => (toText tt).map pushThread)) s =
      { s with perfTargetThreads := s.perfTargetThreads ++ names.filterMap toText } := by
  apply effect_push (fun names s => ({ s with
    perfTargetThreads := s.perfTargetThreads ++ names } : Settings))
  · intro s
    simp
  · intro name rest s
    simp [pushThread]

theorem effect_loadPerf (raw : JsonValue) (s : Settings) :
    effect (inSection raw "perf".toList (loadPerf lib)) s =
      { s with
        perfCpuThresholdPct := (loaded lib raw s).perfCpuThresholdPct
        perfOverflowDurationS := (loaded lib raw s).perfOverflowDurationS
        perfTargetProcesses := (loaded lib raw s).perfTargetProcesses
        perfTargetThreads := (loaded lib raw s).perfTargetThreads } := by
  unfold inSection loaded setting settingItems
  cases find raw "perf".toList with
  | none =>
      show s = { s with
        perfTargetProcesses := s.perfTargetProcesses ++ []
        perfTargetThreads := s.perfTargetThreads ++ [] }
      rw [List.append_nil, List.append_nil]
  | some p =>
      unfold loadPerf
      rw [effect_append, effect_append, effect_append, effect_pushThread, effect_pushProcess,
        effect_assign Settings.perfOverflowDurationS (fun _ => rfl),
        effect_assign Settings.perfCpuThresholdPct (fun _ => rfl)]
      rfl

theorem effect_loadPaths (raw : JsonValue) (s : Settings) :
    effect (inSection raw "paths".toList loadPaths) s =
      { s with
        offcpuBin := (loaded lib raw s).offcpuBin
        profileBin := (loaded lib raw s).profileBin
        perfBin := (loaded lib raw s).perfBin
        outputDir := (loaded lib raw s).outputDir } := by
  unfold inSection loaded setting
  cases find raw "paths".toList with
  | none => rfl
  | some pt =>
      unfold loadPaths
      rw [effect_append, effect_append, effect_append,
        effect_assign Settings.outputDir (fun _ => rfl),
        effect_assign Settings.perfBin (fun _ => rfl),
        effect_assign Settings.profileBin (fun _ => rfl),
        effect_assign Settings.offcpuBin (fun _ => rfl)]
      rfl

theorem effect_statements (raw : JsonValue) (s : Settings) :
    effect (statements lib raw) s = loaded lib raw s := by
  unfold statements
  rw [effect_append, effect_append, effect_append, effect_loadPaths lib, effect_loadPerf,
    effect_loadProfile, effect_loadOffcpu]
  rfl

/-!
## Reload
-/

structure Converts (raw : JsonValue) : Prop where
  cpuThreshold :
    ((setting raw "perf".toList "cpu_threshold_pct".toList).bind (toInt lib)).isSome =
      (setting raw "perf".toList "cpu_threshold_pct".toList).isSome
  overflowDuration :
    ((setting raw "perf".toList "overflow_duration_s".toList).bind (toInt lib)).isSome =
      (setting raw "perf".toList "overflow_duration_s".toList).isSome
  offcpuBin :
    ((setting raw "paths".toList "offcpu_bin".toList).bind toText).isSome =
      (setting raw "paths".toList "offcpu_bin".toList).isSome
  profileBin :
    ((setting raw "paths".toList "profile_bin".toList).bind toText).isSome =
      (setting raw "paths".toList "profile_bin".toList).isSome
  perfBin :
    ((setting raw "paths".toList "perf_bin".toList).bind toText).isSome =
      (setting raw "paths".toList "perf_bin".toList).isSome
  outputDir :
    ((setting raw "paths".toList "output_dir".toList).bind toText).isSome =
      (setting raw "paths".toList "output_dir".toList).isSome

variable {lib} {raw : JsonValue}

theorem isSome_setting {α : Type} {name key : Str} {convert : JsonValue -> Option α}
    {body : JsonValue -> List (Option (Settings -> Settings))}
    (hall : forall x, x ∈ inSection raw name body -> x.isSome = true)
    (hbody : forall value, (forall x, x ∈ body value -> x.isSome = true) ->
      ((find value key).bind convert).isSome = (find value key).isSome) :
    ((setting raw name key).bind convert).isSome = (setting raw name key).isSome := by
  unfold inSection at hall
  unfold setting
  cases hfind : find raw name with
  | none => rfl
  | some value =>
      rw [hfind] at hall
      exact hbody value hall

theorem converts_of_perform {s : Settings} (h : (perform (statements lib raw) s).1 = true) :
    Converts lib raw := by
  have hall := perform_true_iff.mp h
  unfold statements at hall
  rw [List.forall_mem_append, List.forall_mem_append] at hall
  rcases hall with ⟨⟨_, hperf⟩, hpaths⟩
  constructor
  · apply isSome_setting hperf
    intro p hp
    simp only [loadPerf, List.forall_mem_append] at hp
    exact isSome_bind_of_assign hp.left.left.left
  · apply isSome_setting hperf
    intro p hp
    simp only [loadPerf, List.forall_mem_append] at hp
    exact isSome_bind_of_assign hp.left.left.right
  · apply isSome_setting hpaths
    intro pt hpt
    simp only [loadPaths, List.forall_mem_append] at hpt
    exact isSome_bind_of_assign hpt.left.left.left
  · apply isSome_setting hpaths
    intro pt hpt
    simp only [loadPaths, List.forall_mem_append] at hpt
    exact isSome_bind_of_assign hpt.left.left.right
  · apply isSome_setting hpaths
    intro pt hpt
    simp only [loadPaths, List.forall_mem_append] at hpt
    exact isSome_bind_of_assign hpt.left.right
  · apply isSome_setting hpaths
    intro pt hpt
    simp only [loadPaths, List.forall_mem_append] at hpt
    exact isSome_bind_of_assign hpt.right

theorem loaded_eq_iff (hconverts : Converts lib raw) (s : Settings) :
    loaded lib raw s = loaded lib raw {} <-> NothingLeft raw s := by
  constructor
  · intro h
    injection h with _ _ hcpu hduration hprocesses hthreads hoffcpu hprofile hperf hdir
    constructor
    · exact List.append_left_eq_self.mp hprocesses
    · exact List.append_left_eq_self.mp hthreads
    · exact (getD_bind_eq_iff hconverts.cpuThreshold).mp hcpu
    · exact (getD_bind_eq_iff hconverts.overflowDuration).mp hduration
    · exact (getD_bind_eq_iff hconverts.offcpuBin).mp hoffcpu
    · exact (getD_bind_eq_iff hconverts.profileBin).mp hprofile
    · exact (getD_bind_eq_iff hconverts.perfBin).mp hperf
    · exact (getD_bind_eq_iff hconverts.outputDir).mp hdir
  · intro h
    unfold loaded
    rw [Settings.mk.injEq]
    refine ⟨rfl, rfl, ?_, ?_, ?_, ?_, ?_, ?_, ?_, ?_⟩
    · exact (getD_bind_eq_iff hconverts.cpuThreshold).mpr h.cpuThreshold
    · exact (getD_bind_eq_iff hconverts.overflowDuration).mpr h.overflowDuration
    · rw [h.targetProcesses]
    · rw [h.targetThreads]
    · exact (getD_bind_eq_iff hconverts.offcpuBin).mpr h.offcpuBin
    · exact (getD_bind_eq_iff hconverts.profileBin).mpr h.profileBin
    · exact (getD_bind_eq_iff hconverts.perfBin).mpr h.perfBin
    · exact (getD_bind_eq_iff hconverts.outputDir).mpr h.outputDir

theorem exists_raw_of_load {file : Option Str}
    (hok : (load lib {} file).1 = .returned true) :
    exists raw, file.bind lib.parse = some raw ∧
      (perform (statements lib raw) {}).1 = true := by
  unfold load at hok
  split at hok
  · cases hok
  next text =>
    split at hok
    · cases hok
    next raw hparse =>
      refine ⟨raw, hparse, ?_⟩
      cases hperform : (perform (statements lib raw) {}).1 with
      | true => rfl
      | false =>
          have hthrew : (if (perform (statements lib raw) {}).1 then LoadResult.returned true
              else .threw) = .returned true := hok
          rw [hperform] at hthrew
          cases hthrew

theorem toSettings_load {file : Option Str} (hparse : file.bind lib.parse = some raw)
    {s : ConfigManager} (hperform : (perform (statements lib raw) s.toSettings).1 = true) :
    (load lib s file).2.toSettings = loaded lib raw s.toSettings := by
  cases file with
  | none => cases hparse
  | some text =>
      have htext : lib.parse text = some raw := hparse
      unfold load
      dsimp only
      rw [htext]
      exact (perform_eq_effect hperform).trans (effect_statements lib raw s.toSettings)

variable (lib) in
/-- After any calls of `Load` and `Reload`, a reload of a file that `Load` accepts gives
the settings of a fresh `ConfigManager` exactly when nothing is left from before. -/
theorem reload_eq_fresh_iff_nothingLeft (files : List (Option Str)) {file : Option Str}
    (hok : (load lib {} file).1 = .returned true) :
    (reload lib (run lib files) file).2.toSettings = (load lib {} file).2.toSettings <->
      forall raw, file.bind lib.parse = some raw ->
        NothingLeft raw (run lib files).toSettings := by
  rcases exists_raw_of_load hok with ⟨raw, hparse, hperform⟩
  have hnow : (perform (statements lib raw) (run lib files).toSettings).1 = true := by
    rw [perform_fst_eq _ _ {}]
    exact hperform
  have hconverts := converts_of_perform hperform
  unfold reload
  rw [toSettings_load hparse hnow, toSettings_load hparse hperform]
  constructor
  · intro hsame raw' hparse'
    rw [hparse] at hparse'
    injection hparse' with hraw
    rw [← hraw]
    exact (loaded_eq_iff hconverts _).mp hsame
  · intro hnothing
    exact (loaded_eq_iff hconverts _).mpr (hnothing raw hparse)

end

/-!
## One file twice
-/

def oneTarget : Str :=
  "\x7b\"perf\": \x7b\"target_processes\": [\"yes\"]\x7d\x7d".toList

def oneOffcpu : Str :=
  "\x7b\"offcpu\": [\x7b\"interval_s\": 5\x7d]\x7d".toList

/-- The entries of the file before are replaced. -/
theorem oneTarget_reload :
    (run textLibrary [some oneOffcpu, none]).offcpuEntries.length = 1 ∧
      (reload textLibrary (run textLibrary [some oneOffcpu, none]) (some oneTarget)).2.toSettings =
        (load textLibrary {} (some oneTarget)).2.toSettings := by
  refine ⟨by decide +kernel, ?_⟩
  apply (reload_eq_fresh_iff_nothingLeft textLibrary [some oneOffcpu, none]
    (by decide +kernel)).mpr
  intro raw _
  constructor
  case targetProcesses => decide +kernel
  case targetThreads => decide +kernel
  case cpuThreshold => exact Or.inr (by decide +kernel)
  case overflowDuration => exact Or.inr (by decide +kernel)
  case offcpuBin => exact Or.inr (by decide +kernel)
  case profileBin => exact Or.inr (by decide +kernel)
  case perfBin => exact Or.inr (by decide +kernel)
  case outputDir => exact Or.inr (by decide +kernel)

/-- A file with one target, loaded and reloaded, gives the target twice. -/
theorem oneTarget_doubled :
    (load textLibrary {} (some oneTarget)).1 = .returned true ∧
      (reload textLibrary (run textLibrary [some oneTarget]) (some oneTarget)).2.toSettings ≠
        (load textLibrary {} (some oneTarget)).2.toSettings := by
  decide +kernel

end ConfigManager

end Worker
end PerfMonitor
