import PerfMonitor.EndToEnd.FlamegraphFiles
import PerfMonitor.Worker.ToolChild

/-!
# Where the output of a tool goes

From the configuration file to the descriptors of a tool: `Run` makes the output directory,
the child opens its file there, and its two outputs are that file.  Each step can fail
without any sign of it in the worker, and then the tool runs without a file.
-/

namespace PerfMonitor
namespace EndToEnd

open Foundation Worker

section Output

variable (mayCreate mayWrite : NodePath -> Bool) (cwd : NodePath)

structure FilePart (name : Str) : Prop where
  noSlash : '/' ∉ name
  noNul : '\x00' ∉ name

theorem outFile_eq_fileName (dir : Str) (kind : ToolKind) (process thread : Str) (now : Int) :
    BpfDiagnoser.outFile dir kind process thread now =
      dir ++ '/' :: fileName (.tool kind) process thread now := by
  simp only [BpfDiagnoser.outFile, fileName, FileKind.type, FileKind.tag, List.append_assoc,
    List.cons_append, List.nil_append]

theorem filePart_fileName (kind : ToolKind) {process thread : Str} (hprocess : FilePart process)
    (hthread : FilePart thread) (now : Int) :
    FilePart (fileName (.tool kind) process thread now) := by
  constructor
  · intro h
    rcases mem_fileName h with htag | hname
    · exact notMem_tag (by decide) hprocess.noSlash hthread.noSlash htag
    · exact absurd hname (by decide)
  · intro h
    rcases mem_fileName h with htag | hname
    · exact notMem_tag (by decide) hprocess.noNul hthread.noNul htag
    · exact absurd hname (by decide)

theorem fileName_ne_nil (kind : FileKind) (process thread : Str) (now : Int) :
    fileName kind process thread now ≠ [] :=
  List.append_ne_nil_of_right_ne_nil _ (List.cons_ne_nil _ _)

theorem nul_notMem_outFile {dir : Str} (kind : ToolKind) (hnul : '\x00' ∉ dir)
    {process thread : Str} (hprocess : FilePart process) (hthread : FilePart thread) (now : Int) :
    '\x00' ∉ BpfDiagnoser.outFile dir kind process thread now := by
  rw [outFile_eq_fileName]
  intro h
  rcases List.mem_append.mp h with hmem | hmem
  · exact hnul hmem
  · rcases List.mem_cons.mp hmem with heq | hmem
    · exact absurd heq (by decide)
    · exact (filePart_fileName kind hprocess hthread now).noNul hmem

theorem openOutput_outFile (t : FileTree) {dir : Str} (hdir : dir ≠ []) (hnul : '\x00' ∉ dir)
    (kind : ToolKind) {process thread : Str} (hprocess : FilePart process)
    (hthread : FilePart thread) (now : Int)
    (hfits : (BpfDiagnoser.outFile dir kind process thread now).length < pathMax) :
    openOutput mayCreate cwd mayWrite t (BpfDiagnoser.outFile dir kind process thread now) =
      (t.walk (pathBase cwd (cString dir)) (components (cString dir))).bind (fun place =>
        t.openIn mayCreate mayWrite place (fileName (.tool kind) process thread now)) := by
  have hname := filePart_fileName kind hprocess hthread now
  have hfree : '\x00' ∉ dir ++ '/' :: fileName (.tool kind) process thread now := by
    rw [← outFile_eq_fileName]
    exact nul_notMem_outFile kind hnul hprocess hthread now
  have hlast : (dir ++ '/' :: fileName (.tool kind) process thread now).getLast? ≠ some '/' := by
    have hends : dir ++ '/' :: fileName (.tool kind) process thread now =
        (dir ++ ['/']) ++ fileName (.tool kind) process thread now := by
      rw [List.append_assoc]
      rfl
    rw [hends, List.getLast?_append_of_ne_nil _ (fileName_ne_nil (.tool kind) process thread now)]
    exact fun h => hname.noSlash (List.mem_of_getLast? h)
  have hparts : components (dir ++ '/' :: fileName (.tool kind) process thread now) =
      components dir ++ [fileName (.tool kind) process thread now] := by
    rw [components_slash, components_name hname.noSlash,
      if_neg (fileName_ne_nil (.tool kind) process thread now)]
  rw [outFile_eq_fileName] at hfits ⊢
  unfold openOutput
  rw [cString_of_notMem hfree, cString_of_notMem hnul,
    if_pos ⟨⟨List.append_ne_nil_of_left_ne_nil hdir _, hfits⟩, hlast⟩, hparts,
    pathBase_append cwd hdir, FileTree.openFor_concat]

theorem openOutput_of_long {t : FileTree} {path : Str} (hlong : pathMax ≤ (cString path).length) :
    openOutput mayCreate cwd mayWrite t path = none :=
  if_neg (fun h => Nat.not_lt.mpr hlong h.left.right)

/-- What has to be right for the child to get its file. -/
theorem openOutput_isSome_iff (t : FileTree) {dir : Str} (hdir : dir ≠ []) (hnul : '\x00' ∉ dir)
    (kind : ToolKind) {process thread : Str} (hprocess : FilePart process)
    (hthread : FilePart thread) (now : Int) :
    (openOutput mayCreate cwd mayWrite t
        (BpfDiagnoser.outFile dir kind process thread now)).isSome = true <->
      (BpfDiagnoser.outFile dir kind process thread now).length < pathMax ∧
        (t.walk (pathBase cwd (cString dir)) (components (cString dir))).isSome = true ∧
        forall place, t.walk (pathBase cwd (cString dir)) (components (cString dir)) = some place ->
          (t.openIn mayCreate mayWrite place
            (fileName (.tool kind) process thread now)).isSome = true := by
  rcases Nat.lt_or_ge (BpfDiagnoser.outFile dir kind process thread now).length pathMax with
    hfits | hlong
  · rw [openOutput_outFile mayCreate mayWrite cwd t hdir hnul kind hprocess hthread now hfits,
      and_iff_right hfits]
    cases t.walk (pathBase cwd (cString dir)) (components (cString dir)) with
    | none => exact iff_of_false Bool.false_ne_true (fun h => Bool.false_ne_true h.left)
    | some place =>
        rw [Option.bind_some]
        constructor
        · intro h
          refine ⟨rfl, ?_⟩
          intro place' heq
          rw [← Option.some.inj heq]
          exact h
        · intro h
          exact h.right place rfl
  · rw [openOutput_of_long]
    · exact iff_of_false Bool.false_ne_true (fun h => Nat.not_lt.mpr hlong h.left)
    · rw [cString_of_notMem (nul_notMem_outFile kind hnul hprocess hthread now)]
      exact hlong

/-- A child has its file on both outputs. -/
theorem outputs_iff {Φ : Type} (room : Nat -> Nat) (table : FdTable Φ)
    (opened : Option (FileTree × NodePath)) (description : NodePath -> Φ)
    (hnew : forall place fd, table.inherited fd ≠ some (description place)) (dir : Option Φ) :
    exists u, (forall fuel, table.limit + 2 < fuel ->
        ToolChild.descriptors room fuel table (opened.map (fun f => description f.2)) dir =
          some u) ∧
      ((exists place, u.inherited 1 = some (description place) ∧
          u.inherited 2 = some (description place)) <->
        opened.isSome = true ∧
          exists fd, table.lowestFree = some fd ∧ fd ≠ 1 ∧ fd ≠ 2 ∧ 2 < table.limit) := by
  rcases ToolChild.get_descriptors room table (opened.map (fun f => description f.2)) dir with
    ⟨u, hu, hget⟩
  have hlow : forall i, i ≤ 2 ->
      u.get i = (ToolChild.redirect table (opened.map (fun f => description f.2))).get i := by
    intro i hi
    rw [hget, if_neg (fun h => Nat.not_lt.mpr hi h.left)]
  refine ⟨u, hu, ?_⟩
  by_cases hboth : opened = none ∨ table.lowestFree = none
  · have hkept := (ToolChild.outputs_kept hlow
      (hboth.imp_left (fun h => by rw [h, Option.map_none]))).left
    constructor
    · rintro ⟨place, hone, _⟩
      rw [hkept] at hone
      exact absurd hone (hnew place 1)
    · rintro ⟨hsome, fd, hfree, _⟩
      rcases hboth with hnone | hfull
      · rw [hnone] at hsome
        cases hsome
      · rw [hfull] at hfree
        cases hfree
  · rw [not_or] at hboth
    rcases Option.ne_none_iff_exists'.mp hboth.left with ⟨f, hf⟩
    rcases Option.ne_none_iff_exists'.mp hboth.right with ⟨fd, hfree⟩
    have hfile : opened.map (fun f => description f.2) = some (description f.2) := by
      rw [hf, Option.map_some]
    have hat (i : Nat) (hi : i = 1 ∨ i = 2) := ToolChild.output_redirected hlow hfile hfree hi
    rw [hat 1 (Or.inl rfl), hat 2 (Or.inr rfl), hf, hfree]
    constructor
    · rintro ⟨place, hone, htwo⟩
      split at hone
      · cases hone
      · split at htwo
        · cases htwo
        · exact ⟨rfl, fd, rfl, by omega, by omega, by omega⟩
    · rintro ⟨_, fd', heq, hfirst, hsecond, hlimit⟩
      injection heq with heq
      exact ⟨f.2, if_neg (by omega), if_neg (by omega)⟩

variable {Φ : Type} {lib : JsonLibrary} (w : World) (mode : Handover)

/-- After a `Run` with a configuration, until the next one: the outputs of a tool are its
file in the configured directory, for whatever the worker has open and however the kernel
lists it, exactly when the path of the file is not too long, the directories of the path
were there or could be made, the file can be opened there, and the worker has its standard
outputs open or its standard input closed. -/
theorem tool_output (s : Diagnosers) {file : Option Str} {cfg : Settings}
    (hloaded : Diagnosers.loaded lib file = some cfg) (hdir : cfg.outputDir ≠ [])
    (hnul : '\x00' ∉ cfg.outputDir) {later : List DiagnosersOp}
    (hlater : forall op, op ∈ later -> Diagnosers.isRun op = false) (kind : ToolKind)
    {process thread : Str} (hprocess : FilePart process) (hthread : FilePart thread) (now : Int)
    (room : Nat -> Nat) (table : FdTable Φ) (description : NodePath -> Φ)
    (hnew : forall place fd, table.inherited fd ≠ some (description place)) (dir : Option Φ) :
    let names := components (cString cfg.outputDir)
    let base := pathBase cwd (cString cfg.outputDir)
    let tree := (runFrom (Diagnosers.step lib w mode mayCreate cwd)
      (s.run lib w mode mayCreate cwd file) later).tree
    let name := fileName (.tool kind) process thread now
    let path := BpfDiagnoser.outFile cfg.outputDir kind process thread now
    let opened := openOutput mayCreate cwd mayWrite tree path
    exists u, (forall fuel, table.limit + 2 < fuel ->
        ToolChild.descriptors room fuel table (opened.map (fun f => description f.2)) dir =
          some u) ∧
      ((exists place, u.inherited 1 = some (description place) ∧
          u.inherited 2 = some (description place)) <->
        (path.length < pathMax ∧
          s.tree.Makeable mayCreate base names ∧
          forall place, tree.walk base names = some place ->
            (tree.openIn mayCreate mayWrite place name).isSome = true) ∧
          exists fd, table.lowestFree = some fd ∧ fd ≠ 1 ∧ fd ≠ 2 ∧ 2 < table.limit) := by
  intro names base tree name path opened
  rcases outputs_iff room table opened description hnew dir with ⟨u, hu, houtputs⟩
  refine ⟨u, hu, houtputs.trans (and_congr_left' ?_)⟩
  rw [openOutput_isSome_iff mayCreate mayWrite cwd tree hdir hnul kind hprocess hthread now]
  apply and_congr_right
  intro hfits
  have husable : Usable (cString cfg.outputDir) := by
    rw [cString_of_notMem hnul]
    rw [outFile_eq_fileName, List.length_append] at hfits
    exact ⟨hdir, Nat.lt_of_le_of_lt (Nat.le_add_right _ _) hfits⟩
  have hmade : (tree.walk base names).isSome = true <-> s.tree.Makeable mayCreate base names := by
    rw [Diagnosers.walk_later w mode mayCreate cwd s hloaded hlater]
    exact walk_initOutputDir_iff husable s.tree
  exact and_congr_left' hmade

end Output

def standardOnly : FdTable (Option NodePath) where
  get := fun fd => if fd < 3 then some { file := none, cloexec := false } else none
  limit := 1024
  bounded := fun fd hfd => if_neg (by omega)
  limit_le := by decide

/-- What the worker has done in the tree, and a profile tool before. -/
def afterProfile : FileTree :=
  (runFrom (Diagnosers.step ConfigManager.textLibrary { fork := fun _ => -1 } .copy
      (fun _ => true) [])
    (({ tree := Diagnosers.onlyTmp } : Diagnosers).run ConfigManager.textLibrary
      { fork := fun _ => -1 } .copy (fun _ => true) [] none)
    [.opens { path := BpfDiagnoser.outFile outputDir .profile "nginx".toList [] 5,
              mayWrite := fun _ => true }]).tree

theorem tool_output_noFile :
    exists u place,
      ToolChild.descriptors (fun _ => 100) 2000 standardOnly
          ((openOutput (fun _ => true) [] (fun _ => true) afterProfile
            (BpfDiagnoser.outFile outputDir .offcpu "nginx".toList [] 5)).map (fun f => some f.2))
          (some none) = some u ∧
        u.inherited 1 = some (some place) ∧ u.inherited 2 = some (some place) := by
  have hloaded : Diagnosers.loaded ConfigManager.textLibrary none = some {} := rfl
  have hnginx : FilePart "nginx".toList := by
    constructor <;> decide
  have hempty : FilePart [] := ⟨List.not_mem_nil, List.not_mem_nil⟩
  have hnew : forall (place : NodePath) fd, standardOnly.inherited fd ≠ some (some place) := by
    intro place fd
    unfold FdTable.inherited standardOnly
    dsimp only
    by_cases hfd : fd < 3
    · rw [if_pos hfd]
      simp
    · rw [if_neg hfd]
      simp
  have hlater : forall op, op ∈ [DiagnosersOp.opens
      { path := BpfDiagnoser.outFile outputDir .profile "nginx".toList [] 5,
        mayWrite := fun _ => true }] -> Diagnosers.isRun op = false := by
    intro op hop
    rw [List.mem_singleton.mp hop]
    rfl
  rcases tool_output (fun _ => true) (fun _ => true) [] { fork := fun _ => -1 } .copy
    { tree := Diagnosers.onlyTmp } hloaded (by decide) (by decide) hlater .offcpu hnginx hempty 5
    (fun _ => 100) standardOnly some hnew (some none) with ⟨u, hu, houtput⟩
  have hmakeable : FileTree.Makeable (fun _ => true) Diagnosers.onlyTmp []
      ["tmp".toList, "monitor_system".toList, "diagnose".toList] :=
    And.intro (Or.inl rfl) (And.intro (Or.inr ⟨rfl, rfl⟩) (And.intro (Or.inr ⟨rfl, rfl⟩) trivial))
  have hwalk : afterProfile.walk [] ["tmp".toList, "monitor_system".toList, "diagnose".toList] =
      some ["tmp".toList, "monitor_system".toList, "diagnose".toList] := by
    decide +kernel
  have hopens := houtput.mpr ⟨⟨by decide +kernel, hmakeable, fun place hplace => ?_⟩, 3,
    by decide +kernel, by decide, by decide, by decide⟩
  · rcases hopens with ⟨place, hone, htwo⟩
    exact ⟨u, place, hu 2000 (by decide), hone, htwo⟩
  · rw [show place = ["tmp".toList, "monitor_system".toList, "diagnose".toList] from
      Option.some.inj (hplace.symm.trans hwalk)]
    decide +kernel

end EndToEnd
end PerfMonitor
