import PerfMonitor.Foundation.FileTree
import PerfMonitor.Foundation.Text
import PerfMonitor.Worker.PerfDiagnoser

/-!
# Output directory

`Init` of `BpfDiagnoser` and of `PerfDiagnoser`: a loop over the positions of
`output_dir_` that calls `mkdir` on the text before each slash and on the whole text.
The directory is there afterwards exactly when the path is neither empty nor too long and
each directory of it was there or could be made.  There are no symbolic links, a directory
may be searched, and a name that is too long may not be created.
-/

namespace PerfMonitor
namespace Worker

open Foundation

def isSlash (c : Char) : Bool :=
  c == '/'

def components (path : Str) : List Str :=
  (path.splitOnP isSlash).filter (fun name => !name.isEmpty)

def pathBase (cwd : NodePath) (path : Str) : NodePath :=
  if path.head? = some '/' then [] else cwd

/-- `PATH_MAX`, which counts the byte at the end of a path. -/
def pathMax : Nat := 4096

def Usable (path : Str) : Prop :=
  path ≠ [] ∧ path.length < pathMax

instance (path : Str) : Decidable (Usable path) :=
  inferInstanceAs (Decidable (_ ∧ _))

section Init

variable (mayCreate : NodePath -> Bool) (cwd : NodePath)

def directoryAt (t : FileTree) (path : Str) : Option NodePath :=
  if Usable path then t.walk (pathBase cwd path) (components path) else none

/-- `mkdir(path, 0755)`. -/
def mkdirPath (t : FileTree) (path : Str) : FileTree :=
  if Usable path then t.mkdir mayCreate (pathBase cwd path) (components path) else t

/-- `open` with `O_WRONLY`, `O_CREAT` and `O_TRUNC`. -/
def openOutput (mayWrite : NodePath -> Bool) (t : FileTree) (path : Str) :
    Option (FileTree × NodePath) :=
  if Usable (cString path) ∧ (cString path).getLast? ≠ some '/' then
    t.openFor mayCreate mayWrite (pathBase cwd (cString path)) (components (cString path))
  else none

/-- `unlink`. -/
def unlinkOutput (t : FileTree) (path : Str) : FileTree :=
  if Usable (cString path) ∧ (cString path).getLast? ≠ some '/' then
    FileTree.unlinkAt (pathBase cwd (cString path)) t (components (cString path))
  else t

/-- The texts `output_dir_.substr(0, pos)` that the loop makes directories of, from the
position behind `seen` on. -/
def initPaths (seen : Str) : Str -> List Str
  | [] => if seen = [] then [] else [seen]
  | c :: rest =>
      if c = '/' ∧ seen ≠ [] then seen :: initPaths (seen ++ [c]) rest
      else initPaths (seen ++ [c]) rest

def initOutputDir (outputDir : Str) (t : FileTree) : FileTree :=
  (initPaths [] outputDir).foldl (fun t path => mkdirPath mayCreate cwd t (cString path)) t

def BpfDiagnoser.init (s : BpfDiagnoser) (t : FileTree) : FileTree :=
  initOutputDir mayCreate cwd s.settings.outputDir t

def PerfDiagnoser.init (d : PerfDiagnoser) (t : FileTree) : FileTree :=
  initOutputDir mayCreate cwd d.settings.outputDir t

/-!
## The names in a path
-/

theorem components_slash (x y : Str) :
    components (x ++ '/' :: y) = components x ++ components y := by
  unfold components
  rw [List.splitOnP_append_cons x y (show isSlash '/' = true from rfl), List.filter_append]

theorem components_name {name : Str} (hname : '/' ∉ name) :
    components name = if name = [] then [] else [name] := by
  have hsplit : name.splitOnP isSlash = [name] := by
    apply List.splitOnP_eq_singleton
    intro c hc
    exact beq_eq_false_iff_ne.mpr (fun heq => hname (heq ▸ hc))
  unfold components
  rw [hsplit]
  cases name with
  | nil => rfl
  | cons c rest => rfl

def EndsPart (front : Str) : Prop :=
  front = [] ∨ exists before, front = before ++ ['/']

theorem components_append {front : Str} (hfront : EndsPart front) (cur : Str) :
    components (front ++ cur) = components front ++ components cur := by
  rcases hfront with heq | ⟨before, heq⟩
  · rw [heq]
    rfl
  · rw [heq, List.append_assoc, List.singleton_append, components_slash, components_slash]
    rw [show components [] = [] from rfl, List.append_nil]

theorem pathBase_append (cwd : NodePath) {seen : Str} (hseen : seen ≠ []) (rest : Str) :
    pathBase cwd (seen ++ rest) = pathBase cwd seen := by
  cases seen with
  | nil => exact absurd rfl hseen
  | cons c more => rfl

/-!
## The loop
-/

variable {mayCreate cwd}

variable (mayCreate) in
theorem mkdirPath_nil (t : FileTree) : mkdirPath mayCreate cwd t [] = t :=
  if_neg (fun h => h.left rfl)

variable (mayCreate) in
theorem mkdirPath_seen {front cur : Str} (hfront : EndsPart front) (hcur : '/' ∉ cur)
    {base : NodePath} (hbase : front ++ cur ≠ [] -> base = pathBase cwd (front ++ cur))
    (hfits : (front ++ cur).length < pathMax) (t : FileTree) :
    mkdirPath mayCreate cwd (FileTree.makeAll mayCreate base t (components front)).1
        (front ++ cur) =
      (FileTree.makeAll mayCreate base t (components (front ++ cur))).1 := by
  by_cases hseen : front ++ cur = []
  · rcases List.append_eq_nil_iff.mp hseen with ⟨hfrontNil, hcurNil⟩
    rw [hfrontNil, hcurNil]
    exact mkdirPath_nil mayCreate _
  · unfold mkdirPath
    rw [if_pos ⟨hseen, hfits⟩, ← hbase hseen, components_append hfront, components_name hcur]
    by_cases hempty : cur = []
    · rw [if_pos hempty, List.append_nil]
      exact FileTree.mkdir_again mayCreate base t (components front)
    · rw [if_neg hempty]
      exact FileTree.mkdir_makeAll base t (components front) cur

theorem prefix_of_mem_initPaths {seen rest path : Str} (hpath : path ∈ initPaths seen rest) :
    seen <+: path := by
  induction rest generalizing seen with
  | nil =>
      unfold initPaths at hpath
      split at hpath
      · cases hpath
      · rw [List.mem_singleton.mp hpath]
  | cons c rest ih =>
      have hlater : path ∈ initPaths (seen ++ [c]) rest -> seen <+: path :=
        fun h => (List.prefix_append seen [c]).trans (ih h)
      unfold initPaths at hpath
      split at hpath
      · rcases List.mem_cons.mp hpath with heq | hpath
        · rw [heq]
        · exact hlater hpath
      · exact hlater hpath

theorem foldl_initPaths_long {seen : Str} (hnul : '\x00' ∉ seen) (hlong : pathMax ≤ seen.length)
    (rest : Str) (t : FileTree) :
    (initPaths seen rest).foldl (fun t path => mkdirPath mayCreate cwd t (cString path)) t = t := by
  apply List.foldlRecOn (motive := fun t' => t' = t) _ _ rfl
  rintro _ rfl path hpath
  rcases prefix_of_mem_initPaths hpath with ⟨more, hmore⟩
  apply if_neg
  rintro ⟨_, hfits⟩
  rw [← hmore, cString_append hnul, List.length_append] at hfits
  exact absurd (Nat.lt_of_le_of_lt (Nat.le_add_right _ _) hfits) (Nat.not_lt.mpr hlong)

theorem cString_initPaths {seen : Str} (hseen : '\x00' ∉ seen) (rest : Str) :
    forall (more : Str) (path : Str), path ∈ initPaths (seen ++ '\x00' :: more) rest ->
      cString path = seen := by
  have hcut : forall more, cString (seen ++ '\x00' :: more) = seen := by
    intro more
    rw [cString_append hseen]
    exact List.append_nil seen
  induction rest with
  | nil =>
      intro more path hpath
      rw [initPaths, if_neg (by simp), List.mem_singleton] at hpath
      rw [hpath]
      exact hcut more
  | cons c rest ih =>
      intro more path hpath
      have hlater : forall p, p ∈ initPaths (seen ++ '\x00' :: more ++ [c]) rest ->
          cString p = seen := by
        intro p hp
        rw [List.append_assoc, List.cons_append] at hp
        exact ih (more ++ [c]) p hp
      rw [initPaths] at hpath
      split at hpath
      · rcases List.mem_cons.mp hpath with heq | hpath
        · rw [heq]
          exact hcut more
        · exact hlater path hpath
      · exact hlater path hpath

theorem initPaths_ne_nil {seen : Str} (hseen : seen ≠ []) (rest : Str) :
    initPaths seen rest ≠ [] := by
  induction rest generalizing seen with
  | nil =>
      rw [initPaths, if_neg hseen]
      exact List.cons_ne_nil _ _
  | cons c rest ih =>
      rw [initPaths]
      split
      · exact List.cons_ne_nil _ _
      · exact ih (List.append_ne_nil_of_left_ne_nil hseen _)

theorem foldl_mkdirPath_same {seen : Str} {t t' : FileTree}
    (hfirst : mkdirPath mayCreate cwd t seen = t')
    (hagain : mkdirPath mayCreate cwd t' seen = t') {paths : List Str} (hne : paths ≠ [])
    (hpaths : forall path, path ∈ paths -> cString path = seen) :
    paths.foldl (fun t path => mkdirPath mayCreate cwd t (cString path)) t = t' := by
  induction paths generalizing t with
  | nil => exact absurd rfl hne
  | cons path rest ih =>
      rw [List.foldl_cons, hpaths path List.mem_cons_self, hfirst]
      cases rest with
      | nil => rfl
      | cons next more =>
          exact ih hagain (List.cons_ne_nil next more)
            (fun p hp => hpaths p (List.mem_cons_of_mem path hp))

theorem mkdirPath_again {seen : Str} {base : NodePath}
    (hbase : seen ≠ [] -> base = pathBase cwd seen) (t : FileTree) :
    mkdirPath mayCreate cwd (FileTree.makeAll mayCreate base t (components seen)).1 seen =
      (FileTree.makeAll mayCreate base t (components seen)).1 := by
  unfold mkdirPath
  split
  next husable =>
    rw [← hbase husable.left]
    exact FileTree.mkdir_again mayCreate base t (components seen)
  next => rfl

theorem base_of_seen {seen rest : Str} (hnul : '\x00' ∉ seen) {base : NodePath}
    (hbase : base = pathBase cwd (cString (seen ++ rest))) :
    seen ≠ [] -> base = pathBase cwd seen := by
  intro hne
  rw [hbase, cString_append hnul, pathBase_append cwd hne]

theorem initPaths_slash (seen rest : Str) (t : FileTree) :
    (initPaths seen ('/' :: rest)).foldl
        (fun t path => mkdirPath mayCreate cwd t (cString path)) t =
      (initPaths (seen ++ ['/']) rest).foldl
        (fun t path => mkdirPath mayCreate cwd t (cString path))
        (mkdirPath mayCreate cwd t (cString seen)) := by
  rw [initPaths]
  by_cases hempty : seen = []
  · rw [if_neg (fun h => h.right hempty), hempty, show cString [] = [] from rfl, mkdirPath_nil]
  · rw [if_pos ⟨rfl, hempty⟩, List.foldl_cons]

variable (mayCreate cwd) in
def MakesPath (base : NodePath) (front cur rest : Str) : Prop :=
  exists made, made <+: components (cString (front ++ cur ++ rest)) ∧
    ((cString (front ++ cur ++ rest)).length < pathMax ->
      made = components (cString (front ++ cur ++ rest))) ∧
    forall t, (initPaths (front ++ cur) rest).foldl
        (fun t path => mkdirPath mayCreate cwd t (cString path))
        (FileTree.makeAll mayCreate base t (components front)).1 =
      (FileTree.makeAll mayCreate base t made).1

variable (mayCreate cwd) in
theorem makesPath_of_long {front cur : Str} (hfront : EndsPart front)
    (hnul : '\x00' ∉ front ++ cur) (hlong : pathMax ≤ (front ++ cur).length) (base : NodePath)
    (rest : Str) : MakesPath mayCreate cwd base front cur rest := by
  refine ⟨components front, ?_, ?_, fun t => foldl_initPaths_long hnul hlong rest _⟩
  · rw [cString_append hnul, List.append_assoc, components_append hfront]
    exact List.prefix_append _ _
  · intro hwhole
    rw [cString_append hnul, List.length_append] at hwhole
    exact absurd (Nat.lt_of_le_of_lt (Nat.le_add_right _ _) hwhole) (Nat.not_lt.mpr hlong)

variable (mayCreate) in
theorem makesPath (rest : Str) {front cur : Str} (hfront : EndsPart front) (hcur : '/' ∉ cur)
    (hnul : '\x00' ∉ front ++ cur) {base : NodePath}
    (hbase : base = pathBase cwd (cString (front ++ cur ++ rest))) :
    MakesPath mayCreate cwd base front cur rest := by
  induction rest generalizing front cur with
  | nil =>
      rcases Nat.lt_or_ge (front ++ cur).length pathMax with hfits | hlong
      case inr => exact makesPath_of_long mayCreate cwd hfront hnul hlong base []
      have hcall := mkdirPath_seen mayCreate hfront hcur (base_of_seen hnul hbase) hfits
      refine ⟨components (cString (front ++ cur ++ [])), List.prefix_rfl, fun _ => rfl, ?_⟩
      intro t
      rw [List.append_nil, cString_of_notMem hnul, initPaths]
      by_cases hempty : front ++ cur = []
      · rw [if_pos hempty, hempty, (List.append_eq_nil_iff.mp hempty).left]
        rfl
      · rw [if_neg hempty, List.foldl_cons, List.foldl_nil, cString_of_notMem hnul]
        exact hcall t
  | cons c rest ih =>
      rcases Nat.lt_or_ge (front ++ cur).length pathMax with hfits | hlong
      case inr => exact makesPath_of_long mayCreate cwd hfront hnul hlong base (c :: rest)
      have hseen := base_of_seen hnul hbase
      have hcall := mkdirPath_seen mayCreate hfront hcur hseen hfits
      by_cases hslash : c = '/'
      · have hnul' : '\x00' ∉ front ++ cur ++ ['/'] ++ [] := by
          rw [List.append_nil]
          exact List.not_mem_append hnul (by decide)
        have htext : front ++ cur ++ c :: rest = front ++ cur ++ ['/'] ++ [] ++ rest := by
          rw [hslash]
          simp only [List.append_assoc, List.append_nil, List.singleton_append]
        have hparts : components (front ++ cur ++ ['/']) = components (front ++ cur) := by
          rw [components_slash, show components [] = [] from rfl, List.append_nil]
        rcases ih (Or.inr ⟨front ++ cur, rfl⟩) List.not_mem_nil hnul' (by rw [hbase, htext]) with
          ⟨made, hmade, hwhole, hcalls⟩
        rw [← htext] at hmade hwhole
        refine ⟨made, hmade, hwhole, ?_⟩
        intro t
        have hnext := hcalls t
        rw [hparts, List.append_nil] at hnext
        rw [hslash, initPaths_slash, cString_of_notMem hnul, hcall]
        exact hnext
      · by_cases hzero : c = '\x00'
        · have hcut : cString (front ++ cur ++ c :: rest) = front ++ cur := by
            rw [hzero, cString_append hnul]
            exact List.append_nil _
          unfold MakesPath
          rw [hcut, hzero, initPaths, if_neg (fun h => absurd h.left (by decide))]
          refine ⟨components (front ++ cur), List.prefix_rfl, fun _ => rfl, ?_⟩
          exact fun t => foldl_mkdirPath_same (hcall t) (mkdirPath_again hseen t)
            (initPaths_ne_nil (by simp) rest) (cString_initPaths hnul rest [])
        · have htext : front ++ cur ++ c :: rest = front ++ (cur ++ [c]) ++ rest := by
            simp only [List.append_assoc, List.singleton_append]
          have hcur' : '/' ∉ cur ++ [c] :=
            List.not_mem_append hcur (fun h => hslash (List.mem_singleton.mp h).symm)
          have hnul' : '\x00' ∉ front ++ (cur ++ [c]) := by
            rw [← List.append_assoc]
            exact List.not_mem_append hnul (fun h => hzero (List.mem_singleton.mp h).symm)
          have hnext := ih hfront hcur' hnul' (by rw [hbase, htext])
          unfold MakesPath at hnext ⊢
          rw [htext, initPaths, if_neg (fun h => hslash h.left), List.append_assoc front cur [c]]
          exact hnext

variable (mayCreate cwd) in
/-- What the loop does: the path leads to a directory exactly when it can be used and all
its directories were there or could be made; whatever else was there is unchanged, what is
new is a directory on the path, and a second loop finds nothing to do. -/
theorem initOutputDir_ready (outputDir : Str) (t : FileTree) :
    let path := cString outputDir
    let base := pathBase cwd path
    let made := initOutputDir mayCreate cwd outputDir t
    ((directoryAt cwd made path).isSome = true <->
        Usable path ∧ t.Makeable mayCreate base (components path)) ∧
      t.Extends mayCreate made ∧
      (forall q, made.node q ≠ t.node q ->
        exists front, front <+: components path ∧ made.walk base front = some q) ∧
      initOutputDir mayCreate cwd outputDir made = made := by
  intro path base made
  have hmakes : MakesPath mayCreate cwd base [] [] outputDir :=
    makesPath mayCreate outputDir (Or.inl rfl) List.not_mem_nil List.not_mem_nil rfl
  rcases hmakes with ⟨names, hnames, hwhole, hcalls⟩
  have hmade : made = (FileTree.makeAll mayCreate base t names).1 := hcalls t
  rw [hmade]
  refine ⟨?_, FileTree.extends_makeAll base t names, ?_, ?_⟩
  · unfold directoryAt
    by_cases husable : Usable path
    · have hpath : names = components path := hwhole husable.right
      rw [if_pos husable, and_iff_right husable, ← hpath, FileTree.walk_makeAll]
      exact FileTree.makeAll_isSome_iff names (FileTree.extends_refl t)
    · rw [if_neg husable]
      exact iff_of_false Bool.false_ne_true (fun h => husable h.left)
  · intro q hq
    rcases FileTree.walk_of_made hq with ⟨front, hfront, hwalk⟩
    exact ⟨front, hfront.trans hnames, hwalk⟩
  · exact (hcalls _).trans (FileTree.makeAll_again base t names)

theorem walk_initOutputDir_iff {outputDir : Str} (husable : Usable (cString outputDir))
    (t : FileTree) :
    ((initOutputDir mayCreate cwd outputDir t).walk (pathBase cwd (cString outputDir))
        (components (cString outputDir))).isSome = true <->
      t.Makeable mayCreate (pathBase cwd (cString outputDir))
        (components (cString outputDir)) := by
  have hready := (initOutputDir_ready mayCreate cwd outputDir t).left
  unfold directoryAt at hready
  rwa [if_pos husable, and_iff_right husable] at hready

end Init

end Worker
end PerfMonitor
