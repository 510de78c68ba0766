import PerfMonitor.Foundation.Numeral
import PerfMonitor.Worker.BpfDiagnoser

/-!
# What a tool is pointed at

`launch_offcpu` and `launch_profile` look the configured names up in `/proc` and pass
`-p` and `-t` to the tool.  A name that is not found adds no argument, and the tool is
started all the same: it then observes every process, under the label of one.
-/

namespace PerfMonitor
namespace Worker

open Foundation

namespace ProcFs

/-!
## Lookups
-/

def matchesComm (comm : Pid -> Option Str) (wanted name : Str) : Bool :=
  isNumeric name && hasComm (comm (parsePid name)) wanted

/-- A directory lists the number, and the name that is read for it is the wanted one. -/
def Listed (names : Option (List Str)) (comm : Pid -> Option Str) (wanted : Str) (pid : Pid) :
    Prop :=
  exists entries, names = some entries ∧
    (exists name, name ∈ entries ∧ isNumeric name = true ∧ parsePid name = pid) ∧
    hasComm (comm pid) wanted = true

def HasProcess (proc : ProcFs) (pid : Pid) (pname : Str) : Prop :=
  Listed proc.names proc.comm pname pid

def HasThread (proc : ProcFs) (pid tid : Pid) (tname : Str) : Prop :=
  Listed (proc.tasks pid) (proc.taskComm pid) tname tid

def FirstListed (names : Option (List Str)) (comm : Pid -> Option Str) (wanted : Str)
    (pid : Pid) : Prop :=
  exists before name after, names = some (before ++ name :: after) ∧
    (forall other, other ∈ before -> matchesComm comm wanted other = false) ∧
    matchesComm comm wanted name = true ∧ parsePid name = pid

/-- There is a process with the name, and the first one has a thread with the name of
the thread, if that is given. -/
def Found (proc : ProcFs) (process thread : Str) : Prop :=
  exists pid, 0 < pid ∧ FirstListed proc.names proc.comm process pid ∧
    (thread ≠ [] -> exists tid, 0 < tid ∧
      FirstListed (proc.tasks pid) (proc.taskComm pid) thread tid)

theorem hasComm_kernel_iff {name : Str} (hlength : name.length ≤ 15) (hnul : '\x00' ∉ name)
    (wanted : Str) : hasComm (some (name ++ ['\n'])) wanted = true <-> name = wanted := by
  have hstring : commString (name ++ ['\n']) = name := by
    unfold commString
    have htake : (name ++ ['\n']).take 255 = name ++ ['\n'] := by
      apply List.take_of_length_le
      rw [List.length_append, List.length_singleton]
      omega
    have hspan : (name ++ ['\n']).takeWhile (fun c => decide (c ≠ '\x00')) = name ++ ['\n'] := by
      apply List.takeWhile_eq_self_iff.mpr
      intro c hc
      rcases List.mem_append.mp hc with hname | hnewline
      · exact decide_eq_true (fun heq => hnul (heq ▸ hname))
      · rw [List.mem_singleton.mp hnewline]
        decide
    rw [htake, hspan]
    dsimp only
    rw [List.getLast?_concat, if_pos rfl, List.dropLast_concat]
  cases hcontent : name ++ ['\n'] with
  | nil => simp at hcontent
  | cons c rest =>
      show decide (commString (c :: rest) = wanted) = true <-> _
      rw [← hcontent, hstring]
      exact decide_eq_true_iff

section Lookup

variable {names : Option (List Str)} {comm : Pid -> Option Str} {wanted : Str}

theorem FirstListed.listed {pid : Pid} (h : FirstListed names comm wanted pid) :
    Listed names comm wanted pid := by
  rcases h with ⟨before, name, after, hnames, _, hmatch, hpid⟩
  rw [matchesComm, Bool.and_eq_true, hpid] at hmatch
  exact ⟨_, hnames, ⟨name, by simp, hmatch.left, hpid⟩, hmatch.right⟩

theorem findByComm_append_cons {before after : List Str} {name : Str}
    (hbefore : forall other, other ∈ before -> matchesComm comm wanted other = false)
    (hname : matchesComm comm wanted name = true) :
    findByComm comm wanted (before ++ name :: after) = parsePid name := by
  induction before with
  | nil => exact if_pos hname
  | cons first rest ih =>
      have hfirst := hbefore first List.mem_cons_self
      unfold matchesComm at hfirst
      rw [List.cons_append, findByComm, hfirst]
      exact ih (fun other hother => hbefore other (List.mem_cons_of_mem _ hother))

theorem exists_first_of_findByComm {entries : List Str}
    (h : findByComm comm wanted entries ≠ 0) :
    exists before name after, entries = before ++ name :: after ∧
      (forall other, other ∈ before -> matchesComm comm wanted other = false) ∧
      matchesComm comm wanted name = true := by
  induction entries with
  | nil => exact absurd rfl h
  | cons first rest ih =>
      cases hfirst : matchesComm comm wanted first with
      | true => exact ⟨[], first, rest, rfl, by simp, hfirst⟩
      | false =>
          have hrest : findByComm comm wanted (first :: rest) = findByComm comm wanted rest := by
            unfold matchesComm at hfirst
            rw [findByComm, hfirst]
            rfl
          rw [hrest] at h
          rcases ih h with ⟨before, name, after, heq, hbefore, hname⟩
          refine ⟨first :: before, name, after, by rw [heq]; rfl, ?_, hname⟩
          rw [List.forall_mem_cons]
          exact ⟨hfirst, hbefore⟩

def lookup (names : Option (List Str)) (comm : Pid -> Option Str) (wanted : Str) : Pid :=
  match names with
  | none => 0
  | some entries => findByComm comm wanted entries

theorem lookup_eq_of_firstListed {pid : Pid} (h : FirstListed names comm wanted pid) :
    lookup names comm wanted = pid := by
  rcases h with ⟨before, name, after, hnames, hbefore, hmatch, hpid⟩
  rw [hnames, ← hpid]
  exact findByComm_append_cons hbefore hmatch

theorem firstListed_lookup (h : 0 < lookup names comm wanted) :
    FirstListed names comm wanted (lookup names comm wanted) := by
  cases hnames : names with
  | none =>
      rw [hnames] at h
      exact absurd h (Int.lt_irrefl 0)
  | some entries =>
      rw [hnames] at h
      rcases exists_first_of_findByComm (Int.ne_of_gt h) with
        ⟨before, name, after, heq, hbefore, hmatch⟩
      refine ⟨before, name, after, by rw [heq], hbefore, hmatch, ?_⟩
      rw [heq]
      exact (findByComm_append_cons hbefore hmatch).symm

end Lookup

theorem readTidByName_eq {proc : ProcFs} {pname : Str} (hpid : 0 < proc.readPidByName pname)
    (tname : Str) :
    proc.readTidByName pname tname =
      lookup (proc.tasks (proc.readPidByName pname)) (proc.taskComm (proc.readPidByName pname))
        tname :=
  if_neg (Int.ne_of_gt hpid)

theorem found_iff (proc : ProcFs) (process thread : Str) :
    proc.Found process thread <->
      0 < proc.readPidByName process ∧
        (thread ≠ [] -> 0 < proc.readTidByName process thread) := by
  constructor
  · rintro ⟨pid, hpos, hfirst, hthread⟩
    have hpid : proc.readPidByName process = pid := lookup_eq_of_firstListed hfirst
    have hread : 0 < proc.readPidByName process := by
      rw [hpid]
      exact hpos
    refine ⟨hread, ?_⟩
    intro hne
    rcases hthread hne with ⟨tid, htid, hfirst'⟩
    rw [readTidByName_eq hread, hpid, lookup_eq_of_firstListed hfirst']
    exact htid
  · rintro ⟨hpid, htid⟩
    refine ⟨proc.readPidByName process, hpid, firstListed_lookup hpid, ?_⟩
    intro hne
    have hread := htid hne
    rw [readTidByName_eq hpid] at hread
    exact ⟨_, hread, firstListed_lookup hread⟩

end ProcFs

namespace BpfDiagnoser

/-!
## Arguments
-/

/-- The tool observes only what its event is labelled with: the named process, the
named thread of it, and the whole system only if no process is named. -/
structure ObservesOnly (proc : ProcFs) (process thread : Str) (args : List Str) : Prop where
  filtered : process ≠ [] -> exists pid, ["-p".toList, decimal pid] <:+: args ∧
    proc.HasProcess pid process ∧
    (thread ≠ [] -> exists tid, ["-t".toList, decimal tid] <:+: args ∧
      proc.HasThread pid tid thread)
  systemWide : (forall pid, ¬ ["-p".toList, decimal pid] <:+: args) -> process = []

def Starts (s s' : BpfDiagnoser) (cmd : Command) : Prop :=
  exists pid later, 0 < pid ∧ s'.os.log = s.os.log ++ .fork cmd pid :: later

def pidPairs (proc : ProcFs) (process : Str) : List (Str × Str) :=
  if process = [] then []
  else if 0 < proc.readPidByName process then
    [("-p".toList, decimal (proc.readPidByName process))]
  else []

def tidPairs (proc : ProcFs) (process thread : Str) : List (Str × Str) :=
  if thread = [] ∨ process = [] then []
  else if 0 < proc.readTidByName process thread then
    [("-t".toList, decimal (proc.readTidByName process thread))]
  else []

def flat (pairs : List (Str × Str)) : List Str :=
  pairs.flatMap (fun p => [p.1, p.2])

theorem pidArgs_eq (proc : ProcFs) (process : Str) :
    pidArgs proc process = flat (pidPairs proc process) := by
  unfold pidArgs pidPairs
  split
  · rfl
  · split
    next hpid => exact if_pos hpid
    next hpid => exact if_neg hpid

theorem tidArgs_eq (proc : ProcFs) (process thread : Str) :
    tidArgs proc process thread = flat (tidPairs proc process thread) := by
  unfold tidArgs tidPairs
  split
  · rfl
  · split
    next htid => exact if_pos htid
    next htid => exact if_neg htid

theorem ne_decimal_of_letter {option : Str} {c : Char} (hc : c ∈ option)
    (hletter : isDigit c = false) (hminus : c ≠ '-') (n : Int) : option ≠ decimal n := by
  intro heq
  rw [heq] at hc
  rcases mem_intToString hc with hdigit | hdash
  · rw [hletter] at hdigit
    cases hdigit
  · exact hminus hdash

/-- The options of a tool other than `-p` and `-t`: each of them has a letter. -/
structure PlainOptions (pairs : List (Str × Str)) : Prop where
  letter : forall p, p ∈ pairs -> exists c, c ∈ p.1 ∧ isDigit c = false ∧ c ≠ '-'
  process : forall p, p ∈ pairs -> p.1 ≠ "-p".toList
  thread : forall p, p ∈ pairs -> p.1 ≠ "-t".toList

section Arguments

variable {pairs : List (Str × Str)} (hplain : PlainOptions pairs) (proc : ProcFs)
  (process thread : Str)

def allPairs (pairs : List (Str × Str)) (proc : ProcFs) (process thread : Str) :
    List (Str × Str) :=
  pairs ++ pidPairs proc process ++ tidPairs proc process thread

theorem args_eq :
    flat pairs ++ pidArgs proc process ++ tidArgs proc process thread =
      flat (allPairs pairs proc process thread) := by
  unfold allPairs
  rw [pidArgs_eq, tidArgs_eq]
  unfold flat
  rw [List.flatMap_append, List.flatMap_append]

theorem mem_pidPairs {p : Str × Str} :
    p ∈ pidPairs proc process <->
      process ≠ [] ∧ 0 < proc.readPidByName process ∧
        p = ("-p".toList, decimal (proc.readPidByName process)) := by
  unfold pidPairs
  split
  next hprocess => simp [hprocess]
  next hprocess =>
    split
    next hpid => simp [hprocess, hpid]
    next hpid => simp [hpid]

theorem mem_tidPairs {p : Str × Str} :
    p ∈ tidPairs proc process thread <->
      (thread ≠ [] ∧ process ≠ []) ∧ 0 < proc.readTidByName process thread ∧
        p = ("-t".toList, decimal (proc.readTidByName process thread)) := by
  unfold tidPairs
  rw [← not_or]
  split
  next hempty => simp [hempty]
  next hempty =>
    split
    next htid => simp [hempty, htid]
    next htid => simp [htid]

include hplain

theorem ne_decimal_of_mem {p : Str × Str} (hp : p ∈ allPairs pairs proc process thread)
    (n : Int) : p.1 ≠ decimal n := by
  unfold allPairs at hp
  rcases List.mem_append.mp hp with hp | htid
  · rcases List.mem_append.mp hp with hplainPair | hpid
    · rcases hplain.letter p hplainPair with ⟨c, hc, hletter, hminus⟩
      exact ne_decimal_of_letter hc hletter hminus n
    · rw [((mem_pidPairs proc process).mp hpid).right.right]
      exact ne_decimal_of_letter (show 'p' ∈ "-p".toList by decide) (by decide) (by decide) n
  · rw [((mem_tidPairs proc process thread).mp htid).right.right]
    exact ne_decimal_of_letter (show 't' ∈ "-t".toList by decide) (by decide) (by decide) n

theorem infix_pid_iff (pid : Pid) :
    ["-p".toList, decimal pid] <:+: flat (allPairs pairs proc process thread) <->
      process ≠ [] ∧ 0 < proc.readPidByName process ∧ pid = proc.readPidByName process := by
  unfold flat
  rw [infix_flatMap_pair_iff (fun p hp => ne_decimal_of_mem hplain proc process thread hp pid)]
  unfold allPairs
  rw [List.mem_append, List.mem_append, mem_pidPairs, mem_tidPairs]
  constructor
  · rintro ((hmem | ⟨hprocess, hpos, heq⟩) | ⟨_, _, heq⟩)
    · exact absurd rfl (hplain.process _ hmem)
    · exact ⟨hprocess, hpos, intToString_injective (Prod.ext_iff.mp heq).right⟩
    · have hoption : "-p".toList = "-t".toList := (Prod.ext_iff.mp heq).left
      exact absurd hoption (by decide)
  · rintro ⟨hprocess, hpos, heq⟩
    rw [heq]
    exact Or.inl (Or.inr ⟨hprocess, hpos, rfl⟩)

theorem infix_tid_iff (tid : Pid) :
    ["-t".toList, decimal tid] <:+: flat (allPairs pairs proc process thread) <->
      (thread ≠ [] ∧ process ≠ []) ∧ 0 < proc.readTidByName process thread ∧
        tid = proc.readTidByName process thread := by
  unfold flat
  rw [infix_flatMap_pair_iff (fun p hp => ne_decimal_of_mem hplain proc process thread hp tid)]
  unfold allPairs
  rw [List.mem_append, List.mem_append, mem_pidPairs, mem_tidPairs]
  constructor
  · rintro ((hmem | ⟨_, _, heq⟩) | ⟨hboth, hpos, heq⟩)
    · exact absurd rfl (hplain.thread _ hmem)
    · have hoption : "-t".toList = "-p".toList := (Prod.ext_iff.mp heq).left
      exact absurd hoption (by decide)
    · exact ⟨hboth, hpos, intToString_injective (Prod.ext_iff.mp heq).right⟩
  · rintro ⟨hboth, hpos, heq⟩
    rw [heq]
    exact Or.inr ⟨hboth, hpos, rfl⟩

theorem observesOnly_args_iff :
    ObservesOnly proc process thread
        (flat pairs ++ pidArgs proc process ++ tidArgs proc process thread) <->
      (process ≠ [] -> proc.Found process thread) := by
  rw [args_eq]
  constructor
  · intro h hprocess
    rcases h.filtered hprocess with ⟨pid, hpid, _, hthread⟩
    rw [infix_pid_iff hplain] at hpid
    rw [ProcFs.found_iff]
    refine ⟨hpid.right.left, ?_⟩
    intro hne
    rcases hthread hne with ⟨tid, htid, _⟩
    rw [infix_tid_iff hplain] at htid
    exact htid.right.left
  · intro hfound
    constructor
    · intro hprocess
      have hreads := (proc.found_iff process thread).mp (hfound hprocess)
      have hfirst := ProcFs.firstListed_lookup hreads.left
      refine ⟨proc.readPidByName process, ?_, hfirst.listed, ?_⟩
      · rw [infix_pid_iff hplain]
        exact ⟨hprocess, hreads.left, rfl⟩
      · intro hne
        have hread := hreads.right hne
        have htid : ["-t".toList, decimal (proc.readTidByName process thread)] <:+:
            flat (allPairs pairs proc process thread) := by
          rw [infix_tid_iff hplain]
          exact ⟨⟨hne, hprocess⟩, hread, rfl⟩
        refine ⟨proc.readTidByName process thread, htid, ?_⟩
        rw [ProcFs.readTidByName_eq hreads.left] at hread ⊢
        exact (ProcFs.firstListed_lookup hread).listed
    · intro hnone
      by_contra hprocess
      have hreads := (proc.found_iff process thread).mp (hfound hprocess)
      apply hnone (proc.readPidByName process)
      rw [infix_pid_iff hplain]
      exact ⟨hprocess, hreads.left, rfl⟩

end Arguments

/-!
## Launches
-/

theorem log_prefix_destroy (w : World) (cause : StopCause) (runner : CmdRunner) (os : Os) :
    os.log <+: (runner.destroy w cause os).log := by
  unfold CmdRunner.destroy
  by_cases hpid : runner.pid ≤ 0
  · exact ⟨[], by rw [CmdRunner.stop_of_nonpos hpid, List.append_nil]⟩
  · rw [CmdRunner.log_stop_of_pos (Int.not_le.mp hpid)]
    exact List.prefix_append os.log _

theorem log_prefix_foldl_destroy (w : World) (cause : StopCause) (runners : List CmdRunner)
    (os : Os) : os.log <+: (runners.foldl (CmdRunner.destroy w cause) os).log := by
  induction runners generalizing os with
  | nil => exact List.prefix_refl os.log
  | cons runner rest ih => exact (log_prefix_destroy w cause runner os).trans (ih _)

theorem log_prefix_pushBack (w : World) (mode : Handover) (s : BpfDiagnoser)
    (entry : RunnerEntry) : s.os.log <+: (pushBack w mode s entry).os.log := by
  unfold pushBack
  split
  · exact List.prefix_refl s.os.log
  · exact log_prefix_foldl_destroy w .growth _ s.os

section Launches

variable (w : World) (mode : Handover) (s : BpfDiagnoser)

theorem starts_launchTool_iff (kind : ToolKind) (process thread : Str)
    (options : Str -> List Str) (cmd : Command) :
    Starts s (launchTool w mode s kind process thread options) cmd <->
      0 < s.os.nextChild w ∧ cmd = nextCommand w s kind process thread options := by
  rcases Os.nextChild_cases w s.os with hfork | hfork
  · rw [launchTool_of_noChild w mode s kind process thread options hfork, hfork]
    constructor
    · rintro ⟨pid, later, hpid, hlog⟩
      injection List.append_cancel_left hlog with hcall _
      injection hcall with _ hanswer
      rw [← hanswer] at hpid
      exact absurd hpid (by decide)
    · rintro ⟨hpos, _⟩
      exact absurd hpos (by decide)
  · have hlog : s.os.log ++ [.fork (nextCommand w s kind process thread options)
        (s.os.nextChild w)] <+: (launchTool w mode s kind process thread options).os.log := by
      have hpushed := log_prefix_pushBack w mode
        { s with
          os := forked w s kind process thread options
          disk := CmdRunner.childOpen w s.os (nextOut w s kind process thread) s.disk }
        (nextEntry w s kind process thread)
      rw [launchTool_of_child w mode s kind process thread options hfork]
      exact hpushed.trans (log_prefix_foldl_destroy w .launch _ _)
    rcases hlog with ⟨later, hlater⟩
    rw [List.append_assoc] at hlater
    constructor
    · rintro ⟨pid, later', _, hlog⟩
      rw [← hlater] at hlog
      injection List.append_cancel_left hlog with hcall _
      injection hcall with hcmd _
      exact ⟨hfork, hcmd.symm⟩
    · rintro ⟨_, hcmd⟩
      rw [hcmd]
      exact ⟨_, later, hfork, hlater.symm⟩

theorem observesOnly_launchTool_iff (kind : ToolKind) (process thread : Str)
    {options : Str -> List Str} (pairs : Str -> List (Str × Str))
    (hoptions : forall out, options out = flat (pairs out))
    (hplain : forall out, PlainOptions (pairs out)) :
    (forall cmd, Starts s (launchTool w mode s kind process thread options) cmd ->
        ObservesOnly (w.proc s.os.forks) process thread cmd.args) <->
      (0 < s.os.nextChild w -> process ≠ [] -> (w.proc s.os.forks).Found process thread) := by
  have hargs : (nextCommand w s kind process thread options).args =
      flat (pairs (nextOut w s kind process thread)) ++ pidArgs (w.proc s.os.forks) process ++
        tidArgs (w.proc s.os.forks) process thread := by
    rw [← hoptions]
    rfl
  have hone := observesOnly_args_iff (hplain (nextOut w s kind process thread))
    (w.proc s.os.forks) process thread
  rw [← hargs] at hone
  constructor
  · intro h hfork
    apply hone.mp
    apply h
    exact (starts_launchTool_iff w mode s kind process thread options _).mpr ⟨hfork, rfl⟩
  · intro h cmd hstarts
    rcases (starts_launchTool_iff w mode s kind process thread options cmd).mp hstarts with
      ⟨hfork, hcmd⟩
    rw [hcmd]
    exact hone.mpr (h hfork)

def offcpuPairs (cfg : OffcpuConfig) (limitFileSizeMb : Int) (out : Str) : List (Str × Str) :=
  [("-m".toList, decimal cfg.minBlockUs), ("-M".toList, decimal cfg.maxBlockUs),
    ("-o".toList, out), ("-i".toList, decimal cfg.intervalS),
    ("-S".toList, decimal limitFileSizeMb)]

def profilePairs (cfg : ProfileConfig) (out : Str) : List (Str × Str) :=
  [("-N".toList, decimal cfg.maxNr), ("-M".toList, decimal cfg.maxSizeKb),
    ("-C".toList, cfg.cpus), ("-o".toList, out)]

theorem plainOptions_of_keys {pairs : List (Str × Str)}
    (h : (pairs.map Prod.fst).all (fun key =>
      key.any (fun c => !isDigit c && c != '-') && key != "-p".toList &&
        key != "-t".toList) = true) :
    PlainOptions pairs := by
  have hall : forall p, p ∈ pairs ->
      (exists c, c ∈ p.1 ∧ isDigit c = false ∧ c ≠ '-') ∧ p.1 ≠ "-p".toList ∧
        p.1 ≠ "-t".toList := by
    intro p hp
    have hkey := List.all_eq_true.mp h p.1 (List.mem_map_of_mem hp)
    simp only [Bool.and_eq_true, List.any_eq_true, bne_iff_ne, Bool.not_eq_true'] at hkey
    exact ⟨hkey.left.left, hkey.left.right, hkey.right⟩
  exact ⟨fun p hp => (hall p hp).left, fun p hp => (hall p hp).right.left,
    fun p hp => (hall p hp).right.right⟩

/-- A started tool observes only what it is labelled with exactly when no process is
named, or one with the name is found, and in it a thread with the name of the thread if
that is given. -/
theorem observesOnly_iff_found :
    (forall cfg : OffcpuConfig,
      (forall cmd, Starts s (s.launchOffcpu w mode cfg) cmd ->
          ObservesOnly (w.proc s.os.forks) cfg.process cfg.thread cmd.args) <->
        (0 < s.os.nextChild w -> cfg.process ≠ [] ->
          (w.proc s.os.forks).Found cfg.process cfg.thread)) ∧
    (forall cfg : ProfileConfig,
      (forall cmd, Starts s (s.launchProfile w mode cfg) cmd ->
          ObservesOnly (w.proc s.os.forks) cfg.process cfg.thread cmd.args) <->
        (0 < s.os.nextChild w -> cfg.process ≠ [] ->
          (w.proc s.os.forks).Found cfg.process cfg.thread)) := by
  constructor
  · intro cfg
    apply observesOnly_launchTool_iff w mode s .offcpu cfg.process cfg.thread
      (offcpuPairs cfg s.settings.limitFileSizeMb) (fun _ => rfl)
    intro out
    exact plainOptions_of_keys (by rfl)
  · intro cfg
    apply observesOnly_launchTool_iff w mode s .profile cfg.process cfg.thread
      (profilePairs cfg) (fun _ => rfl)
    intro out
    exact plainOptions_of_keys (by rfl)

end Launches

/-- An empty `/proc`, and a `fork` that succeeds. -/
def emptyProc : World where
  fork _ := 7
  proc _ := { names := some [] }

/-- The process is not there: the tool is started without `-p`. -/
theorem absentProcess_observes_all :
    ¬ forall cmd, Starts (fresh {} ∅)
        ((fresh {} ∅).launchOffcpu emptyProc .copy { process := "nginx".toList }) cmd ->
      ObservesOnly (emptyProc.proc 0) "nginx".toList [] cmd.args := by
  intro h
  have hstarts := starts_launchTool_iff emptyProc .copy (fresh {} ∅) .offcpu
    "nginx".toList []
  have hobserves := h _ ((hstarts _ _).mpr ⟨by decide, rfl⟩)
  rcases hobserves.filtered (by decide) with ⟨pid, _, hprocess, _⟩
  rcases hprocess with ⟨entries, hentries, ⟨name, hname, _⟩, _⟩
  injection hentries with hentries
  rw [← hentries] at hname
  cases hname

end BpfDiagnoser

end Worker
end PerfMonitor
