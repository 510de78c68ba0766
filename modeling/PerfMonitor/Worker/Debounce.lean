import Mathlib.Data.Rat.Floor
import Mathlib.Tactic.Linarith
import PerfMonitor.Worker.PerfRecordings

/-!
# The debounce timer

A recording is meant for a process whose CPU usage was above the threshold for some
consecutive seconds.  `worker_loop` counts in steps of five seconds, one for every
iteration of the loop, and keeps a timer for each target.  This module writes down
which percentages were computed and which recordings launched, by iteration.  A
timer speaks for consecutive iterations as long as no target is passed over while
its timer runs, and none is counted twice in one iteration.
-/

namespace PerfMonitor
namespace Worker

open Foundation

/-- The loop with the number of its current iteration, the percentages computed so
far and the recordings launched so far. -/
structure PerfTrace where
  diag : PerfDiagnoser := {}
  iteration : Int := 0
  samples : List (Int × Str × Rat) := []
  launches : List (Int × Str) := []

namespace PerfTrace

def step (w : World) (mode : Handover) (s : PerfTrace) : PerfOp -> PerfTrace
  | .beginLoop nowWall =>
      { s with
        diag := s.diag.beginLoop w nowWall
        iteration :=
          if s.diag.alive = true ∧ s.diag.todo = [] then s.iteration + 1 else s.iteration }
  | .scan inp =>
      let (after, started) := s.diag.scan w mode inp
      { s with
        diag := after
        samples := s.samples ++
          ((s.diag.validSample inp).map (fun sample => (s.iteration, sample))).toList
        launches := s.launches ++ (started.map (fun r => (s.iteration, r.processName))).toList }
  | .reset => { s with diag := s.diag.reset }
  | .output path st => { s with diag := { s.diag with disk := s.diag.disk.insert path st } }

def fresh (settings : PerfSettings) (disk : Disk) : PerfTrace where
  diag := { settings := settings, disk := disk }

def Counted (s : PerfTrace) (i : Int) (procName : Str) : Prop :=
  exists pct, (i, procName, pct) ∈ s.samples ∧ (s.diag.settings.cpuThresholdPct : Rat) ≤ pct

/-- The number of iterations that make up the configured duration. -/
def iterations (settings : PerfSettings) : Int :=
  max 1 ⌈(settings.overflowDurationS : Rat) / 5⌉

/-- Every recording was launched at the end of enough consecutive iterations above
the threshold. -/
def DebounceSound (s : PerfTrace) : Prop :=
  forall n procName, (n, procName) ∈ s.launches ->
    forall i, n - iterations s.diag.settings + 1 ≤ i -> i ≤ n -> s.Counted i procName

/-- What a scan finds of its target: either it computes no percentage, and then the
timer of the target does not run or the target was counted already; or it computes
one that counts, for the first time in the iteration; or it computes one that is
too low, and the duration is positive.  With a duration of at most five seconds one
iteration is enough, and only the last part matters. -/
def Unbroken (s : PerfTrace) : PerfOp -> Prop
  | .beginLoop _ => True
  | .scan inp =>
      match s.diag.validSample inp with
      | none => 5 < s.diag.settings.overflowDurationS -> s.diag.alive = true ->
          forall procName, procName ∈ s.diag.todo.head? ->
            s.diag.overflowTimers (PerfDiagnoser.tagOf procName) = 0 ∨
              s.Counted s.iteration procName
      | some (procName, cpuPct) =>
          if (s.diag.settings.cpuThresholdPct : Rat) ≤ cpuPct then
            5 < s.diag.settings.overflowDurationS -> ¬ s.Counted s.iteration procName
          else 0 < s.diag.settings.overflowDurationS
  | .reset => True
  | .output _ _ => True

instance (s : PerfTrace) (i : Int) (procName : Str) : Decidable (s.Counted i procName) :=
  decidable_of_iff
    (exists entry, entry ∈ s.samples ∧ entry.1 = i ∧ entry.2.1 = procName ∧
      (s.diag.settings.cpuThresholdPct : Rat) ≤ entry.2.2)
    (by
      constructor
      · rintro ⟨⟨_, _, pct⟩, hmem, rfl, rfl, hpct⟩
        exact ⟨pct, hmem, hpct⟩
      · rintro ⟨pct, hmem, hpct⟩
        exact ⟨_, hmem, rfl, rfl, hpct⟩)

instance (s : PerfTrace) (op : PerfOp) : Decidable (s.Unbroken op) :=
  match op with
  | .beginLoop _ => isTrue trivial
  | .scan inp =>
      match hsample : s.diag.validSample inp with
      | none =>
          decidable_of_iff
            (5 < s.diag.settings.overflowDurationS -> s.diag.alive = true ->
              forall procName, procName ∈ s.diag.todo.head? ->
                s.diag.overflowTimers (PerfDiagnoser.tagOf procName) = 0 ∨
                  s.Counted s.iteration procName)
            (by simp only [Unbroken, hsample])
      | some (procName, cpuPct) =>
          decidable_of_iff
            (if (s.diag.settings.cpuThresholdPct : Rat) ≤ cpuPct then
              5 < s.diag.settings.overflowDurationS -> ¬ s.Counted s.iteration procName
            else 0 < s.diag.settings.overflowDurationS)
            (by simp only [Unbroken, hsample])
  | .reset => isTrue trivial
  | .output _ _ => isTrue trivial

/-!
## What a timer says
-/

/-- The timer of the process is five times a number of iterations in which the
process was counted, as an `int`: up to the current one, or up to the one before if the
process is still to be scanned. -/
def Tracks (s : PerfTrace) (procName : Str) : Prop :=
  exists m : Nat,
    s.diag.overflowTimers (PerfDiagnoser.tagOf procName) = Int.bmod (5 * m) (2 ^ 32) ∧
    ((forall i, s.iteration - m < i -> i ≤ s.iteration -> s.Counted i procName) ∨
      (procName ∈ s.diag.todo ∧
        forall i, s.iteration - m ≤ i -> i < s.iteration -> s.Counted i procName))

structure Invariant (s : PerfTrace) : Prop where
  todo : forall procName, procName ∈ s.diag.todo -> procName ∈ s.diag.settings.targetProcesses
  targets : forall procName,
    s.diag.overflowTimers (PerfDiagnoser.tagOf procName) ≠ 0 ->
      procName ∈ s.diag.settings.targetProcesses
  tracks : 5 < s.diag.settings.overflowDurationS -> forall procName, s.Tracks procName
  sound : s.DebounceSound

theorem tracks_zero {s : PerfTrace} {procName : Str}
    (h : s.diag.overflowTimers (PerfDiagnoser.tagOf procName) = 0) : s.Tracks procName := by
  refine ⟨0, h, Or.inl ?_⟩
  intro i hfrom hto
  exfalso
  simp only [Nat.cast_zero, sub_zero] at hfrom
  exact absurd hto (not_le.mpr hfrom)

section Steps

variable (w : World) (mode : Handover)

theorem settings_step (s : PerfTrace) (op : PerfOp) :
    (s.step w mode op).diag.settings = s.diag.settings := by
  cases op with
  | beginLoop nowWall =>
      show (s.diag.beginLoop w nowWall).settings = s.diag.settings
      unfold PerfDiagnoser.beginLoop
      split
      · exact (PerfDiagnoser.checkRunner_frame w s.diag).left
      · rfl
  | scan inp =>
      cases hsample : s.diag.validSample inp with
      | none => exact (PerfDiagnoser.scan_frame_of_noSample w mode s.diag inp hsample).left
      | some sample =>
          rcases PerfDiagnoser.scan_frame_of_sample w mode s.diag inp hsample with
            ⟨_, _, _, hsettings, _⟩
          exact hsettings
  | reset => rfl
  | output path st => rfl

theorem mem_samples_step {s : PerfTrace} {entry : Int × Str × Rat} (h : entry ∈ s.samples)
    (op : PerfOp) : entry ∈ (s.step w mode op).samples := by
  cases op with
  | beginLoop nowWall => exact h
  | scan inp => exact List.mem_append_left _ h
  | reset => exact h
  | output path st => exact h

theorem counted_step {s : PerfTrace} {i : Int} {procName : Str} (h : s.Counted i procName)
    (op : PerfOp) : (s.step w mode op).Counted i procName := by
  rcases h with ⟨pct, hmem, hpct⟩
  refine ⟨pct, mem_samples_step w mode hmem op, ?_⟩
  rw [settings_step]
  exact hpct

theorem sound_of_mem_launches {s : PerfTrace} (h : s.DebounceSound) (op : PerfOp) {n : Int}
    {procName : Str} (hmem : (n, procName) ∈ s.launches) :
    forall i, n - iterations (s.step w mode op).diag.settings + 1 ≤ i -> i ≤ n ->
      (s.step w mode op).Counted i procName := by
  intro i hfrom hto
  rw [settings_step] at hfrom
  exact counted_step w mode (h n procName hmem i hfrom hto) op

theorem invariant_of_same {s : PerfTrace} (h : s.Invariant) (op : PerfOp)
    (htodo : (s.step w mode op).diag.todo = s.diag.todo)
    (htimers : (s.step w mode op).diag.overflowTimers = s.diag.overflowTimers)
    (hiteration : (s.step w mode op).iteration = s.iteration)
    (hlaunches : (s.step w mode op).launches = s.launches) :
    (s.step w mode op).Invariant := by
  constructor
  · rw [htodo, settings_step]
    exact h.todo
  · rw [htimers, settings_step]
    exact h.targets
  · rw [settings_step]
    intro hlong procName
    rcases h.tracks hlong procName with ⟨m, htimer, hcounted⟩
    refine ⟨m, ?_, ?_⟩
    · rw [htimers]
      exact htimer
    · rw [hiteration, htodo]
      rcases hcounted with hdone | ⟨hwaits, hbefore⟩
      · left
        intro i hfrom hto
        exact counted_step w mode (hdone i hfrom hto) op
      · right
        refine ⟨hwaits, ?_⟩
        intro i hfrom hto
        exact counted_step w mode (hbefore i hfrom hto) op
  · intro n procName hmem
    rw [hlaunches] at hmem
    exact sound_of_mem_launches w mode h.sound op hmem

theorem tracks_begun {s : PerfTrace} (h : s.Invariant) {nowWall : UInt64}
    (htodo : (s.step w mode (.beginLoop nowWall)).diag.todo = s.diag.settings.targetProcesses)
    (htimers : (s.step w mode (.beginLoop nowWall)).diag.overflowTimers = s.diag.overflowTimers)
    (hiteration : (s.step w mode (.beginLoop nowWall)).iteration = s.iteration + 1)
    (hempty : s.diag.todo = []) {procName : Str} (htracks : s.Tracks procName) :
    (s.step w mode (.beginLoop nowWall)).Tracks procName := by
  by_cases hzero : s.diag.overflowTimers (PerfDiagnoser.tagOf procName) = 0
  · apply tracks_zero
    rw [htimers]
    exact hzero
  · rcases htracks with ⟨m, htimer, hcounted⟩
    rcases hcounted with hdone | ⟨hwaits, _⟩
    · refine ⟨m, ?_, Or.inr ⟨?_, ?_⟩⟩
      · rw [htimers]
        exact htimer
      · rw [htodo]
        exact h.targets procName hzero
      · rw [hiteration]
        intro i hfrom hto
        exact counted_step w mode (hdone i (by omega) (by omega)) _
    · rw [hempty] at hwaits
      cases hwaits

theorem invariant_beginLoop {s : PerfTrace} (h : s.Invariant) (nowWall : UInt64) :
    (s.step w mode (.beginLoop nowWall)).Invariant := by
  by_cases hready : s.diag.alive = true ∧ s.diag.todo = []
  · have htodo : (s.step w mode (.beginLoop nowWall)).diag.todo =
        s.diag.settings.targetProcesses := by
      show (s.diag.beginLoop w nowWall).todo = _
      unfold PerfDiagnoser.beginLoop
      rw [if_pos hready]
    have htimers : (s.step w mode (.beginLoop nowWall)).diag.overflowTimers =
        s.diag.overflowTimers := by
      show (s.diag.beginLoop w nowWall).overflowTimers = _
      unfold PerfDiagnoser.beginLoop
      rw [if_pos hready]
      exact (PerfDiagnoser.checkRunner_frame w s.diag).right.left
    have hiteration : (s.step w mode (.beginLoop nowWall)).iteration = s.iteration + 1 :=
      if_pos hready
    constructor
    · rw [htodo, settings_step]
      exact fun _ hmem => hmem
    · rw [htimers, settings_step]
      exact h.targets
    · rw [settings_step]
      intro hlong procName
      exact tracks_begun w mode h htodo htimers hiteration hready.right (h.tracks hlong procName)
    · intro n procName hmem
      exact sound_of_mem_launches w mode h.sound _ hmem
  · apply invariant_of_same w mode h
    · show (s.diag.beginLoop w nowWall).todo = _
      unfold PerfDiagnoser.beginLoop
      rw [if_neg hready]
    · show (s.diag.beginLoop w nowWall).overflowTimers = _
      unfold PerfDiagnoser.beginLoop
      rw [if_neg hready]
    · exact if_neg hready
    · rfl

theorem launches_of_noSample {s : PerfTrace} {inp : ScanInput}
    (hnone : s.diag.validSample inp = none) :
    (s.step w mode (.scan inp)).launches = s.launches := by
  have hquiet := (PerfDiagnoser.scan_of_noSample w mode s.diag inp hnone).left
  show s.launches ++ ((s.diag.scan w mode inp).2.map _).toList = s.launches
  rw [hquiet]
  exact List.append_nil s.launches

theorem tracks_passed_self {s : PerfTrace} {inp : ScanInput} {procName : Str} {m : Nat}
    (htimer : (s.step w mode (.scan inp)).diag.overflowTimers (PerfDiagnoser.tagOf procName) =
      Int.bmod (5 * m) (2 ^ 32))
    (hbefore : forall i, s.iteration - m ≤ i -> i < s.iteration -> s.Counted i procName)
    (hnow : (s.step w mode (.scan inp)).diag.overflowTimers (PerfDiagnoser.tagOf procName) = 0 ∨
      s.Counted s.iteration procName) : (s.step w mode (.scan inp)).Tracks procName := by
  rcases hnow with hzero | hnow
  · exact tracks_zero hzero
  · refine ⟨m, htimer, Or.inl ?_⟩
    intro i hfrom hto
    change s.iteration - m < i at hfrom
    change i ≤ s.iteration at hto
    rcases lt_or_eq_of_le hto with hlt | hlast
    · exact counted_step w mode (hbefore i (le_of_lt hfrom) hlt) _
    · rw [hlast]
      exact counted_step w mode hnow _

theorem tracks_passed {s : PerfTrace} {inp : ScanInput}
    (hnone : s.diag.validSample inp = none) (hunbroken : s.Unbroken (.scan inp))
    (hlong : 5 < s.diag.settings.overflowDurationS) (halive : s.diag.alive = true)
    (htodo : (s.step w mode (.scan inp)).diag.todo = s.diag.todo.tail)
    (htimers : (s.step w mode (.scan inp)).diag.overflowTimers = s.diag.overflowTimers)
    {procName : Str} (htracks : s.Tracks procName) :
    (s.step w mode (.scan inp)).Tracks procName := by
  rcases htracks with ⟨m, htimer, hcounted⟩
  rw [<- htimers] at htimer
  rcases hcounted with hdone | ⟨hwaits, hbefore⟩
  · refine ⟨m, htimer, Or.inl ?_⟩
    intro i hfrom hto
    exact counted_step w mode (hdone i hfrom hto) _
  · cases hlist : s.diag.todo with
    | nil =>
        rw [hlist] at hwaits
        cases hwaits
    | cons target rest =>
        rw [hlist] at hwaits htodo
        rcases List.mem_cons.mp hwaits with heq | hlater
        · have hhead : s.diag.todo.head? = some procName := by
            rw [hlist, heq]
            rfl
          simp only [Unbroken, hnone] at hunbroken
          have hnow := hunbroken hlong halive procName hhead
          rw [<- htimers] at hnow
          exact tracks_passed_self w mode htimer hbefore hnow
        · refine ⟨m, htimer, Or.inr ⟨?_, ?_⟩⟩
          · rw [htodo]
            exact hlater
          · intro i hfrom hto
            exact counted_step w mode (hbefore i hfrom hto) _

theorem invariant_passed {s : PerfTrace} (h : s.Invariant) {inp : ScanInput}
    (hnone : s.diag.validSample inp = none) (hunbroken : s.Unbroken (.scan inp)) :
    (s.step w mode (.scan inp)).Invariant := by
  rcases PerfDiagnoser.scan_frame_of_noSample w mode s.diag inp hnone with ⟨_, htimers, htodo⟩
  have hlaunches := launches_of_noSample w mode hnone
  cases halive : s.diag.alive with
  | false =>
      rw [halive] at htodo
      exact invariant_of_same w mode h (.scan inp) htodo htimers rfl hlaunches
  | true =>
      rw [halive, if_pos rfl] at htodo
      constructor
      · intro procName hmem
        rw [settings_step]
        change procName ∈ (s.diag.scan w mode inp).1.todo at hmem
        rw [htodo] at hmem
        exact h.todo procName (List.mem_of_mem_tail hmem)
      · rw [settings_step]
        intro procName hne
        change (s.diag.scan w mode inp).1.overflowTimers _ ≠ 0 at hne
        rw [htimers] at hne
        exact h.targets procName hne
      · rw [settings_step]
        intro hlong procName
        exact tracks_passed w mode hnone hunbroken hlong halive htodo htimers
          (h.tracks hlong procName)
      · intro n procName hmem
        rw [hlaunches] at hmem
        exact sound_of_mem_launches w mode h.sound _ hmem

theorem counted_now {s : PerfTrace} {inp : ScanInput} {procName : Str} {cpuPct : Rat}
    (hsome : s.diag.validSample inp = some (procName, cpuPct))
    (hpct : (s.diag.settings.cpuThresholdPct : Rat) ≤ cpuPct) :
    (s.step w mode (.scan inp)).Counted s.iteration procName := by
  refine ⟨cpuPct, ?_, ?_⟩
  · show (s.iteration, procName, cpuPct) ∈ s.samples ++ _
    rw [hsome]
    exact List.mem_append_right _ (List.mem_singleton_self _)
  · rw [settings_step]
    exact hpct

theorem counted_run {s : PerfTrace} {inp : ScanInput} {procName : Str} {cpuPct : Rat}
    (h : s.Tracks procName) (hsome : s.diag.validSample inp = some (procName, cpuPct))
    (hpct : (s.diag.settings.cpuThresholdPct : Rat) ≤ cpuPct)
    (hfirst : ¬ s.Counted s.iteration procName) :
    exists m : Nat,
      s.diag.nextTimer (PerfDiagnoser.tagOf procName) cpuPct = Int.bmod (5 * m) (2 ^ 32) ∧
      forall i, s.iteration - m < i -> i ≤ s.iteration ->
        (s.step w mode (.scan inp)).Counted i procName := by
  rcases h with ⟨m, htimer, hcounted⟩
  have hnow := counted_now w mode hsome hpct
  refine ⟨m + 1, ?_, ?_⟩
  · unfold PerfDiagnoser.nextTimer
    have hsum : 5 * (m : Int) + 5 = 5 * ((m + 1 : Nat) : Int) := by
      push_cast
      ring
    rw [if_pos hpct, htimer, Int.bmod_add_bmod, hsum]
  · intro i hfrom hto
    rcases lt_or_eq_of_le hto with hlt | hlast
    · rcases hcounted with hdone | ⟨_, hbefore⟩
      · cases m with
        | zero =>
            exfalso
            simp only [zero_add, Nat.cast_one] at hfrom
            omega
        | succ m =>
            exact absurd (hdone s.iteration (by omega) (le_refl _)) hfirst
      · apply counted_step w mode (hbefore i _ hlt)
        push_cast at hfrom
        omega
    · rw [hlast]
      exact hnow

/-- An `int` that has wrapped is no larger. -/
theorem bmod_le {n : Int} (hn : 0 ≤ n) : Int.bmod n (2 ^ 32) ≤ n := by
  have hdiv := Int.emod_add_mul_ediv n (2 ^ 32)
  have hquot : 0 ≤ n / 2 ^ 32 := Int.ediv_nonneg hn (by decide)
  rw [Int.bmod_def]
  split
  · push_cast
    omega
  · push_cast
    omega

theorem iterations_le {settings : PerfSettings} {m : Nat}
    (hlong : 5 < settings.overflowDurationS) (hdue : settings.overflowDurationS ≤ 5 * m) :
    iterations settings ≤ m := by
  apply max_le
  · omega
  · apply Int.ceil_le.mpr
    rw [div_le_iff₀ (by norm_num)]
    have hcast : (settings.overflowDurationS : Rat) ≤ ((5 * m : Int) : Rat) := by
      exact_mod_cast hdue
    push_cast at hcast ⊢
    linarith

theorem iterations_eq_one {settings : PerfSettings} (hshort : settings.overflowDurationS ≤ 5) :
    iterations settings = 1 := by
  apply max_eq_left
  apply Int.ceil_le.mpr
  rw [div_le_iff₀ (by norm_num)]
  have hcast : (settings.overflowDurationS : Rat) ≤ ((5 : Int) : Rat) := by
    exact_mod_cast hshort
  push_cast at hcast ⊢
  linarith

theorem counted_of_due {s : PerfTrace} (h : s.Invariant) {inp : ScanInput} {procName : Str}
    {cpuPct : Rat} (hsome : s.diag.validSample inp = some (procName, cpuPct))
    (hunbroken : s.Unbroken (.scan inp))
    (hdue : s.diag.settings.overflowDurationS ≤
      s.diag.nextTimer (PerfDiagnoser.tagOf procName) cpuPct)
    {i : Int} (hfrom : s.iteration - iterations s.diag.settings + 1 ≤ i) (hto : i ≤ s.iteration) :
    (s.step w mode (.scan inp)).Counted i procName := by
  simp only [Unbroken, hsome] at hunbroken
  by_cases hpct : (s.diag.settings.cpuThresholdPct : Rat) ≤ cpuPct
  · rw [if_pos hpct] at hunbroken
    rcases lt_or_ge 5 s.diag.settings.overflowDurationS with hlong | hshort
    · rcases counted_run w mode (h.tracks hlong procName) hsome hpct (hunbroken hlong) with
        ⟨m, htimer, hcounted⟩
      rw [htimer] at hdue
      have hle := iterations_le hlong (hdue.trans (bmod_le (by omega)))
      exact hcounted i (by omega) hto
    · rw [iterations_eq_one hshort] at hfrom
      have hlast : i = s.iteration := by omega
      rw [hlast]
      exact counted_now w mode hsome hpct
  · rw [if_neg hpct] at hunbroken
    unfold PerfDiagnoser.nextTimer at hdue
    rw [if_neg hpct] at hdue
    exact absurd hdue (not_le.mpr hunbroken)

theorem tracks_sampled {s : PerfTrace} (h : s.Invariant) {inp : ScanInput} {procName : Str}
    {cpuPct : Rat} (hsome : s.diag.validSample inp = some (procName, cpuPct))
    (hunbroken : s.Unbroken (.scan inp)) (hlong : 5 < s.diag.settings.overflowDurationS)
    (other : Str) : (s.step w mode (.scan inp)).Tracks other := by
  rcases PerfDiagnoser.scan_frame_of_sample w mode s.diag inp hsome with
    ⟨rest, _, htodo, _, htodo', htimers, _⟩
  by_cases heq : other = procName
  · subst heq
    have htimer : (s.step w mode (.scan inp)).diag.overflowTimers (PerfDiagnoser.tagOf other) =
        s.diag.timerAfter (PerfDiagnoser.tagOf other) cpuPct := by
      show (s.diag.scan w mode inp).1.overflowTimers _ = _
      rw [htimers, Function.update_self]
    unfold PerfDiagnoser.timerAfter at htimer
    split at htimer
    · exact tracks_zero htimer
    · simp only [Unbroken, hsome] at hunbroken
      by_cases hpct : (s.diag.settings.cpuThresholdPct : Rat) ≤ cpuPct
      · rw [if_pos hpct] at hunbroken
        rcases counted_run w mode (h.tracks hlong other) hsome hpct (hunbroken hlong) with
          ⟨m, hnext, hcounted⟩
        exact ⟨m, htimer.trans hnext, Or.inl hcounted⟩
      · have hzero : s.diag.nextTimer (PerfDiagnoser.tagOf other) cpuPct = 0 := if_neg hpct
        exact tracks_zero (htimer.trans hzero)
  · have htag : PerfDiagnoser.tagOf other ≠ PerfDiagnoser.tagOf procName :=
      fun htag => heq (PerfDiagnoser.tagOf_injective htag)
    rcases h.tracks hlong other with ⟨m, htimer, hcounted⟩
    refine ⟨m, ?_, ?_⟩
    · show (s.diag.scan w mode inp).1.overflowTimers _ = _
      rw [htimers, Function.update_of_ne htag]
      exact htimer
    · rcases hcounted with hdone | ⟨hwaits, hbefore⟩
      · left
        intro i hfrom hto
        exact counted_step w mode (hdone i hfrom hto) _
      · right
        refine ⟨?_, ?_⟩
        · show other ∈ (s.diag.scan w mode inp).1.todo
          rw [htodo']
          rw [htodo] at hwaits
          exact (List.mem_cons.mp hwaits).resolve_left heq
        · intro i hfrom hto
          exact counted_step w mode (hbefore i hfrom hto) _

theorem invariant_sampled {s : PerfTrace} (h : s.Invariant) {inp : ScanInput} {procName : Str}
    {cpuPct : Rat} (hsome : s.diag.validSample inp = some (procName, cpuPct))
    (hunbroken : s.Unbroken (.scan inp)) : (s.step w mode (.scan inp)).Invariant := by
  rcases PerfDiagnoser.scan_frame_of_sample w mode s.diag inp hsome with
    ⟨rest, _, htodo, _, htodo', htimers, hlaunch⟩
  have htarget : procName ∈ s.diag.settings.targetProcesses := by
    apply h.todo
    rw [htodo]
    exact List.mem_cons_self
  constructor
  · intro other hmem
    rw [settings_step]
    change other ∈ (s.diag.scan w mode inp).1.todo at hmem
    rw [htodo'] at hmem
    apply h.todo
    rw [htodo]
    exact List.mem_cons_of_mem procName hmem
  · intro other hne
    rw [settings_step]
    change (s.diag.scan w mode inp).1.overflowTimers _ ≠ 0 at hne
    by_cases heq : other = procName
    · rw [heq]
      exact htarget
    · have htag : PerfDiagnoser.tagOf other ≠ PerfDiagnoser.tagOf procName :=
        fun htag => heq (PerfDiagnoser.tagOf_injective htag)
      rw [htimers, Function.update_of_ne htag] at hne
      exact h.targets other hne
  · rw [settings_step]
    exact tracks_sampled w mode h hsome hunbroken
  · intro n other hmem i hfrom hto
    change (n, other) ∈ s.launches ++ ((s.diag.scan w mode inp).2.map _).toList at hmem
    rcases List.mem_append.mp hmem with hold | hnew
    · exact sound_of_mem_launches w mode h.sound _ hold i hfrom hto
    · rcases Option.map_eq_some_iff.mp (Option.mem_toList.mp hnew) with ⟨r, hr, hentry⟩
      rcases hlaunch r hr with ⟨hname, hdue⟩
      rw [hname] at hentry
      injection hentry with hn hother
      subst hn
      subst hother
      rw [settings_step] at hfrom
      exact counted_of_due w mode h hsome hunbroken hdue hfrom hto

theorem invariant_step (s : PerfTrace) (op : PerfOp) (h : s.Invariant)
    (hunbroken : s.Unbroken op) : (s.step w mode op).Invariant := by
  cases op with
  | beginLoop nowWall => exact invariant_beginLoop w mode h nowWall
  | scan inp =>
      cases hsample : s.diag.validSample inp with
      | none => exact invariant_passed w mode h hsample hunbroken
      | some sample => exact invariant_sampled w mode h hsample hunbroken
  | reset => exact invariant_of_same w mode h .reset rfl rfl rfl rfl
  | output path st => exact invariant_of_same w mode h (.output path st) rfl rfl rfl rfl

theorem invariant_fresh (settings : PerfSettings) (disk : Disk) :
    (fresh settings disk).Invariant := by
  constructor
  · intro procName hmem
    cases hmem
  · intro procName hne
    exact absurd rfl hne
  · intro _ procName
    exact tracks_zero rfl
  · intro n procName hmem
    cases hmem

/-- In every run of the loop in which no running timer skips an iteration and no
target is counted twice, every recording comes after the configured duration of
consecutive iterations above the threshold. -/
theorem debounceSound_of_unbroken (settings : PerfSettings) (disk : Disk) (ops : List PerfOp)
    (h : EachStep (step w mode) Unbroken (fresh settings disk) ops) :
    Throughout (step w mode) DebounceSound (fresh settings disk) ops := by
  apply throughout_mono (P := Invariant)
  · intro s hs
    exact hs.sound
  · exact throughout_of_guarded (invariant_step w mode) (invariant_fresh settings disk) h

end Steps

/-!
## A process that is away for one iteration
-/

/-- A `/proc` in which the process `a` has the pid 7, with its stat line. -/
def presentWith (utime : String) : ScanInput where
  proc := { names := some [['7']], comm := fun _ => some ['a'] }
  statFirst := some ("7 (a) S 1 1 1 0 0 0 0 0 0 0 ".toList ++ utime.toList ++ " 0".toList)
  statSecond := some ("7 (a) S 1 1 1 0 0 0 0 0 0 0 ".toList ++ utime.toList ++ " 0".toList)

def watchA : PerfSettings where
  targetProcesses := [['a']]

def forks : World where
  fork := fun n => 101 + n

/-- Three iterations, five seconds apart, with the process fully busy. -/
def busyRun : List PerfOp :=
  [.beginLoop 1000, .scan (presentWith "100"), .beginLoop 6000, .scan (presentWith "600"),
    .beginLoop 11000, .scan (presentWith "1100")]

theorem busyRun_debounced :
    Throughout (step forks .transfer) DebounceSound (fresh watchA ∅) busyRun ∧
      (3, ['a']) ∈ (runFrom (step forks .transfer) (fresh watchA ∅) busyRun).launches := by
  constructor
  · exact debounceSound_of_unbroken forks .transfer watchA ∅ busyRun (by decide +kernel)
  · decide +kernel

/-- The same with the process gone in the third of four iterations. -/
def absentRun : List PerfOp :=
  [.beginLoop 1000, .scan (presentWith "100"), .beginLoop 6000, .scan (presentWith "600"),
    .beginLoop 11000, .scan {}, .beginLoop 16000, .scan (presentWith "1100")]

theorem absentRun_not_sound :
    ¬ Throughout (step forks .transfer) DebounceSound (fresh watchA ∅) absentRun := by
  intro hthroughout
  have hthird := throughout_final hthroughout 4 ['a'] (by decide +kernel) 3 (by decide +kernel)
    (by decide)
  revert hthird
  decide +kernel

end PerfTrace

end Worker
end PerfMonitor
