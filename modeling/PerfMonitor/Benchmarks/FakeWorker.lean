import PerfMonitor.Foundation.Conversion
import PerfMonitor.Proto.Messages

/-!
# Load generator

The benchmark client from `benchmarks/manager_fake_worker.cpp`: its arguments, the
reports that it makes up, and the order in which one of its threads sends them.
Thread `t` of `c` plays the workers `t`, `t + c`, `t + 2 * c` and so on.
-/

namespace PerfMonitor
namespace Benchmarks

open Foundation
open Proto

structure Options where
  addr : Str := "127.0.0.1:50051".toList
  workers : Int := 100
  iterations : Int := 10
  concurrency : Int := 8
  intervalMs : Int := 0
  timeoutMs : Int := 1000
deriving DecidableEq, Repr

/-- Why `parse_args` does not return options.  After `--help` the program exits. -/
inductive ArgumentError where
  | missingValue (name : Str)
  | unknownArgument (arg : Str)
  | conversion (error : ConversionError)
  | help
deriving DecidableEq, Repr

def assign (arg : Str) : Option (Options -> Str -> Except ConversionError Options) :=
  let number (set : Options -> Int -> Options) (options : Options) (value : Str) :
      Except ConversionError Options :=
    (stoi value).map (set options)
  if arg = "--addr".toList then some (fun options value => .ok { options with addr := value })
  else if arg = "--workers".toList then
    some (number (fun options n => { options with workers := n }))
  else if arg = "--iterations".toList then
    some (number (fun options n => { options with iterations := n }))
  else if arg = "--concurrency".toList then
    some (number (fun options n => { options with concurrency := n }))
  else if arg = "--interval-ms".toList then
    some (number (fun options n => { options with intervalMs := n }))
  else if arg = "--timeout-ms".toList then
    some (number (fun options n => { options with timeoutMs := n }))
  else none

/-- The loop over `argv`. -/
def parseLoop : List Str -> Options -> Except ArgumentError Options
  | [], options => .ok options
  | arg :: rest, options =>
      match assign arg with
      | some set =>
          match rest with
          | [] => .error (.missingValue arg)
          | value :: rest =>
              match set options value with
              | .ok options => parseLoop rest options
              | .error error => .error (.conversion error)
      | none =>
          if arg = "--help".toList ∨ arg = "-h".toList then .error .help
          else .error (.unknownArgument arg)

def Options.clamp (options : Options) : Options :=
  { options with
    workers := max 1 options.workers
    iterations := max 1 options.iterations
    concurrency := max 1 options.concurrency }

def parseArgs (args : List Str) : Except ArgumentError Options :=
  (parseLoop args {}).map Options.clamp

/-!
## Reports
-/

def fakeHost (worker : Nat) : Str :=
  "fake-worker-".toList ++ (toString worker).toList

/-- The report of a worker in an iteration, made when `std::time` shows `time`. -/
def makeReport (worker iteration : Nat) (time : Int) : MonitorInfo where
  hostname := fakeHost worker
  ip := "10.0.0.".toList ++ (toString (worker % 250 + 1)).toList
  timestamp := time
  cpuLoad :=
    { load1m := 1 / 5 + (worker % 8 : Nat) / 10
      load5m := 3 / 10
      load15m := 2 / 5
      nrCores := 8 }
  cpuStat :=
    { userPct := (10 + iteration % 20 : Nat)
      systemPct := 5
      idlePct := (85 - iteration % 20 : Nat)
      iowaitPct := 1
      stealPct := 0
      softirqPct := 1 }
  mem :=
    { totalGb := 16
      usedGb := (4 + worker % 4 : Nat)
      freeGb := 8
      availableGb := 10
      cachedGb := 2
      buffersGb := 1
      swapTotalGb := 0
      swapUsedGb := 0
      usedPct := (30 + worker % 20 : Nat) }
  disks :=
    [{ device := "vda".toList
       readMbps := (5 + iteration % 5 : Nat)
       writeMbps := (3 + iteration % 3 : Nat)
       iops := (100 + worker % 50 : Nat)
       ioLatencyMs := (2 + iteration % 4 : Nat) }]
  nets :=
    [{ iface := "eth0".toList
       rxMbps := (10 + worker % 10 : Nat)
       txMbps := (6 + iteration % 10 : Nat)
       rxPackets := UInt64.ofNat (1000 + iteration)
       txPackets := UInt64.ofNat (900 + iteration)
       rxDropped := if worker % 3 = 0 then 1 else 0
       txDropped := 0
       rxErrors := 0
       txErrors := 0 }]
  observeBatch := some
    { processEvents :=
        [{ comm := "fake-process".toList
           pid := UInt32.ofNat (1000 + worker)
           ppid := 1
           filename := "/usr/bin/fake-process".toList
           event := if iteration % 2 = 0 then "exec".toList else "exit".toList
           tsNs := wrap64 (time * 1000 * 1000 * 1000) }]
      flowEvents :=
        [{ pid := UInt32.ofNat (1000 + worker)
           comm := "fake-process".toList
           srcIp := "10.0.0.1".toList
           srcPort := UInt32.ofNat (30000 + worker % 1000)
           dstIp := "10.0.0.2".toList
           dstPort := 8080
           bytesSent := UInt64.ofNat (1024 + iteration)
           bytesRecv := UInt64.ofNat (2048 + iteration)
           connectLatencyNs := 1000000
           state := "ESTABLISHED".toList }] }

/-!
## The loops of a thread
-/

structure Job where
  worker : Nat
  iteration : Nat
deriving DecidableEq, Repr

/-- `for (int worker = thread_index; worker < workers; worker += concurrency)`, with a
bound on its rounds.  There is no result when the addition overflows an `int`. -/
def workersFrom (workers concurrency : Nat) : Nat -> Nat -> Option (List Nat)
  | 0, _ => some []
  | rounds + 1, worker =>
      if worker < workers then
        if worker + concurrency < 2 ^ 31 then
          (workersFrom workers concurrency rounds (worker + concurrency)).map (worker :: ·)
        else none
      else some []

/-- The workers that a thread plays.  No loop goes on for more rounds than there are
workers. -/
def Options.workersOf (options : Options) (thread : Nat) : Option (List Nat) :=
  workersFrom options.workers.toNat options.concurrency.toNat options.workers.toNat thread

/-- The jobs of `run_thread`, in order. -/
def Options.runThread (options : Options) (thread : Nat) : Option (List Job) :=
  (options.workersOf thread).map (fun workers =>
    (List.range options.iterations.toNat).flatMap (fun iteration =>
      workers.map (fun worker => { worker := worker, iteration := iteration })))

def Options.threadCount (options : Options) : Nat :=
  min options.concurrency.toNat options.workers.toNat

/-!
## Arguments
-/

def lastValue (arg : Str) (pairs : List (Str × Str)) : Option Str :=
  (pairs.filter (fun p => decide (p.1 = arg))).getLast?.map Prod.snd

def lastNumber (arg : Str) (default : Int) (pairs : List (Str × Str)) : Int :=
  ((lastValue arg pairs).bind (fun value => (stoi value).toOption)).getD default

/-- The options that a list of arguments with their values asks for. -/
def optionsOf (pairs : List (Str × Str)) : Options where
  addr := (lastValue "--addr".toList pairs).getD "127.0.0.1:50051".toList
  workers := lastNumber "--workers".toList 100 pairs
  iterations := lastNumber "--iterations".toList 10 pairs
  concurrency := lastNumber "--concurrency".toList 8 pairs
  intervalMs := lastNumber "--interval-ms".toList 0 pairs
  timeoutMs := lastNumber "--timeout-ms".toList 1000 pairs

def numberArguments : List Str :=
  ["--workers".toList, "--iterations".toList, "--concurrency".toList, "--interval-ms".toList,
    "--timeout-ms".toList]

def WellFormed (p : Str × Str) : Prop :=
  p.1 = "--addr".toList ∨ p.1 ∈ numberArguments ∧ exists n, stoi p.2 = .ok n

theorem lastValue_concat (arg : Str) (pairs : List (Str × Str)) (p : Str × Str) :
    lastValue arg (pairs ++ [p]) = if p.1 = arg then some p.2 else lastValue arg pairs := by
  unfold lastValue
  rw [List.filter_append]
  by_cases hp : p.1 = arg
  · rw [if_pos hp, List.filter_cons_of_pos (by simpa using hp), List.filter_nil,
      List.getLast?_concat]
    rfl
  · rw [if_neg hp, List.filter_cons_of_neg (by simpa using hp), List.filter_nil,
      List.append_nil]

theorem lastNumber_concat (arg : Str) (default : Int) (pairs : List (Str × Str)) (p : Str × Str) :
    lastNumber arg default (pairs ++ [p]) =
      if p.1 = arg then (stoi p.2).toOption.getD default else lastNumber arg default pairs := by
  unfold lastNumber
  rw [lastValue_concat]
  split <;> rfl

theorem map_eq_ok_iff (set : Int -> Options) (number : Except ConversionError Int) (default : Int)
    (options : Options) :
    number.map set = .ok options <->
      (exists n, number = .ok n) ∧ options = set (number.toOption.getD default) := by
  cases number with
  | error error =>
      constructor
      · intro h
        cases h
      · rintro ⟨⟨n, hn⟩, _⟩
        cases hn
  | ok n =>
      constructor
      · intro h
        injection h with h
        exact ⟨⟨n, rfl⟩, h.symm⟩
      · rintro ⟨_, h⟩
        rw [h]
        rfl

theorem assign_of_unknown {arg : Str} (haddr : arg ≠ "--addr".toList)
    (hnumber : arg ∉ numberArguments) : assign arg = none := by
  simp only [numberArguments, List.mem_cons, List.not_mem_nil, or_false, not_or] at hnumber
  rcases hnumber with ⟨h1, h2, h3, h4, h5⟩
  unfold assign
  simp only [if_neg haddr, if_neg h1, if_neg h2, if_neg h3, if_neg h4, if_neg h5]

theorem assign_optionsOf (pairs : List (Str × Str)) (p : Str × Str) (options : Options) :
    (exists set, assign p.1 = some set ∧ set (optionsOf pairs) p.2 = .ok options) <->
      WellFormed p ∧ options = optionsOf (pairs ++ [p]) := by
  rcases p with ⟨arg, value⟩
  unfold WellFormed
  simp only [optionsOf, lastValue_concat, lastNumber_concat]
  by_cases hnumber : arg ∈ numberArguments
  · simp only [numberArguments, List.mem_cons, List.not_mem_nil, or_false] at hnumber
    rcases hnumber with rfl | rfl | rfl | rfl | rfl
    all_goals
      simp +decide only [assign, Option.some.injEq, exists_eq_left', if_true, if_false, false_or,
        true_and]
      exact map_eq_ok_iff _ _ _ _
  · by_cases haddr : arg = "--addr".toList
    · subst haddr
      simp +decide only [assign, Option.some.injEq, exists_eq_left', if_true, if_false, true_or,
        true_and, Option.getD_some, Except.ok.injEq]
      exact eq_comm
    · constructor
      · rintro ⟨set, hset, _⟩
        rw [assign_of_unknown haddr hnumber] at hset
        cases hset
      · rintro ⟨haccept, _⟩
        rcases haccept with h | h
        · exact absurd h haddr
        · exact absurd h.left hnumber

/-- `argv` with every argument followed by its value. -/
def arguments (pairs : List (Str × Str)) : List Str :=
  pairs.flatMap (fun p => [p.1, p.2])

theorem arguments_eq_cons {arg : Str} {rest : List Str} {pairs : List (Str × Str)}
    (h : arg :: rest = arguments pairs) :
    exists value rest' pairs', rest = value :: rest' ∧ pairs = (arg, value) :: pairs' ∧
      rest' = arguments pairs' := by
  cases pairs with
  | nil => cases h
  | cons p pairs' =>
      injection h with harg hrest
      exact ⟨p.2, arguments pairs', pairs', hrest, by rw [harg], rfl⟩

theorem parseLoop_ok_iff (args : List Str) (before : List (Str × Str)) (options : Options) :
    parseLoop args (optionsOf before) = .ok options <->
      exists pairs, args = arguments pairs ∧ (forall p, p ∈ pairs -> WellFormed p) ∧
        options = optionsOf (before ++ pairs) := by
  match args with
  | [] =>
      constructor
      · intro h
        injection h with h
        refine ⟨[], rfl, List.forall_mem_nil _, ?_⟩
        rw [List.append_nil, h]
      · rintro ⟨pairs, hargs, _hformed, hoptions⟩
        have hnil : pairs = [] := by
          cases pairs with
          | nil => rfl
          | cons p rest => cases hargs
        rw [hoptions, hnil, List.append_nil]
        rfl
  | [arg] =>
      constructor
      · intro h
        unfold parseLoop at h
        cases hassign : assign arg with
        | none =>
            simp only [hassign] at h
            split at h <;> cases h
        | some set =>
            simp only [hassign] at h
            cases h
      · rintro ⟨pairs, hargs, _hformed, _hoptions⟩
        rcases arguments_eq_cons hargs with ⟨value, rest', pairs', hrest, _⟩
        cases hrest
  | arg :: value :: rest =>
      have hstep := assign_optionsOf before (arg, value)
      have hrest := parseLoop_ok_iff rest (before ++ [(arg, value)]) options
      constructor
      · intro h
        unfold parseLoop at h
        cases hassign : assign arg with
        | none =>
            simp only [hassign] at h
            split at h <;> cases h
        | some set =>
            simp only [hassign] at h
            cases hset : set (optionsOf before) value with
            | error error =>
                simp only [hset] at h
                cases h
            | ok assigned =>
                simp only [hset] at h
                have hassigned := (hstep assigned).mp ⟨set, hassign, hset⟩
                rw [hassigned.right] at h
                rcases hrest.mp h with ⟨pairs, hargs, hformed, hoptions⟩
                refine ⟨(arg, value) :: pairs, by rw [hargs]; rfl, ?_, ?_⟩
                · exact List.forall_mem_cons.mpr ⟨hassigned.left, hformed⟩
                · rw [hoptions, List.append_assoc]
                  rfl
      · rintro ⟨pairs, hargs, hformed, hoptions⟩
        rcases arguments_eq_cons hargs with ⟨value', rest', pairs', hvalue, hpairs, hrest'⟩
        injection hvalue with hvalue htail
        subst hpairs hvalue htail
        have hformed := List.forall_mem_cons.mp hformed
        rcases (hstep _).mpr ⟨hformed.left, rfl⟩ with ⟨set, hassign, hset⟩
        unfold parseLoop
        simp only [hassign, hset]
        apply hrest.mpr
        refine ⟨pairs', hrest', hformed.right, ?_⟩
        rw [hoptions, List.append_assoc]
        rfl

theorem exists_pairs_of_parseArgs {args : List Str} {options : Options}
    (h : parseArgs args = .ok options) :
    exists pairs, args = arguments pairs ∧ (forall p, p ∈ pairs -> WellFormed p) ∧
      options = (optionsOf pairs).clamp := by
  unfold parseArgs at h
  cases hparse : parseLoop args {} with
  | error error =>
      rw [hparse] at h
      cases h
  | ok parsed =>
      rw [hparse] at h
      injection h with h
      rcases (parseLoop_ok_iff args [] parsed).mp hparse with ⟨pairs, hargs, hformed, hoptions⟩
      exact ⟨pairs, hargs, hformed, by rw [← h, hoptions]; rfl⟩

/-- Exactly the lists of known arguments, each followed by a value that it accepts, give
options: the last value of each argument or its default, with at least one worker, one
iteration and one thread. -/
theorem parseArgs_ok_iff (args : List Str) (options : Options) :
    parseArgs args = .ok options <->
      exists pairs, args = arguments pairs ∧ (forall p, p ∈ pairs -> WellFormed p) ∧
        options = (optionsOf pairs).clamp := by
  constructor
  · exact exists_pairs_of_parseArgs
  · rintro ⟨pairs, hargs, hformed, hoptions⟩
    have hparse : parseLoop args {} = .ok (optionsOf pairs) :=
      (parseLoop_ok_iff args [] _).mpr ⟨pairs, hargs, hformed, rfl⟩
    unfold parseArgs
    rw [hparse, hoptions]
    rfl

theorem lastNumber_lt (arg : Str) {default : Int} (hdefault : default < 2 ^ 31)
    (pairs : List (Str × Str)) : lastNumber arg default pairs < 2 ^ 31 := by
  unfold lastNumber
  cases lastValue arg pairs with
  | none => exact hdefault
  | some value =>
      show (stoi value).toOption.getD default < 2 ^ 31
      cases hvalue : stoi value with
      | error error => exact hdefault
      | ok n => exact (stoi_range hvalue).right

/-- What `parse_args` promises about the numbers of the loops. -/
structure Options.Valid (options : Options) : Prop where
  workers : 0 < options.workers.toNat
  iterations : 0 < options.iterations.toNat
  concurrency : 0 < options.concurrency.toNat
  workers_lt : options.workers.toNat < 2 ^ 31

theorem valid_of_parseArgs {args : List Str} {options : Options}
    (h : parseArgs args = .ok options) : options.Valid := by
  rcases exists_pairs_of_parseArgs h with ⟨pairs, _hargs, _hformed, hoptions⟩
  have hlt := lastNumber_lt "--workers".toList (show (100 : Int) < 2 ^ 31 by decide) pairs
  have hworkers : options.workers = max 1 (lastNumber "--workers".toList 100 pairs) := by
    rw [hoptions]
    rfl
  have hiterations : 1 ≤ options.iterations := by
    rw [hoptions]
    exact le_max_left _ _
  have hconcurrency : 1 ≤ options.concurrency := by
    rw [hoptions]
    exact le_max_left _ _
  constructor
  case workers => omega
  case iterations => omega
  case concurrency => omega
  case workers_lt => omega

/-!
## Which workers a thread plays
-/

theorem workersFrom_of_lt {workers concurrency rounds worker : Nat} (hlt : worker < workers) :
    workersFrom workers concurrency (rounds + 1) worker =
      if worker + concurrency < 2 ^ 31 then
        (workersFrom workers concurrency rounds (worker + concurrency)).map (worker :: ·)
      else none :=
  if_pos hlt

theorem workersFrom_of_le {workers concurrency rounds worker : Nat} (hle : workers ≤ worker) :
    workersFrom workers concurrency rounds worker = some [] := by
  cases rounds with
  | zero => rfl
  | succ rounds => exact if_neg (Nat.not_lt.mpr hle)

def Meets (concurrency first worker : Nat) : Prop :=
  first ≤ worker ∧ (worker - first) % concurrency = 0

theorem meets_iff_step {concurrency : Nat} (hc : 0 < concurrency) (first worker : Nat) :
    Meets concurrency first worker <->
      worker = first ∨ Meets concurrency (first + concurrency) worker := by
  unfold Meets
  constructor
  · rintro ⟨hle, hmod⟩
    by_cases heq : worker = first
    · exact Or.inl heq
    · have hdvd : concurrency ∣ worker - first := Nat.dvd_of_mod_eq_zero hmod
      have hstep : concurrency ≤ worker - first := Nat.le_of_dvd (by omega) hdvd
      have hsub : worker - first = worker - (first + concurrency) + concurrency := by omega
      rw [hsub, Nat.add_mod_right] at hmod
      exact Or.inr ⟨by omega, hmod⟩
  · rintro (rfl | ⟨hle, hmod⟩)
    · exact ⟨le_refl worker, by rw [Nat.sub_self, Nat.zero_mod]⟩
    · have hsub : worker - first = worker - (first + concurrency) + concurrency := by omega
      rw [hsub, Nat.add_mod_right]
      exact ⟨by omega, hmod⟩

theorem workersFrom_spec {workers concurrency : Nat} (hc : 0 < concurrency) {rounds first : Nat}
    (hrounds : workers ≤ first + rounds) {played : List Nat}
    (h : workersFrom workers concurrency rounds first = some played) :
    played.Nodup ∧
      forall worker, worker ∈ played <-> worker < workers ∧ Meets concurrency first worker := by
  induction rounds generalizing first played with
  | zero =>
      injection h with h
      subst h
      refine ⟨List.nodup_nil, ?_⟩
      intro worker
      constructor
      · intro hmem
        cases hmem
      · rintro ⟨hlt, hle, _⟩
        omega
  | succ rounds ih =>
      by_cases hlt : first < workers
      · rw [workersFrom_of_lt hlt] at h
        split at h
        case isTrue _hfits =>
          rcases Option.map_eq_some_iff.mp h with ⟨rest, hrest, hplayed⟩
          have hrec := ih (by omega) hrest
          subst hplayed
          constructor
          · apply List.nodup_cons.mpr
            refine ⟨?_, hrec.left⟩
            intro hmem
            have hle := ((hrec.right first).mp hmem).right.left
            omega
          · intro worker
            rw [List.mem_cons, hrec.right worker, meets_iff_step hc first worker]
            constructor
            · rintro (rfl | ⟨hworker, hmeets⟩)
              · exact ⟨hlt, Or.inl rfl⟩
              · exact ⟨hworker, Or.inr hmeets⟩
            · rintro ⟨hworker, hcases⟩
              exact hcases.imp id (fun hmeets => ⟨hworker, hmeets⟩)
        case isFalse _hover => cases h
      · rw [workersFrom_of_le (Nat.le_of_not_lt hlt)] at h
        injection h with h
        subst h
        refine ⟨List.nodup_nil, ?_⟩
        intro worker
        constructor
        · intro hmem
          cases hmem
        · rintro ⟨hworker, hle, _⟩
          omega

theorem workersFrom_isSome_iff {workers concurrency : Nat} (hc : 0 < concurrency)
    {rounds first : Nat} (hrounds : workers ≤ first + rounds) :
    (workersFrom workers concurrency rounds first).isSome = true <->
      forall worker, worker < workers -> Meets concurrency first worker ->
        worker + concurrency < 2 ^ 31 := by
  induction rounds generalizing first with
  | zero =>
      constructor
      · intro _ worker hworker hmeets
        have hle := hmeets.left
        omega
      · intro _
        rfl
  | succ rounds ih =>
      by_cases hlt : first < workers
      · have hrec := ih (show workers ≤ first + concurrency + rounds by omega)
        rw [workersFrom_of_lt hlt]
        by_cases hfits : first + concurrency < 2 ^ 31
        · rw [if_pos hfits, Option.isSome_map, hrec]
          constructor
          · intro h worker hworker hmeets
            rcases (meets_iff_step hc first worker).mp hmeets with rfl | hlater
            · exact hfits
            · exact h worker hworker hlater
          · intro h worker hworker hlater
            exact h worker hworker ((meets_iff_step hc first worker).mpr (Or.inr hlater))
        · rw [if_neg hfits]
          constructor
          · intro h
            cases h
          · intro h
            exact absurd (h first hlt ((meets_iff_step hc first first).mpr (Or.inl rfl))) hfits
      · rw [workersFrom_of_le (Nat.le_of_not_lt hlt)]
        constructor
        · intro _ worker hworker hmeets
          have hle := hmeets.left
          omega
        · intro _
          rfl

theorem meets_thread_iff {concurrency thread worker : Nat} (hthread : thread < concurrency) :
    Meets concurrency thread worker <-> worker % concurrency = thread := by
  unfold Meets
  constructor
  · rintro ⟨hle, hmod⟩
    have hdvd : concurrency ∣ worker - thread := Nat.dvd_of_mod_eq_zero hmod
    rcases hdvd with ⟨k, hk⟩
    have hworker : worker = thread + concurrency * k := by omega
    rw [hworker, Nat.add_mul_mod_self_left, Nat.mod_eq_of_lt hthread]
  · intro hmod
    have hdiv := Nat.div_add_mod worker concurrency
    have hsub : worker - thread = concurrency * (worker / concurrency) := by omega
    refine ⟨by omega, ?_⟩
    rw [hsub, Nat.mul_mod_right]

end Benchmarks
end PerfMonitor
