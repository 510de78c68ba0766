import PerfMonitor.Foundation.Json
import PerfMonitor.Foundation.Run
import PerfMonitor.Foundation.Throwing
import PerfMonitor.Proto.Messages

/-!
# Configuration

`ConfigManager` of `worker/src/config/config_manager.cpp`.  `Load` turns the file into
a JSON value and assigns the settings one after another from what it finds there.  A
value of the wrong type makes the JSON library throw out of `Load`, and the settings
assigned before keep their new values.
-/

namespace PerfMonitor
namespace Worker

open Foundation

structure OffcpuEntry where
  processName : Str := []
  threadName : Str := []
  minBlockUs : Int := 100
  maxBlockUs : Int := 1000000
  intervalS : Int := 60
  limitFileSizeMb : Int := 50
  limitFileNum : Int := 3
deriving DecidableEq, Repr

structure ProfileEntry where
  processName : Str := []
  threadName : Str := []
  maxNr : Int := 1000
  maxSizeKb : Int := 4096
  cpus : Str := "0-3".toList
  cpuThresholdPct : Int := 50
deriving DecidableEq, Repr

structure Settings where
  offcpuEntries : List OffcpuEntry := []
  profileEntries : List ProfileEntry := []
  perfCpuThresholdPct : Int := 80
  perfOverflowDurationS : Int := 10
  perfTargetProcesses : List Str := []
  perfTargetThreads : List Str := []
  offcpuBin : Str := "/usr/bin/offcpu".toList
  profileBin : Str := "/usr/bin/profile".toList
  perfBin : Str := "/usr/bin/perf".toList
  outputDir : Str := "/tmp/monitor_system/diagnose".toList
deriving DecidableEq, Repr

structure ConfigManager extends Settings where
  raw : JsonValue := .null

/-- What `Load` uses of the JSON library: its parser, which fails by an exception that
`Load` catches, and the conversion of a number to `int`. -/
structure JsonLibrary where
  parse : Str -> Option JsonValue
  numberToInt : Str -> Int

inductive LoadResult where
  | returned (ok : Bool)
  | threw
deriving DecidableEq, Repr

namespace ConfigManager

/-!
## Access to JSON values
-/

/-- `contains` and `operator[]`: only objects have members, and of two members of one
name the later one counts. -/
def find (value : JsonValue) (key : Str) : Option JsonValue :=
  match value with
  | .object members => members.reverse.lookup key
  | _ => none

def items (value : JsonValue) (key : Str) : List JsonValue :=
  match find value key with
  | some (.array elements) => elements
  | _ => []

/-- The conversion to `std::string`. -/
def toText (value : JsonValue) : Option Str :=
  match value with
  | .string text => some text
  | _ => none

section

variable (lib : JsonLibrary)

/-- The conversion to `int`, which takes numbers and truth values. -/
def toInt (value : JsonValue) : Option Int :=
  match value with
  | .number numeral => some (lib.numberToInt numeral)
  | .bool b => some (if b then 1 else 0)
  | _ => none

/-!
## Load
-/

def offcpuFields (item : JsonValue) : List (Option (OffcpuEntry -> OffcpuEntry)) :=
  assign (find item "process_name".toList) toText (fun v e => { e with processName := v }) ++
  assign (find item "thread_name".toList) toText (fun v e => { e with threadName := v }) ++
  assign (find item "min_block_us".toList) (toInt lib) (fun v e => { e with minBlockUs := v }) ++
  assign (find item "max_block_us".toList) (toInt lib) (fun v e => { e with maxBlockUs := v }) ++
  assign (find item "interval_s".toList) (toInt lib) (fun v e => { e with intervalS := v }) ++
  assign (find item "limit_file_size_mb".toList) (toInt lib)
    (fun v e => { e with limitFileSizeMb := v }) ++
  assign (find item "limit_file_num".toList) (toInt lib) (fun v e => { e with limitFileNum := v })

def offcpuEntry (item : JsonValue) : Option OffcpuEntry :=
  match perform (offcpuFields lib item) {} with
  | (true, e) => some e
  | (false, _) => none

def profileFields (item : JsonValue) : List (Option (ProfileEntry -> ProfileEntry)) :=
  assign (find item "process_name".toList) toText (fun v e => { e with processName := v }) ++
  assign (find item "thread_name".toList) toText (fun v e => { e with threadName := v }) ++
  assign (find item "max_nr".toList) (toInt lib) (fun v e => { e with maxNr := v }) ++
  assign (find item "max_size_kb".toList) (toInt lib) (fun v e => { e with maxSizeKb := v }) ++
  assign (find item "cpus".toList) toText (fun v e => { e with cpus := v }) ++
  assign (find item "cpu_threshold_pct".toList) (toInt lib)
    (fun v e => { e with cpuThresholdPct := v })

def profileEntry (item : JsonValue) : Option ProfileEntry :=
  match perform (profileFields lib item) {} with
  | (true, e) => some e
  | (false, _) => none

def pushOffcpu (e : OffcpuEntry) (s : Settings) : Settings :=
  { s with offcpuEntries := s.offcpuEntries ++ [e] }

def pushProfile (e : ProfileEntry) (s : Settings) : Settings :=
  { s with profileEntries := s.profileEntries ++ [e] }

def pushProcess (name : Str) (s : Settings) : Settings :=
  { s with perfTargetProcesses := s.perfTargetProcesses ++ [name] }

def pushThread (name : Str) (s : Settings) : Settings :=
  { s with perfTargetThreads := s.perfTargetThreads ++ [name] }

def loadOffcpu (raw : JsonValue) : List (Option (Settings -> Settings)) :=
  some (fun s => { s with offcpuEntries := [] }) ::
    (items raw "offcpu".toList).map (fun item => (offcpuEntry lib item).map pushOffcpu)

def loadProfile (raw : JsonValue) : List (Option (Settings -> Settings)) :=
  some (fun s => { s with profileEntries := [] }) ::
    (items raw "profile".toList).map (fun item => (profileEntry lib item).map pushProfile)

def loadPerf (p : JsonValue) : List (Option (Settings -> Settings)) :=
  assign (find p "cpu_threshold_pct".toList) (toInt lib)
    (fun v s => { s with perfCpuThresholdPct := v }) ++
  assign (find p "overflow_duration_s".toList) (toInt lib)
    (fun v s => { s with perfOverflowDurationS := v }) ++
  (items p "target_processes".toList).map (fun tp => (toText tp).map pushProcess) ++
  (items p "target_threads".toList).map (fun tt => (toText tt).map pushThread)

def loadPaths (pt : JsonValue) : List (Option (Settings -> Settings)) :=
  assign (find pt "offcpu_bin".toList) toText (fun v s => { s with offcpuBin := v }) ++
  assign (find pt "profile_bin".toList) toText (fun v s => { s with profileBin := v }) ++
  assign (find pt "perf_bin".toList) toText (fun v s => { s with perfBin := v }) ++
  assign (find pt "output_dir".toList) toText (fun v s => { s with outputDir := v })

def inSection (raw : JsonValue) (name : Str)
    (body : JsonValue -> List (Option (Settings -> Settings))) :
    List (Option (Settings -> Settings)) :=
  match find raw name with
  | none => []
  | some value => body value

/-- The body of `Load` after the file was parsed. -/
def statements (raw : JsonValue) : List (Option (Settings -> Settings)) :=
  loadOffcpu lib raw ++ loadProfile lib raw ++ inSection raw "perf".toList (loadPerf lib) ++
    inSection raw "paths".toList loadPaths

/-- `Load`, given what the file contains if it can be opened. -/
def load (s : ConfigManager) (file : Option Str) : LoadResult × ConfigManager :=
  match file with
  | none => (.returned false, s)
  | some text =>
      match lib.parse text with
      | none => (.returned false, s)
      | some raw =>
          let performed := perform (statements lib raw) s.toSettings
          (if performed.1 then .returned true else .threw,
            { toSettings := performed.2, raw := raw })

def reload (s : ConfigManager) (file : Option Str) : LoadResult × ConfigManager :=
  load lib s file

/-- The state after some calls of `Load` and `Reload`, whatever they return or throw. -/
def run (files : List (Option Str)) : ConfigManager :=
  runFrom (fun s file => (load lib s file).2) {} files

end

/-- The reader of JSON texts, and the numerals without sign, fraction and exponent. -/
def textLibrary : JsonLibrary where
  parse := Json.parseJson
  numberToInt numeral := digitsValue numeral

end ConfigManager

end Worker
end PerfMonitor
