import PerfMonitor.Foundation.InputStream
import PerfMonitor.Proto.Messages

/-!
# Name lookup in `/proc`

`read_pid_by_name` and `read_tid_by_name`, which `bpf_diagnoser.cpp` and
`perf_diagnoser.cpp` share as two equal copies.  Both walk a directory in the
order in which `readdir` lists it and stop at the first entry whose `comm` is the
name they look for.
-/

namespace PerfMonitor
namespace Worker

open Foundation

abbrev Pid := Int

/-- `/proc` as one lookup finds it.  A directory that cannot be opened and a file
that cannot be opened or read are `none`. -/
structure ProcFs where
  names : Option (List Str) := none
  comm : Pid -> Option Str := fun _ => none
  tasks : Pid -> Option (List Str) := fun _ => none
  taskComm : Pid -> Pid -> Option Str := fun _ _ => none

namespace ProcFs

/-- `strtoul` in base ten on a name that starts with a digit, assigned to a
`pid_t`: the digits up to the first other character, capped at `ULONG_MAX`, then
cut to 32 bits. -/
def parsePid (name : Str) : Pid :=
  Int.bmod (min (digitsValue (name.takeWhile isDigit)) (2 ^ 64 - 1) : Nat) (2 ^ 32)

def isNumeric (name : Str) : Bool :=
  match name with
  | [] => false
  | c :: _ => isDigit c

/-- The `comm` string in the read buffer: at most 255 characters, up to the first
NUL, without one trailing newline. -/
def commString (content : Str) : Str :=
  let comm := (content.take 255).takeWhile (fun c => c ≠ '\x00')
  if comm.getLast? = some '\n' then comm.dropLast else comm

def hasComm (content : Option Str) (wanted : Str) : Bool :=
  match content with
  | none => false
  | some [] => false
  | some (c :: rest) => decide (commString (c :: rest) = wanted)

def findByComm (comm : Pid -> Option Str) (wanted : Str) : List Str -> Pid
  | [] => 0
  | name :: rest =>
      if isNumeric name && hasComm (comm (parsePid name)) wanted then parsePid name
      else findByComm comm wanted rest

def readPidByName (proc : ProcFs) (pname : Str) : Pid :=
  match proc.names with
  | none => 0
  | some names => findByComm proc.comm pname names

def readTidByName (proc : ProcFs) (pname tname : Str) : Pid :=
  let pid := readPidByName proc pname
  if pid = 0 then 0
  else
    match proc.tasks pid with
    | none => 0
    | some names => findByComm (proc.taskComm pid) tname names

end ProcFs

end Worker
end PerfMonitor
