import Roster.FileTree.Basic
import Roster.Host.MemoryLimit
import Roster.Host.MergeOrder
import Roster.Host.Profile
import Roster.Text.Utf8

/-! Detection of a host's resources. Each check that gives nothing falls through to the next one and in the end
to a conservative default. -/

namespace Roster

open Roster.Text

/-- What became of a command that could be started: its two outputs, if it ended in time. -/
inductive CommandOutcome where
  | exited (code : Int) (output errors : ByteArray)
  | timedOut

/-- What became of the disk check. -/
inductive DiskCheck where
  | read (seconds : Float)
  | noTemporaryFile
  | notWritable
  /-- the temporary file cannot be removed, whatever could be done with it -/
  | notRemovable (fault : FileTree.Fault)

/-- Everything about a host that a discovery depends on. A command that cannot be started is absent. -/
structure Host where
  platform : String := "Linux"
  /-- the environment's count of processors -/
  processors : Option String := none
  /-- the environment's memory limit -/
  memoryLimit : Option String := none
  nproc : Option CommandOutcome := some (.exited 0 "4\n".toUTF8 .empty)
  sysctl : Option CommandOutcome := none
  echo : Option CommandOutcome := none
  cpuCount : Option Int := some 4
  /-- contents of the files that state the control group's limit, newer interface first -/
  cgroupLimits : List (Option ByteArray) := [none, none]
  /-- the soft limit on the address space -/
  addressLimit : Option Int := some (-1)
  disk : DiskCheck := .read 0.0005
  writesBytecode : Bool := true
  jit : Option Bool := none
  globalLock : Option Bool := none
  semaphores : Bool := true
  taskGroups : Bool := true
  /-- how units of work come back -/
  order : MergeOrder := .submission
  /-- how artifacts are written -/
  device : FileTree.Device := []

namespace Host

/-- Why detection fails. -/
inductive Fault where
  | badCount (text : String)
  | longCount (digits : Nat)
  | undecodable (found : Utf8.Undecodable)
  | memoryOutOfRange
  | temporaryFile (fault : FileTree.Fault)
deriving DecidableEq, Repr

def Fault.message : Fault → String
  | .badCount text =>
      "invalid literal for int() with base 10: " ++ String.ofList ((quoted text).toList.take 200)
  | .longCount digits =>
      s!"Exceeds the limit ({longestNumeral} digits) for integer string conversion: value has " ++
        s!"{digits} digits; use sys.set_int_max_str_digits() to increase the limit"
  | .undecodable found => found.message
  | .memoryOutOfRange => "integer division result too large for a float"
  | .temporaryFile fault => fault.message

def defaultCores : Int := 2

/-- The ceiling assumed when memory is unlimited. -/
def unlimitedMemory : Int := 2048 * 1024 * 1024

/-- Control group limits from here on mean that there is none. -/
def cgroupUnlimited : Int := 0x7FFFFFFFFFFFF000

/-- Reads a count. Text that is not all digits, and a count of zero, is none; digit signs that stand in no
numeral are a fault. -/
def parseCount (text : Option String) : Except Fault (Option Int) :=
  match text.map trim with
  | none => .ok none
  | some value =>
      if value.isEmpty || !value.toList.all isDigitSign then .ok none
      else
        match readInteger value with
        | .ok count => .ok (if 0 < count then some count else none)
        | .error .malformed => .error (.badCount value)
        | .error (.tooLong digits) => .error (.longCount digits)

def decode (content : ByteArray) : Except Fault String :=
  (Utf8.decode content).mapError .undecodable

/-- The exit code of a command and what it printed. Both outputs have to be text, whatever the code is. -/
def outputOf : Option CommandOutcome → Except Fault (Option (Int × String))
  | some (.exited code output errors) => do
      let text ← decode output
      let _ ← decode errors
      return some (code, text)
  | _ => .ok none

/-- The count that a command prints when it succeeds. -/
def commandCount (command : Option CommandOutcome) : Except Fault (Option Int) := do
  match ← outputOf command with
  | some (code, text) => if code = 0 then parseCount (some text) else return none
  | none => return none

def hasShell (host : Host) : Except Fault Bool := do
  match ← outputOf host.echo with
  | some (_, text) => return trim text == "test"
  | none => return false

/-- Whether commands are worth a try. -/
def runsCommands (host : Host) : Except Fault Bool :=
  if host.platform == "Windows" then host.hasShell else .ok true

def shellCount (host : Host) : Except Fault (Option Int) := do
  if !(← host.runsCommands) then return none
  match ← commandCount host.nproc with
  | some count => return some count
  | none => commandCount host.sysctl

def cpuCores (host : Host) : Except Fault Int := do
  if let some count ← parseCount host.processors then return count
  if let some count ← host.shellCount then return count
  return (host.cpuCount.filter (0 < ·)).getD defaultCores

/-- The first file that exists decides. -/
def cgroupLimit? : List (Option ByteArray) → Except Fault (Option Int)
  | [] => .ok none
  | none :: rest => cgroupLimit? rest
  | some content :: _ => do
      return (MemoryLimit.parse? (← decode content)).filter (· < cgroupUnlimited)

/-- The limit of the first setting that is not empty; unlimited and zero both mean the assumed ceiling. -/
def configuredLimit? (settings : List (Option String)) : Option Int :=
  (settings.filterMap id |>.find? (· ≠ "")).map fun text =>
    ((MemoryLimit.parse? text).filter (· ≠ 0)).getD unlimitedMemory

def availableMemory (host : Host) (limit : Option String) : Except Fault Int :=
  match configuredLimit? [limit, host.memoryLimit] with
  | some configured => .ok configured
  | none => do
      let cgroup ← cgroupLimit? host.cgroupLimits
      return (cgroup.or (host.addressLimit.filter (0 < ·))).getD unlimitedMemory

def cpuScore (cores : Int) : Float :=
  if cores ≥ 8 then 1.0
  else if cores ≥ 4 then 0.8
  else if cores ≥ 2 then 0.6
  else 0.3

/-- Bytes from which on their number of mebibytes is no finite number. -/
def scoreCeiling : Nat :=
  (Nat.pow 2 1024 - Nat.pow 2 970) * Nat.pow 2 20

def memoryScore (bytes : Int) : Except Fault Float :=
  if scoreCeiling ≤ bytes.natAbs then .error .memoryOutOfRange
  else
    let mebibyte : Int := 1024 * 1024
    .ok <|
      if bytes ≥ 2048 * mebibyte then 1.0
      else if bytes ≥ 1024 * mebibyte then 0.8
      else if bytes ≥ 512 * mebibyte then 0.6
      else if bytes ≥ 256 * mebibyte then 0.4
      else 0.2

def readTimeScore (seconds : Float) : Float :=
  if seconds < 0.001 then 1.0
  else if seconds < 0.005 then 0.8
  else if seconds < 0.01 then 0.6
  else 0.3

/-- A disk that cannot be measured gets a neutral score. -/
def diskScore (host : Host) : Except Fault Float :=
  match host.disk with
  | .read seconds => .ok (readTimeScore seconds)
  | .noTemporaryFile | .notWritable => .ok 0.5
  | .notRemovable fault => .error (.temporaryFile fault)

/-- Without a global lock threads run in parallel; otherwise processes need semaphores. -/
def runsParallel (host : Host) : Bool :=
  host.globalLock == some false || host.semaphores

/-- The profile of the host, with an explicit memory limit if there is one. -/
def detect (host : Host) (limit : Option String) : Except Fault Profile := do
  let cores ← host.cpuCores
  let memory ← host.availableMemory limit
  return {
    cpuCores := cores
    cpuScore := cpuScore cores
    memoryAvailable := memory
    memoryScore := ← memoryScore memory
    diskScore := ← host.diskScore
    bytecodeCache := host.writesBytecode
    jit := host.jit.getD false
    parallel := host.runsParallel
    fibers := host.taskGroups }

end Host

end Roster
