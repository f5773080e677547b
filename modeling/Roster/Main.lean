import Roster.Command.Program

/-! The program's outer layer: it looks at the host, reads the files below the working directory and the directories
that are named, runs the command, prints its lines and writes the files that it changed. -/

namespace Roster.Outer

/-- Reads what lies at an absolute path. Contents matter for sources and artifacts only; a link to a directory is
kept as a link. -/
partial def snapshot (path : String) : IO Entry := do
  let place := (← IO.currentDir) / path
  if (← place.symlinkMetadata).type == .symlink && (← place.isDir) then
    return .link (toString (← IO.FS.realPath path))
  if ← place.isDir then
    let entries ← (← place.readDir).toList.mapM fun entry => do
      return (entry.fileName, ← snapshot (path ++ "/" ++ entry.fileName))
    return .folder entries
  if path.endsWith ".php" || path.endsWith ".json" then
    return .file (← IO.FS.readBinFile path)
  return .file ByteArray.empty

/-- Adds what lies at an absolute path, links on the way to it followed. -/
def addPlace (tree : FileTree) (path : String) : IO FileTree := do
  if !(← ((← IO.currentDir) / path).pathExists) then return tree
  let real := toString (← IO.FS.realPath path)
  let location := (Path.ofString real).parts
  return { tree with root := tree.root.insert location (← snapshot real) }

/-- The working directory and every argument that names a directory. -/
def readFiles (args : List String) : IO FileTree := do
  let here := toString (← IO.currentDir)
  let empty : FileTree := { directory := (Path.ofString here).parts }
  let named := args.filter fun arg => arg.startsWith "/" || arg.startsWith ".."
  (here :: named.map fun arg => toString ((Path.ofString here).join (Path.ofString arg))).foldlM addPlace empty

/-- The content of a small file, if there is one. -/
def contentOf (path : String) : IO (Option ByteArray) := do
  try
    return some (← IO.FS.readBinFile path)
  catch _ => return none

def countProcessors (info : ByteArray) : Int :=
  ((Text.splitAt '\n' (Text.Utf8.decodeLossy info)).filter (·.startsWith "processor")).length

/-- How long reading a small temporary file takes. -/
def checkDisk : IO DiskCheck := do
  try
    IO.FS.withTempFile fun handle path => do
      handle.putStr "test data"
      handle.flush
      let start ← IO.monoNanosNow
      let _ ← IO.FS.readFile path
      return DiskCheck.read (((← IO.monoNanosNow) - start).toFloat / 1000000000)
  catch _ => return .noTemporaryFile

def readHost : IO Host := do
  let cgroups ← ["/sys/fs/cgroup/memory.max", "/sys/fs/cgroup/memory/memory.limit_in_bytes"].mapM contentOf
  return {
    processors := ← IO.getEnv "NUMBER_OF_PROCESSORS"
    memoryLimit := ← IO.getEnv "DISCOVERY_MEMORY_LIMIT"
    nproc := none
    cpuCount := (← contentOf "/proc/cpuinfo").map countProcessors
    cgroupLimits := cgroups
    addressLimit := none
    disk := ← checkDisk }

/-- Writes the files in which two trees differ. -/
def writeChanges (before after : FileTree) : IO Unit := do
  for (location, entry) in FileTree.leavesBelow [] after.root do
    match entry, before.root.at? location with
    | .file content, some (.file old) =>
        if content != old then IO.FS.writeBinFile ("/" ++ "/".intercalate location) content
    | .file content, _ =>
        IO.FS.createDirAll ("/" ++ "/".intercalate location.dropLast)
        IO.FS.writeBinFile ("/" ++ "/".intercalate location) content
    | _, _ => pure ()

end Roster.Outer

open Roster in
/-- Runs a command line. The time that is reported is that of reading the files. -/
def main (args : List String) : IO UInt32 := do
  let start ← IO.monoMsNow
  let tree ← Outer.readFiles args
  let elapsed := ((← IO.monoMsNow) - start).toFloat / 1000
  let outcome := Command.execute { host := ← Outer.readHost, elapsed, tree } args
  let output ← if outcome.exitCode = 2 then IO.getStderr else IO.getStdout
  for line in outcome.lines do
    output.putStrLn line
  if let some crash := outcome.crash then
    (← IO.getStderr).putStrLn crash.message
  Outer.writeChanges tree outcome.tree
  return outcome.exitCode.toUInt32
