import Roster.Command.Arguments
import Roster.Command.Usage
import Roster.Console.Markup
import Roster.Console.Table
import Roster.Discovery
import Roster.Php.Language

/-! The program: a command line becomes lines of output, an exit code and the file tree that is left. -/

namespace Roster.Command

open Roster.Console

/-- What ends the program without a message of its own. -/
inductive Crash where
  | file (fault : FileTree.Fault)
  | host (fault : Host.Fault)
  | discovery (fault : Discovery.Fault)
  | load (fault : Artifact.LoadFault)
  | markup (fault : Markup.Fault)

def Crash.message : Crash → String
  | .file fault => fault.message
  | .host fault => fault.message
  | .discovery fault => fault.message
  | .load fault => fault.message
  | .markup fault => fault.message

/-- Why a command ends early: its arguments are refused, it has told the user itself, or it crashed. -/
inductive Stop where
  | usage (topic : Topic) (fault : UsageFault)
  | exit (code : Nat) (lines : List String)
  | crash (what : Crash)

/-- What the program did. -/
structure Outcome where
  exitCode : Nat := 0
  lines : List String := []
  crash : Option Crash := none
  tree : FileTree

/-- What the program works in: the host, its clock and the files. -/
structure World where
  host : Host
  elapsed : Float
  tree : FileTree

def consoleWidth : Nat := 100

def texts (lines : List (List Char)) : List String :=
  lines.map fun line => String.ofList line

def plain (text : String) : Except Stop String :=
  (Markup.plain text).mapError fun fault => .crash (.markup fault)

/-- The lines of a marked-up message. -/
def message (text : String) : Except Stop (List String) := do
  return texts (wrap consoleWidth .fold (← plain text))

/-- The lines of a table whose cells are marked up. Cells are looked at column by column. -/
def tableLines (table : Table) : Except Stop (List String) := do
  (List.range table.columns.length).forM fun i =>
    table.rows.forM fun row => do
      let _ ← plain (row.getD i "")
  let rows ← table.rows.mapM fun row => row.mapM plain
  return texts ({ table with rows }.lines consoleWidth)

-- Values

def choices : List String := [Artifact.Format.php.name, Artifact.Format.json.name]

/-- Checks the value of one option. -/
def checkValue (tree : FileTree) (topic : Topic) (arguments : Arguments) (switch : Switch) :
    Except Stop Unit :=
  let value := (arguments.value? switch).getD ""
  let refuse (fault : ValueFault) : Except Stop Unit :=
    .error (.usage topic (.invalidValue switch fault))
  match switch with
  | .basePath | .appPath | .cachePath =>
      match tree.locateWritten value with
      | .error .embeddedNull => .error (.crash (.file .embeddedNull))
      | .ok (.entry _ (.file _)) => refuse (.isFile value)
      | _ => .ok ()
  | .format => if choices.contains value then .ok () else refuse (.notAmong value choices)
  | .batchSize =>
      match Text.readInteger value with
      | .ok size => if 1 ≤ size then .ok () else refuse (.tooSmall size)
      | .error _ => refuse (.notInteger value)
  | _ => .ok ()

/-- Reads the arguments of a command with the given options. A request for help ends it; values are checked in the
order in which they were given. -/
def readArguments (tree : FileTree) (topic : Topic) (switches : List Switch) (args : List String) :
    Except Stop Arguments := do
  let arguments ← (Arguments.read (switches ++ [.help]) true args).mapError (.usage topic)
  if arguments.has .help then throw (.exit 0 topic.help)
  arguments.given.forM (checkValue tree topic arguments)
  return arguments

/-- Operands beyond the expected ones are refused. -/
def checkOperands (topic : Topic) (arguments : Arguments) (expected : Nat) : Except Stop Unit :=
  match arguments.operands.drop expected with
  | [] => .ok ()
  | extra => .error (.usage topic (.extraArguments extra))

def formatOf (arguments : Arguments) : Artifact.Format :=
  ((arguments.value? .format).bind Artifact.Format.ofName?).getD .php

-- Commands

def runSwitches : List Switch :=
  [.basePath, .appPath, .cachePath, .interface, .vendor, .allVendors, .format, .batchSize, .progressive,
    .noProgressive, .memoryLimit, .verbose]

/-- The settings that the arguments ask for. -/
def settingsOf (tree : FileTree) (arguments : Arguments) : Settings :=
  let path? (switch : Switch) := (arguments.value? switch).map Path.ofString
  let settings : Settings := {
    base := tree.resolve ((path? .basePath).getD (.ofString "."))
    app := path? .appPath
    cache := path? .cachePath
    memoryLimit := arguments.value? .memoryLimit
    batchSize := (arguments.value? .batchSize).bind fun text => (Text.readInteger text).toOption
    progressive := (arguments.options.filterMap fun (switch, _) =>
      if switch = .progressive then some true
      else if switch = .noProgressive then some false
      else none).getLast?
    format := formatOf arguments
    searchAllVendors := arguments.has .allVendors }
  let settings := (arguments.values .interface).foldl Settings.addInterface settings
  (arguments.values .vendor).foldl Settings.addVendor settings

/-- A report as a table and a closing line. -/
def reportLines (report : Discovery.Report) : Except Stop (List String) := do
  let rows := (report.implementors.zip report.artifacts).map fun ((interface, classes), path) =>
    [interface, toString classes.length, toString path]
  let table ← tableLines {
    title := "Discovered implementors"
    columns := [⟨"Interface", .left⟩, ⟨"Implementors", .right⟩, ⟨"Artifact", .left⟩]
    rows }
  let scanned := report.filesScanned
  let failed := report.filesFailed
  let seconds := Text.fixedPlaces 2 report.duration
  let closing ← message
    s!"Scanned {scanned} files ({failed} skipped). Discovery completed in {seconds}s"
  return table ++ closing

def greeting : List String := ["Discovering..."]

def ended (tree : FileTree) (before : List String) : Except Stop (List String) → Outcome
  | .ok lines => { lines := before ++ lines, tree }
  | .error (.exit code lines) => { exitCode := code, lines := before ++ lines, tree }
  | .error (.crash what) => { exitCode := 1, lines := before, crash := some what, tree }
  | .error (.usage topic fault) =>
      let usage := if fault.showsUsage then [topic.usage, topic.hint, ""] else []
      { exitCode := 2, lines := before ++ usage ++ ["Error: " ++ fault.message], tree }

/-- A message in red, and the exit code of a failure. -/
def complain (text : String) : Except Stop (List String) := do
  throw (.exit 1 (← message ("[red]" ++ text ++ "[/]")))

/-- Discovers implementors and writes the artifacts. -/
def run (world : World) (args : List String) : Outcome :=
  let prepared : Except Stop Settings := do
    let arguments ← readArguments world.tree .run runSwitches args
    checkOperands .run arguments 0
    return settingsOf world.tree arguments
  match prepared with
  | .error stop => ended world.tree [] (.error stop)
  | .ok settings =>
      if settings.interfaces.isEmpty then
        ended world.tree greeting (message Notice.noInterfaces.message)
      else
        let result := Discovery.run world.host world.elapsed { settings, tree := world.tree } none
        ended result.state.tree greeting <|
          match result.outcome with
          | .ok report => reportLines report
          | .error fault =>
              if fault.isExpected then complain fault.message
              else .error (.crash (.discovery fault))

/-- A truth value as it is shown. -/
def flagText (b : Bool) : String :=
  if b then "True" else "False"

def propertyText : Profile.Property → String
  | .integer n => toString n
  | .score x => Text.shortestText x
  | .flag b => flagText b

/-- Shows the profile of the host. -/
def profile (world : World) (args : List String) : Except Stop (List String) := do
  let arguments ← readArguments world.tree .profile [.memoryLimit] args
  checkOperands .profile arguments 0
  let found ← (world.host.detect (arguments.value? .memoryLimit)).mapError fun fault =>
    .crash (.host fault)
  let threshold := Profile.progressiveFileThreshold
  tableLines {
    title := "Resource profile"
    columns := [⟨"Property", .left⟩, ⟨"Value", .left⟩]
    showsHeader := false
    rows := (found.properties.map fun (name, property) => [name, propertyText property])
      ++ [[s!"progressive (> {threshold} files)", flagText found.prefersProgressive]] }

/-- Shows the implementors that are cached for an interface. -/
def inspect (world : World) (args : List String) : Except Stop (List String) := do
  let topic := Topic.inspect
  let arguments ← readArguments world.tree topic [.cachePath, .format] args
  match arguments.operands.head?, arguments.value? .cachePath with
  | none, _ => throw (.usage topic (.missingArgument "INTERFACE"))
  | _, none => throw (.usage topic (.missingOption .cachePath))
  | some interface, some cache =>
      checkOperands topic arguments 1
      let directory := Path.ofString cache
      match Artifact.load world.tree directory interface (formatOf arguments) with
      | .error (.file (.system .notFound _)) =>
          complain s!"No cache artifact for {interface} in {directory}"
      | .error fault => throw (.crash (.load fault))
      | .ok classes =>
          let count := classes.length
          let title ← plain s!"{interface} ({count})"
          let body ← if classes.isEmpty then plain "[dim](none)[/]"
            else plain ("\n".intercalate classes)
          return texts (panel consoleWidth title body)

/-- Runs a command by its name. -/
def dispatch (world : World) (name : String) (args : List String) : Outcome :=
  match name with
  | "run" => run world args
  | "profile" => ended world.tree [] (profile world args)
  | "show" => ended world.tree [] (inspect world args)
  | _ => ended world.tree [] <| .error <| .usage .program <|
      match Arguments.read [.version, .help] false [name] with
      | .error fault => fault
      | .ok _ => .noSuchCommand name

/-- Runs the program. Without arguments it shows its help, and that counts as a mistake. -/
def execute (world : World) (args : List String) : Outcome :=
  let stop (what : Stop) : Outcome := ended world.tree [] (.error what)
  if args.isEmpty then stop (.exit 2 Topic.program.help)
  else
    match Arguments.read [.version, .help] false args with
    | .error fault => stop (.usage .program fault)
    | .ok arguments =>
        match arguments.eager?, arguments.operands with
        | some .version, _ => stop (.exit 0 ["main, version " ++ Topic.version])
        | some _, _ => stop (.exit 0 Topic.program.help)
        | none, [] => stop (.usage .program .missingCommand)
        | none, name :: rest => dispatch world name rest

end Roster.Command
