import Roster.Artifact.Store
import Roster.Collection
import Roster.Scan.Run

/-! Discovery from end to end: collect the candidates, scan them, write the artifacts. What is wrong with the targets
is found before anything happens. -/

namespace Roster.Discovery

inductive Fault where
  | emptyInterfaceName
  | conflict (shared : Artifact.Conflict)
  | file (fault : FileTree.Fault)
  | host (fault : Host.Fault)
  | scan (fault : Scan.Fault)
  | write (fault : Artifact.WriteFault)
deriving DecidableEq, Repr

def Fault.message : Fault → String
  | .emptyInterfaceName => Finder.Fault.emptyTargetName.message
  | .conflict shared => shared.message
  | .file fault => fault.message
  | .host fault => fault.message
  | .scan fault => fault.message
  | .write fault => fault.message

/-- Whether the user can mend it: the targets are wrong, or an artifact cannot be written. -/
def Fault.isExpected : Fault → Bool
  | .emptyInterfaceName | .conflict _ | .scan (.finder _) => true
  | .write fault => fault != .embeddedNull
  | _ => false

/-- What a discovery gave. Without interfaces it did nothing. -/
structure Report where
  interfaces : List String := []
  implementors : List (String × List String) := []
  artifacts : List Path := []
  stats : Option Scan.Stats := none
  duration : Float := 0

def Report.skipped (report : Report) : Bool :=
  report.interfaces.isEmpty

def Report.filesScanned (report : Report) : Nat :=
  (report.stats.map (·.scanned)).getD 0

def Report.filesFailed (report : Report) : Nat :=
  (report.stats.map (·.failed)).getD 0

/-- What a discovery works on and may change. -/
structure State where
  settings : Settings
  tree : FileTree
  faults : Scan.WorkerFaults := {}

/-- An ended discovery: its outcome, its notices and the state it leaves. -/
structure Result where
  outcome : Except Fault Report
  notices : List Notice
  state : State

/-- Refuses targets that cannot all be discovered. -/
def checkTargets (targets : List String) : Except Fault Unit :=
  if targets.contains "" then .error .emptyInterfaceName
  else (Artifact.checkNames targets).mapError .conflict

/-- A finished scan: its counts and the index. -/
structure Scanned where
  stats : Except Fault Scan.Stats
  index : Index
  notices : List Notice
  state : State

/-- Scans the candidates for the targets; the host's profile is not needed when there are none. -/
def scanFiles [Syntax.Parser] (host : Host) (elapsed : Float) (state : State) (targets : List String)
    (files : List Candidate) : Scanned :=
  let index := Index.ofTargets targets
  if files.isEmpty then ⟨.ok {}, index, [.noFiles], state⟩
  else
    match state.settings.resourceProfile host with
    | .error fault => ⟨.error (.host fault), index, [], state⟩
    | .ok (profile, settings) =>
        let state := { state with settings }
        match Scan.Plan.make targets profile settings.batchSize settings.progressive with
        | .error fault => ⟨.error (.scan (.finder fault)), index, [], state⟩
        | .ok plan =>
            let (stats, progress) := Scan.run plan host.order host.platform elapsed state.tree
              (Scan.start plan index state.faults) files
            ⟨stats.mapError .scan, progress.index, progress.notices,
              { state with faults := progress.faults }⟩

/-- Collects the candidates of a project. Turning off the search of single vendors outlasts a fault. -/
def gather (state : State) : Except FileTree.Fault (List Candidate) × State :=
  match Collection.scanRoots state.tree state.settings with
  | .error fault => (.error fault, state)
  | .ok (roots, settings) =>
      (Collection.collect state.tree settings.base Exclusion.builtIn roots, { state with settings })

/-- Writes the artifacts of a finished scan and reports. -/
def conclude (device : FileTree.Device) (elapsed : Float) (targets : List String) (scanned : Scanned)
    (stats : Scan.Stats) : Result :=
  let state := scanned.state
  let (written, tree) := Artifact.write device state.settings.cachePath state.settings.format
    scanned.index state.tree targets
  let state := { state with tree }
  match written with
  | .error fault => ⟨.error (.write fault), scanned.notices, state⟩
  | .ok artifacts =>
      let report : Report := {
        interfaces := targets
        implementors := targets.map fun target => (target, scanned.index.get target)
        artifacts
        stats := some stats
        duration := elapsed }
      ⟨.ok report, scanned.notices ++ [.discovered elapsed], state⟩

/-- Discovers the implementors of the given interfaces, or of those in the settings. -/
def run [Syntax.Parser] (host : Host) (elapsed : Float) (state : State)
    (interfaces : Option (List String)) : Result :=
  let targets := Finder.distinct (interfaces.getD state.settings.interfaces)
  if targets.isEmpty then ⟨.ok {}, [.noInterfaces], state⟩
  else
    match checkTargets targets with
    | .error fault => ⟨.error fault, [], state⟩
    | .ok () =>
        let opening := Notice.discovering targets.length
        match gather state with
        | (.error fault, state) => ⟨.error (.file fault), [opening], state⟩
        | (.ok files, state) =>
            let scanned := scanFiles host elapsed state targets files
            let scanned := { scanned with notices := opening :: scanned.notices }
            match scanned.stats with
            | .error fault => ⟨.error fault, scanned.notices, scanned.state⟩
            | .ok stats => conclude host.device elapsed targets scanned stats

/-- The implementors that an earlier discovery cached for an interface. -/
def cached (state : State) (interface : String) : Except Artifact.LoadFault (List String) :=
  Artifact.load state.tree state.settings.cachePath interface state.settings.format

end Roster.Discovery
