import Roster.Artifact.Format
import Roster.FileTree.Access
import Roster.Index
import Roster.Text.Utf8

/-! Artifacts in a file tree. Writing refuses interfaces that share an artifact before it touches anything, makes the
directory, and then writes one artifact after the other, as the device takes them; loading reads strict UTF-8 with any
kind of line end. -/

namespace Roster.Artifact

open Roster.Text

/-- Why artifacts cannot be written. -/
inductive WriteFault where
  | conflict (shared : Conflict)
  | directory (path : Path) (fault : FileTree.Fault)
  | artifact (path : Path) (fault : FileTree.Fault)
  | embeddedNull
deriving DecidableEq, Repr

def WriteFault.message : WriteFault → String
  | .conflict shared => shared.message
  | .directory path fault => s!"Cannot create cache directory {path}: " ++ fault.message
  | .artifact path fault => s!"Cannot write cache artifact {path}: " ++ fault.message
  | .embeddedNull => FileTree.Fault.embeddedNull.message

/-- A fault of the system takes the blame for its path; a null character does not get that far. -/
def WriteFault.ofFault (blame : FileTree.Fault → WriteFault) : FileTree.Fault → WriteFault
  | .embeddedNull => .embeddedNull
  | fault => blame fault

/-- Writes the artifacts of the interfaces in turn, up to the first that the device does not take whole. -/
def writeEach (device : FileTree.Device) (directory : Path) (format : Format) (index : Index)
    (tree : FileTree) : List String → Except WriteFault (List Path) × FileTree
  | [] => (.ok [], tree)
  | interface :: rest =>
      let path := location directory interface format
      match tree.write device.next path (render format (index.get interface)).toUTF8 with
      | (.error fault, left) => (.error (.ofFault (.artifact path) fault), left)
      | (.ok (), written) =>
          match writeEach device.tail directory format index written rest with
          | (.ok paths, last) => (.ok (path :: paths), last)
          | failed => failed

/-- Writes one artifact for each interface, also for those without implementors. -/
def write (device : FileTree.Device) (directory : Path) (format : Format) (index : Index)
    (tree : FileTree) (interfaces : List String) : Except WriteFault (List Path) × FileTree :=
  match checkNames interfaces with
  | .error conflict => (.error (.conflict conflict), tree)
  | .ok () =>
      match tree.makeFolders directory with
      | (.error fault, left) => (.error (.ofFault (.directory directory) fault), left)
      | (.ok (), made) => writeEach device directory format index made interfaces

/-- Why an artifact cannot be loaded. -/
inductive LoadFault where
  | file (fault : FileTree.Fault)
  | undecodable (fault : Utf8.Undecodable)
  | content (fault : JsonArray.Fault)
deriving DecidableEq, Repr

def LoadFault.message : LoadFault → String
  | .file fault => fault.message
  | .undecodable fault => fault.message
  | .content fault => fault.message

/-- The implementors that were written for an interface. -/
def load (tree : FileTree) (directory : Path) (interface : String) (format : Format) :
    Except LoadFault (List String) := do
  let content ← (tree.read (location directory interface format)).mapError .file
  let text ← (Utf8.decode content).mapError .undecodable
  (parse format text).mapError .content

end Roster.Artifact
