import Roster.FileTree.Access
import Roster.Finder
import Roster.Syntax.Failure

/-! Scanning single files: read, parse, match. A file that cannot be read or parsed is a result like any other; what
is wrong with the targets, or with the path itself, is a fault of the scan. -/

namespace Roster.Scan

open Roster.Syntax

inductive Fault where
  | finder (fault : Finder.Fault)
  | embeddedNull
deriving DecidableEq, Repr

def Fault.message : Fault → String
  | .finder fault => fault.message
  | .embeddedNull => FileTree.Fault.embeddedNull.message

/-- What scanning a file gave. -/
structure FileResult where
  path : String
  outcome : Except Failure (List Match)

/-- The matches of a finder in a file, target by target. -/
def matchesOf (finder : Finder) (source : Tree) : Except Fault (List Match) :=
  match finder.findInto {} source with
  | .ok (found, _) => .ok found.toMatches
  | .error fault => .error (.finder fault)

def finderFor (targets : List String) : Except Fault Finder :=
  (Finder.ofTargets targets).mapError .finder

variable [Parser]

/-- The syntax tree of a file, or why it is skipped. -/
def fileTree (tree : FileTree) (path : String) : Except Fault (Except Failure Tree) :=
  match tree.read (Path.ofString path) with
  | .ok content => .ok (Parser.read content)
  | .error .embeddedNull => .error .embeddedNull
  | .error fault => .ok (.error (.unreadable fault.message))

/-- Scans a file with a finder at hand. -/
def scanWith (finder : Finder) (tree : FileTree) (path : String) : Except Fault FileResult := do
  match ← fileTree tree path with
  | .ok source => return ⟨path, .ok (← matchesOf finder source)⟩
  | .error failure => return ⟨path, .error failure⟩

/-- Scans one file; its finder is made once the file is known to be usable. -/
def scanFile (targets : List String) (tree : FileTree) (path : String) : Except Fault FileResult := do
  match ← fileTree tree path with
  | .ok source => return ⟨path, .ok (← matchesOf (← finderFor targets) source)⟩
  | .error failure => return ⟨path, .error failure⟩

/-- Scans files with one finder. -/
def scanChunk (targets : List String) (tree : FileTree) (paths : List String) :
    Except Fault (List FileResult) := do
  let finder ← finderFor targets
  paths.mapM (scanWith finder tree)

end Roster.Scan
