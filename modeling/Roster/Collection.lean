import Roster.Exclusion
import Roster.FileTree.Resolve
import Roster.Settings.Basic

/-! Collecting the source files of a project. Roots are taken in turn; below a root a folder's own files come before
those of its subfolders, both in order of their names, and folders that are excluded as a whole are not entered.
Exclusion sees a path from the project's base on, or from the root when that lies elsewhere. -/

namespace Roster

/-- A source file to scan. -/
structure Candidate where
  path : Path
  normalized : String
deriving DecidableEq, Repr

def Candidate.ofPath (path : Path) : Candidate :=
  ⟨path, Exclusion.forward (toString path)⟩

namespace Collection

/-- The module directories that exist. -/
def moduleRoots (tree : FileTree) (base : Path) : List String → Except FileTree.Fault (List Path)
  | [] => .ok []
  | name :: names => do
      let present ← tree.isDirectory (base / name)
      let rest ← moduleRoots tree base names
      return if present then base / name :: rest else rest

/-- The roots to scan, in order. Searching all vendors replaces the search of single ones and turns it off. -/
def scanRoots (tree : FileTree) (settings : Settings) :
    Except FileTree.Fault (List Path × Settings) := do
  let modules ← moduleRoots tree settings.base settings.moduleDirectories
  let own := settings.sourcePath :: modules
  if settings.searchAllVendors then
    return (own ++ [settings.base / "vendor"], { settings with searchVendors := false })
  else if settings.searchVendors then
    return (own ++ settings.vendors.map (settings.base / "vendor" / ·), settings)
  else return (own, settings)

/-- What decides about the files below one root. -/
structure Scope where
  tree : FileTree
  patterns : List String
  anchor : Path

/-- A path in the form that exclusion patterns are matched with. -/
def Scope.anchored (scope : Scope) (path : Path) : String :=
  Exclusion.forward (Path.anchored scope.tree.directoryPath scope.anchor path)

def Scope.excludesFolder (scope : Scope) (path : Path) : Bool :=
  Exclusion.excludesDirectory scope.patterns (scope.anchored path)

/-- Whether a path is a regular file that is not excluded. Asking about a name that is too long is a fault. -/
def Scope.keeps (scope : Scope) (path : Path) : Except FileTree.Fault Bool := do
  let present ← scope.tree.isFile path
  return present && !Exclusion.excludes scope.patterns (scope.anchored path)

def isSourceName (name : String) : Bool :=
  ".php".toList.isSuffixOf name.toList

/-- A folder and one name in it. -/
def inside (folder : Path) (name : String) : Path :=
  { folder with parts := folder.parts ++ [name] }

def byName {α : Type} (entries : List (String × α)) : List (String × α) :=
  entries.mergeSort fun a b => !decide (b.1 < a.1)

/-- The paths in a folder itself that are named like sources, but for folders. -/
def ownSources (folder : Path) (entries : List (String × Entry)) : List Path :=
  ((byName entries).filter fun (name, entry) => isSourceName name && !entry.isFolder).map
    fun (name, _) => inside folder name

mutual

/-- The paths below a folder that are named like sources. A folder whose path is too long cannot be listed and counts
as empty. -/
def sourcesBelow (scope : Scope) (folder : Path) : Entry → List Path
  | .folder entries =>
      if FileTree.isTooLong folder then []
      else
        ownSources folder entries
          ++ (byName (sourcesBelowEach scope folder entries)).flatMap (·.2)
  | _ => []

/-- The same for each subfolder that is entered. -/
def sourcesBelowEach (scope : Scope) (folder : Path) :
    List (String × Entry) → List (String × List Path)
  | [] => []
  | (name, entry) :: rest =>
      if entry.isFolder && !scope.excludesFolder (inside folder name) then
        (name, sourcesBelow scope (inside folder name) entry) :: sourcesBelowEach scope folder rest
      else sourcesBelowEach scope folder rest

end

/-- The candidates among paths, up to the first fault. -/
def keepEach (scope : Scope) : List Path → Except FileTree.Fault (List Candidate)
  | [] => .ok []
  | path :: paths => do
      let kept ← scope.keeps path
      let rest ← keepEach scope paths
      return if kept then .ofPath path :: rest else rest

/-- Where paths are seen from when exclusion looks at them. -/
def anchorFor (base root : Path) : Path :=
  if root.isAtOrBelow base then base else root

/-- The candidates below one root; none when it is no folder. -/
def collectFrom (tree : FileTree) (base : Path) (patterns : List String) (root : Path) :
    Except FileTree.Fault (List Candidate) := do
  match ← tree.entry? root with
  | some (.folder entries) =>
      let absolute := tree.directoryPath.join root
      let anchor := anchorFor (tree.directoryPath.join base) absolute
      let scope : Scope := ⟨tree, patterns, anchor⟩
      keepEach scope (sourcesBelow scope absolute (.folder entries))
  | _ => return []

/-- The candidates below all roots. -/
def collect (tree : FileTree) (base : Path) (patterns : List String) :
    List Path → Except FileTree.Fault (List Candidate)
  | [] => .ok []
  | root :: roots => do
      let found ← collectFrom tree base patterns root
      return found ++ (← collect tree base patterns roots)

end Collection

end Roster
