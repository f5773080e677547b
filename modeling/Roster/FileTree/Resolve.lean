import Roster.FileTree.Basic

/-! Resolving paths in a file tree. Every part but the last has to be a folder or a link to one; a link stands for its
target, and at most forty of them are followed. -/

namespace Roster.FileTree

/-- Where a path leads: to an entry, or to a free name in a folder. -/
inductive Place where
  | entry (location : List String) (entry : Entry)
  | free (location : List String) (name : String)

def linkLimit : Nat := 40

def longestName : Nat := 255

def longestPath : Nat := 4095

/-- Whether the system takes no path of this length. -/
def isTooLong (path : Path) : Bool :=
  longestPath < (toString path).utf8ByteSize

/-- The parts of a link's target. Single dots stay, and one stands for a slash at the end, because both demand a
folder. -/
def targetParts (target : String) : List String :=
  let parts := (Text.splitAt '/' target).filter (· ≠ "")
  if target.toList.getLast? = some '/' then parts ++ ["."] else parts

def isAbsoluteTarget (target : String) : Bool :=
  target.toList.head? = some '/'

/-- Follows parts from a location; `links` more links may be followed, the last part only if `follow`. -/
def walk (root : Entry) (follow : Bool) (links : Nat) (location : List String) :
    List String → Except Cause Place
  | [] =>
      match root.at? location with
      | some entry => .ok (.entry location entry)
      | none => .error .notFound
  | part :: rest =>
      match root.at? location with
      | none => .error .notFound
      | some (.folder entries) =>
          if part = "." then walk root follow links location rest
          else if part = ".." then walk root follow links location.dropLast rest
          else if longestName < part.utf8ByteSize then .error .nameTooLong
          else
            match (Entry.folder entries).child? part with
            | none => if rest.isEmpty then .ok (.free location part) else .error .notFound
            | some (.link target) =>
                if rest.isEmpty && !follow then
                  .ok (.entry (location ++ [part]) (.link target))
                else
                  match links with
                  | 0 => .error .tooManyLinks
                  | more + 1 =>
                      walk root follow more (if isAbsoluteTarget target then [] else location)
                        (targetParts target ++ rest)
            | some _ => walk root follow links (location ++ [part]) rest
      | some _ => .error .notDirectory
termination_by parts => (links, parts.length)

/-- Where a path leads. -/
def locate (tree : FileTree) (follow : Bool) (path : Path) : Except Fault Place :=
  let text := toString path
  if text.contains '\x00' then .error .embeddedNull
  else if longestPath < text.utf8ByteSize then .error (.system .nameTooLong text)
  else
    let start := if path.isAbsolute then [] else tree.directory
    (walk tree.root follow linkLimit start path.parts).mapError (.system · text)

/-- Where a path leads as it is written; a slash at its end demands a folder, and an empty path leads nowhere. -/
def locateWritten (tree : FileTree) (text : String) : Except Fault Place :=
  if text.contains '\x00' then .error .embeddedNull
  else if longestPath < text.utf8ByteSize then .error (.system .nameTooLong text)
  else if text.isEmpty then .error (.system .notFound text)
  else
    let start := if isAbsoluteTarget text then [] else tree.directory
    (walk tree.root true linkLimit start (targetParts text)).mapError (.system · text)

/-- The entry that a path leads to, if it leads to one. Only an overlong name is a fault. -/
def entry? (tree : FileTree) (path : Path) : Except Fault (Option Entry) :=
  match tree.locate true path with
  | .ok (.entry _ entry) => .ok (some entry)
  | .ok (.free _ _) => .ok none
  | .error (.system .nameTooLong text) => .error (.system .nameTooLong text)
  | .error _ => .ok none

/-- Replaces links by their targets and leaves folders at double dots. Names that are missing stay, and so does a
link once `links` of them are used up. -/
def resolveParts (root : Entry) (links : Nat) (location : List String) : List String → List String
  | [] => location
  | part :: rest =>
      if part = "." then resolveParts root links location rest
      else if part = ".." then resolveParts root links location.dropLast rest
      else
        match root.at? (location ++ [part]), links with
        | some (.link target), more + 1 =>
            resolveParts root more (if isAbsoluteTarget target then [] else location)
              (targetParts target ++ rest)
        | _, links => resolveParts root links (location ++ [part]) rest
termination_by parts => (links, parts.length)

/-- The absolute path without links that a path stands for. -/
def resolve (tree : FileTree) (path : Path) : Path :=
  let start := if path.isAbsolute then [] else tree.directory
  ⟨.slash, resolveParts tree.root linkLimit start path.parts⟩

def isDirectory (tree : FileTree) (path : Path) : Except Fault Bool := do
  return match ← tree.entry? path with
    | some (.folder _) => true
    | _ => false

def isFile (tree : FileTree) (path : Path) : Except Fault Bool := do
  return match ← tree.entry? path with
    | some (.file _) => true
    | _ => false

end Roster.FileTree
