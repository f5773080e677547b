import Roster.FileTree.Resolve

/-! Reading and changing a file tree. An operation that may change the tree even when it fails gives back the tree along
with its outcome: making a folder may leave folders above it behind, and a write that breaks off leaves the bytes that
were taken. -/

namespace Roster.FileTree

def read (tree : FileTree) (path : Path) : Except Fault ByteArray :=
  match tree.locate true path with
  | .ok (.entry _ (.file content)) => .ok content
  | .ok (.entry _ _) => .error (.system .isDirectory (toString path))
  | .ok (.free _ _) => .error (.system .notFound (toString path))
  | .error fault => .error fault

/-- Puts a file where a path leads, making it or replacing what it held. -/
def put (tree : FileTree) (path : Path) (content : ByteArray) : Except Fault FileTree :=
  let changed (location : List String) : FileTree :=
    { tree with root := tree.root.insert location (.file content) }
  match tree.locate true path with
  | .ok (.entry location (.file _)) => .ok (changed location)
  | .ok (.entry _ _) => .error (.system .isDirectory (toString path))
  | .ok (.free location name) => .ok (changed (location ++ [name]))
  | .error fault => .error fault

/-- The bytes of a content that a device takes. -/
def Taken.part : Taken → ByteArray → ByteArray
  | .front bytes _, content => content.extract 0 bytes
  | _, content => content

/-- Writes a file as the device takes it. -/
def write (tree : FileTree) (taken : Taken) (path : Path) (content : ByteArray) :
    Except Fault Unit × FileTree :=
  match tree.put path (taken.part content) with
  | .error fault => (.error fault, tree)
  | .ok changed =>
      match taken with
      | .whole => (.ok (), changed)
      | .refused cause => (.error (.system cause (toString path)), tree)
      | .front _ cause => (.error (.brokenOff cause), changed)

/-- Puts an entry at a name that is still free. -/
def create (tree : FileTree) (path : Path) (entry : Entry) : Except Fault FileTree :=
  match tree.locate false path with
  | .ok (.free location name) =>
      .ok { tree with root := tree.root.insert (location ++ [name]) entry }
  | .ok (.entry _ _) => .error (.system .alreadyExists (toString path))
  | .error fault => .error fault

def makeLink (tree : FileTree) (path : Path) (target : String) : Except Fault FileTree :=
  tree.create path (.link target)

/-- Makes one folder; that it is there already is no fault. -/
def makeFolder (tree : FileTree) (path : Path) : Except Fault Unit × FileTree :=
  match tree.create path (.folder []) with
  | .ok made => (.ok (), made)
  | .error fault =>
      match tree.isDirectory path with
      | .ok true => (.ok (), tree)
      | .ok false => (.error fault, tree)
      | .error other => (.error other, tree)

/-- Makes a folder, and those above it where they are missing. -/
def makeFolders (tree : FileTree) (path : Path) : Except Fault Unit × FileTree :=
  match tree.create path (.folder []) with
  | .error (.system .notFound text) =>
      if h : path.parts = [] then (.error (.system .notFound text), tree)
      else
        have : path.parent.parts.length < path.parts.length := by
          have := List.length_pos_iff.2 h
          simp only [Path.parent, List.length_dropLast]
          omega
        match makeFolders tree path.parent with
        | (.ok (), made) => makeFolder made path
        | failed => failed
  | _ => makeFolder tree path
termination_by path.parts.length

/-- Takes away what a path names, a link itself and not its target. -/
def delete (tree : FileTree) (path : Path) : Except Fault FileTree :=
  match tree.locate false path with
  | .ok (.entry location _) => .ok { tree with root := tree.root.erase location }
  | .ok (.free _ _) => .error (.system .notFound (toString path))
  | .error fault => .error fault

mutual

/-- The names of all entries that are no folders, each with the row of names that leads to it. -/
def leavesBelow (location : List String) : Entry → List (List String × Entry)
  | .folder entries => leavesAmong location entries
  | entry => [(location, entry)]

def leavesAmong (location : List String) : List (String × Entry) → List (List String × Entry)
  | [] => []
  | (name, entry) :: rest => leavesBelow (location ++ [name]) entry ++ leavesAmong location rest

end

/-- Everything below the working directory that is neither a folder nor leads to one, by relative path in order. -/
def listing (tree : FileTree) : List String :=
  let below := (tree.root.at? tree.directory).getD (.folder [])
  let kept := (leavesBelow [] below).filter fun (location, entry) =>
    match entry with
    | .link _ => (tree.isDirectory ⟨.relative, location⟩).toOption != some true
    | _ => true
  (kept.map fun (location, _) => "/".intercalate location).mergeSort fun a b => !decide (b < a)

end Roster.FileTree
