import Roster.Path
import Roster.Text.Quoted

/-! File trees: files, links and folders below one root, and a working directory. Nothing is said about the order in
which a folder lists its entries. -/

namespace Roster

inductive Entry where
  | file (content : ByteArray)
  | link (target : String)
  | folder (entries : List (String × Entry))

instance : Inhabited Entry := ⟨.folder []⟩

namespace Entry

def entries : Entry → List (String × Entry)
  | folder entries => entries
  | _ => []

def isFolder : Entry → Bool
  | folder _ => true
  | _ => false

def child? (entry : Entry) (name : String) : Option Entry :=
  (entry.entries.find? (·.1 = name)).map (·.2)

/-- The entry at a row of names, links not followed. -/
def at? : List String → Entry → Option Entry
  | [], entry => some entry
  | name :: names, entry => (entry.child? name).bind (at? names)

/-- Sets the entry of a name; a new name goes to the end. -/
def setEntry (name : String) (value : Entry) : List (String × Entry) → List (String × Entry)
  | [] => [(name, value)]
  | (key, old) :: rest =>
      if key = name then (key, value) :: rest else (key, old) :: setEntry name value rest

/-- Puts an entry at a row of names; folders are made where names are missing. -/
def insert (entry : Entry) (names : List String) (value : Entry) : Entry :=
  match names with
  | [] => value
  | name :: rest =>
      folder (setEntry name (((entry.child? name).getD (folder [])).insert rest value) entry.entries)

/-- Takes away the entry at a row of names. -/
def erase : List String → Entry → Entry
  | [], entry => entry
  | [name], entry => folder (entry.entries.filter (·.1 ≠ name))
  | name :: names, entry =>
      match entry.child? name with
      | some inner => folder (setEntry name (erase names inner) entry.entries)
      | none => entry

end Entry

structure FileTree where
  root : Entry := .folder []
  /-- names from the root to the working directory -/
  directory : List String := []

namespace FileTree

/-- Why the system refuses an operation on a path, or a device one on a file. -/
inductive Cause where
  | notFound
  | ioError
  | denied
  | alreadyExists
  | notDirectory
  | isDirectory
  | fileTooLarge
  | noSpace
  | readOnly
  | nameTooLong
  | tooManyLinks
  | quotaExceeded
deriving DecidableEq, Repr

def Cause.number : Cause → Nat
  | .notFound => 2
  | .ioError => 5
  | .denied => 13
  | .alreadyExists => 17
  | .notDirectory => 20
  | .isDirectory => 21
  | .fileTooLarge => 27
  | .noSpace => 28
  | .readOnly => 30
  | .nameTooLong => 36
  | .tooManyLinks => 40
  | .quotaExceeded => 122

def Cause.text : Cause → String
  | .notFound => "No such file or directory"
  | .ioError => "Input/output error"
  | .denied => "Permission denied"
  | .alreadyExists => "File exists"
  | .notDirectory => "Not a directory"
  | .isDirectory => "Is a directory"
  | .fileTooLarge => "File too large"
  | .noSpace => "No space left on device"
  | .readOnly => "Read-only file system"
  | .nameTooLong => "File name too long"
  | .tooManyLinks => "Too many levels of symbolic links"
  | .quotaExceeded => "Disk quota exceeded"

/-- An operation that failed: refused, with the path that it was asked for, or broken off on a file that was open. A
path with a null character reaches no system at all. -/
inductive Fault where
  | system (cause : Cause) (path : String)
  | brokenOff (cause : Cause)
  | embeddedNull
deriving DecidableEq, Repr

def Fault.message : Fault → String
  | .system cause path => s!"[Errno {cause.number}] {cause.text}: " ++ Text.quoted path
  | .brokenOff cause => s!"[Errno {cause.number}] {cause.text}"
  | .embeddedNull => "embedded null byte"

/-- What a device does with a write: it takes all of it, it does not let the file be opened, or, the file being emptied
as it is opened, it takes so many bytes and then breaks off. -/
inductive Taken where
  | whole
  | refused (cause : Cause)
  | front (bytes : Nat) (cause : Cause)
deriving DecidableEq, Repr

/-- What a device does with one write after the other. Those behind the end of the row it takes whole. -/
abbrev Device := List Taken

def Device.next (device : Device) : Taken :=
  device.headD .whole

/-- The working directory as a path. -/
def directoryPath (tree : FileTree) : Path :=
  ⟨.slash, tree.directory⟩

end FileTree

end Roster
