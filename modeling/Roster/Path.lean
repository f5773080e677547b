import Roster.Text.Segments

/-! Lexical paths: a root and a row of parts. Reading a path drops empty parts and single dots; double dots
stay until the path is normalized. Two slashes in front are a root of their own, three or more are one. -/

namespace Roster

open Roster.Text

namespace Path

inductive Root where
  | relative
  | slash
  | doubleSlash
deriving DecidableEq, Repr

def Root.text : Root → String
  | .relative => ""
  | .slash => "/"
  | .doubleSlash => "//"

end Path

structure Path where
  root : Path.Root
  parts : List String
deriving DecidableEq, Repr

namespace Path

def rootOf (cs : List Char) : Root :=
  match (cs.takeWhile (· == '/')).length with
  | 0 => .relative
  | 2 => .doubleSlash
  | _ => .slash

def ofString (s : String) : Path :=
  { root := rootOf s.toList
    parts := (splitAt '/' s).filter fun part => part != "" && part != "." }

protected def toString (path : Path) : String :=
  match path.root, path.parts with
  | .relative, [] => "."
  | root, parts => root.text ++ "/".intercalate parts

instance : ToString Path := ⟨Path.toString⟩

def isAbsolute (path : Path) : Bool :=
  path.root != .relative

/-- The second path seen from the first; an absolute one stands alone. -/
def join (base path : Path) : Path :=
  match path.root with
  | .relative => { base with parts := base.parts ++ path.parts }
  | _ => path

instance : HDiv Path Path Path := ⟨join⟩

instance : HDiv Path String Path := ⟨fun base path => base.join (ofString path)⟩

/-- The path without its last part. -/
def parent (path : Path) : Path :=
  { path with parts := path.parts.dropLast }

/-- Whether the path is the base or lies below it, by parts. -/
def isAtOrBelow (path base : Path) : Bool :=
  path.root == base.root && base.parts.isPrefixOf path.parts

/-- Resolves double dots against the parts before them; at the top they vanish. -/
def collapse : List String → List String → List String
  | done, [] => done.reverse
  | done, part :: parts =>
      if part = ".." then collapse done.tail parts else collapse (part :: done) parts

/-- The parts below the file system's root, with double dots resolved lexically. -/
def normalParts (directory path : Path) : List String :=
  collapse [] (directory.join path).parts

/-- How many parts two rows share at their start. -/
def sharedParts : List String → List String → Nat
  | a :: as, b :: bs => if a = b then sharedParts as bs + 1 else 0
  | _, _ => 0

/-- The way from the anchor to the path: one double dot for each part to leave, then the parts to enter. -/
def relativeParts (anchor path : List String) : List String :=
  let shared := sharedParts anchor path
  List.replicate (anchor.length - shared) ".." ++ path.drop shared

/-- The path as seen from the anchor, written with a slash in front. -/
def anchored (directory anchor path : Path) : String :=
  match relativeParts (directory.normalParts anchor) (directory.normalParts path) with
  | [] => "/."
  | parts => "/" ++ "/".intercalate parts

end Path

end Roster
