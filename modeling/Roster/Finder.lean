import Roster.Index
import Roster.Name
import Roster.Syntax.Tree

/-! Finding implementors. One walk over a tree, in source order, keeps the nodes still to visit on a stack and the
namespace that was defined last, and tests every reference of every class declaration against every target. -/

namespace Roster

open Roster.Syntax

namespace Finder

/-- Why a finder refuses to work. -/
inductive Fault where
  | emptyTargetName
  | noTargets
deriving DecidableEq, Repr

def Fault.message : Fault → String
  | .emptyTargetName => "Interface Name Cannot Be Empty String"
  | .noTargets => "Interface Names Cannot Be Empty"

/-- The namespace in force behind a node. -/
def namespaceAfter (space : String) (tree : Tree) : String :=
  if tree.kind = .namespaceDefinition then
    match tree.nameChild? with
    | some name => Name.normalize name.text
    | none => ""
  else space

/-- The references that a class declaration lists in its interface clauses. -/
def references (tree : Tree) : List String :=
  (tree.namedChildren.filter (·.kind = .interfaceClause)).flatMap fun clause =>
    (clause.namedChildren.filter (·.kind ≠ .comment)).map fun reference =>
      Name.normalize reference.text

/-- The name of the declared class, for a declaration that has one. -/
def className? (space : String) (tree : Tree) : Option String :=
  if tree.kind = .classDeclaration then
    tree.nameChild?.map fun name => Name.qualify space name.text
  else none

/-- The matches of one class declaration. -/
def classMatches (targets : List String) (className : String) (tree : Tree) : List Match :=
  (references tree).flatMap fun reference =>
    (targets.filter (Name.refersTo reference)).map fun target => ⟨target, className⟩

/-- The matches of one node; a class declaration with a name needs targets to be tested against. -/
def nodeMatches (targets : List String) (space : String) (tree : Tree) :
    Except Fault (List Match) :=
  match className? space tree with
  | some className =>
      if targets.isEmpty then .error .noTargets else .ok (classMatches targets className tree)
  | none => .ok []

/-- Puts nodes on a stack one after the other, so that the last one is on top. -/
def pushEach (stack nodes : List Tree) : List Tree :=
  nodes.foldl (fun stack node => node :: stack) stack

theorem pushEach_reverse (stack nodes : List Tree) :
    pushEach stack nodes.reverse = nodes ++ stack := by
  rw [pushEach, List.foldl_reverse, List.foldr_cons_eq_append, List.map_id']

theorem sizeAll_push_lt (tree : Tree) (stack : List Tree) :
    Tree.sizeAll (pushEach stack tree.namedChildren.reverse) < Tree.sizeAll (tree :: stack) := by
  rw [pushEach_reverse, Tree.sizeAll_append, Tree.sizeAll]
  exact Nat.add_lt_add_right tree.sizeAll_namedChildren_lt _

/-- Adds the matches of the nodes on a stack, and of all named nodes below them, to those found already. Children are
pushed in reverse, so that they are visited in source order and before what was on the stack already. -/
def walk (targets : List String) (space : String) (found : List Match) :
    List Tree → Except Fault (List Match)
  | [] => .ok found
  | tree :: stack =>
      let inner := namespaceAfter space tree
      match nodeMatches targets inner tree with
      | .error fault => .error fault
      | .ok more => walk targets inner (found ++ more) (pushEach stack tree.namedChildren.reverse)
termination_by stack => Tree.sizeAll stack
decreasing_by exact sizeAll_push_lt ..

end Finder

/-- Targets to look for, and the index of what was found so far. -/
structure Finder where
  targets : List String := []
  index : Index := {}

namespace Finder

/-- The members in order, each at its first occurrence only. -/
def distinct (names : List String) : List String :=
  names.foldl (fun kept name => if kept.contains name then kept else kept ++ [name]) []

def setTargets (finder : Finder) (names : List String) : Except Fault Finder :=
  let targets := distinct names
  if targets.contains "" then .error .emptyTargetName
  else .ok { targets, index := finder.index.ensureAll targets }

/-- A finder for the targets that records into the given index. -/
def ofTargets (names : List String) (index : Index := {}) : Except Fault Finder :=
  setTargets { index } names

/-- The matches of a whole tree. -/
def matchesIn (finder : Finder) (tree : Tree) : Except Fault (List Match) :=
  walk finder.targets "" [] [tree]

/-- Records the matches of a tree in the finder's own index and counts them. -/
def find (finder : Finder) (tree : Tree) : Except Fault (Finder × Nat) := do
  let found ← finder.matchesIn tree
  return ({ finder with index := finder.index.merge found }, found.length)

/-- Records the matches of a tree in another index and counts them. -/
def findInto (finder : Finder) (index : Index) (tree : Tree) : Except Fault (Index × Nat) := do
  let found ← finder.matchesIn tree
  return (index.merge found, found.length)

end Finder

end Roster
