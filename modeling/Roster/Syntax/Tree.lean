/-! Syntax trees of source files, as far as discovery looks at them: what a node is, its text, which of its
children is its name, and where errors sit. -/

namespace Roster.Syntax

/-- The kinds of node that discovery tells apart. -/
inductive Kind where
  | namespaceDefinition
  | classDeclaration
  | interfaceClause
  | comment
  | openTag
  | markup
  | markupBetween
  | error
  | other
deriving DecidableEq, Repr

/-- What a node says about itself. -/
structure Label where
  kind : Kind := .other
  text : String := ""
  /-- the part that the node plays in its parent, such as `name` -/
  role : Option String := none
  named : Bool := true
  hasError : Bool := false
  missing : Bool := false
  row : Nat := 0
deriving DecidableEq, Repr

inductive Tree where
  | node (label : Label) (children : List Tree)
deriving Repr

instance : Inhabited Tree := ⟨.node {} []⟩

namespace Tree

def label : Tree → Label
  | node label _ => label

def children : Tree → List Tree
  | node _ children => children

def kind (tree : Tree) : Kind :=
  tree.label.kind

def text (tree : Tree) : String :=
  tree.label.text

def namedChildren (tree : Tree) : List Tree :=
  tree.children.filter (·.label.named)

/-- The first child that plays the part of a name. -/
def nameChild? (tree : Tree) : Option Tree :=
  tree.children.find? (·.label.role = some "name")

mutual

/-- The number of nodes. -/
def size : Tree → Nat
  | node _ children => sizeAll children + 1

/-- The number of nodes of all trees in a row. -/
def sizeAll : List Tree → Nat
  | [] => 0
  | tree :: trees => tree.size + sizeAll trees

end

theorem sizeAll_append (left right : List Tree) :
    sizeAll (left ++ right) = sizeAll left + sizeAll right := by
  induction left with
  | nil => rw [List.nil_append, sizeAll, Nat.zero_add]
  | cons tree trees ih => rw [List.cons_append, sizeAll, sizeAll, ih, Nat.add_assoc]

theorem sizeAll_filter_le (keep : Tree → Bool) (trees : List Tree) :
    sizeAll (trees.filter keep) ≤ sizeAll trees := by
  induction trees with
  | nil => exact Nat.le_refl _
  | cons tree trees ih =>
      rw [List.filter_cons]
      split
      · rw [sizeAll, sizeAll]
        exact Nat.add_le_add_left ih _
      · rw [sizeAll]
        exact Nat.le_trans ih (Nat.le_add_left ..)

theorem sizeAll_filter_children_lt (keep : Tree → Bool) (tree : Tree) :
    sizeAll (tree.children.filter keep) < tree.size := by
  cases tree with
  | node label children =>
      rw [size]
      exact Nat.lt_succ_of_le (sizeAll_filter_le keep children)

theorem sizeAll_namedChildren_lt (tree : Tree) : sizeAll tree.namedChildren < tree.size :=
  sizeAll_filter_children_lt _ tree

end Tree

/-- An error node, or one that the grammar requires and the source lacks. -/
def Label.isFault (label : Label) : Bool :=
  label.kind = .error || label.missing

def Label.isFlagged (label : Label) : Bool :=
  label.hasError || label.missing

namespace Tree

/-- Puts the flagged ones among the nodes on a stack one after the other, so that the last one is on top. -/
def pushFlagged (stack nodes : List Tree) : List Tree :=
  nodes.foldl (fun stack node => if node.label.isFlagged then node :: stack else stack) stack

theorem pushFlagged_reverse (stack nodes : List Tree) :
    pushFlagged stack nodes.reverse = nodes.filter (·.label.isFlagged) ++ stack := by
  rw [pushFlagged, List.foldl_reverse]
  induction nodes with
  | nil => rfl
  | cons node nodes ih =>
      rw [List.foldr_cons, ih, List.filter_cons]
      split
      · rw [List.cons_append]
      · rfl

theorem sizeAll_pushFlagged_lt (tree : Tree) (stack : List Tree) :
    sizeAll (pushFlagged stack tree.children.reverse) < sizeAll (tree :: stack) := by
  rw [pushFlagged_reverse, sizeAll_append, sizeAll]
  exact Nat.add_lt_add_right (tree.sizeAll_filter_children_lt _) _

/-- The first fault among the nodes on a stack and those below them, looked for below flagged nodes only. Children are
pushed in reverse, so that they are looked at in source order and before what was on the stack already. -/
def firstFault? : List Tree → Option Tree
  | [] => none
  | tree :: stack =>
      if tree.label.isFault then some tree
      else firstFault? (pushFlagged stack tree.children.reverse)
termination_by stack => sizeAll stack
decreasing_by exact sizeAll_pushFlagged_lt ..

/-- The line, counted from one, of the first fault; the tree's own line when none is found. -/
def errorLine (tree : Tree) : Nat :=
  ((firstFault? [tree]).getD tree).label.row + 1

end Tree

end Roster.Syntax
