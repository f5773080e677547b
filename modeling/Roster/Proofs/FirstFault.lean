import Roster.Proofs.Preorder
import Roster.Syntax.Failure

/-! The line of a syntax error is the line of the first one. A search that stays away from nodes without a flag meets
the faults in source order as one over all nodes does, as long as every fault is flagged and everything above it: the
nodes on its stack stand for what is left of the source order, but for nodes among which there is no fault. -/

namespace Roster.Syntax.Tree

/-- All nodes of a tree, named or not, in source order. -/
def nodes (root : Tree) : List Tree :=
  (root.visits fun _ => true).map (·.2)

/-- Every fault is flagged, and so is every node that has one below it. -/
def FlagsFaults (root : Tree) : Prop :=
  ∀ node ∈ root.nodes, (∃ fault ∈ node.nodes, fault.label.isFault = true) →
    node.label.isFlagged = true

/-- The first fault of trees in a row, all their nodes being looked at. -/
def firstFaultOf? (trees : List Tree) : Option Tree :=
  (trees.flatMap nodes).find? (·.label.isFault)

variable {root : Tree} {stack trees : List Tree}

theorem nodes_eq (root : Tree) : root.nodes = root :: root.children.flatMap nodes := by
  have hroot : root.nodes = root :: (root.children.filter fun _ => true).flatMap nodes := preorder_eq root
  rwa [List.filter_true] at hroot

theorem firstFaultOf?_append (first second : List Tree) :
    firstFaultOf? (first ++ second) = (firstFaultOf? first).or (firstFaultOf? second) := by
  rw [firstFaultOf?, List.flatMap_append, List.find?_append]
  rfl

/-- A tree has its first fault at the root or else among the children. -/
theorem firstFaultOf?_singleton (root : Tree) :
    firstFaultOf? [root] = if root.label.isFault then some root else firstFaultOf? root.children := by
  rw [firstFaultOf?, List.flatMap_singleton, nodes_eq, List.find?_cons]
  cases root.label.isFault with
  | true => rfl
  | false => rfl

theorem FlagsFaults.of_mem_children (hflags : FlagsFaults root) {child : Tree}
    (hchild : child ∈ root.children) : FlagsFaults child := by
  intro node hnode
  apply hflags
  rw [nodes_eq]
  exact List.mem_cons_of_mem _ (List.mem_flatMap_of_mem hchild hnode)

/-- There is no fault at or below a node without a flag. -/
theorem FlagsFaults.firstFaultOf?_eq_none (hflags : FlagsFaults root)
    (hclear : ¬ root.label.isFlagged = true) : firstFaultOf? [root] = none := by
  have hroot : root ∈ root.nodes := by
    rw [nodes_eq]
    exact List.mem_cons_self
  rw [firstFaultOf?, List.flatMap_singleton, List.find?_eq_none]
  intro fault hfault hsome
  exact hclear (hflags root hroot ⟨fault, hfault, hsome⟩)

/-- To leave out the nodes without a flag does not change which fault comes first. -/
theorem firstFaultOf?_flagged (hflags : ∀ tree ∈ trees, FlagsFaults tree) :
    firstFaultOf? (trees.filter (·.label.isFlagged)) = firstFaultOf? trees := by
  induction trees with
  | nil => rfl
  | cons tree rest ih =>
      obtain ⟨hfirst, hrest⟩ := List.forall_mem_cons.mp hflags
      have hsplit (others : List Tree) :
          firstFaultOf? (tree :: others) = (firstFaultOf? [tree]).or (firstFaultOf? others) :=
        firstFaultOf?_append [tree] others
      rw [List.filter_cons, hsplit rest, ← ih hrest]
      split_ifs with hflag
      · rw [hsplit]
      · rw [hfirst.firstFaultOf?_eq_none hflag, Option.none_or]

/-- One step of the search: the top of the stack is no fault, and its flagged children take its place. -/
theorem firstFaultOf?_pushFlagged (hflags : FlagsFaults root) (hnone : ¬ root.label.isFault = true)
    (stack : List Tree) :
    firstFaultOf? (pushFlagged stack root.children.reverse) = firstFaultOf? (root :: stack) := by
  calc firstFaultOf? (pushFlagged stack root.children.reverse)
    _ = (firstFaultOf? (root.children.filter (·.label.isFlagged))).or (firstFaultOf? stack) := by
      rw [pushFlagged_reverse, firstFaultOf?_append]
    _ = (firstFaultOf? root.children).or (firstFaultOf? stack) := by
      rw [firstFaultOf?_flagged fun child => hflags.of_mem_children]
    _ = (firstFaultOf? [root]).or (firstFaultOf? stack) := by
      rw [firstFaultOf?_singleton, if_neg hnone]
    _ = firstFaultOf? (root :: stack) := (firstFaultOf?_append [root] stack).symm

/-- The search finds the first fault of what the stack stands for. -/
theorem firstFault?_eq_firstFaultOf? (hflags : ∀ tree ∈ stack, FlagsFaults tree) :
    firstFault? stack = firstFaultOf? stack := by
  fun_induction firstFault? stack with
  | case1 => rfl
  | case2 tree stack hfault =>
      rw [← List.singleton_append, firstFaultOf?_append, firstFaultOf?_singleton, if_pos hfault]
      rfl
  | case3 tree stack hnone ih =>
      obtain ⟨htop, hrest⟩ := List.forall_mem_cons.mp hflags
      rw [ih, firstFaultOf?_pushFlagged htop hnone]
      -- what is pushed comes from the top of the stack, so its flags are right too
      intro node hnode
      rw [pushFlagged_reverse, List.mem_append] at hnode
      rcases hnode with hchild | hbelow
      · exact htop.of_mem_children (List.mem_of_mem_filter hchild)
      · exact hrest node hbelow

/-- With flags on every fault and on all that is above it, the line that is reported for a tree is that of its first
fault in source order, be it a named node or not, and the tree's own line if it has no fault at all. -/
theorem errorLine_is_of_first_fault {root : Tree} (hflags : FlagsFaults root) :
    let first := (root.nodes.find? (·.label.isFault)).getD root
    IsPreorder (fun _ => true) root (root.visits fun _ => true) ∧
    root.errorLine = first.label.row + 1 ∧
    (root.label.hasError = true → root.accept = .error (.syntaxError (first.label.row + 1))) := by
  intro first
  have hstack : ∀ tree ∈ [root], FlagsFaults tree := by simpa using hflags
  have hline : root.errorLine = first.label.row + 1 := by
    rw [errorLine, firstFault?_eq_firstFaultOf? hstack, firstFaultOf?, List.flatMap_singleton]
  refine ⟨isPreorder_visits root, hline, ?_⟩
  intro herror
  rw [accept, if_pos herror, hline]

/-- A missing token without a name below a flagged statement, and an error behind it; the first statement is sound. -/
def brokenSource : Tree :=
  .node { hasError := true } [
    .node { row := 1 } [.node { row := 2 } []],
    .node { hasError := true, row := 3 } [
      .node { row := 4 } [],
      .node { named := false, missing := true, row := 5 } []],
    .node { kind := .error, hasError := true, row := 6 } []]

theorem errorLine_of_brokenSource :
    FlagsFaults brokenSource ∧ brokenSource.errorLine = 6 ∧
    brokenSource.accept = .error (.syntaxError 6) := by
  have hflags : FlagsFaults brokenSource := by
    unfold FlagsFaults
    decide +kernel
  obtain ⟨-, hline, haccept⟩ := errorLine_is_of_first_fault hflags
  have hfirst : ((brokenSource.nodes.find? (·.label.isFault)).getD brokenSource).label.row = 5 := by
    decide +kernel
  rw [hfirst] at hline haccept
  exact ⟨hflags, hline, haccept rfl⟩

end Roster.Syntax.Tree
