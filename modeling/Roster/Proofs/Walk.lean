import Mathlib.Logic.Relation
import Roster.Finder
import Roster.Proofs.IndexLaws
import Roster.Proofs.Preorder

/-! A finder's walk against what it is to find. The nodes on the stack stand for what is left of the source order:
to visit the top one and put its children there takes one node off that rest. The namespace carried along is the one
that the last definition among the nodes already visited names. -/

namespace Roster.Finder

open Roster.Syntax

/-- The namespace behind nodes in source order: the name in the last definition among them, if it has one. -/
def spaceBehind (seen : List Tree) : String :=
  (seen.filter (·.kind = .namespaceDefinition)).getLast?.elim "" fun definition =>
    definition.nameChild?.elim "" fun name => Name.normalize name.text

/-- The matches that a node declares: a named class, for each reference in its interface clauses and each target
that the reference names. -/
def declaredBy (targets : List String) (space : String) (node : Tree) : List Match :=
  match node.nameChild? with
  | none => []
  | some name =>
      if node.kind = .classDeclaration then
        node.namedChildren.flatMap fun clause =>
          if clause.kind = .interfaceClause then
            clause.namedChildren.flatMap fun reference =>
              if reference.kind = .comment then []
              else targets.flatMap fun target =>
                if Name.refersTo (Name.normalize reference.text) target then
                  [⟨target, space ++ "\\" ++ name.text⟩]
                else []
          else []
      else []

/-- The matches declared by nodes in source order, each in the namespace behind the nodes before it. -/
def declaredMatches (targets : List String) (nodes : List Tree) : List Match :=
  nodes.zipIdx.flatMap fun (node, number) =>
    declaredBy targets (spaceBehind (nodes.take number)) node

/-- The matches declared in a tree; only named nodes count. -/
def declaredIn (targets : List String) (tree : Tree) : List Match :=
  declaredMatches targets ((tree.visits (·.label.named)).map (·.2))

/-- Nothing is declared for a name that is not looked for. -/
theorem target_mem_of_mem_declaredIn {targets : List String} {tree : Tree} {found : Match}
    (hfound : found ∈ declaredIn targets tree) : found.target ∈ targets := by
  obtain ⟨⟨node, number⟩, -, hnode⟩ := List.mem_flatMap.mp hfound
  dsimp only [declaredBy] at hnode
  split at hnode
  · cases hnode
  split_ifs at hnode
  · obtain ⟨clause, -, hclause⟩ := List.mem_flatMap.mp hnode
    split_ifs at hclause
    · obtain ⟨reference, -, hreference⟩ := List.mem_flatMap.mp hclause
      split_ifs at hreference
      · cases hreference
      · obtain ⟨target, htarget, hmem⟩ := List.mem_flatMap.mp hreference
        split_ifs at hmem
        · obtain rfl := List.mem_singleton.mp hmem
          exact htarget
        · cases hmem
    · cases hclause
  · cases hnode

theorem qualify_eq_append (space className : String) :
    Name.qualify space className = space ++ "\\" ++ className := by
  apply String.toList_injective
  rw [Name.qualify, String.toList_ofList, String.toList_append, String.toList_append,
    List.append_assoc]
  rfl

theorem flatMap_filter {α β : Type} (keep : α → Bool) (f : α → List β) (xs : List α) :
    (xs.filter keep).flatMap f = xs.flatMap fun x => if keep x then f x else [] := by
  induction xs with
  | nil => rfl
  | cons x xs ih =>
      rw [List.filter_cons, List.flatMap_cons]
      split_ifs
      · rw [List.flatMap_cons, ih]
      · rw [ih, List.nil_append]

theorem flatMap_references {β : Type} (f : String → List β) (node : Tree) :
    (references node).flatMap f =
      node.namedChildren.flatMap fun clause =>
        if clause.kind = .interfaceClause then
          clause.namedChildren.flatMap fun reference =>
            if reference.kind = .comment then [] else f (Name.normalize reference.text)
        else [] := by
  rw [references, List.flatMap_assoc, flatMap_filter]
  simp only [decide_eq_true_eq]
  congr 1
  funext clause
  congr 1
  rw [List.flatMap_map, flatMap_filter]
  congr 1
  funext reference
  by_cases hcomment : reference.kind = .comment
  · rw [if_pos hcomment, if_neg (by simpa using hcomment)]
  · rw [if_neg hcomment, if_pos (decide_eq_true hcomment)]

theorem classMatches_eq (targets : List String) (space : String) (name node : Tree) :
    classMatches targets (Name.qualify space name.text) node =
      node.namedChildren.flatMap fun clause =>
        if clause.kind = .interfaceClause then
          clause.namedChildren.flatMap fun reference =>
            if reference.kind = .comment then []
            else targets.flatMap fun target =>
              if Name.refersTo (Name.normalize reference.text) target then
                [⟨target, space ++ "\\" ++ name.text⟩]
              else []
        else [] := by
  have htargets (reference : String) :
      (targets.filter (Name.refersTo reference)).map (Match.mk · (Name.qualify space name.text)) =
        targets.flatMap fun target =>
          if Name.refersTo reference target then [⟨target, space ++ "\\" ++ name.text⟩] else [] := by
    rw [List.map_eq_flatMap, flatMap_filter, qualify_eq_append]
  rw [classMatches, flatMap_references]
  simp only [htargets]

/-- With targets to test against, a node gives the matches that it declares. -/
theorem nodeMatches_eq {targets : List String} (htargets : targets ≠ []) (space : String)
    (node : Tree) : nodeMatches targets space node = .ok (declaredBy targets space node) := by
  have hsome : targets.isEmpty = false := by simpa using htargets
  rw [nodeMatches, className?, declaredBy]
  by_cases hkind : node.kind = .classDeclaration
  · rw [if_pos hkind]
    cases node.nameChild? with
    | none => rfl
    | some name => simp only [Option.map_some, hsome, Bool.false_eq_true, if_false, if_pos hkind,
        classMatches_eq]
  · rw [if_neg hkind]
    cases node.nameChild? with
    | none => rfl
    | some name => simp only [if_neg hkind]

/-- A class stands in the namespace that is in force before it, a definition of a namespace declares nothing. -/
theorem declaredBy_namespaceAfter (targets : List String) (space : String) (node : Tree) :
    declaredBy targets (namespaceAfter space node) node = declaredBy targets space node := by
  by_cases hkind : node.kind = .namespaceDefinition
  · have hclass : node.kind ≠ .classDeclaration := by rw [hkind]; decide
    rw [declaredBy, declaredBy]
    cases node.nameChild? with
    | none => rfl
    | some name => simp only [if_neg hclass]
  · rw [namespaceAfter, if_neg hkind]

/-- What the walk gives for nodes in source order, the namespace carried along. -/
def declaredFrom (targets : List String) (space : String) : List Tree → List Match
  | [] => []
  | node :: rest =>
      declaredBy targets space node ++ declaredFrom targets (namespaceAfter space node) rest

/-- One step of the walk takes the first node off what is left. -/
theorem rest_after_push (node : Tree) (stack : List Tree) :
    (node :: stack).flatMap (Tree.preorder (·.label.named)) =
      node :: (pushEach stack node.namedChildren.reverse).flatMap
        (Tree.preorder (·.label.named)) := by
  rw [List.flatMap_cons, Tree.preorder_eq, pushEach_reverse, List.flatMap_append,
    List.cons_append]
  rfl

theorem walk_eq_declaredFrom {targets : List String} (htargets : targets ≠ []) (space : String)
    (found : List Match) (stack : List Tree) :
    walk targets space found stack =
      .ok (found ++
        declaredFrom targets space (stack.flatMap (Tree.preorder (·.label.named)))) := by
  fun_induction walk targets space found stack with
  | case1 space found => rw [List.flatMap_nil, declaredFrom, List.append_nil]
  | case2 space found node stack inner fault hnode =>
      rw [nodeMatches_eq htargets] at hnode
      contradiction
  | case3 space found node stack inner more hnode ih =>
      rw [nodeMatches_eq htargets, declaredBy_namespaceAfter] at hnode
      obtain rfl := Except.ok.inj hnode
      rw [ih, rest_after_push, declaredFrom, List.append_assoc]

theorem spaceBehind_append_singleton (seen : List Tree) (node : Tree) :
    spaceBehind (seen ++ [node]) = namespaceAfter (spaceBehind seen) node := by
  rw [namespaceAfter, spaceBehind, List.filter_append]
  by_cases hkind : node.kind = .namespaceDefinition
  · have hlast : [node].filter (·.kind = .namespaceDefinition) = [node] :=
      List.filter_cons_of_pos (by simpa using hkind)
    rw [if_pos hkind, hlast, List.getLast?_concat, Option.elim_some]
    cases node.nameChild? with
    | none => rfl
    | some name => rfl
  · have hnone : [node].filter (·.kind = .namespaceDefinition) = [] :=
      List.filter_cons_of_neg (by simpa using hkind)
    rw [if_neg hkind, hnone, List.append_nil, spaceBehind]

/-- The namespace carried along is the one of the last definition before the node. The induction is on the nodes to
come, over any nodes already seen. -/
theorem declaredFrom_spaceBehind (targets : List String) (seen nodes : List Tree) :
    declaredFrom targets (spaceBehind seen) nodes =
      (nodes.zipIdx seen.length).flatMap fun (node, number) =>
        declaredBy targets (spaceBehind ((seen ++ nodes).take number)) node := by
  induction nodes generalizing seen with
  | nil => rfl
  | cons node rest ih =>
      have hnext := ih (seen ++ [node])
      rw [List.length_append, List.length_singleton, List.append_assoc, List.singleton_append]
        at hnext
      rw [declaredFrom, ← spaceBehind_append_singleton, hnext, List.zipIdx_cons,
        List.flatMap_cons]
      dsimp only
      rw [List.take_left]

theorem declaredFrom_eq_declaredMatches (targets : List String) (nodes : List Tree) :
    declaredFrom targets "" nodes = declaredMatches targets nodes :=
  declaredFrom_spaceBehind targets [] nodes

theorem matchesIn_eq_declaredIn {finder : Finder} (htargets : finder.targets ≠ [])
    (tree : Tree) : finder.matchesIn tree = .ok (declaredIn finder.targets tree) := by
  rw [matchesIn, walk_eq_declaredFrom htargets, List.flatMap_singleton, List.nil_append,
    declaredFrom_eq_declaredMatches]
  rfl

/-- One call that records in the finder's own index. One that records elsewhere leaves the finder as it is. -/
def FindStep (before after : Finder) : Prop :=
  ∃ tree count, before.find tree = .ok (after, count)

theorem targets_of_findStep {before after : Finder} (hstep : FindStep before after) :
    after.targets = before.targets := by
  obtain ⟨tree, count, hfind⟩ := hstep
  rw [find] at hfind
  cases hmatches : before.matchesIn tree with
  | error fault =>
      rw [hmatches] at hfind
      contradiction
  | ok found =>
      rw [hmatches] at hfind
      exact congrArg (·.1.targets) (Except.ok.inj hfind.symm)

theorem targets_of_findSteps {before after : Finder}
    (hsteps : Relation.ReflTransGen FindStep before after) : after.targets = before.targets := by
  induction hsteps with
  | refl => rfl
  | tail _ hstep ih => exact (targets_of_findStep hstep).trans ih

/-- A finder with targets walks the named nodes in source order, each once, and finds exactly what they declare; it
counts these matches and appends them to the index it is given, or to its own, whatever it found before. -/
theorem find_records_declaredIn (finder later : Finder) (htargets : finder.targets ≠ [])
    (hearlier : Relation.ReflTransGen FindStep finder later) (tree : Tree) :
    Tree.IsPreorder (·.label.named) tree (tree.visits (·.label.named)) ∧
    later.matchesIn tree = .ok (declaredIn finder.targets tree) ∧
    later.find tree =
      .ok ({ later with index := later.index.merge (declaredIn finder.targets tree) },
        (declaredIn finder.targets tree).length) ∧
    (∀ index : Index, later.findInto index tree =
      .ok (index.merge (declaredIn finder.targets tree), (declaredIn finder.targets tree).length)) ∧
    ∀ (index : Index) (target : String),
      (index.merge (declaredIn finder.targets tree)).get target =
        index.get target ++
          ((declaredIn finder.targets tree).filter (·.target = target)).map (·.className) := by
  have hsame := targets_of_findSteps hearlier
  have hmatches : later.matchesIn tree = .ok (declaredIn finder.targets tree) := by
    rw [← hsame]
    exact matchesIn_eq_declaredIn (hsame ▸ htargets) tree
  refine ⟨Tree.isPreorder_visits tree, hmatches, ?_, ?_, ?_⟩
  · rw [find, hmatches]
    rfl
  · intro index
    rw [findInto, hmatches]
    rfl
  · intro index target
    exact Index.get_merge index _ target

/-- A class behind the definition of a namespace, inside a node of another kind. -/
def nestedClass : Tree :=
  .node {} [
    .node { kind := .namespaceDefinition } [.node { role := some "name", text := "A \\ B" } []],
    .node {} [
      .node { kind := .classDeclaration } [
        .node { role := some "name", text := "K" } [],
        .node { kind := .interfaceClause } [
          .node { kind := .comment, text := "I" } [],
          .node { text := "\\X\\I" } []]]]]

theorem declaredIn_nestedClass : declaredIn ["I"] nestedClass = [⟨"I", "A\\B\\K"⟩] := by
  decide +kernel

theorem find_nestedClass_twice :
    ["I"] ≠ [] ∧
    Relation.ReflTransGen FindStep ⟨["I"], {}⟩ ⟨["I"], ⟨[("I", ["A\\B\\K"])]⟩⟩ ∧
    find ⟨["I"], ⟨[("I", ["A\\B\\K"])]⟩⟩ nestedClass =
      .ok (⟨["I"], ⟨[("I", ["A\\B\\K", "A\\B\\K"])]⟩⟩, 1) := by
  have hfirst := (find_records_declaredIn ⟨["I"], {}⟩ _ (by decide) .refl nestedClass).2.2.1
  rw [declaredIn_nestedClass] at hfirst
  have hstep : Relation.ReflTransGen FindStep ⟨["I"], {}⟩ ⟨["I"], ⟨[("I", ["A\\B\\K"])]⟩⟩ :=
    .single ⟨nestedClass, 1, hfirst⟩
  have hsecond := (find_records_declaredIn _ _ (by decide) hstep nestedClass).2.2.1
  rw [declaredIn_nestedClass] at hsecond
  exact ⟨by decide, hstep, hsecond⟩

end Roster.Finder
