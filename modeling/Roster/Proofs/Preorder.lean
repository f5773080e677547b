import Mathlib.Data.List.Basic
import Roster.Syntax.Tree

/-! The nodes of a tree in source order. A walk may be kept away from some children, such as those without a name of
their own; a position counts the others on the way down from the root. In lexicographic order of positions a node
comes before what is below it, and that before the node's next sibling. -/

namespace Roster.Syntax.Tree

variable (keep : Tree → Bool)

/-- The node at a position, the children that are kept being numbered from zero. -/
inductive At : Tree → List Nat → Tree → Prop where
  | here (root : Tree) : At root [] root
  | down {root child node : Tree} {number : Nat} {position : List Nat}
      (hchild : (root.children.filter keep)[number]? = some child) (hat : At child position node) :
      At root (number :: position) node

/-- Positions and nodes in source order: everything that can be reached, and nothing twice. -/
structure IsPreorder (root : Tree) (visited : List (List Nat × Tree)) : Prop where
  ordered : visited.Pairwise fun first second => List.Lex (· < ·) first.1 second.1
  mem_iff (position : List Nat) (node : Tree) : (position, node) ∈ visited ↔ At keep root position node

/-- Seen from the parent. -/
def lower (number : Nat) (visit : List Nat × Tree) : List Nat × Tree :=
  (number :: visit.1, visit.2)

mutual

/-- The nodes of a tree in source order, each with its position. -/
def visits : Tree → List (List Nat × Tree)
  | node label children => ([], node label children) :: visitsAmong 0 children

def visitsAmong (number : Nat) : List Tree → List (List Nat × Tree)
  | [] => []
  | child :: rest =>
      if keep child then (visits child).map (lower number) ++ visitsAmong (number + 1) rest
      else visitsAmong number rest

end

/-- The nodes alone. -/
def preorder (root : Tree) : List Tree :=
  (visits keep root).map (·.2)

variable {keep}

theorem size_lt_of_mem_children {tree child : Tree} (hchild : child ∈ tree.children) :
    child.size < tree.size := by
  cases tree with
  | node label children =>
      rw [size]
      obtain ⟨before, after, hsplit⟩ := List.append_of_mem hchild
      change children = _ at hsplit
      rw [hsplit, sizeAll_append, sizeAll]
      omega

/-- What passes from the children to their parent holds of every tree. -/
theorem induction_on_children {motive : Tree → Prop}
    (step : ∀ tree, (∀ child ∈ tree.children, motive child) → motive tree) (tree : Tree) :
    motive tree := by
  induction hsize : tree.size using Nat.strongRecOn generalizing tree with
  | ind bound ih =>
      apply step
      intro child hchild
      exact ih child.size (hsize ▸ size_lt_of_mem_children hchild) child rfl

theorem visits_eq (root : Tree) :
    visits keep root = ([], root) :: visitsAmong keep 0 root.children := by
  cases root with
  | node label children => rw [visits]; rfl

theorem mem_visitsAmong {number : Nat} {children : List Tree} {position : List Nat} {found : Tree} :
    (position, found) ∈ visitsAmong keep number children ↔
      ∃ offset child inner, position = (number + offset) :: inner ∧
        (children.filter keep)[offset]? = some child ∧ (inner, found) ∈ visits keep child := by
  induction children generalizing number with
  | nil => simp [visitsAmong]
  | cons child rest ih =>
      rw [visitsAmong, List.filter_cons]
      split_ifs with hkeep
      · rw [List.mem_append, ih, List.mem_map]
        constructor
        · rintro (⟨⟨inner, node⟩, hmem, heq⟩ | ⟨offset, next, inner, rfl, hnext, hmem⟩)
          · obtain ⟨rfl, rfl⟩ := Prod.mk.inj heq
            exact ⟨0, child, inner, rfl, rfl, hmem⟩
          · refine ⟨offset + 1, next, inner, ?_, hnext, hmem⟩
            rw [Nat.add_right_comm, Nat.add_assoc]
        · rintro ⟨offset, next, inner, rfl, hnext, hmem⟩
          cases offset with
          | zero =>
              obtain rfl := Option.some.inj hnext
              exact Or.inl ⟨(inner, found), hmem, rfl⟩
          | succ offset =>
              refine Or.inr ⟨offset, next, inner, ?_, hnext, hmem⟩
              rw [Nat.add_right_comm, Nat.add_assoc]
      · exact ih

theorem mem_visits_iff (root : Tree) (position : List Nat) (found : Tree) :
    (position, found) ∈ visits keep root ↔ At keep root position found := by
  induction root using induction_on_children generalizing position with
  | step root ih =>
      rw [visits_eq, List.mem_cons, mem_visitsAmong]
      constructor
      · rintro (heq | ⟨number, child, inner, rfl, hchild, hmem⟩)
        · obtain ⟨rfl, rfl⟩ := Prod.mk.inj heq
          exact .here _
        · rw [Nat.zero_add]
          have hmember := List.mem_of_mem_filter (List.mem_of_getElem? hchild)
          exact .down hchild ((ih child hmember inner).mp hmem)
      · intro hat
        cases hat with
        | here => exact Or.inl rfl
        | @down _ child _ number inner hchild hat =>
            have hmember := List.mem_of_mem_filter (List.mem_of_getElem? hchild)
            refine Or.inr ⟨number, child, inner, ?_, hchild, (ih child hmember inner).mpr hat⟩
            rw [Nat.zero_add]

theorem mem_preorder_iff {root found : Tree} :
    found ∈ preorder keep root ↔ ∃ position, At keep root position found := by
  rw [preorder, List.mem_map]
  constructor
  · rintro ⟨⟨position, node⟩, hmem, rfl⟩
    exact ⟨position, (mem_visits_iff root position node).mp hmem⟩
  · rintro ⟨position, hat⟩
    exact ⟨(position, found), (mem_visits_iff root position found).mpr hat, rfl⟩

theorem pairwise_visitsAmong {children : List Tree}
    (hchildren : ∀ child ∈ children, (visits keep child).Pairwise
      fun first second => List.Lex (· < ·) first.1 second.1) (number : Nat) :
    (visitsAmong keep number children).Pairwise
      fun first second => List.Lex (· < ·) first.1 second.1 := by
  induction children generalizing number with
  | nil => exact List.Pairwise.nil
  | cons child rest ih =>
      have hrest := ih fun other hother => hchildren other (List.mem_cons_of_mem _ hother)
      rw [visitsAmong]
      split_ifs with hkeep
      · refine List.pairwise_append.mpr ⟨?_, hrest _, ?_⟩
        · rw [List.pairwise_map]
          exact (hchildren child List.mem_cons_self).imp fun hlex => .cons hlex
        · -- positions below a later child start with a larger number
          rintro first hfirst ⟨position, node⟩ hsecond
          obtain ⟨visit, -, rfl⟩ := List.mem_map.mp hfirst
          obtain ⟨offset, -, inner, rfl, -, -⟩ := mem_visitsAmong.mp hsecond
          exact .rel (by omega)
      · exact hrest _

theorem pairwise_visits (root : Tree) :
    (visits keep root).Pairwise fun first second => List.Lex (· < ·) first.1 second.1 := by
  induction root using induction_on_children with
  | step root ih =>
      rw [visits_eq, List.pairwise_cons]
      refine ⟨?_, pairwise_visitsAmong ih 0⟩
      rintro ⟨position, node⟩ hmem
      obtain ⟨offset, -, inner, rfl, -, -⟩ := mem_visitsAmong.mp hmem
      exact .nil

theorem isPreorder_visits (root : Tree) : IsPreorder keep root (visits keep root) :=
  ⟨pairwise_visits root, mem_visits_iff root⟩

theorem map_snd_visitsAmong (number : Nat) (children : List Tree) :
    (visitsAmong keep number children).map (·.2) = (children.filter keep).flatMap (preorder keep) := by
  induction children generalizing number with
  | nil => rw [visitsAmong]; rfl
  | cons child rest ih =>
      rw [visitsAmong, List.filter_cons]
      split_ifs with hkeep
      · rw [List.map_append, ih, List.flatMap_cons, List.map_map]
        rfl
      · exact ih number

/-- A node comes first, then all of its first child that is kept, then all of the second, and so on. -/
theorem preorder_eq (root : Tree) :
    preorder keep root = root :: (root.children.filter keep).flatMap (preorder keep) := by
  rw [preorder, visits_eq, List.map_cons, map_snd_visitsAmong]

end Roster.Syntax.Tree
