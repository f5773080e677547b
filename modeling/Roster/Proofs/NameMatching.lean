import Roster.Proofs.Pruning
import Roster.Proofs.ReadBack
import Roster.Proofs.SharedArtifacts

/-! Matching as an order on names. A reference names a target when the segments of the target are the last ones of the
reference: so names are ordered by what they leave out in front, and two targets of one reference are never unrelated.
What names a target also names its short name, so a finder for the short name misses no class. -/

namespace Roster

open Roster.Text Roster.Syntax

namespace Text

theorem joinSegments_append (sep : Char) {front back : List (List Char)} (hfront : front ≠ [])
    (hback : back ≠ []) :
    joinSegments sep (front ++ back) = joinSegments sep front ++ sep :: joinSegments sep back := by
  induction front with
  | nil => contradiction
  | cons first front ih =>
      cases front with
      | nil =>
          obtain ⟨next, rest, rfl⟩ := List.exists_cons_of_ne_nil hback
          rfl
      | cons second front =>
          rw [List.cons_append, List.cons_append, joinSegments, ← List.cons_append,
            ih (List.cons_ne_nil _ _), joinSegments, List.append_assoc, List.cons_append]

/-- The segments of a text are the last ones of another text if that one is the same, or ends with the first behind a
separator. -/
theorem segments_suffix_iff {sep : Char} {tail cs : List Char} :
    segments sep tail <:+ segments sep cs ↔ cs = tail ∨ sep :: tail <:+ cs := by
  constructor
  · rintro ⟨front, hfront⟩
    have hcs := congrArg (joinSegments sep) hfront
    rw [joinSegments_segments] at hcs
    by_cases hnone : front = []
    · left
      rw [← hcs, hnone, List.nil_append, joinSegments_segments]
    · right
      have htail : segments sep tail ≠ [] := segmentsBy_ne_nil _ tail
      refine ⟨joinSegments sep front, ?_⟩
      rw [← hcs, joinSegments_append sep hnone htail, joinSegments_segments]
  · rintro (rfl | ⟨front, rfl⟩)
    · exact List.suffix_rfl
    · rw [segments_append_sep]
      exact List.suffix_append _ _

end Text

namespace Name

variable {reference target name : String}

theorem refersTo_iff :
    refersTo reference target = true ↔
      splitAt separator target <:+ splitAt separator reference := by
  have hinjective : Function.Injective String.ofList := fun _ _ => String.ofList_injective
  rw [splitAt, splitAt, List.suffix_map_iff_of_injective hinjective, segments_suffix_iff, refersTo,
    Bool.or_eq_true, beq_iff_eq, List.isSuffixOf_iff_suffix, String.toList_inj]

theorem refersTo_self (name : String) : refersTo name name = true :=
  refersTo_iff.mpr List.suffix_rfl

theorem eq_of_refersTo (hthere : refersTo reference target = true)
    (hback : refersTo target reference = true) : reference = target := by
  have hsplit : splitAt separator reference = splitAt separator target :=
    (refersTo_iff.mp hback).sublist.antisymm (refersTo_iff.mp hthere).sublist
  exact eq_of_splitAt_eq hsplit

theorem refersTo_trans {middle : String} (hmiddle : refersTo reference middle = true)
    (htarget : refersTo middle target = true) : refersTo reference target = true :=
  refersTo_iff.mpr ((refersTo_iff.mp htarget).trans (refersTo_iff.mp hmiddle))

theorem refersTo_or_refersTo {other : String} (htarget : refersTo reference target = true)
    (hother : refersTo reference other = true) :
    refersTo target other = true ∨ refersTo other target = true := by
  rw [refersTo_iff, refersTo_iff]
  exact (List.suffix_or_suffix_of_suffix (refersTo_iff.mp htarget) (refersTo_iff.mp hother)).symm

/-- A reference names exactly the targets whose segments are its last ones. So names are ordered by it, and the targets
of one reference form a chain. -/
theorem refersTo_is_segment_suffix :
    (∀ reference target, refersTo reference target = true ↔
      splitAt separator target <:+ splitAt separator reference) ∧
    (∀ name, refersTo name name = true) ∧
    (∀ first second, refersTo first second = true → refersTo second first = true →
      first = second) ∧
    (∀ first second third, refersTo first second = true → refersTo second third = true →
      refersTo first third = true) ∧
    ∀ reference first second, refersTo reference first = true → refersTo reference second = true →
      refersTo first second = true ∨ refersTo second first = true :=
  ⟨fun _ _ => refersTo_iff, refersTo_self, fun _ _ => eq_of_refersTo, fun _ _ _ => refersTo_trans,
    fun _ _ _ => refersTo_or_refersTo⟩

theorem refersTo_is_segment_suffix_nested :
    refersTo "V\\\\P\\B" "\\P\\B" = true ∧ refersTo "\\P\\B" "P\\B" = true ∧
    refersTo "V\\\\P\\B" "P\\B" = true ∧
    (refersTo "P\\B" "\\P\\B" = true ∨ refersTo "\\P\\B" "P\\B" = true) ∧
    ¬ refersTo "P\\B" "\\P\\B" = true := by
  obtain ⟨-, -, hantisymm, htrans, hchain⟩ := refersTo_is_segment_suffix
  have hlong : refersTo "V\\\\P\\B" "\\P\\B" = true := by decide
  have hshort : refersTo "\\P\\B" "P\\B" = true := by decide
  have hboth := htrans _ _ _ hlong hshort
  refine ⟨hlong, hshort, hboth, hchain _ _ _ hboth hlong, fun hback => ?_⟩
  exact absurd (hantisymm _ _ hback hshort) (by decide)

/-- A target of one segment is named by the references that have it as their last one. -/
theorem refersTo_iff_getLast? (htarget : separator ∉ target.toList) :
    refersTo reference target = true ↔ (splitAt separator reference).getLast? = some target := by
  rw [refersTo_iff, splitAt_of_not_mem htarget, List.getLast?_eq_some_iff]
  exact ⟨fun ⟨front, hfront⟩ => ⟨front, hfront.symm⟩, fun ⟨front, hfront⟩ => ⟨front, hfront.symm⟩⟩

theorem refersTo_short (hend : name.toList.getLast? ≠ some separator) :
    refersTo name (short name) = true := by
  have hkept : dropEndWhile (· == separator) name.toList = name.toList :=
    dropEndWhile_eq_self fun c hc => beq_false_of_ne fun heq => hend (heq ▸ hc)
  have hne : segments separator name.toList ≠ [] := segmentsBy_ne_nil _ _
  rw [refersTo_iff_getLast? (separator_not_mem_short name), splitAt, List.getLast?_map, short, hkept,
    lastSegment, List.getLastD_eq_getLast?, List.getLast?_eq_some_getLast hne]
  rfl

end Name

namespace Finder

variable {target name : String}

/-- What a node says that it implements: the references of a class with a name, each with the class. -/
def referencesOf (space : String) (node : Tree) : List (String × String) :=
  (className? space node).elim [] fun className => (references node).map (·, className)

/-- The references of all classes in a tree, in source order. -/
def referencesIn (tree : Tree) : List (String × String) :=
  ((tree.visits (·.label.named)).map (·.2)).zipIdx.flatMap fun (node, number) =>
    referencesOf (spaceBehind (((tree.visits (·.label.named)).map (·.2)).take number)) node

/-- The classes of the references that name the target, one for each reference. -/
def classesNaming (target : String) (found : List (String × String)) : List String :=
  (found.filter fun reference => Name.refersTo reference.1 target).map (·.2)

theorem classesNaming_sublist (himplies : ∀ reference, Name.refersTo reference name = true →
    Name.refersTo reference target = true) (found : List (String × String)) :
    (classesNaming name found).Sublist (classesNaming target found) :=
  (List.monotone_filter_right found fun reference => himplies reference.1).map _

theorem classMatches_singleton (target className : String) (node : Tree) :
    (classMatches [target] className node).map (·.className) =
      classesNaming target ((references node).map (·, className)) := by
  rw [classMatches, classesNaming]
  induction references node with
  | nil => rfl
  | cons reference rest ih =>
      rw [List.flatMap_cons, List.map_append, ih, List.map_cons]
      by_cases hnamed : Name.refersTo reference target = true
      · simp [hnamed]
      · simp [hnamed]

theorem declaredBy_singleton (target space : String) (node : Tree) :
    (declaredBy [target] space node).map (·.className) =
      classesNaming target (referencesOf space node) := by
  have hnode := nodeMatches_eq (List.cons_ne_nil target []) space node
  rw [nodeMatches] at hnode
  rw [referencesOf]
  cases hclass : className? space node with
  | none =>
      rw [hclass] at hnode
      rw [← Except.ok.inj hnode]
      rfl
  | some className =>
      rw [hclass] at hnode
      rw [← Except.ok.inj hnode]
      exact classMatches_singleton target className node

/-- What a tree declares for one target are the classes whose references name it. -/
theorem declaredIn_singleton (target : String) (tree : Tree) :
    (declaredIn [target] tree).map (·.className) = classesNaming target (referencesIn tree) := by
  rw [declaredIn, declaredMatches, referencesIn, classesNaming, List.map_flatMap,
    List.filter_flatMap, List.map_flatMap]
  congr 1
  funext entry
  exact declaredBy_singleton target _ entry.1

/-- The classes that a new finder for one target has in its own index after it walked one tree. -/
def foundFor (target : String) (tree : Tree) : Except Fault (List String) := do
  let finder ← ofTargets [target]
  let (after, _) ← finder.find tree
  return after.index.get target

theorem foundFor_eq (hnamed : target ≠ "") (tree : Tree) :
    foundFor target tree = .ok (classesNaming target (referencesIn tree)) := by
  have hempty : "" ∉ [target] := fun hmem => hnamed (List.mem_singleton.mp hmem).symm
  have hnodup : [target].Nodup := by simp
  rw [foundFor, ofTargets_eq_ok hempty]
  change (find ⟨[target], Index.ensureAll {} [target]⟩ tree >>= _) = _
  rw [find, matchesIn_eq_declaredIn (List.cons_ne_nil target [])]
  change Except.ok (((Index.ensureAll {} [target]).merge (declaredIn [target] tree)).get target) = _
  rw [Index.get_merge, Index.get_ensureAll, filter_declaredIn hnodup List.mem_cons_self,
    declaredIn_singleton]
  rfl

theorem recordedFor_singleton (hnamed : target ≠ "") (tree : Tree) :
    recordedFor [target] target tree = .ok (classesNaming target (referencesIn tree)) := by
  have hempty : "" ∉ [target] := fun hmem => hnamed (List.mem_singleton.mp hmem).symm
  rw [recordedFor_eq hempty List.mem_cons_self, declaredIn_singleton]

/-- A finder for the short name of a target finds every class that one for the target finds, in the same order and as
often, whichever fresh index they record in. What it finds are the classes of the references that end in the short
name. -/
theorem short_target_loses_no_class {name : String}
    (hend : name.toList.getLast? ≠ some Name.separator) (hshort : Name.short name ≠ "")
    (tree : Tree) :
    ∃ full short : List String,
      foundFor name tree = .ok full ∧ recordedFor [name] name tree = .ok full ∧
      foundFor (Name.short name) tree = .ok short ∧
      recordedFor [Name.short name] (Name.short name) tree = .ok short ∧
      full.Sublist short ∧
      short = ((referencesIn tree).filter fun reference =>
        (splitAt Name.separator reference.1).getLast? = some (Name.short name)).map (·.2) := by
  have hnamed : name ≠ "" := by
    rintro rfl
    exact hshort rfl
  refine ⟨_, _, foundFor_eq hnamed tree, recordedFor_singleton hnamed tree, foundFor_eq hshort tree,
    recordedFor_singleton hshort tree, ?_, ?_⟩
  · exact classesNaming_sublist
      (fun _ hreference => Name.refersTo_trans hreference (Name.refersTo_short hend)) _
  · rw [classesNaming]
    congr 2
    funext reference
    rw [Bool.eq_iff_iff, decide_eq_true_iff]
    exact Name.refersTo_iff_getLast? (Name.separator_not_mem_short name)

/-- Two classes with references of several lengths to one interface, and to another of the same short name. -/
def twoClasses : Tree :=
  .node {} [
    .node { kind := .namespaceDefinition } [.node { role := some "name", text := "N" } []],
    .node { kind := .classDeclaration } [
      .node { role := some "name", text := "K" } [],
      .node { kind := .interfaceClause } [
        .node { text := "\\X\\A\\I" } [],
        .node { text := "I" } [],
        .node { text := "A \\ I" } []]],
    .node { kind := .classDeclaration } [
      .node { role := some "name", text := "L" } [],
      .node { kind := .interfaceClause } [.node { text := "B\\I" } []]]]

theorem short_target_loses_no_class_twoClasses :
    "A\\I".toList.getLast? ≠ some Name.separator ∧ Name.short "A\\I" = "I" ∧ Name.short "A\\I" ≠ "" ∧
    foundFor "A\\I" twoClasses = .ok ["N\\K", "N\\K"] ∧
    foundFor (Name.short "A\\I") twoClasses = .ok ["N\\K", "N\\K", "N\\K", "N\\L"] ∧
    ["N\\K", "N\\K"].Sublist ["N\\K", "N\\K", "N\\K", "N\\L"] := by
  have hend : "A\\I".toList.getLast? ≠ some Name.separator := by decide
  have hname : Name.short "A\\I" = "I" := by decide +kernel
  have hsome : Name.short "A\\I" ≠ "" := by rw [hname]; decide
  obtain ⟨full, short, hfull, -, hshort, -, hsublist, -⟩ :=
    short_target_loses_no_class hend hsome twoClasses
  have hfullClasses : classesNaming "A\\I" (referencesIn twoClasses) = ["N\\K", "N\\K"] := by
    decide +kernel
  have hshortClasses : classesNaming (Name.short "A\\I") (referencesIn twoClasses) =
      ["N\\K", "N\\K", "N\\K", "N\\L"] := by
    decide +kernel
  rw [foundFor_eq (by decide), hfullClasses] at hfull
  rw [foundFor_eq hsome, hshortClasses] at hshort
  rw [foundFor_eq (by decide), foundFor_eq hsome, hfullClasses, hshortClasses]
  cases hfull
  cases hshort
  exact ⟨hend, hname, hsome, rfl, rfl, hsublist⟩

end Finder

end Roster
