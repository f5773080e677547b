import Roster.Proofs.ScanOutcome

/-! Units may finish in any order. Whatever the order in which their results are merged, the counts are the same, the
index has the same targets in the same places, and each target has the same classes; classes that come from one unit
stay in its order. -/

namespace Roster.Scan

/-- The matches of a result; a file that failed has none. -/
def FileResult.found (result : FileResult) : List Match :=
  match result.outcome with
  | .ok found => found
  | .error _ => []

/-- The classes that a unit contributes to a target, in the order of its results. -/
def contribution (target : String) (results : List FileResult) : List String :=
  ((results.flatMap FileResult.found).filter (·.target = target)).map (·.className)

/-- A unit was lost, or it ended with results that name no other targets than these. -/
def UnitEnd.Names (targets : List String) : UnitEnd → Prop
  | .lost => True
  | .ended (.ok results) => ∀ result ∈ results, ∀ found ∈ result.found, found.target ∈ targets
  | .ended (.error _) => False

/-- The results of a unit, none of one that was lost. -/
def UnitEnd.results : UnitEnd → List FileResult
  | .ended (.ok results) => results
  | _ => []

def UnitEnd.isLost : UnitEnd → Bool
  | .lost => true
  | .ended _ => false

theorem indexAfter_eq_merge (index : Index) (results : List FileResult) :
    indexAfter index results = index.merge (results.flatMap FileResult.found) := by
  induction results generalizing index with
  | nil => rfl
  | cons result results ih =>
      have hstep : indexAfter index (result :: results) =
          indexAfter (index.merge result.found) results := by
        simp only [indexAfter, List.foldl_cons, FileResult.found]
        cases result.outcome with
        | error failure => rfl
        | ok found => rfl
      rw [hstep, ih, List.flatMap_cons]
      simp only [Index.merge, List.foldl_append]

/-- What results come to, all at once. -/
theorem Progress.tally_mergeAll (progress : Progress) (results : List FileResult) :
    (progress.mergeAll results).tally =
      { index := progress.index.merge (results.flatMap FileResult.found)
        scanned := progress.scanned + results.countP FileResult.succeeded
        failed := progress.failed + results.countP (!·.succeeded)
        found := progress.found + (results.flatMap FileResult.found).length } := by
  have hfold : (progress.mergeAll results).tally = results.foldl Tally.merge progress.tally := by
    rw [mergeAll_eq]
    rfl
  have hindex := Tally.index_foldl_merge progress.tally results
  have hgrowth := Tally.found_foldl_merge progress.tally results
  rw [hfold]
  rw [indexAfter_eq_merge] at hindex
  rw [hindex, Index.size_merge] at hgrowth
  ext1
  · exact hindex
  · exact Tally.scanned_foldl_merge progress.tally results
  · exact Tally.failed_foldl_merge progress.tally results
  · show (results.foldl Tally.merge progress.tally).found =
      progress.tally.found + (results.flatMap FileResult.found).length
    omega

namespace Progress

variable (progress : Progress) (results : List FileResult)

theorem index_mergeAll :
    (progress.mergeAll results).index =
      progress.index.merge (results.flatMap FileResult.found) :=
  congrArg Tally.index (progress.tally_mergeAll results)

theorem scanned_mergeAll :
    (progress.mergeAll results).scanned =
      progress.scanned + results.countP FileResult.succeeded :=
  congrArg Tally.scanned (progress.tally_mergeAll results)

theorem failed_mergeAll :
    (progress.mergeAll results).failed = progress.failed + results.countP (!·.succeeded) :=
  congrArg Tally.failed (progress.tally_mergeAll results)

theorem found_mergeAll :
    (progress.mergeAll results).found =
      progress.found + (results.flatMap FileResult.found).length :=
  congrArg Tally.found (progress.tally_mergeAll results)

theorem mergeAll_append (more : List FileResult) :
    progress.mergeAll (results ++ more) = (progress.mergeAll results).mergeAll more := by
  simp only [mergeAll, List.foldl_append]

end Progress

/-- Units without faults are merged one after the other, and the lost ones come back. -/
theorem settle_eq {targets : List String} (progress : Progress) {ends : List (Chunk × UnitEnd)}
    (hnames : ∀ unit ∈ ends, unit.2.Names targets) :
    settle progress ends =
      (.ok ((ends.filter (·.2.isLost)).map (·.1)),
        progress.mergeAll (ends.flatMap (·.2.results))) := by
  induction ends generalizing progress with
  | nil => rfl
  | cons unit ends ih =>
      obtain ⟨chunk, outcome⟩ := unit
      have hrest := fun progress =>
        ih progress fun other hother => hnames other (List.mem_cons_of_mem _ hother)
      have hfirst := hnames (chunk, outcome) List.mem_cons_self
      match outcome, hfirst with
      | .lost, _ => simp [settle, hrest, UnitEnd.isLost, UnitEnd.results]
      | .ended (.ok results), _ =>
          simp [settle, hrest, UnitEnd.isLost, UnitEnd.results, Progress.mergeAll_append]

theorem mem_found_of_names {targets : List String} {ends : List (Chunk × UnitEnd)}
    (hnames : ∀ unit ∈ ends, unit.2.Names targets) {found : Match}
    (hfound : found ∈ (ends.flatMap (·.2.results)).flatMap FileResult.found) :
    found.target ∈ targets := by
  obtain ⟨result, hresult, hmem⟩ := List.mem_flatMap.mp hfound
  obtain ⟨⟨chunk, outcome⟩, hunit, hresults⟩ := List.mem_flatMap.mp hresult
  have hsound := hnames _ hunit
  match outcome, hsound with
  | .lost, _ => simp [UnitEnd.results] at hresults
  | .ended (.ok results), hsound => exact hsound result hresults found hmem

/-- Whatever the order in which units finish, merging them comes to the same counts, to the same targets in the same
places and, target by target, to the same classes as often. The classes of one unit stand together and in its order. -/
theorem settle_independent_of_order (progress : Progress) (targets : List String)
    (hheld : ∀ target ∈ targets, target ∈ progress.index.targets)
    (ends others : List (Chunk × UnitEnd)) (hperm : others.Perm ends)
    (hnames : ∀ unit ∈ ends, unit.2.Names targets) :
    ∃ lost again first second,
      settle progress ends = (.ok lost, first) ∧ settle progress others = (.ok again, second) ∧
      again.Perm lost ∧
      second.scanned = first.scanned ∧ second.failed = first.failed ∧ second.found = first.found ∧
      first.index.targets = progress.index.targets ∧
      second.index.targets = progress.index.targets ∧
      (∀ target, (second.index.get target).Perm (first.index.get target)) ∧
      ∀ target, second.index.get target =
        progress.index.get target ++
          others.flatMap fun unit => contribution target unit.2.results := by
  have hothers : ∀ unit ∈ others, unit.2.Names targets :=
    fun unit hunit => hnames unit (hperm.mem_iff.mp hunit)
  have hresults : (others.flatMap (·.2.results)).Perm (ends.flatMap (·.2.results)) :=
    hperm.flatMap_right _
  have hfound := hresults.flatMap_right FileResult.found
  refine ⟨_, _, _, _, settle_eq progress hnames, settle_eq progress hothers, ?_, ?_, ?_, ?_, ?_, ?_,
    ?_, ?_⟩
  · exact (hperm.filter _).map _
  · rw [Progress.scanned_mergeAll, Progress.scanned_mergeAll, hresults.countP_eq]
  · rw [Progress.failed_mergeAll, Progress.failed_mergeAll, hresults.countP_eq]
  · rw [Progress.found_mergeAll, Progress.found_mergeAll, hfound.length_eq]
  · rw [Progress.index_mergeAll]
    exact Index.targets_merge_of_mem fun found hmem => hheld _ (mem_found_of_names hnames hmem)
  · rw [Progress.index_mergeAll]
    exact Index.targets_merge_of_mem fun found hmem => hheld _ (mem_found_of_names hothers hmem)
  · intro target
    rw [Progress.index_mergeAll, Progress.index_mergeAll, Index.get_merge, Index.get_merge]
    exact ((hfound.filter _).map _).append_left _
  · intro target
    rw [Progress.index_mergeAll, Index.get_merge]
    simp [contribution, List.flatMap_assoc, List.filter_flatMap, List.map_flatMap]

/-- Two units that ended, with a lost one between them. -/
def threeUnits : List (Chunk × UnitEnd) := [
  ([], .ended (.ok [⟨"A.php", .ok [⟨"I", "\\A"⟩, ⟨"J", "\\A"⟩]⟩, ⟨"B.php", .error .emptyFile⟩])),
  ([], .lost),
  ([], .ended (.ok [⟨"C.php", .ok [⟨"I", "\\C"⟩, ⟨"I", "\\D"⟩]⟩]))]

theorem settle_threeUnits_reversed :
    (∀ target ∈ ["I", "J"], target ∈ (Index.ofTargets ["I", "J"]).targets) ∧
    threeUnits.reverse.Perm threeUnits ∧
    (∀ unit ∈ threeUnits, unit.2.Names ["I", "J"]) ∧
    ∃ lost again first second,
      settle { index := .ofTargets ["I", "J"] } threeUnits = (.ok lost, first) ∧
      settle { index := .ofTargets ["I", "J"] } threeUnits.reverse = (.ok again, second) ∧
      second.found = first.found ∧ second.failed = first.failed ∧
      (second.index.get "I").Perm (first.index.get "I") ∧
      second.index.get "I" = ["\\C", "\\D", "\\A"] := by
  have hheld : ∀ target ∈ ["I", "J"], target ∈ (Index.ofTargets ["I", "J"]).targets := by decide
  have hperm : threeUnits.reverse.Perm threeUnits := List.reverse_perm _
  have hnames : ∀ unit ∈ threeUnits, unit.2.Names ["I", "J"] := by
    simp [threeUnits, UnitEnd.Names, FileResult.found]
  obtain ⟨lost, again, first, second, hfirst, hsecond, -, -, hfailed, hfound, -, -, hclasses, horder⟩ :=
    settle_independent_of_order { index := .ofTargets ["I", "J"] } ["I", "J"] hheld threeUnits
      threeUnits.reverse hperm hnames
  exact ⟨hheld, hperm, hnames, lost, again, first, second, hfirst, hsecond, hfound, hfailed,
    hclasses "I", (horder "I").trans (by decide)⟩

end Roster.Scan
