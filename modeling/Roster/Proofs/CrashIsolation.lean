import Mathlib.Data.Finset.Card
import Roster.Proofs.ResourceIndependence

/-! Workers that die. What a scan in a pool leaves out is a set of files that workers died on, and everything else is
as if these had not been there. -/

namespace Roster.Scan

/-- Where lost files stand. -/
def lostPositions (fates : List Fate) : Finset Nat :=
  ((fates.zipIdx.filter (·.1.lost)).map (·.2)).toFinset

/-- The files outside a set of positions, in order. -/
def outside (positions : Finset Nat) (files : List Candidate) : List Candidate :=
  (files.zipIdx.filter fun entry => entry.2 ∉ positions).map (·.1)

theorem mem_lostPositions {fates : List Fate} {position : Nat} :
    position ∈ lostPositions fates ↔ ∃ fate, fates[position]? = some fate ∧ fate.lost = true := by
  rw [lostPositions, List.mem_toFinset, List.mem_map]
  constructor
  · rintro ⟨⟨fate, number⟩, hmem, rfl⟩
    obtain ⟨hmem, hlost⟩ := List.mem_filter.mp hmem
    exact ⟨fate, List.mem_zipIdx_iff_getElem?.mp hmem, hlost⟩
  · rintro ⟨fate, hfate, hlost⟩
    exact ⟨(fate, position), List.mem_filter.mpr ⟨List.mem_zipIdx_iff_getElem?.mpr hfate, hlost⟩, rfl⟩

theorem card_lostPositions (fates : List Fate) :
    (lostPositions fates).card = fates.countP (·.lost) := by
  have hnodup : ((fates.zipIdx.filter (·.1.lost)).map (·.2)).Nodup := by
    refine List.Nodup.sublist (List.filter_sublist.map _) ?_
    rw [List.zipIdx_map_snd]
    exact List.nodup_range'
  have hcount : fates.zipIdx.countP (·.1.lost) = (fates.zipIdx.map (·.1)).countP (·.lost) := by
    rw [List.countP_map]
    rfl
  rw [lostPositions, List.toFinset_card_of_nodup hnodup, List.length_map,
    ← List.countP_eq_length_filter, hcount, List.zipIdx_map_fst]

theorem outside_lostPositions (fates : List Fate) :
    outside (lostPositions fates) (fates.map Fate.file) =
      (fates.filter (!·.lost)).map Fate.file := by
  have hkept : fates.zipIdx.filter (fun entry => entry.2 ∉ lostPositions fates) =
      fates.zipIdx.filter (!·.1.lost) := by
    apply List.filter_congr
    rintro ⟨fate, position⟩ hmem
    have hfate := List.mem_zipIdx_iff_getElem?.mp hmem
    have hiff : position ∈ lostPositions fates ↔ fate.lost = true := by
      rw [mem_lostPositions, hfate]
      simp
    simp [hiff]
  calc
    outside (lostPositions fates) (fates.map Fate.file) =
        ((fates.zipIdx.filter fun entry => entry.2 ∉ lostPositions fates).map (·.1)).map
          Fate.file := by
      rw [outside, List.zipIdx_map, List.filter_map, List.map_map, List.map_map]
      rfl
    _ = ((fates.zipIdx.map (·.1)).filter (!·.lost)).map Fate.file := by
      rw [hkept, List.filter_map]
      rfl
    _ = (fates.filter (!·.lost)).map Fate.file := by rw [List.zipIdx_map_fst]

theorem mem_of_mem_outside {positions : Finset Nat} {files : List Candidate} {file : Candidate}
    (hfile : file ∈ outside positions files) : file ∈ files := by
  obtain ⟨⟨other, position⟩, hmem, rfl⟩ := List.mem_map.mp hfile
  exact List.mem_of_getElem? (List.mem_zipIdx_iff_getElem?.mp (List.mem_of_mem_filter hmem))

theorem length_outside_lostPositions (fates : List Fate) :
    (outside (lostPositions fates) (fates.map Fate.file)).length + (lostPositions fates).card =
      fates.length := by
  rw [outside_lostPositions, card_lostPositions, List.length_map, ← List.countP_eq_length_filter,
    Nat.add_comm]
  have hsplit := List.length_eq_countP_add_countP Fate.lost (l := fates)
  simp only [Bool.not_eq_true, Bool.decide_eq_false] at hsplit
  exact hsplit.symm

/-- Workers may die as they will: a scan in a pool loses some of the files that workers die on, among them all that
are fatal every time, and comes to what the others come to one by one, in the order in which they are taken in. But it
does not always come to an end. A path with a null character among the others stops it; without one, every file is
counted as scanned or as failed. -/
theorem pooled_scan_loses_only_fatal_files [Syntax.Parser] (circumstances : Circumstances)
    (targets : List String) (hsome : targets ≠ []) (hnamed : "" ∉ targets) (index : Index)
    (tree : FileTree) (files : List Candidate) (hpools : circumstances.Pools targets files) :
    ∃ (lost : Finset Nat) (merged : List Candidate),
      (∀ position file, files[position]? = some file →
        circumstances.faults.alwaysFatal (toString file.path) = true → position ∈ lost) ∧
      (∀ position ∈ lost, ∃ file, files[position]? = some file ∧
        circumstances.faults.isFatal (toString file.path) = true) ∧
      merged.Perm (outside lost files) ∧
      (circumstances.order = .submission → merged = outside lost files) ∧
      (scanUnder circumstances targets index tree files).map tallyOf =
        (sequentially targets index tree merged).map (·.lose lost.card) ∧
      ((∃ file ∈ outside lost files, '\x00' ∈ (toString file.path).toList) →
        scanUnder circumstances targets index tree files = .error .embeddedNull) ∧
      ((∀ file ∈ outside lost files, '\x00' ∉ (toString file.path).toList) →
        ∃ results stats, scanEach targets tree merged = .ok results ∧
          scanUnder circumstances targets index tree files =
            .ok (stats, indexAfter (index.ensureAll targets) results) ∧
          stats.failed = lost.card + results.countP (!·.succeeded) ∧
          stats.total = files.length ∧ stats.scanned + stats.failed = stats.total) := by
  obtain ⟨pooled, fates, arranged, hpooled, rfl, hfair, hperm, hsame, htally⟩ :=
    scanUnder_accounts hsome hnamed circumstances index tree files
  have hpool : pooled = true := hpooled.mpr hpools
  have hmerged : ((arranged.filter (!·.lost)).map Fate.file).Perm
      (outside (lostPositions fates) (fates.map Fate.file)) := by
    rw [outside_lostPositions]
    exact (hperm.filter _).map _
  rw [hperm.countP_eq, ← card_lostPositions] at htally
  refine ⟨lostPositions fates, _, ?_, ?_, hmerged, ?_, htally, ?_, ?_⟩
  · intro position file hfile halways
    rw [List.getElem?_map, Option.map_eq_some_iff] at hfile
    obtain ⟨fate, hfate, rfl⟩ := hfile
    have hlost := (hfair fate (List.mem_of_getElem? hfate)).lost_of_alwaysFatal hpool halways
    exact mem_lostPositions.mpr ⟨fate, hfate, hlost⟩
  · intro position hposition
    obtain ⟨fate, hfate, hlost⟩ := mem_lostPositions.mp hposition
    have hfatal := ((hfair fate (List.mem_of_getElem? hfate)).fatal_of_lost hlost).2
    refine ⟨fate.file, ?_, hfatal⟩
    rw [List.getElem?_map, hfate, Option.map_some]
  · intro horder
    rw [hsame fun _ => horder, outside_lostPositions]
  · rintro ⟨file, hfile, hnull⟩
    rw [sequentially, scanEach_of_null hsome hnamed tree (hmerged.mem_iff.mpr hfile) hnull] at htally
    exact scanUnder_of_fault htally
  · intro hnull
    obtain ⟨results, hresults⟩ := scanEach_eq_ok hsome hnamed tree fun file hfile =>
      hnull file (hmerged.mem_iff.mp hfile)
    have hlength := length_of_mapM_eq_ok hresults
    have hsplit := List.length_eq_countP_add_countP FileResult.succeeded (l := results)
    simp only [Bool.not_eq_true, Bool.decide_eq_false] at hsplit
    have hfiles := length_outside_lostPositions fates
    rw [← hmerged.length_eq] at hfiles
    rw [sequentially, hresults] at htally
    obtain ⟨stats, hscan, htotal, hscanned, hfailed, -⟩ := scanUnder_of_tally htally
    dsimp only [Tally.lose] at hscan hscanned hfailed
    refine ⟨results, stats, hresults, hscan, ?_, htotal, ?_⟩
    · rw [hfailed, Nat.add_comm]
    · rw [htotal, List.length_map]
      omega

/-- A file whose worker dies every time, and one whose worker dies once. -/
def mixedFaults : WorkerFaults where
  always := ["B.php"]
  once := ["A.php"]

theorem scan_loneClass_with_deaths :
    ["I"] ≠ [] ∧ "" ∉ ["I"] ∧ (poolHost mixedFaults).Pools ["I"] twoFiles ∧
    ∃ (lost : Finset Nat) (results : List FileResult) (stats : Stats), 1 ∈ lost ∧
      scanEach ["I"] loneClass (outside lost twoFiles) = .ok results ∧
      scanUnder (poolHost mixedFaults) ["I"] {} loneClass twoFiles =
        .ok (stats, indexAfter (({} : Index).ensureAll ["I"]) results) ∧
      stats.scanned + stats.failed = stats.total := by
  have hpools := poolHost_pools mixedFaults (by decide : ["I"] ≠ []) twoFiles
  have hnull : ∀ file ∈ twoFiles, '\x00' ∉ (toString file.path).toList := by decide
  obtain ⟨lost, merged, hlost, -, -, horder, -, -, hends⟩ := pooled_scan_loses_only_fatal_files
    (poolHost mixedFaults) ["I"] (by decide) (by decide) {} loneClass twoFiles hpools
  obtain rfl := horder rfl
  obtain ⟨results, stats, hresults, hscan, -, -, hcounts⟩ :=
    hends fun file hfile => hnull file (mem_of_mem_outside hfile)
  exact ⟨by decide, by decide, hpools, lost, results, stats, hlost 1 _ rfl (by decide), hresults, hscan,
    hcounts⟩

/-- A file whose path holds a null character. -/
def unnamable : Candidate :=
  .ofPath ⟨.slash, ["A\x00.php"]⟩

/-- No worker dies, and yet the scan has no counts. -/
theorem no_counts_of_unnamable :
    (poolHost {}).Pools ["I"] [unnamable] ∧
      scanUnder (poolHost {}) ["I"] {} loneClass [unnamable] = .error .embeddedNull := by
  have hnull : '\x00' ∈ (toString unnamable.path).toList := by decide
  have htally : (scanUnder (poolHost {}) ["I"] {} loneClass [unnamable]).map tallyOf = _ :=
    scanUnder_inOrder (by decide) (by decide) {} loneClass (fun _ _ _ => rfl) fun _ => rfl
  rw [sequentially, scanEach_of_null (by decide) (by decide) loneClass List.mem_cons_self hnull] at htally
  exact ⟨poolHost_pools {} (by decide) [unnamable], scanUnder_of_fault htally⟩

end Roster.Scan
