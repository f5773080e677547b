import Roster.Php.Language
import Roster.Proofs.CalmScan
import Roster.Proofs.MergeOrder

/-! Without the death of a worker, host, batch size and mode make no difference to a scan: the files are scanned as if
one by one. Nor does the order in which a pool takes its units in, but for the order of the classes of each target. -/

namespace Roster.Scan

/-- Tallies that differ in nothing but the order of the classes of each target. -/
structure Tally.Alike (first second : Tally) : Prop where
  targets : second.index.targets = first.index.targets
  classes : ∀ target, (second.index.get target).Perm (first.index.get target)
  scanned : second.scanned = first.scanned
  failed : second.failed = first.failed
  found : second.found = first.found

/-- Scans with one fault, or with tallies that are alike. -/
inductive AlikeOutcomes : Except Fault Tally → Except Fault Tally → Prop
  | fault (fault : Fault) : AlikeOutcomes (.error fault) (.error fault)
  | tallies {first second : Tally} (halike : first.Alike second) :
      AlikeOutcomes (.ok first) (.ok second)

theorem AlikeOutcomes.of_ok {first : Tally} {outcome : Except Fault Tally}
    (halike : AlikeOutcomes (.ok first) outcome) :
    ∃ second, outcome = .ok second ∧ first.Alike second := by
  cases halike with
  | tallies halike => exact ⟨_, rfl, halike⟩

section

variable [Syntax.Parser] {targets : List String} (hsome : targets ≠ []) (hnamed : "" ∉ targets)

include hsome hnamed

theorem target_mem_of_scanFile {tree : FileTree} {path : String} {result : FileResult}
    (hscan : scanFile targets tree path = .ok result) {found : Match} (hfound : found ∈ result.found) :
    found.target ∈ targets := by
  rcases scanFile_cases hsome hnamed hscan with ⟨failure, -, rfl⟩ | ⟨source, -, rfl⟩
  · cases hfound
  · have hheld := Index.mem_targets_merge.mp (Index.target_mem_of_mem_toMatches hfound)
    obtain ⟨one, hone, htarget⟩ := hheld.resolve_right List.not_mem_nil
    rw [← htarget]
    exact (Finder.mem_distinct targets one.target).mp (Finder.target_mem_of_mem_declaredIn hone)

variable (index : Index) (tree : FileTree)

/-- The order of files makes no difference but to the order of classes. -/
theorem sequentially_perm {files others : List Candidate} (hperm : others.Perm files) :
    AlikeOutcomes (sequentially targets index tree files) (sequentially targets index tree others) := by
  by_cases hnull : ∀ file ∈ files, '\x00' ∉ (toString file.path).toList
  · obtain ⟨result, hresult⟩ := exists_result hsome hnamed tree hnull
    have hfiles : scanEach targets tree files = .ok (files.map result) := mapM_eq_map hresult
    have hothers : scanEach targets tree others = .ok (others.map result) :=
      mapM_eq_map fun file hfile => hresult file (hperm.mem_iff.mp hfile)
    have hresults := hperm.map result
    have hfound := hresults.flatMap_right FileResult.found
    have hheld : ∀ found ∈ (files.map result).flatMap FileResult.found,
        found.target ∈ (index.ensureAll targets).targets := by
      intro found hmem
      obtain ⟨_, hone, hmem⟩ := List.mem_flatMap.mp hmem
      obtain ⟨file, hfile, rfl⟩ := List.mem_map.mp hone
      exact Index.mem_targets_ensureAll.mpr
        (Or.inl (target_mem_of_scanFile hsome hnamed (hresult file hfile) hmem))
    rw [sequentially, sequentially, hfiles, hothers]
    refine .tallies ⟨?_, ?_, hresults.countP_eq _, hresults.countP_eq _, ?_⟩
    · dsimp only
      rw [indexAfter_eq_merge, indexAfter_eq_merge, Index.targets_merge_of_mem hheld,
        Index.targets_merge_of_mem fun found hmem => hheld found (hfound.mem_iff.mp hmem)]
    · intro target
      dsimp only
      rw [indexAfter_eq_merge, indexAfter_eq_merge, Index.get_merge, Index.get_merge]
      exact ((hfound.filter _).map _).append_left _
    · dsimp only
      rw [indexAfter_eq_merge, indexAfter_eq_merge, Index.size_merge, Index.size_merge, hfound.length_eq]
  · push Not at hnull
    obtain ⟨file, hfile, hmem⟩ := hnull
    rw [sequentially, sequentially, scanEach_of_null hsome hnamed tree hfile hmem,
      scanEach_of_null hsome hnamed tree (hperm.mem_iff.mpr hfile) hmem]
    exact .fault .embeddedNull

variable {circumstances : Circumstances} {files : List Candidate}
  (hfree : circumstances.CrashFree targets files)

include hfree

theorem scanUnder_crashFree :
    (scanUnder circumstances targets index tree files).map tallyOf =
      sequentially targets index tree (circumstances.taken files) := by
  rw [scanUnder_calm hsome hnamed hfree]
  cases sequentially targets index tree (circumstances.taken files) with
  | error fault => rfl
  | ok tally => rfl

theorem scanUnder_inOrder (hinOrder : circumstances.InOrder targets files) :
    (scanUnder circumstances targets index tree files).map tallyOf =
      sequentially targets index tree files := by
  rw [scanUnder_crashFree hsome hnamed index tree hfree, circumstances.taken_eq hsome hinOrder]

end

/-- Without the death of a worker a scan comes to what scanning the files one by one comes to, in every circumstance in
which files are taken in as they were given, and so to the same in any two. Unless a path names no file it comes to an
end, with an index to which the matches are appended file by file. Where a pool takes its units in in another order, no
more than the order of the classes of each target is different. -/
theorem scan_independent_of_circumstances [Syntax.Parser] (targets : List String)
    (hsome : targets ≠ []) (hnamed : "" ∉ targets) (index : Index) (tree : FileTree)
    (files : List Candidate) :
    (∀ circumstances : Circumstances, circumstances.CrashFree targets files →
      circumstances.InOrder targets files →
      (scanUnder circumstances targets index tree files).map tallyOf =
        sequentially targets index tree files) ∧
    (∀ first second : Circumstances, first.CrashFree targets files → second.CrashFree targets files →
      first.InOrder targets files → second.InOrder targets files →
      (scanUnder first targets index tree files).map tallyOf =
        (scanUnder second targets index tree files).map tallyOf) ∧
    ((∀ file ∈ files, '\x00' ∉ (toString file.path).toList) →
      ∃ results, scanEach targets tree files = .ok results ∧
        ∀ circumstances : Circumstances, circumstances.CrashFree targets files →
          circumstances.InOrder targets files →
          ∃ stats, scanUnder circumstances targets index tree files =
              .ok (stats, indexAfter (index.ensureAll targets) results) ∧
            stats.scanned = results.countP FileResult.succeeded ∧
            stats.failed = results.countP (!·.succeeded) ∧
            index.size + stats.found = (indexAfter (index.ensureAll targets) results).size) ∧
    ∀ circumstances : Circumstances, circumstances.CrashFree targets files →
      AlikeOutcomes (sequentially targets index tree files)
        ((scanUnder circumstances targets index tree files).map tallyOf) := by
  refine ⟨?_, ?_, ?_, ?_⟩
  · intro circumstances hfree hinOrder
    exact scanUnder_inOrder hsome hnamed index tree hfree hinOrder
  · intro first second hfirst hsecond hinOrder hinOrderToo
    rw [scanUnder_inOrder hsome hnamed index tree hfirst hinOrder,
      scanUnder_inOrder hsome hnamed index tree hsecond hinOrderToo]
  · intro hnull
    obtain ⟨results, hresults⟩ := scanEach_eq_ok hsome hnamed tree hnull
    refine ⟨results, hresults, fun circumstances hfree hinOrder => ?_⟩
    have htally := scanUnder_inOrder hsome hnamed index tree hfree hinOrder
    rw [sequentially, hresults] at htally
    obtain ⟨stats, hscan, -, hscanned, hfailed, hfound⟩ := scanUnder_of_tally htally
    refine ⟨stats, hscan, hscanned, hfailed, ?_⟩
    rw [hfound]
    exact Nat.add_sub_of_le (size_le_size_indexAfter index targets results)
  · intro circumstances hfree
    rw [scanUnder_crashFree hsome hnamed index tree hfree]
    exact sequentially_perm hsome hnamed index tree (circumstances.taken_perm files)

/-- A host with a pool of workers. -/
def poolHost (faults : WorkerFaults) : Circumstances where
  profile := {
    cpuCores := 5, cpuScore := 1, memoryAvailable := 1, memoryScore := 1, diskScore := 1,
    parallel := true }
  batchSize := some 1
  progressive := some false
  platform := "Linux"
  order := .submission
  elapsed := 0
  faults := faults

theorem poolHost_pools (faults : WorkerFaults) {targets : List String} (hsome : targets ≠ [])
    (files : List Candidate) : (poolHost faults).Pools targets files := by
  have hempty : ¬ targets.isEmpty = true := by simpa using hsome
  have hseveral : 1 < (poolHost faults).profile.concurrency := by
    rw [Profile.concurrency]
    split
    · show 1 < max 1 (max 1 ((5 : Int) - 1).toNat / 2)
      decide
    · show 1 < max 1 ((5 : Int) - 1).toNat
      decide
  refine ⟨_, if_neg hempty, ?_⟩
  change (decide (1 < (poolHost faults).profile.concurrency) && true) = true
  rw [decide_eq_true hseveral]
  rfl

/-- A file with a class, and no second one. -/
def loneClass : FileTree :=
  { root := .folder [("A.php", .file "<?php class K implements I \x7b\x7d".toUTF8)] }

def twoFiles : List Candidate :=
  [.ofPath ⟨.slash, ["A.php"]⟩, .ofPath ⟨.slash, ["B.php"]⟩]

/-- The unit that was submitted last is taken in first. -/
def latestFirst : MergeOrder where
  positions _ count := (List.range count).reverse
  perm _ _ := List.reverse_perm _

theorem scan_loneClass_progressive_or_pooled :
    ["I"] ≠ [] ∧ "" ∉ ["I"] ∧ (∀ file ∈ twoFiles, '\x00' ∉ (toString file.path).toList) ∧
    (poolHost {}).Pools ["I"] twoFiles ∧ (poolHost {}).CrashFree ["I"] twoFiles ∧
    (poolHost {}).InOrder ["I"] twoFiles ∧
    (scanUnder (poolHost {}) ["I"] {} loneClass twoFiles).map tallyOf =
      (scanUnder { poolHost {} with progressive := some true, batchSize := none }
        ["I"] {} loneClass twoFiles).map tallyOf ∧
    (∃ stats final, scanUnder (poolHost {}) ["I"] {} loneClass twoFiles = .ok (stats, final)) ∧
    AlikeOutcomes (sequentially ["I"] {} loneClass twoFiles)
      ((scanUnder { poolHost {} with order := latestFirst } ["I"] {} loneClass twoFiles).map
        tallyOf) := by
  have hnull : ∀ file ∈ twoFiles, '\x00' ∉ (toString file.path).toList := by decide
  have hfree : (poolHost {}).CrashFree ["I"] twoFiles := fun _ _ _ => rfl
  have hinOrder : (poolHost {}).InOrder ["I"] twoFiles := fun _ => rfl
  obtain ⟨-, hsame, hends, halike⟩ :=
    scan_independent_of_circumstances ["I"] (by decide) (by decide) {} loneClass twoFiles
  obtain ⟨results, -, hscans⟩ := hends hnull
  obtain ⟨stats, hscan, -⟩ := hscans (poolHost {}) hfree hinOrder
  exact ⟨by decide, by decide, hnull, poolHost_pools {} (by decide) twoFiles, hfree, hinOrder,
    hsame _ _ hfree (fun _ _ _ => rfl) hinOrder (fun _ => rfl), ⟨stats, _, hscan⟩,
    halike { poolHost {} with order := latestFirst } fun _ _ _ => rfl⟩

end Roster.Scan
