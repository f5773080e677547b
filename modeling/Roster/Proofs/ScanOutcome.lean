import Mathlib.Data.List.Basic
import Roster.Proofs.FileScan
import Roster.Proofs.ScanAccount

/-! What a scan comes to, set against files scanned one by one. Whatever the circumstances, the outcome is that of the
files which are kept, in the order in which they are taken in, and the lost ones count as failed. -/

namespace Roster.Scan

/-- What a scan may depend on besides its targets, its index and its files. -/
structure Circumstances where
  profile : Profile
  batchSize : Option Int
  progressive : Option Bool
  platform : String
  order : MergeOrder
  elapsed : Float
  faults : WorkerFaults

/-- The part of a scan's outcome that counts files and matches. -/
def tallyOf (outcome : Stats × Index) : Tally :=
  ⟨outcome.2, outcome.1.scanned, outcome.1.failed, outcome.1.found⟩

/-- A scan of files goes through a pool. -/
def Circumstances.Pools (circumstances : Circumstances) (targets : List String)
    (files : List Candidate) : Prop :=
  ∃ plan, Plan.make targets circumstances.profile circumstances.batchSize
      circumstances.progressive = .ok plan ∧
    plan.usesPool (plan.isProgressive circumstances.platform files.length) = true

/-- No worker dies in a scan of files. -/
def Circumstances.CrashFree (circumstances : Circumstances) (targets : List String)
    (files : List Candidate) : Prop :=
  circumstances.Pools targets files →
    ∀ file ∈ files, circumstances.faults.isFatal (toString file.path) = false

/-- A scan of files takes them in as they were given. -/
def Circumstances.InOrder (circumstances : Circumstances) (targets : List String)
    (files : List Candidate) : Prop :=
  circumstances.Pools targets files → circumstances.order = .submission

def FileResult.succeeded (result : FileResult) : Bool :=
  result.outcome.isOk

/-- The index once the matches of results are appended, result by result. -/
def indexAfter (index : Index) (results : List FileResult) : Index :=
  results.foldl
    (fun index result =>
      match result.outcome with
      | .ok found => index.merge found
      | .error _ => index) index

namespace Tally

theorem lose_lose (tally : Tally) (files more : Nat) :
    (tally.lose files).lose more = tally.lose (files + more) := by
  rw [lose, lose, lose, Nat.add_assoc]

theorem merge_lose (tally : Tally) (files : Nat) (result : FileResult) :
    (tally.lose files).merge result = (tally.merge result).lose files := by
  rw [merge, merge]
  cases result.outcome with
  | error failure => rw [lose, lose, Nat.add_right_comm]
  | ok found => rfl

theorem foldl_merge_lose (tally : Tally) (files : Nat) (results : List FileResult) :
    results.foldl merge (tally.lose files) = (results.foldl merge tally).lose files := by
  induction results generalizing tally with
  | nil => rfl
  | cons result results ih => rw [List.foldl_cons, List.foldl_cons, merge_lose, ih]

theorem index_foldl_merge (tally : Tally) (results : List FileResult) :
    (results.foldl merge tally).index = indexAfter tally.index results := by
  induction results generalizing tally with
  | nil => rfl
  | cons result results ih =>
      rw [List.foldl_cons, ih, indexAfter, indexAfter, List.foldl_cons, merge]
      cases result.outcome with
      | error failure => rfl
      | ok found => rfl

theorem scanned_foldl_merge (tally : Tally) (results : List FileResult) :
    (results.foldl merge tally).scanned =
      tally.scanned + results.countP FileResult.succeeded := by
  induction results generalizing tally with
  | nil => rfl
  | cons result results ih =>
      rw [List.foldl_cons, ih, List.countP_cons, merge, FileResult.succeeded]
      cases result.outcome with
      | error failure => rfl
      | ok found => exact Nat.add_right_comm ..

theorem failed_foldl_merge (tally : Tally) (results : List FileResult) :
    (results.foldl merge tally).failed = tally.failed + results.countP (!·.succeeded) := by
  induction results generalizing tally with
  | nil => rfl
  | cons result results ih =>
      rw [List.foldl_cons, ih, List.countP_cons, merge, FileResult.succeeded]
      cases result.outcome with
      | error failure => exact Nat.add_right_comm ..
      | ok found => rfl

/-- Matches are counted as the index grows. -/
theorem found_foldl_merge (tally : Tally) (results : List FileResult) :
    (results.foldl merge tally).index.size + tally.found =
      tally.index.size + (results.foldl merge tally).found := by
  induction results generalizing tally with
  | nil => rfl
  | cons result results ih =>
      have hrest := ih (tally.merge result)
      rw [List.foldl_cons]
      have hstep : (tally.merge result).index.size + tally.found =
          tally.index.size + (tally.merge result).found := by
        rw [merge]
        cases result.outcome with
        | error failure => rfl
        | ok found =>
            dsimp only
            rw [Index.size_merge, Nat.add_assoc, Nat.add_comm found.length]
      omega

theorem foldl_merge_start (index : Index) (results : List FileResult) :
    results.foldl merge ⟨index, 0, 0, 0⟩ =
      { index := indexAfter index results
        scanned := results.countP FileResult.succeeded
        failed := results.countP (!·.succeeded)
        found := (indexAfter index results).size - index.size } := by
  have hfound := found_foldl_merge ⟨index, 0, 0, 0⟩ results
  rw [index_foldl_merge] at hfound
  ext1
  · exact index_foldl_merge _ results
  · rw [scanned_foldl_merge, Nat.zero_add]
  · rw [failed_foldl_merge, Nat.zero_add]
  · dsimp only at hfound ⊢
    omega

end Tally

section

variable {one : Candidate → Except Fault FileResult}

/-- Fates come to the results of the files that are kept, and the number of the others. -/
theorem account_eq (tally : Tally) (fates : List Fate) :
    account one tally fates =
      (((fates.filter (!·.lost)).map Fate.file).mapM one).map fun results =>
        (results.foldl Tally.merge tally).lose (fates.countP (·.lost)) := by
  induction fates generalizing tally with
  | nil => rfl
  | cons fate rest ih =>
      rw [account, List.countP_cons, List.filter_cons]
      cases hlost : fate.lost with
      | true =>
          simp only [if_true, Bool.not_true, Bool.false_eq_true, if_false]
          rw [ih]
          cases ((rest.filter (!·.lost)).map Fate.file).mapM one with
          | error fault => rfl
          | ok results =>
              change Except.ok ((results.foldl Tally.merge (tally.lose 1)).lose _) = Except.ok _
              rw [Tally.foldl_merge_lose, Tally.lose_lose, Nat.add_comm 1]
      | false =>
          simp only [Bool.false_eq_true, if_false, Bool.not_false, if_true, Nat.add_zero,
            List.map_cons, List.mapM_cons]
          cases one fate.file with
          | error fault => rfl
          | ok result =>
              change account one (tally.merge result) rest = _
              rw [ih]
              cases ((rest.filter (!·.lost)).map Fate.file).mapM one with
              | error fault => rfl
              | ok results => rfl

theorem mapM_eq_map {files : List Candidate} {result : Candidate → FileResult}
    (hone : ∀ file ∈ files, one file = .ok (result file)) : files.mapM one = .ok (files.map result) := by
  induction files with
  | nil => rfl
  | cons file rest ih =>
      obtain ⟨hfirst, hlater⟩ := List.forall_mem_cons.mp hone
      rw [List.mapM_cons, hfirst, ih hlater]
      rfl

theorem length_of_mapM_eq_ok {files : List Candidate} {results : List FileResult}
    (hresults : files.mapM one = .ok results) : results.length = files.length := by
  induction files generalizing results with
  | nil =>
      rw [← Except.ok.inj hresults]
      rfl
  | cons file rest ih =>
      rw [List.mapM_cons] at hresults
      cases hfile : one file with
      | error fault =>
          rw [hfile] at hresults
          contradiction
      | ok result =>
          cases hrest : rest.mapM one with
          | error fault =>
              rw [hfile, hrest] at hresults
              contradiction
          | ok others =>
              rw [hfile, hrest] at hresults
              rw [← Except.ok.inj hresults, List.length_cons, List.length_cons, ih hrest]

end

theorem size_le_size_indexAfter (index : Index) (targets : List String)
    (results : List FileResult) :
    index.size ≤ (indexAfter (index.ensureAll targets) results).size := by
  have hgrowth := Tally.found_foldl_merge ⟨index.ensureAll targets, 0, 0, 0⟩ results
  rw [Tally.index_foldl_merge, Index.size_ensureAll] at hgrowth
  dsimp only at hgrowth
  omega

variable [Syntax.Parser]

/-- A whole scan: counts and index, unless it cannot go on. -/
def scanUnder (circumstances : Circumstances) (targets : List String) (index : Index)
    (tree : FileTree) (files : List Candidate) : Except Fault (Stats × Index) :=
  match Plan.make targets circumstances.profile circumstances.batchSize
      circumstances.progressive with
  | .error fault => .error (.finder fault)
  | .ok plan =>
      match run plan circumstances.order circumstances.platform circumstances.elapsed tree
          (start plan index circumstances.faults) files with
      | (.ok stats, after) => .ok (stats, after.index)
      | (.error fault, _) => .error fault

/-- The results of files, each scanned on its own with a new finder. -/
def scanEach (targets : List String) (tree : FileTree) (files : List Candidate) :
    Except Fault (List FileResult) :=
  files.mapM fun file => scanFile targets tree (toString file.path)

/-- Files scanned one by one. Matches are counted by how much the index grows. -/
def sequentially (targets : List String) (index : Index) (tree : FileTree)
    (files : List Candidate) : Except Fault Tally :=
  (scanEach targets tree files).map fun results =>
    { index := indexAfter (index.ensureAll targets) results
      scanned := results.countP FileResult.succeeded
      failed := results.countP (!·.succeeded)
      found := (indexAfter (index.ensureAll targets) results).size - index.size }

theorem scanChunk_paths {targets : List String} (hnamed : "" ∉ targets) (tree : FileTree)
    (chunk : Chunk) :
    scanChunk targets tree (Chunk.paths chunk) =
      chunk.mapM fun file => scanFile targets tree (toString file.path) := by
  rw [scanChunk_eq_mapM_scanFile hnamed, Chunk.paths, List.mapM_map]
  rfl

theorem account_start (targets : List String) (index : Index) (tree : FileTree)
    (fates : List Fate) :
    account (fun file => scanFile targets tree (toString file.path))
        ⟨index.ensureAll targets, 0, 0, 0⟩ fates =
      (sequentially targets index tree ((fates.filter (!·.lost)).map Fate.file)).map
        (·.lose (fates.countP (·.lost))) := by
  rw [account_eq, sequentially, scanEach]
  cases ((fates.filter (!·.lost)).map Fate.file).mapM
      fun file => scanFile targets tree (toString file.path) with
  | error fault => rfl
  | ok results =>
      change Except.ok ((results.foldl Tally.merge ⟨index.ensureAll targets, 0, 0, 0⟩).lose _) = _
      rw [Tally.foldl_merge_start, Index.size_ensureAll]
      rfl

/-- A whole scan comes to what fair fates of its files come to, in some arrangement. -/
theorem scanUnder_accounts {targets : List String} (hsome : targets ≠ []) (hnamed : "" ∉ targets)
    (circumstances : Circumstances) (index : Index) (tree : FileTree) (files : List Candidate) :
    ∃ (pooled : Bool) (fates arranged : List Fate),
      (pooled = true ↔ circumstances.Pools targets files) ∧
      fates.map Fate.file = files ∧
      (∀ fate ∈ fates, fate.Fair pooled circumstances.faults) ∧
      arranged.Perm fates ∧ (circumstances.InOrder targets files → arranged = fates) ∧
      (scanUnder circumstances targets index tree files).map tallyOf =
        (sequentially targets index tree ((arranged.filter (!·.lost)).map Fate.file)).map
          (·.lose (arranged.countP (·.lost))) := by
  obtain ⟨plan, hplan, rfl, -⟩ := Plan.make_eq_ok hsome circumstances.profile circumstances.batchSize
    circumstances.progressive
  let progressive := plan.isProgressive circumstances.platform files.length
  obtain ⟨-, fates, arranged, hfiles, hfair, hperm, hsame, hends⟩ :=
    runBatches_spec (scanChunk_paths hnamed tree) plan circumstances.order progressive
    (plan.usesPool progressive)
    ((start plan index circumstances.faults).note
      (if progressive then Notice.progressiveScan plan.batchSize
        else .scanStarted files.length plan.batchSize plan.concurrency (plan.usesPool progressive)))
    (plan.batches files)
  rw [plan.flatten_batches] at hfiles
  have hpools : plan.usesPool progressive = true ↔ circumstances.Pools plan.targets files := by
    constructor
    · exact fun hpool => ⟨plan, hplan, hpool⟩
    · rintro ⟨other, hother, hpool⟩
      obtain rfl := Except.ok.inj (hplan.symm.trans hother)
      exact hpool
  refine ⟨plan.usesPool progressive, fates, arranged, hpools, hfiles, hfair, hperm, ?_, ?_⟩
  · exact fun hinOrder => hsame fun hpool => hinOrder (hpools.mp hpool)
  · rw [← account_start]
    refine Eq.trans ?_ hends
    rw [scanUnder, hplan]
    dsimp only
    rw [run]
    dsimp only
    generalize runBatches plan _ _ _ _ _ _ = run
    obtain ⟨outcome, after⟩ := run
    cases outcome with
    | error fault => rfl
    | ok value => rfl

section Null

variable {targets : List String} (hsome : targets ≠ []) (hnamed : "" ∉ targets) (tree : FileTree)
  {files : List Candidate}

include hsome hnamed

/-- Files whose paths hold no null character have a result each. -/
theorem exists_result (hnull : ∀ file ∈ files, '\x00' ∉ (toString file.path).toList) :
    ∃ result : Candidate → FileResult,
      ∀ file ∈ files, scanFile targets tree (toString file.path) = .ok (result file) := by
  have : Nonempty FileResult := ⟨⟨"", .ok []⟩⟩
  choose! result hresult using fun file (hfile : file ∈ files) =>
    scanFile_eq_ok hsome hnamed tree (hnull file hfile)
  exact ⟨result, hresult⟩

theorem scanEach_eq_ok (hnull : ∀ file ∈ files, '\x00' ∉ (toString file.path).toList) :
    ∃ results, scanEach targets tree files = .ok results := by
  obtain ⟨result, hresult⟩ := exists_result hsome hnamed tree hnull
  exact ⟨_, mapM_eq_map hresult⟩

/-- One path with a null character stops the scan of all files. -/
theorem scanEach_of_null {file : Candidate} (hfile : file ∈ files)
    (hnull : '\x00' ∈ (toString file.path).toList) :
    scanEach targets tree files = .error .embeddedNull := by
  induction files with
  | nil => cases hfile
  | cons first rest ih =>
      rw [scanEach, List.mapM_cons]
      by_cases hfirst : '\x00' ∈ (toString first.path).toList
      · rw [scanFile_of_null targets tree hfirst]
        rfl
      · obtain ⟨result, hresult⟩ := scanFile_eq_ok hsome hnamed tree hfirst
        have hne : file ≠ first := fun heq => hfirst (heq ▸ hnull)
        have hrest := ih ((List.mem_cons.mp hfile).resolve_left hne)
        rw [scanEach] at hrest
        rw [hresult, hrest]
        rfl

end Null

theorem total_of_scanUnder {circumstances : Circumstances} {targets : List String} {index final : Index}
    {tree : FileTree} {files : List Candidate} {stats : Stats}
    (hscan : scanUnder circumstances targets index tree files = .ok (stats, final)) :
    stats.total = files.length := by
  rw [scanUnder] at hscan
  cases hplan : Plan.make targets circumstances.profile circumstances.batchSize
      circumstances.progressive with
  | error fault =>
      rw [hplan] at hscan
      contradiction
  | ok plan =>
      rw [hplan] at hscan
      dsimp only at hscan
      rw [run] at hscan
      dsimp only at hscan
      generalize runBatches plan _ _ _ _ _ _ = run at hscan
      obtain ⟨outcome, after⟩ := run
      cases outcome with
      | error fault => contradiction
      | ok value =>
          obtain ⟨rfl, -⟩ := Prod.mk.inj (Except.ok.inj hscan)
          rfl

/-- A scan whose tally is known came to an end, with these counts. -/
theorem scanUnder_of_tally {circumstances : Circumstances} {targets : List String} {index : Index}
    {tree : FileTree} {files : List Candidate} {tally : Tally}
    (htally : (scanUnder circumstances targets index tree files).map tallyOf = .ok tally) :
    ∃ stats, scanUnder circumstances targets index tree files = .ok (stats, tally.index) ∧
      stats.total = files.length ∧ stats.scanned = tally.scanned ∧ stats.failed = tally.failed ∧
      stats.found = tally.found := by
  cases hscan : scanUnder circumstances targets index tree files with
  | error fault =>
      rw [hscan] at htally
      contradiction
  | ok outcome =>
      obtain ⟨stats, final⟩ := outcome
      rw [hscan] at htally
      obtain rfl := Except.ok.inj htally
      exact ⟨stats, rfl, total_of_scanUnder hscan, rfl, rfl, rfl⟩

theorem scanUnder_of_fault {circumstances : Circumstances} {targets : List String} {index : Index}
    {tree : FileTree} {files : List Candidate} {fault : Fault}
    (hfault : (scanUnder circumstances targets index tree files).map tallyOf = .error fault) :
    scanUnder circumstances targets index tree files = .error fault := by
  generalize scanUnder circumstances targets index tree files = outcome at hfault ⊢
  cases outcome with
  | error other => exact congrArg Except.error (Except.error.inj hfault)
  | ok found => cases hfault

end Roster.Scan
