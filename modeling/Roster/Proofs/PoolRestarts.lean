import Roster.Proofs.ResourceIndependence

/-! How often a pool is restarted. A batch that loses a unit costs one restart, and so does every file of its lost units
that kills its worker again when it is submitted alone. If faults do not wear off, these are the fatal files of the
batch: the first of them takes down its chunk and all behind it, and no other fatal file lies in front. -/

namespace Roster.Scan

/-- What a batch loses to the deaths of workers: units when they are first submitted, and of their files those that are
lost again, each alone in a pool that works. -/
structure Losses where
  units : List Chunk
  files : List Candidate

section Losses

variable (scan : List String → Except Fault (List FileResult))

/-- Submits files one at a time, each to a pool that works. These are lost, and so much is left of the faults. -/
def lostAlone (faults : WorkerFaults) : List Candidate → List Candidate × WorkerFaults
  | [] => ([], faults)
  | file :: rest =>
      let submitted := submit scan false faults [[file]]
      let later := lostAlone submitted.2 rest
      (if (lostUnits submitted.1).isEmpty then later.1 else file :: later.1, later.2)

/-- Submits the chunks of a batch, and then one by one the files of those that are lost. -/
def lossesIn (plan : Plan) (faults : WorkerFaults) (batch : List Candidate) : Losses × WorkerFaults :=
  let submitted := submit scan false faults (plan.chunks batch)
  let again := lostAlone scan submitted.2 (lostUnits submitted.1).flatten
  (⟨lostUnits submitted.1, again.1⟩, again.2)

/-- The losses of batches in turn. -/
def lossesAlong (plan : Plan) (faults : WorkerFaults) : List (List Candidate) → List Losses
  | [] => []
  | batch :: batches =>
      let first := lossesIn scan plan faults batch
      first.1 :: lossesAlong plan first.2 batches

end Losses

/-- Restarts for the fatal files of batches: one for a batch that has any, and one for each of them. -/
def restartsFor (fatal : Candidate → Bool) : List (List Candidate) → Nat
  | [] => 0
  | batch :: batches =>
      (if batch.any fatal then 1 + batch.countP fatal else 0) + restartsFor fatal batches

section Run

variable {order : MergeOrder} {scan : List String → Except Fault (List FileResult)}
  {progress after : Progress}

/-- Merging ended units changes the tally and nothing else. -/
theorem settle_withTally (progress : Progress) (ends : List (Chunk × UnitEnd)) :
    (settle progress ends).2 = progress.withTally (settle progress ends).2.tally := by
  induction ends generalizing progress with
  | nil => rfl
  | cons unit ends ih =>
      obtain ⟨chunk, how⟩ := unit
      cases how with
      | lost =>
          have hrest := ih progress
          rw [settle]
          generalize settle progress ends = rest at hrest ⊢
          obtain ⟨outcome, last⟩ := rest
          cases outcome with
          | error fault => exact hrest
          | ok lost => exact hrest
      | ended result =>
          cases result with
          | error fault => rfl
          | ok results =>
              rw [settle, ih, Progress.mergeAll_eq]
              rfl

theorem runPooled_eq_ok {chunks given : List Chunk}
    (hrun : runPooled order scan progress chunks = (.ok given, after)) :
    given = lostUnits (submit scan false progress.faults chunks).1 ∧
      after.faults = (submit scan false progress.faults chunks).2 ∧
      after.restarts = progress.restarts := by
  rw [runPooled] at hrun
  generalize submit scan false progress.faults chunks = submitted at hrun ⊢
  obtain ⟨ends, left⟩ := submitted
  dsimp only at hrun ⊢
  have hkept := settle_withTally { progress with faults := left } (order.arrange progress.batches ends)
  generalize settle _ (order.arrange progress.batches ends) = settled at hkept hrun
  obtain ⟨outcome, last⟩ := settled
  dsimp only at hkept
  cases outcome with
  | error fault => cases hrun
  | ok lost =>
      cases hrun
      rw [hkept]
      exact ⟨rfl, rfl, rfl⟩

/-- Each file that is lost alone costs a restart. -/
theorem retry_eq_ok {files : List Candidate} (hretry : retry order scan progress files = (.ok (), after)) :
    after.faults = (lostAlone scan progress.faults files).2 ∧
      after.restarts = progress.restarts + (lostAlone scan progress.faults files).1.length := by
  induction files generalizing progress with
  | nil =>
      rw [retry] at hretry
      cases hretry
      exact ⟨rfl, rfl⟩
  | cons file rest ih =>
      rw [retry] at hretry
      rw [lostAlone]
      dsimp only
      cases hrun : runPooled order scan progress [[file]] with
      | mk outcome between =>
          rw [hrun] at hretry
          cases outcome with
          | error fault => cases hretry
          | ok given =>
              obtain ⟨hgiven, hfaults, hrestarts⟩ := runPooled_eq_ok hrun
              rw [← hgiven, ← hfaults]
              cases given with
              | nil =>
                  obtain ⟨hleft, hcount⟩ := ih hretry
                  refine ⟨hleft, ?_⟩
                  rw [hcount, hrestarts]
                  rfl
              | cons unit units =>
                  obtain ⟨hleft, hcount⟩ := ih hretry
                  refine ⟨hleft, ?_⟩
                  have hgiveUp : (between.giveUp file).restarts = between.restarts + 1 := rfl
                  have hfaultsToo : (between.giveUp file).faults = between.faults := rfl
                  rw [hgiveUp, hfaultsToo, hrestarts] at hcount
                  simp only [List.isEmpty_cons, Bool.false_eq_true, if_false, List.length_cons]
                  omega

def Losses.restarts (losses : Losses) : Nat :=
  (if losses.units.isEmpty then 0 else 1) + losses.files.length

theorem runBatch_eq_ok {plan : Plan} {batch : List Candidate}
    (hrun : runBatch plan order scan true progress batch = (.ok (), after)) :
    after.faults = (lossesIn scan plan progress.faults batch).2 ∧
      after.restarts = progress.restarts + (lossesIn scan plan progress.faults batch).1.restarts := by
  rw [runBatch, if_pos rfl] at hrun
  rw [lossesIn]
  dsimp only
  cases hpooled : runPooled order scan progress (plan.chunks batch) with
  | mk outcome between =>
      rw [hpooled] at hrun
      cases outcome with
      | error fault => cases hrun
      | ok given =>
          obtain ⟨hgiven, hfaults, hrestarts⟩ := runPooled_eq_ok hpooled
          rw [← hgiven, ← hfaults, Losses.restarts]
          cases given with
          | nil =>
              cases hrun
              exact ⟨rfl, hrestarts⟩
          | cons unit units =>
              obtain ⟨hleft, hcount⟩ := retry_eq_ok hrun
              refine ⟨hleft, hcount.trans ?_⟩
              change between.restarts + 1 + _ = progress.restarts + (1 + _)
              rw [hrestarts, Nat.add_assoc]
              rfl

/-- Batch after batch, restarts are counted as the losses say. -/
theorem runBatches_eq_ok {plan : Plan} {progressive : Bool} {batches : List (List Candidate)}
    (hrun : runBatches plan order scan progressive true progress batches = (.ok (), after)) :
    after.restarts = progress.restarts +
      ((lossesAlong scan plan progress.faults batches).countP (!·.units.isEmpty) +
        ((lossesAlong scan plan progress.faults batches).flatMap (·.files)).length) := by
  induction batches generalizing progress with
  | nil =>
      rw [runBatches] at hrun
      cases hrun
      rfl
  | cons batch batches ih =>
      rw [runBatches] at hrun
      cases hbatch : runBatch plan order scan true progress batch with
      | mk outcome between =>
          rw [hbatch] at hrun
          cases outcome with
          | error fault => cases hrun
          | ok value =>
              obtain ⟨hfaults, hrestarts⟩ := runBatch_eq_ok hbatch
              have hlater := ih hrun
              have hkept : (finishBatch plan progressive between).restarts = between.restarts := rfl
              have hkeptFaults : (finishBatch plan progressive between).faults = between.faults := rfl
              rw [hkept, hkeptFaults, hfaults, hrestarts, Losses.restarts] at hlater
              rw [lossesAlong]
              simp only [List.countP_cons, List.flatMap_cons, List.length_append] at hlater ⊢
              rw [hlater]
              cases (lossesIn scan plan progress.faults batch).1.units with
              | nil =>
                  simp only [List.isEmpty_nil, Bool.not_true, if_true, Bool.false_eq_true, if_false]
                  omega
              | cons unit units =>
                  simp only [List.isEmpty_cons, Bool.not_false, if_true, Bool.false_eq_true, if_false]
                  omega

end Run

section Steady

variable {faults : WorkerFaults} (hsteady : faults.once = [])

include hsteady

theorem WorkerFaults.Within.eq_of_steady {left : WorkerFaults} (hwithin : left.Within faults) :
    left = faults := by
  have honce : left.once = [] := by simpa [hsteady] using hwithin.once_sublist
  obtain ⟨always, once⟩ := left
  obtain ⟨always', once'⟩ := faults
  dsimp only at hsteady honce
  obtain rfl : always = always' := hwithin.always_eq
  rw [honce, hsteady]

theorem isFatalFile_of_steady (file : Candidate) :
    faults.isFatalFile file = faults.alwaysFatal (toString file.path) := by
  rw [WorkerFaults.isFatalFile, WorkerFaults.isFatal, hsteady, List.any_nil, Bool.or_false]

variable (scan : List String → Except Fault (List FileResult))

/-- Faults that do not wear off: of chunks submitted, those from the first with a fatal file on are lost. -/
theorem submit_of_steady (chunks : List Chunk) :
    ∃ done lost : List Chunk, chunks = done ++ lost ∧
      lostUnits (submit scan false faults chunks).1 = lost ∧
      (submit scan false faults chunks).2 = faults ∧
      (∀ chunk ∈ done, chunk.any faults.isFatalFile = false) ∧
      ∀ chunk ∈ lost.head?, chunk.any faults.isFatalFile = true := by
  obtain ⟨done, lost, hchunks, hends, hspared, hfatal, hwithin⟩ := submit_spec scan faults chunks
  refine ⟨done, lost, hchunks, ?_, hwithin.eq_of_steady hsteady, hspared, hfatal⟩
  rw [hends]
  exact lostUnits_split (fun chunk => scan (Chunk.paths chunk)) done lost

theorem lostAlone_of_steady (files : List Candidate) :
    lostAlone scan faults files = (files.filter faults.isFatalFile, faults) := by
  induction files with
  | nil => rfl
  | cons file rest ih =>
      obtain ⟨done, lost, hchunks, hlost, hleft, hspared, hfatal⟩ :=
        submit_of_steady hsteady scan [[file]]
      rw [lostAlone, hleft, hlost, ih, List.filter_cons]
      rcases List.singleton_eq_append_iff.mp hchunks with ⟨rfl, rfl⟩ | ⟨rfl, rfl⟩
      · have hfile : faults.isFatalFile file = true := by simpa using hfatal [file] rfl
        rw [hfile]
        rfl
      · have hfile : faults.isFatalFile file = false := by simpa using hspared [file] (by simp)
        rw [hfile]
        rfl

/-- Every fatal file of a batch lies in a chunk that is lost, and is lost again on its own; no other is. -/
theorem lossesIn_of_steady (plan : Plan) (batch : List Candidate) :
    ∃ lost : List Chunk,
      lossesIn scan plan faults batch = (⟨lost, batch.filter faults.isFatalFile⟩, faults) ∧
      lost.isEmpty = !batch.any faults.isFatalFile := by
  obtain ⟨done, lost, hchunks, hlost, hleft, hspared, hfatal⟩ :=
    submit_of_steady hsteady scan (plan.chunks batch)
  have hbatch : batch = done.flatten ++ lost.flatten := by
    rw [← List.flatten_append, ← hchunks, plan.flatten_chunks]
  have hnone : done.flatten.any faults.isFatalFile = false := by
    rw [List.any_eq_false]
    intro file hfile
    obtain ⟨chunk, hchunk, hmem⟩ := List.mem_flatten.mp hfile
    exact List.any_eq_false.mp (hspared chunk hchunk) file hmem
  refine ⟨lost, ?_, ?_⟩
  · have hfilter : done.flatten.filter faults.isFatalFile = [] := by
      rw [List.filter_eq_nil_iff]
      exact List.any_eq_false.mp hnone
    rw [lossesIn, hleft, hlost, lostAlone_of_steady hsteady, hbatch, List.filter_append, hfilter,
      List.nil_append]
  · rw [hbatch, List.any_append, hnone, Bool.false_or]
    cases lost with
    | nil => rfl
    | cons first others =>
        have hfirst : first.any faults.isFatalFile = true := hfatal first rfl
        rw [List.flatten_cons, List.any_append, hfirst]
        rfl

theorem restarts_of_steady (plan : Plan) (batches : List (List Candidate)) :
    (lossesAlong scan plan faults batches).countP (!·.units.isEmpty) +
        ((lossesAlong scan plan faults batches).flatMap (·.files)).length =
      restartsFor (fun file => faults.alwaysFatal (toString file.path)) batches := by
  have hfatal : faults.isFatalFile = fun file => faults.alwaysFatal (toString file.path) :=
    funext (isFatalFile_of_steady hsteady)
  rw [← hfatal]
  induction batches with
  | nil => rfl
  | cons batch batches ih =>
      obtain ⟨lost, hlosses, hempty⟩ := lossesIn_of_steady hsteady scan plan batch
      rw [lossesAlong, hlosses]
      dsimp only
      rw [restartsFor, List.countP_cons, List.flatMap_cons, List.length_append, hempty, ← ih,
        ← List.countP_eq_length_filter, Bool.not_not]
      split_ifs with hany
      · omega
      · have hzero : batch.countP faults.isFatalFile = 0 := by
          rw [List.countP_eq_zero]
          simpa using hany
        omega

end Steady

section Scan

variable [Syntax.Parser] {circumstances : Circumstances} {targets : List String} {index final : Index} {tree : FileTree}
  {files : List Candidate}

theorem restarts_of_scanUnder {plan : Plan} {stats : Stats}
    (hplan : Plan.make targets circumstances.profile circumstances.batchSize
      circumstances.progressive = .ok plan)
    (hpool : plan.usesPool (plan.isProgressive circumstances.platform files.length) = true)
    (hscan : scanUnder circumstances targets index tree files = .ok (stats, final)) :
    let losses := lossesAlong (scanChunk plan.targets tree) plan circumstances.faults (plan.batches files)
    stats.restarts = losses.countP (!·.units.isEmpty) + (losses.flatMap (·.files)).length := by
  rw [scanUnder, hplan] at hscan
  dsimp only at hscan
  rw [run, hpool] at hscan
  dsimp only at hscan
  split at hscan
  · next counted after hrun =>
      cases hscan
      split at hrun
      · next last hbatches =>
          cases hrun
          have hrestarts := runBatches_eq_ok hbatches
          simpa [Progress.note, start, statsOf] using hrestarts
      · cases hrun
  · cases hscan

theorem scanUnder_eq_ok (hsome : targets ≠ []) (hnamed : "" ∉ targets)
    (hnull : ∀ file ∈ files, '\x00' ∉ (toString file.path).toList) (circumstances : Circumstances)
    (index : Index) (tree : FileTree) :
    ∃ stats final, scanUnder circumstances targets index tree files = .ok (stats, final) := by
  obtain ⟨pooled, fates, arranged, -, hfiles, -, hperm, -, htally⟩ :=
    scanUnder_accounts hsome hnamed circumstances index tree files
  have hkept : ∀ file ∈ (arranged.filter (!·.lost)).map Fate.file, file ∈ files := by
    intro file hfile
    obtain ⟨fate, hfate, rfl⟩ := List.mem_map.mp hfile
    rw [← hfiles]
    exact List.mem_map_of_mem (hperm.mem_iff.mp (List.mem_of_mem_filter hfate))
  obtain ⟨results, hresults⟩ :=
    scanEach_eq_ok hsome hnamed tree fun file hfile => hnull file (hkept file hfile)
  rw [sequentially, hresults] at htally
  obtain ⟨stats, hscan, -⟩ := scanUnder_of_tally htally
  exact ⟨stats, _, hscan⟩

/-- With faults that do not wear off, restarts are told by the batches, and these by their size. -/
theorem restarts_of_steady_scan {stats : Stats}
    (hpools : circumstances.Pools targets files) (hsteady : circumstances.faults.once = [])
    (hscan : scanUnder circumstances targets index tree files = .ok (stats, final)) :
    stats.restarts = restartsFor (fun file => circumstances.faults.alwaysFatal (toString file.path))
      (cut (max 1 (Plan.batchSizeFor circumstances.profile circumstances.batchSize)).toNat files) := by
  obtain ⟨plan, hplan, hpool⟩ := hpools
  have hbatches : cut (max 1 (Plan.batchSizeFor circumstances.profile circumstances.batchSize)).toNat files =
      plan.batches files := by
    rw [Plan.batches, (Plan.sizes_of_make hplan).2.2]
  rw [hbatches, ← restarts_of_steady hsteady (scanChunk plan.targets tree) plan]
  exact restarts_of_scanUnder hplan hpool hscan

end Scan

/-- A scan in a pool, workers dying as they may: there is one restart for each batch that lost a unit when its chunks
were submitted, and one for each file that was lost again alone. With faults that do not wear off, a batch without a
fatal file has no restart, and another has one more than it has fatal files; so concurrency and chunks make no
difference, nor does what the files hold or the order in which units are taken in. The scan comes to an end unless a path names no file. -/
theorem restarts_told_by_losses [Syntax.Parser] (circumstances : Circumstances) (targets : List String)
    (index : Index) (tree : FileTree) (files : List Candidate) (hpools : circumstances.Pools targets files) :
    ∃ plan, Plan.make targets circumstances.profile circumstances.batchSize
        circumstances.progressive = .ok plan ∧
      (∀ stats final, scanUnder circumstances targets index tree files = .ok (stats, final) →
        let losses := lossesAlong (scanChunk targets tree) plan circumstances.faults (plan.batches files)
        stats.restarts = losses.countP (!·.units.isEmpty) + (losses.flatMap (·.files)).length ∧
        (circumstances.faults.once = [] →
          stats.restarts = restartsFor
            (fun file => circumstances.faults.alwaysFatal (toString file.path)) (plan.batches files) ∧
          ∀ (other : Circumstances) (known : Index) (content : FileTree) (stats' : Stats) (final' : Index),
            other.Pools targets files → other.faults = circumstances.faults →
            Plan.batchSizeFor other.profile other.batchSize =
              Plan.batchSizeFor circumstances.profile circumstances.batchSize →
            scanUnder other targets known content files = .ok (stats', final') →
            stats'.restarts = stats.restarts)) ∧
      ("" ∉ targets → (∀ file ∈ files, '\x00' ∉ (toString file.path).toList) →
        ∃ stats final, scanUnder circumstances targets index tree files = .ok (stats, final)) := by
  have hpooled := hpools
  obtain ⟨plan, hplan, hpool⟩ := hpools
  obtain ⟨hsome, htargets, hsize⟩ := Plan.sizes_of_make hplan
  refine ⟨plan, hplan, ?_, ?_⟩
  · intro stats final hscan losses
    have hrestarts := restarts_of_scanUnder hplan hpool hscan
    rw [htargets] at hrestarts
    refine ⟨hrestarts, fun hsteady => ?_⟩
    have hsum := restarts_of_steady_scan hpooled hsteady hscan
    refine ⟨?_, ?_⟩
    · rw [hsum, Plan.batches, hsize]
    · intro other known content stats' final' hother hfaults hsameSize hscan'
      have hsum' := restarts_of_steady_scan hother (hfaults ▸ hsteady) hscan'
      rw [hsum', hsum, hfaults, hsameSize]
  · intro hnamed hnull
    exact scanUnder_eq_ok hsome hnamed hnull circumstances index tree

theorem chunks_singleton (plan : Plan) (file : Candidate) : plan.chunks [file] = [[file]] := by
  simp [Plan.chunks, cut]

theorem restarts_of_twoFiles_with_deaths :
    (poolHost { always := ["B.php"], once := ["A.php"] }).Pools ["I"] twoFiles ∧
    (poolHost { always := ["B.php"] }).Pools ["I"] twoFiles ∧
    (∃ stats final, scanUnder (poolHost { always := ["B.php"], once := ["A.php"] }) ["I"] {} loneClass
      twoFiles = .ok (stats, final) ∧ stats.restarts = 3) ∧
    ∃ stats final, scanUnder (poolHost { always := ["B.php"] }) ["I"] {} loneClass twoFiles =
      .ok (stats, final) ∧ stats.restarts = 2 := by
  have hnull : ∀ file ∈ twoFiles, '\x00' ∉ (toString file.path).toList := by decide
  have hbatches {faults : WorkerFaults} {plan : Plan}
      (hplan : Plan.make ["I"] (poolHost faults).profile (poolHost faults).batchSize
        (poolHost faults).progressive = .ok plan) :
      plan.batches twoFiles = twoFiles.map fun file => [file] := by
    rw [Plan.batches, (Plan.sizes_of_make hplan).2.2]
    simp [Plan.batchSizeFor, poolHost, twoFiles, cut]
  have hpools (faults : WorkerFaults) := poolHost_pools faults (by decide : ["I"] ≠ []) twoFiles
  refine ⟨hpools _, hpools _, ?_, ?_⟩
  · obtain ⟨plan, hplan, hrestarts, hends⟩ :=
      restarts_told_by_losses _ ["I"] {} loneClass twoFiles (hpools { always := ["B.php"], once := ["A.php"] })
    obtain ⟨stats, final, hscan⟩ := hends (by decide) hnull
    refine ⟨stats, final, hscan, (hrestarts stats final hscan).1.trans ?_⟩
    rw [hbatches hplan]
    simp only [twoFiles, List.map_cons, List.map_nil, lossesAlong, lossesIn, chunks_singleton]
    rfl
  · obtain ⟨plan, hplan, hrestarts, hends⟩ :=
      restarts_told_by_losses _ ["I"] {} loneClass twoFiles (hpools { always := ["B.php"] })
    obtain ⟨stats, final, hscan⟩ := hends (by decide) hnull
    refine ⟨stats, final, hscan, ((hrestarts stats final hscan).2 rfl).1.trans ?_⟩
    rw [hbatches hplan]
    rfl

end Roster.Scan
