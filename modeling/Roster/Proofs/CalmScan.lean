import Roster.Proofs.ScanOutcome

/-! A scan in which no worker dies. A pool then does what its units do one after the other as they are taken in, and
nothing is tried again. So such a scan is known in full: in which order the files are merged follows from its
circumstances, its counts follow from what the files come to one by one, and the faults are what they were. -/

namespace Roster.Scan

/-- No file of a list kills its worker. -/
def WorkerFaults.Spare (faults : WorkerFaults) (files : List Candidate) : Prop :=
  ∀ file ∈ files, faults.isFatal (toString file.path) = false

section Pool

variable (scan : List String → Except Fault (List FileResult))

theorem submit_of_spare {faults : WorkerFaults} {chunks : List Chunk}
    (hspare : ∀ chunk ∈ chunks, faults.Spare chunk) :
    submit scan false faults chunks =
      (chunks.map fun chunk => (chunk, .ended (scan (Chunk.paths chunk))), faults) := by
  induction chunks with
  | nil => rfl
  | cons chunk chunks ih =>
      have hnone : (Chunk.paths chunk).any faults.isFatal = false := by
        rw [any_paths, List.any_eq_false]
        intro file hfile
        rw [WorkerFaults.isFatalFile, hspare chunk List.mem_cons_self file hfile]
        exact Bool.false_ne_true
      obtain ⟨hfatal, -, hkept⟩ := faults.strike_spec (Chunk.paths chunk)
      have hstrike : faults.strike (Chunk.paths chunk) = (false, faults) :=
        Prod.ext (hfatal.trans hnone) (hkept hnone)
      rw [submit, if_neg Bool.false_ne_true, hstrike]
      dsimp only
      rw [ih fun later hlater => hspare later (List.mem_cons_of_mem _ hlater)]
      rfl

/-- Units that all ended are merged as if they had run one after the other. -/
theorem settle_ended (progress : Progress) (chunks : List Chunk) :
    settle progress (chunks.map fun chunk => (chunk, .ended (scan (Chunk.paths chunk)))) =
      ((runInline scan progress chunks).1.map fun _ => [], (runInline scan progress chunks).2) := by
  induction chunks generalizing progress with
  | nil => rfl
  | cons chunk chunks ih =>
      rw [List.map_cons, runInline]
      cases scan (Chunk.paths chunk) with
      | error fault => rfl
      | ok results =>
          rw [settle]
          exact ih _

/-- Units that run one after the other change the tally and nothing else. -/
theorem runInline_withTally (progress : Progress) (chunks : List Chunk) :
    (runInline scan progress chunks).2 =
      progress.withTally (runInline scan progress chunks).2.tally := by
  induction chunks generalizing progress with
  | nil => rfl
  | cons chunk chunks ih =>
      rw [runInline]
      cases scan (Chunk.paths chunk) with
      | error fault => rfl
      | ok results =>
          dsimp only
          rw [ih, Progress.mergeAll_eq]
          rfl

/-- The order in which a run takes its units in. -/
def effectiveOrder (pooled : Bool) (order : MergeOrder) : MergeOrder :=
  if pooled then order else .submission

theorem runBatch_of_spare (plan : Plan) (order : MergeOrder) (pooled : Bool) {progress : Progress}
    {batch : List Candidate} (hspare : pooled = true → progress.faults.Spare batch) :
    runBatch plan order scan pooled progress batch =
      runInline scan progress
        ((effectiveOrder pooled order).arrange progress.batches (plan.chunks batch)) := by
  cases pooled with
  | false =>
      rw [effectiveOrder, if_neg Bool.false_ne_true, MergeOrder.arrange_submission]
      rfl
  | true =>
      have hchunks : ∀ chunk ∈ plan.chunks batch, progress.faults.Spare chunk := by
        intro chunk hchunk file hfile
        apply hspare rfl
        rw [← plan.flatten_chunks batch]
        exact List.mem_flatten_of_mem hchunk hfile
      have hnone : lostUnits ((plan.chunks batch).map fun chunk =>
          (chunk, .ended (scan (Chunk.paths chunk)))) = [] := by
        simpa using lostUnits_split (fun chunk => scan (Chunk.paths chunk)) (plan.chunks batch) []
      rw [runBatch, if_pos rfl, runPooled, submit_of_spare scan hchunks]
      dsimp only
      rw [MergeOrder.arrange_map, settle_ended, hnone, effectiveOrder, if_pos rfl]
      generalize runInline scan progress _ = run
      obtain ⟨outcome, after⟩ := run
      cases outcome with
      | error fault => rfl
      | ok value => rfl

end Pool

section HandedOver

variable (order : MergeOrder) {split : List Candidate → List Chunk}

/-- The files of batches as they are merged, the batches counted on from a number. -/
def handedOver (split : List Candidate → List Chunk) (number : Nat) :
    List (List Candidate) → List Candidate
  | [] => []
  | batch :: batches =>
      (order.arrange number (split batch)).flatten ++ handedOver split (number + 1) batches

theorem handedOver_perm (hsplit : ∀ batch, (split batch).flatten = batch) (number : Nat)
    (batches : List (List Candidate)) :
    (handedOver order split number batches).Perm batches.flatten := by
  induction batches generalizing number with
  | nil => exact .refl _
  | cons batch batches ih =>
      have hbatch := (order.arrange_perm number (split batch)).flatten
      rw [hsplit] at hbatch
      exact hbatch.append (ih (number + 1))

theorem handedOver_submission (hsplit : ∀ batch, (split batch).flatten = batch) (number : Nat)
    (batches : List (List Candidate)) :
    handedOver .submission split number batches = batches.flatten := by
  induction batches generalizing number with
  | nil => rfl
  | cons batch batches ih =>
      rw [handedOver, MergeOrder.arrange_submission, hsplit, ih, List.flatten_cons]

end HandedOver

section Batches

variable {one : Candidate → Except Fault FileResult}
  {scan : List String → Except Fault (List FileResult)}

/-- The progress once some batches have come to a tally without a restart of the pool. -/
def closed (plan : Plan) (progressive : Bool) (progress : Progress) (batches : Nat) (tally : Tally) :
    Progress :=
  { progress.withTally tally with
    batches := progress.batches + batches
    reclaims := progress.reclaims + batches * if plan.reclaims progressive then 1 else 0 }

theorem closed_finishBatch (plan : Plan) (progressive : Bool) (progress : Progress) (batches : Nat)
    (between tally : Tally) :
    closed plan progressive (finishBatch plan progressive (progress.withTally between)) batches tally =
      closed plan progressive progress (batches + 1) tally := by
  simp only [closed, finishBatch, Progress.withTally, Progress.mk.injEq, true_and, and_true]
  constructor
  · omega
  · rw [Nat.add_mul]
    omega

/-- Without deaths, batches come to what their files come to as they are handed over. -/
theorem runBatches_of_spare (hscan : ∀ chunk : Chunk, scan (Chunk.paths chunk) = chunk.mapM one)
    (plan : Plan) (order : MergeOrder) (progressive pooled : Bool) (progress : Progress)
    {batches : List (List Candidate)}
    (hspare : pooled = true → progress.faults.Spare batches.flatten) :
    Ends one progress
        ((handedOver (effectiveOrder pooled order) plan.chunks progress.batches batches).map Fate.kept)
        (runBatches plan order scan progressive pooled progress batches) ∧
      ∀ after, runBatches plan order scan progressive pooled progress batches = (.ok (), after) →
        after = closed plan progressive progress batches.length after.tally := by
  induction batches generalizing progress with
  | nil =>
      refine ⟨rfl, fun after hafter => ?_⟩
      obtain rfl : progress = after := congrArg Prod.snd hafter
      rw [closed, List.length_nil, Nat.zero_mul]
      rfl
  | cons batch batches ih =>
      have hbatch : pooled = true → progress.faults.Spare batch :=
        fun hpooled file hfile => hspare hpooled file (by simp [hfile])
      rw [runBatches, runBatch_of_spare scan plan order pooled hbatch, handedOver, List.map_append]
      generalize (effectiveOrder pooled order).arrange progress.batches (plan.chunks batch) = chunks
      have heq := runInline_withTally scan progress chunks
      obtain ⟨-, hends⟩ := runInline_spec hscan progress chunks
      generalize runInline scan progress chunks = first at heq hends ⊢
      obtain ⟨outcome, between⟩ := first
      dsimp only at heq
      cases outcome with
      | error fault =>
          refine ⟨hends.then (fun value h => ?_) fun _ h => ?_, fun after hafter => ?_⟩
          · cases h
          · rw [← Except.error.inj h]
          · cases hafter
      | ok value =>
          dsimp only
          have hfaults : between.faults = progress.faults := by
            rw [heq]
            rfl
          have hnext : (finishBatch plan progressive between).batches = progress.batches + 1 := by
            rw [heq]
            rfl
          have hspareLater : pooled = true →
              (finishBatch plan progressive between).faults.Spare batches.flatten := by
            intro hpooled file hfile
            change between.faults.isFatal _ = false
            rw [hfaults]
            exact hspare hpooled file (by simp [hfile])
          obtain ⟨hrest, hclosed⟩ := ih _ hspareLater
          rw [hnext] at hrest
          refine ⟨hends.then (fun _ _ => ⟨_, rfl, hrest⟩) fun fault h => ?_, fun after hafter => ?_⟩
          · cases h
          · have hafter := hclosed after hafter
            rwa [heq, closed_finishBatch] at hafter

end Batches

/-- The files of a scan without deaths in the order in which they are merged. -/
def Plan.taken (plan : Plan) (order : MergeOrder) (platform : String) (files : List Candidate) :
    List Candidate :=
  let pooled := plan.usesPool (plan.isProgressive platform files.length)
  handedOver (effectiveOrder pooled order) plan.chunks 0 (plan.batches files)

theorem Plan.taken_perm (plan : Plan) (order : MergeOrder) (platform : String)
    (files : List Candidate) : (plan.taken order platform files).Perm files := by
  have hperm := handedOver_perm
    (effectiveOrder (plan.usesPool (plan.isProgressive platform files.length)) order)
    plan.flatten_chunks 0 (plan.batches files)
  rwa [plan.flatten_batches] at hperm

theorem Plan.taken_eq (plan : Plan) {order : MergeOrder} {platform : String} {files : List Candidate}
    (hinOrder : plan.usesPool (plan.isProgressive platform files.length) = true →
      order = .submission) : plan.taken order platform files = files := by
  have heffective : effectiveOrder (plan.usesPool (plan.isProgressive platform files.length)) order =
      .submission := by
    rw [effectiveOrder]
    split_ifs with hpool
    · exact hinOrder hpool
    · rfl
  rw [taken, heffective]
  exact (handedOver_submission plan.flatten_chunks 0 _).trans (plan.flatten_batches files)

/-- The counts of a scan without deaths. -/
def Plan.countsOf (plan : Plan) (platform : String) (elapsed : Float) (files : List Candidate)
    (tally : Tally) : Stats where
  total := files.length
  scanned := tally.scanned
  failed := tally.failed
  found := tally.found
  batches := (plan.batches files).length
  batchSize := plan.batchSize
  concurrency := plan.concurrency
  progressive := plan.isProgressive platform files.length
  parallel := plan.usesPool (plan.isProgressive platform files.length)
  reclaims := (plan.batches files).length *
    if plan.reclaims (plan.isProgressive platform files.length) then 1 else 0
  restarts := 0
  elapsed := elapsed

namespace Circumstances

variable (circumstances : Circumstances)

/-- The plan of a scan for targets. -/
def plan (targets : List String) : Plan where
  targets := targets
  profile := circumstances.profile
  batchSize := (circumstances.batchSize.filter (· ≠ 0)).getD circumstances.profile.batchSize
  concurrency := circumstances.profile.concurrency
  progressive := circumstances.progressive

/-- The order in which files are merged when no worker dies; what is looked for has no part in it. -/
def taken (files : List Candidate) : List Candidate :=
  (circumstances.plan []).taken circumstances.order circumstances.platform files

theorem taken_perm (files : List Candidate) : (circumstances.taken files).Perm files :=
  (circumstances.plan []).taken_perm circumstances.order circumstances.platform files

variable {targets : List String} {files : List Candidate}

theorem make_plan (hsome : targets ≠ []) :
    Plan.make targets circumstances.profile circumstances.batchSize circumstances.progressive =
      .ok (circumstances.plan targets) :=
  if_neg (by simpa using hsome)

variable {circumstances}

theorem pools_iff (hsome : targets ≠ []) :
    circumstances.Pools targets files ↔
      (circumstances.plan targets).usesPool
        ((circumstances.plan targets).isProgressive circumstances.platform files.length) = true := by
  constructor
  · rintro ⟨plan, hplan, hpool⟩
    obtain rfl := Except.ok.inj ((circumstances.make_plan hsome).symm.trans hplan)
    exact hpool
  · exact fun hpool => ⟨_, circumstances.make_plan hsome, hpool⟩

theorem taken_eq (hsome : targets ≠ []) (hinOrder : circumstances.InOrder targets files) :
    circumstances.taken files = files :=
  (circumstances.plan targets).taken_eq fun hpool => hinOrder ((pools_iff hsome).mpr hpool)

end Circumstances

variable [Syntax.Parser]

/-- Files that are all kept come to what they come to one by one. -/
theorem account_map_kept (targets : List String) (index : Index) (tree : FileTree)
    (files : List Candidate) :
    account (fun file => scanFile targets tree (toString file.path))
        ⟨index.ensureAll targets, 0, 0, 0⟩ (files.map Fate.kept) =
      sequentially targets index tree files := by
  refine (account_kept _ { index := index.ensureAll targets } files).trans ?_
  rw [sequentially, scanEach]
  refine congrArg (Except.map · _) (funext fun results => ?_)
  rw [Progress.mergeAll_eq]
  exact (Tally.foldl_merge_start _ results).trans (by rw [Index.size_ensureAll])

section Run

variable (plan : Plan) (order : MergeOrder) {platform : String} (elapsed : Float) (tree : FileTree)
  (index : Index) {faults : WorkerFaults} {files : List Candidate} (hnamed : "" ∉ plan.targets)
  (hspare : plan.usesPool (plan.isProgressive platform files.length) = true → faults.Spare files)

include hnamed hspare

/-- A scan without deaths comes to what its files come to one by one, as they are taken in. -/
theorem run_of_spare :
    (∀ fault, sequentially plan.targets index tree (plan.taken order platform files) = .error fault →
      ∃ after, run plan order platform elapsed tree (start plan index faults) files =
        (.error fault, after)) ∧
    ∀ tally, sequentially plan.targets index tree (plan.taken order platform files) = .ok tally →
      ∃ after, run plan order platform elapsed tree (start plan index faults) files =
          (.ok (plan.countsOf platform elapsed files tally), after) ∧
        after.index = tally.index ∧ after.faults = faults := by
  have hflat := plan.flatten_batches files
  unfold run Plan.taken Plan.countsOf
  dsimp only
  generalize plan.isProgressive platform files.length = progressive at hspare ⊢
  generalize (if progressive = true then Notice.progressiveScan plan.batchSize
    else .scanStarted files.length plan.batchSize plan.concurrency (plan.usesPool progressive)) = opening
  obtain ⟨hends, hclosed⟩ := runBatches_of_spare (scanChunk_paths hnamed tree) plan order progressive
    (plan.usesPool progressive) ((start plan index faults).note opening) (hflat.symm ▸ hspare)
  have htally := hends.trans (account_map_kept plan.targets index tree _)
  change _ = sequentially plan.targets index tree (handedOver _ plan.chunks 0 (plan.batches files)) at htally
  rw [← htally]
  generalize runBatches plan order _ progressive _ _ _ = ended at hclosed ⊢
  obtain ⟨outcome, after⟩ := ended
  cases outcome with
  | error fault =>
      exact ⟨fun _ h => ⟨after, congrArg (Except.error ·, after) (Except.error.inj h)⟩, nofun⟩
  | ok value =>
      refine ⟨nofun, fun tally htally => ?_⟩
      obtain rfl : after.tally = tally := Except.ok.inj htally
      have hafter := hclosed after rfl
      have hbatches : after.batches = (plan.batches files).length := by
        rw [hafter]
        exact Nat.zero_add _
      have hreclaims : after.reclaims =
          (plan.batches files).length * if plan.reclaims progressive then 1 else 0 := by
        rw [hafter]
        exact Nat.zero_add _
      have hrestarts : after.restarts = 0 := by
        rw [hafter]
        rfl
      have hfaults : after.faults = faults := by
        rw [hafter]
        rfl
      refine ⟨_, congrArg (fun stats => (Except.ok stats, after.note (completion stats))) ?_, rfl, hfaults⟩
      rw [statsOf, hbatches, hreclaims, hrestarts]
      rfl

end Run

/-- A scan without deaths, with all its counts. -/
theorem scanUnder_calm {targets : List String} (hsome : targets ≠ []) (hnamed : "" ∉ targets)
    {circumstances : Circumstances} {files : List Candidate}
    (hfree : circumstances.CrashFree targets files) (index : Index) (tree : FileTree) :
    scanUnder circumstances targets index tree files =
      (sequentially targets index tree (circumstances.taken files)).map fun tally =>
        ((circumstances.plan targets).countsOf circumstances.platform circumstances.elapsed files tally,
          tally.index) := by
  obtain ⟨herror, hok⟩ := run_of_spare (circumstances.plan targets) circumstances.order
    circumstances.elapsed tree index hnamed fun hpool =>
      hfree ((Circumstances.pools_iff hsome).mpr hpool)
  rw [scanUnder, circumstances.make_plan hsome]
  dsimp only
  cases hscan : sequentially targets index tree (circumstances.taken files) with
  | error fault =>
      obtain ⟨after, hrun⟩ := herror fault hscan
      rw [hrun]
      rfl
  | ok tally =>
      obtain ⟨after, hrun, hindex, -⟩ := hok tally hscan
      rw [hrun]
      exact congrArg (fun final => Except.ok (_, final)) hindex

end Roster.Scan
