import Roster.Proofs.Batching
import Roster.Proofs.WorkerDeath
import Roster.Scan.Run

/-! Accounting for a scan. Each file has a fate: its result is merged, or it is given up with its worker. A run, cut
into batches and chunks and retried as it may be, comes to what the fates of its files come to, one file after the
other. The order is that in which the files were given, unless a pool takes its units in in another one. -/

namespace Roster.Scan

/-- What a scan has come to, the index and the counts of files and matches. -/
@[ext]
structure Tally where
  index : Index
  scanned : Nat
  failed : Nat
  found : Nat

namespace Tally

def merge (tally : Tally) (result : FileResult) : Tally :=
  match result.outcome with
  | .error _ => { tally with failed := tally.failed + 1 }
  | .ok found =>
      { index := tally.index.merge found
        scanned := tally.scanned + 1
        failed := tally.failed
        found := tally.found + found.length }

/-- A number of files is given up. -/
def lose (tally : Tally) (files : Nat) : Tally :=
  { tally with failed := tally.failed + files }

end Tally

def Progress.tally (progress : Progress) : Tally :=
  ⟨progress.index, progress.scanned, progress.failed, progress.found⟩

/-- The same progress with another tally. -/
def Progress.withTally (progress : Progress) (tally : Tally) : Progress :=
  { progress with
    index := tally.index
    scanned := tally.scanned
    failed := tally.failed
    found := tally.found }

theorem Progress.merge_eq (progress : Progress) (result : FileResult) :
    progress.merge result = progress.withTally (progress.tally.merge result) := by
  rw [merge, Tally.merge]
  cases result.outcome with
  | error failure => rfl
  | ok found => rfl

theorem Progress.tally_merge (progress : Progress) (result : FileResult) :
    (progress.merge result).tally = progress.tally.merge result := by
  rw [merge_eq]
  rfl

/-- Merging results changes the tally and nothing else. -/
theorem Progress.mergeAll_eq (progress : Progress) (results : List FileResult) :
    progress.mergeAll results = progress.withTally (results.foldl Tally.merge progress.tally) := by
  induction results generalizing progress with
  | nil => rfl
  | cons result results ih =>
      change (progress.merge result).mergeAll results = _
      rw [ih, tally_merge, merge_eq]
      rfl

theorem Progress.faults_mergeAll (progress : Progress) (results : List FileResult) :
    (progress.mergeAll results).faults = progress.faults := by
  rw [mergeAll_eq]
  rfl

/-- What becomes of a file. -/
structure Fate where
  file : Candidate
  lost : Bool

namespace Fate

def kept (file : Candidate) : Fate := ⟨file, false⟩

theorem map_file_kept (files : List Candidate) : (files.map kept).map file = files := by
  rw [List.map_map]
  exact List.map_id'' (fun _ => rfl) files

/-- Only a pool loses files, only fatal ones, and always those that are fatal every time. -/
structure Fair (pooled : Bool) (faults : WorkerFaults) (fate : Fate) : Prop where
  fatal_of_lost : fate.lost = true → pooled = true ∧ faults.isFatalFile fate.file = true
  lost_of_alwaysFatal : pooled = true →
    faults.alwaysFatal (toString fate.file.path) = true → fate.lost = true

theorem Fair.of_within {pooled : Bool} {left faults : WorkerFaults} {fate : Fate}
    (hfair : Fair pooled left fate) (hwithin : left.Within faults) : Fair pooled faults fate where
  fatal_of_lost hlost := ⟨(hfair.fatal_of_lost hlost).1,
    hwithin.isFatal (hfair.fatal_of_lost hlost).2⟩
  lost_of_alwaysFatal hpooled halways :=
    hfair.lost_of_alwaysFatal hpooled (hwithin.alwaysFatal_eq _ ▸ halways)

theorem fair_kept_inline (faults : WorkerFaults) (file : Candidate) :
    Fair false faults (kept file) :=
  ⟨nofun, nofun⟩

theorem fair_kept_spared {faults : WorkerFaults} {file : Candidate}
    (hspared : faults.isFatalFile file = false) (pooled : Bool) :
    Fair pooled faults (kept file) := by
  refine ⟨nofun, fun _ halways => ?_⟩
  have hfatal : faults.isFatalFile file = true := WorkerFaults.isFatal_of_alwaysFatal halways
  rw [hspared] at hfatal
  contradiction

theorem fair_lost {faults : WorkerFaults} {file : Candidate}
    (hfatal : faults.isFatalFile file = true) : Fair true faults ⟨file, true⟩ :=
  ⟨fun _ => ⟨rfl, hfatal⟩, fun _ _ => rfl⟩

/-- Files that are not reached could have had a fair fate too. -/
theorem exists_fair (pooled : Bool) (faults : WorkerFaults) (files : List Candidate) :
    ∃ fates : List Fate, fates.map file = files ∧ ∀ fate ∈ fates, Fair pooled faults fate := by
  refine ⟨files.map fun file => ⟨file, pooled && faults.isFatalFile file⟩, ?_, ?_⟩
  · rw [List.map_map]
    exact List.map_id'' (fun _ => rfl) files
  · intro fate hfate
    obtain ⟨file, -, rfl⟩ := List.mem_map.mp hfate
    refine ⟨fun hlost => by simpa using hlost, fun hpooled halways => ?_⟩
    have hfatal : faults.isFatalFile file = true := WorkerFaults.isFatal_of_alwaysFatal halways
    rw [hpooled, hfatal, Bool.and_self]

end Fate

section Account

variable (one : Candidate → Except Fault FileResult)

/-- What files come to by their fates, in order. A file that is not lost has to give a result. -/
def account (tally : Tally) : List Fate → Except Fault Tally
  | [] => .ok tally
  | fate :: rest =>
      if fate.lost then account (tally.lose 1) rest
      else one fate.file >>= fun result => account (tally.merge result) rest

theorem account_append (tally : Tally) (fates more : List Fate) :
    account one tally (fates ++ more) =
      account one tally fates >>= fun after => account one after more := by
  induction fates generalizing tally with
  | nil => rfl
  | cons fate rest ih =>
      rw [List.cons_append, account, account]
      split_ifs
      · exact ih _
      · cases one fate.file with
        | error fault => rfl
        | ok result => exact ih _

/-- The results of a chunk are merged as its files are accounted for. -/
theorem account_kept (progress : Progress) (chunk : List Candidate) :
    account one progress.tally (chunk.map Fate.kept) =
      (chunk.mapM one).map fun results => (progress.mergeAll results).tally := by
  induction chunk generalizing progress with
  | nil => rfl
  | cons file rest ih =>
      rw [List.map_cons, account, if_neg (by simp [Fate.kept]), List.mapM_cons]
      change (one file >>= _) = _
      cases one file with
      | error fault => rfl
      | ok result =>
          change account one (progress.tally.merge result) _ = _
          rw [← Progress.tally_merge, ih]
          cases rest.mapM one with
          | error fault => rfl
          | ok results => rfl

/-- A run that began with some progress ended as the fates say. -/
def Ends {α : Type} (progress : Progress) (fates : List Fate)
    (run : Except Fault α × Progress) : Prop :=
  run.1.map (fun _ => run.2.tally) = account one progress.tally fates

/-- The progress after a chunk. -/
def merged (progress : Progress) : Except Fault (List FileResult) → Except Fault Unit × Progress
  | .ok results => (.ok (), progress.mergeAll results)
  | .error fault => (.error fault, progress)

theorem ends_merged (progress : Progress) (chunk : List Candidate) :
    Ends one progress (chunk.map Fate.kept) (merged progress (chunk.mapM one)) := by
  rw [Ends, account_kept]
  cases chunk.mapM one with
  | error fault => rfl
  | ok results => rfl

theorem faults_merged (progress : Progress) (outcome : Except Fault (List FileResult)) :
    (merged progress outcome).2.faults = progress.faults := by
  cases outcome with
  | error fault => rfl
  | ok results => exact progress.faults_mergeAll results

/-- Files are merged as they were given: there is no pool, or it takes units in as they were submitted. -/
def InOrder (pooled : Bool) (order : MergeOrder) : Prop :=
  pooled = true → order = .submission

/-- A run accounted for some files: their fates are fair, and it ended as these say, in some arrangement. -/
structure Handled {α : Type} (pooled : Bool) (order : MergeOrder) (progress : Progress)
    (files : List Candidate) (run : Except Fault α × Progress) : Prop where
  within : run.2.faults.Within progress.faults
  exists_fates : ∃ fates arranged : List Fate, fates.map Fate.file = files ∧
    (∀ fate ∈ fates, fate.Fair pooled progress.faults) ∧
    arranged.Perm fates ∧ (InOrder pooled order → arranged = fates) ∧ Ends one progress arranged run

theorem handled_of_ends {α : Type} {pooled : Bool} {progress : Progress}
    {run : Except Fault α × Progress} (order : MergeOrder) (fates : List Fate)
    (hwithin : run.2.faults.Within progress.faults)
    (hfair : ∀ fate ∈ fates, fate.Fair pooled progress.faults) (hends : Ends one progress fates run) :
    Handled one pooled order progress (fates.map Fate.file) run :=
  ⟨hwithin, fates, fates, rfl, hfair, .refl _, fun _ => rfl, hends⟩

/-- A file alone in a pool that comes back is lost with its worker. -/
theorem handled_giveUp {progress after : Progress} {file : Candidate} (order : MergeOrder)
    (hfatal : progress.faults.isFatalFile file = true)
    (hwithin : after.faults.Within progress.faults) (htally : after.tally = progress.tally) :
    Handled one true order progress [file] (.ok (), after.giveUp file) := by
  refine handled_of_ends one order [⟨file, true⟩] hwithin ?_ ?_
  · intro fate hfate
    obtain rfl := List.mem_singleton.mp hfate
    exact Fate.fair_lost hfatal
  · change Except.ok (after.tally.lose 1) = Except.ok (progress.tally.lose 1)
    rw [htally]

variable {one}

theorem Ends.then {α β : Type} {progress : Progress} {fates more : List Fate}
    {first : Except Fault α × Progress} {second : Except Fault β × Progress}
    (hfirst : Ends one progress fates first)
    (hok : ∀ value, first.1 = .ok value →
      ∃ between : Progress, between.tally = first.2.tally ∧ Ends one between more second)
    (herror : ∀ fault, first.1 = .error fault → second.1 = .error fault) :
    Ends one progress (fates ++ more) second := by
  rw [Ends, account_append, ← hfirst]
  cases houtcome : first.1 with
  | error fault =>
      rw [herror fault houtcome]
      rfl
  | ok value =>
      obtain ⟨between, htally, hsecond⟩ := hok value houtcome
      rw [hsecond, htally]
      rfl

theorem handled_nil {α : Type} (pooled : Bool) (order : MergeOrder) (progress : Progress) (value : α) :
    Handled one pooled order progress [] (.ok value, progress) :=
  handled_of_ends one order [] (.refl _) nofun rfl

/-- Runs in turn. After a fault nothing more is run, and the files behind it have no part in the outcome. -/
theorem Handled.then {α β : Type} {pooled : Bool} {order : MergeOrder} {progress : Progress}
    {files more : List Candidate} {first : Except Fault α × Progress}
    {second : Except Fault β × Progress} (hfirst : Handled one pooled order progress files first)
    (hok : ∀ value, first.1 = .ok value → ∃ between : Progress, between.tally = first.2.tally ∧
      between.faults = first.2.faults ∧ Handled one pooled order between more second)
    (herror : ∀ fault, first.1 = .error fault → second = (.error fault, first.2)) :
    Handled one pooled order progress (files ++ more) second := by
  obtain ⟨hwithin, fates, arranged, hfiles, hfair, hperm, hsame, hends⟩ := hfirst
  cases houtcome : first.1 with
  | error fault =>
      obtain ⟨others, hothers, hfairOthers⟩ := Fate.exists_fair pooled progress.faults more
      refine ⟨?_, fates ++ others, arranged ++ others, ?_, ?_, hperm.append_right others, ?_, ?_⟩
      · rw [herror fault houtcome]
        exact hwithin
      · rw [List.map_append, hfiles, hothers]
      · intro fate hfate
        exact (List.mem_append.mp hfate).elim (hfair fate) (hfairOthers fate)
      · intro hinOrder
        rw [hsame hinOrder]
      · refine hends.then ?_ fun other h => by rw [herror other h]
        rw [houtcome]
        exact nofun
  | ok value =>
      obtain ⟨between, htally, hfaults, hnext, others, arrangedOthers, hothers, hfairOthers, hpermOthers,
        hsameOthers, hsecond⟩ := hok value houtcome
      rw [hfaults] at hnext hfairOthers
      refine ⟨hnext.trans hwithin, fates ++ others, arranged ++ arrangedOthers, ?_, ?_,
        hperm.append hpermOthers, ?_, ?_⟩
      · rw [List.map_append, hfiles, hothers]
      · intro fate hfate
        rcases List.mem_append.mp hfate with hmem | hmem
        · exact hfair fate hmem
        · exact (hfairOthers fate hmem).of_within hwithin
      · intro hinOrder
        rw [hsame hinOrder, hsameOthers hinOrder]
      · refine hends.then (fun _ _ => ⟨between, htally, hsecond⟩) ?_
        rw [houtcome]
        exact nofun

variable {scan : List String → Except Fault (List FileResult)}
  (hscan : ∀ chunk : Chunk, scan (Chunk.paths chunk) = chunk.mapM one)

include hscan

theorem runInline_spec (progress : Progress) (chunks : List Chunk) :
    (runInline scan progress chunks).2.faults = progress.faults ∧
    Ends one progress (chunks.flatten.map Fate.kept) (runInline scan progress chunks) := by
  induction chunks generalizing progress with
  | nil => exact ⟨rfl, rfl⟩
  | cons chunk chunks ih =>
      have hfirst := ends_merged one progress chunk
      have hfaults := faults_merged progress (chunk.mapM one)
      rw [runInline, hscan, List.flatten_cons, List.map_append]
      cases houtcome : chunk.mapM one with
      | error fault =>
          rw [houtcome] at hfirst
          exact ⟨rfl, hfirst.then nofun fun _ h => h⟩
      | ok results =>
          rw [houtcome] at hfirst hfaults
          obtain ⟨hrest, hends⟩ := ih (progress.mergeAll results)
          exact ⟨hrest.trans hfaults, hfirst.then (fun _ _ => ⟨_, rfl, hends⟩) nofun⟩

/-- Units that ended are merged one after the other, and the lost ones make no difference. -/
theorem settle_spec (progress : Progress) {ends : List (Chunk × UnitEnd)}
    (hended : ∀ unit ∈ ends, ∀ result, unit.2 = .ended result → result = scan (Chunk.paths unit.1)) :
    (settle progress ends).2.faults = progress.faults ∧
    Ends one progress ((endedUnits ends).flatten.map Fate.kept) (settle progress ends) := by
  induction ends generalizing progress with
  | nil => exact ⟨rfl, rfl⟩
  | cons unit ends ih =>
      obtain ⟨chunk, how⟩ := unit
      obtain ⟨hfirst, hlater⟩ := List.forall_mem_cons.mp hended
      cases how with
      | lost =>
          obtain ⟨hfaults, hends⟩ := ih progress hlater
          have hunits : endedUnits ((chunk, .lost) :: ends) = endedUnits ends := rfl
          rw [hunits, settle]
          generalize settle progress ends = settled at hfaults hends ⊢
          obtain ⟨outcome, after⟩ := settled
          cases outcome with
          | error fault => exact ⟨hfaults, hends⟩
          | ok lost => exact ⟨hfaults, hends⟩
      | ended result =>
          obtain rfl : result = scan (Chunk.paths chunk) := hfirst result rfl
          have hmerged := ends_merged one progress chunk
          have hfaults := faults_merged progress (chunk.mapM one)
          have hunits : endedUnits ((chunk, .ended (scan (Chunk.paths chunk))) :: ends) =
            chunk :: endedUnits ends := rfl
          rw [hunits, List.flatten_cons, List.map_append, hscan]
          cases houtcome : chunk.mapM one with
          | error fault =>
              rw [houtcome] at hmerged
              rw [settle]
              exact ⟨rfl, hmerged.then nofun fun _ h => congrArg Except.error (Except.error.inj h)⟩
          | ok results =>
              rw [houtcome] at hmerged hfaults
              rw [settle]
              obtain ⟨hrest, hends⟩ := ih (progress.mergeAll results) hlater
              exact ⟨hrest.trans hfaults, hmerged.then (fun _ _ => ⟨_, rfl, hends⟩) nofun⟩

/-- A pool handles the files of the units that end. Of those it gives back, the first has a fatal file. -/
theorem runPooled_spec (order : MergeOrder) (progress : Progress) (chunks : List Chunk) :
    ∃ done lost : List Chunk, chunks = done ++ lost ∧
      (∀ chunk ∈ lost.head?, chunk.any progress.faults.isFatalFile = true) ∧
      Handled one true order progress done.flatten (runPooled order scan progress chunks) ∧
      ∀ given, (runPooled order scan progress chunks).1 = .ok given → given = lost := by
  obtain ⟨done, lost, hchunks, hsubmit, hspared, hfatal, hwithin⟩ :=
    submit_spec scan progress.faults chunks
  refine ⟨done, lost, hchunks, hfatal, ?_⟩
  rw [runPooled]
  generalize submit scan false progress.faults chunks = submitted at hsubmit hwithin ⊢
  obtain ⟨ends, left⟩ := submitted
  dsimp only at hsubmit hwithin ⊢
  have hperm := order.arrange_perm progress.batches ends
  have hended : ∀ unit ∈ order.arrange progress.batches ends, ∀ result, unit.2 = .ended result →
      result = scan (Chunk.paths unit.1) := by
    intro unit hunit result hresult
    rw [hperm.mem_iff, hsubmit, List.mem_append, List.mem_map, List.mem_map] at hunit
    rcases hunit with ⟨chunk, -, rfl⟩ | ⟨chunk, -, rfl⟩
    · exact (UnitEnd.ended.inj hresult).symm
    · cases hresult
  obtain ⟨hfaults, hends⟩ := settle_spec hscan { progress with faults := left } hended
  have hdone : endedUnits ends = done := hsubmit ▸ endedUnits_split _ done lost
  have hlost : lostUnits ends = lost := hsubmit ▸ lostUnits_split _ done lost
  have hkept := Fate.map_file_kept done.flatten
  have hfates : ((endedUnits (order.arrange progress.batches ends)).flatten.map Fate.kept).Perm
      (done.flatten.map Fate.kept) := by
    rw [← hdone]
    exact ((hperm.filterMap _).flatten).map Fate.kept
  have hsame : InOrder true order →
      (endedUnits (order.arrange progress.batches ends)).flatten.map Fate.kept =
        done.flatten.map Fate.kept := by
    intro hinOrder
    rw [hinOrder rfl, MergeOrder.arrange_submission, hdone]
  have hfair : ∀ fate ∈ done.flatten.map Fate.kept, fate.Fair true progress.faults := by
    intro fate hfate
    obtain ⟨file, hfile, rfl⟩ := List.mem_map.mp hfate
    obtain ⟨chunk, hchunk, hmem⟩ := List.mem_flatten.mp hfile
    have hfile := List.any_eq_false.mp (hspared chunk hchunk) file hmem
    exact Fate.fair_kept_spared (by simpa using hfile) true
  generalize settle { progress with faults := left } (order.arrange progress.batches ends) = settled
    at hfaults hends ⊢
  obtain ⟨outcome, after⟩ := settled
  have hleft : after.faults.Within progress.faults := by
    rw [show after.faults = left from hfaults]
    exact hwithin
  cases outcome with
  | error fault => exact ⟨⟨hleft, _, _, hkept, hfair, hfates, hsame, hends⟩, nofun⟩
  | ok given =>
      refine ⟨⟨hleft, _, _, hkept, hfair, hfates, hsame, hends⟩, ?_⟩
      intro given hgiven
      rw [← Except.ok.inj hgiven, hlost]

theorem retry_spec (order : MergeOrder) (progress : Progress) (files : List Candidate) :
    Handled one true order progress files (retry order scan progress files) := by
  induction files generalizing progress with
  | nil => exact handled_nil true order progress ()
  | cons file rest ih =>
      obtain ⟨done, lost, hchunks, hfatal, hhandled, hgiven⟩ :=
        runPooled_spec hscan order progress [[file]]
      rw [retry]
      generalize runPooled order scan progress [[file]] = pooled at hhandled hgiven ⊢
      obtain ⟨outcome, after⟩ := pooled
      rcases List.singleton_eq_append_iff.mp hchunks with ⟨rfl, rfl⟩ | ⟨rfl, rfl⟩
      · -- the worker died: nothing was merged, and the file is given up
        obtain ⟨hwithin, fates, arranged, hfates, -, hperm, -, hends⟩ := hhandled
        obtain rfl := List.map_eq_nil_iff.mp hfates
        obtain rfl := hperm.eq_nil
        cases outcome with
        | error fault => contradiction
        | ok given =>
            obtain rfl := hgiven given rfl
            have hfile : progress.faults.isFatalFile file = true := by
              simpa using hfatal [file] rfl
            have hlost := handled_giveUp one order hfile hwithin (Except.ok.inj hends)
            exact hlost.then (fun _ _ => ⟨_, rfl, rfl, ih _⟩) nofun
      · cases outcome with
        | error fault => exact hhandled.then nofun fun _ h => by rw [← Except.error.inj h]
        | ok given =>
            obtain rfl := hgiven given rfl
            exact hhandled.then (fun _ _ => ⟨after, rfl, rfl, ih after⟩) nofun

theorem runBatch_spec (plan : Plan) (order : MergeOrder) (pooled : Bool) (progress : Progress)
    (batch : List Candidate) :
    Handled one pooled order progress batch (runBatch plan order scan pooled progress batch) := by
  cases pooled with
  | false =>
      obtain ⟨hfaults, hends⟩ := runInline_spec hscan progress (plan.chunks batch)
      rw [plan.flatten_chunks] at hends
      have hfair : ∀ fate ∈ batch.map Fate.kept, fate.Fair false progress.faults := by
        intro fate hfate
        obtain ⟨file, -, rfl⟩ := List.mem_map.mp hfate
        exact Fate.fair_kept_inline _ file
      have hhandled := handled_of_ends one order _ (hfaults ▸ .refl _) hfair hends
      rwa [Fate.map_file_kept] at hhandled
  | true =>
      obtain ⟨done, lost, hchunks, -, hhandled, hgiven⟩ :=
        runPooled_spec hscan order progress (plan.chunks batch)
      have hbatch : batch = done.flatten ++ lost.flatten := by
        rw [← List.flatten_append, ← hchunks, plan.flatten_chunks]
      rw [runBatch, if_pos rfl]
      generalize runPooled order scan progress (plan.chunks batch) = run at hhandled hgiven ⊢
      obtain ⟨outcome, after⟩ := run
      rw [hbatch]
      cases outcome with
      | error fault => exact hhandled.then nofun fun _ h => by rw [← Except.error.inj h]
      | ok given =>
          obtain rfl := hgiven given rfl
          cases given with
          | nil =>
              exact hhandled.then (fun _ _ => ⟨after, rfl, rfl, handled_nil true order after ()⟩) nofun
          | cons first others =>
              exact hhandled.then (fun _ _ =>
                ⟨(after.note (.workerDied (first :: others).flatten.length)).restartPool, rfl, rfl,
                  retry_spec hscan order _ _⟩) nofun

/-- Batch after batch, every file is accounted for. -/
theorem runBatches_spec (plan : Plan) (order : MergeOrder) (progressive pooled : Bool)
    (progress : Progress) (batches : List (List Candidate)) :
    Handled one pooled order progress batches.flatten
      (runBatches plan order scan progressive pooled progress batches) := by
  induction batches generalizing progress with
  | nil => exact handled_nil pooled order progress ()
  | cons batch batches ih =>
      have hfirst := runBatch_spec hscan plan order pooled progress batch
      rw [runBatches, List.flatten_cons]
      generalize runBatch plan order scan pooled progress batch = run at hfirst ⊢
      obtain ⟨outcome, after⟩ := run
      cases outcome with
      | error fault => exact hfirst.then nofun fun _ h => by rw [← Except.error.inj h]
      | ok value =>
          exact hfirst.then (fun _ _ => ⟨finishBatch plan progressive after, rfl, rfl, ih _⟩) nofun

end Account

end Roster.Scan
