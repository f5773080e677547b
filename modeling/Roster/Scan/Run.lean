import Roster.Host.MergeOrder
import Roster.Notice
import Roster.Scan.Plan
import Roster.Scan.Pool

/-! Running a scan. Units only give back what they found; the run alone writes the index, without a pool in the order
of the files, and with one batch by batch in the order in which the units are taken in. When a worker dies, the files of
all lost units are tried again one at a time, so that only a file that kills its worker is given up. -/

namespace Roster.Scan

/-- Counts of a finished scan. -/
structure Stats where
  total : Nat := 0
  scanned : Nat := 0
  failed : Nat := 0
  found : Nat := 0
  batches : Nat := 0
  batchSize : Int := 0
  concurrency : Nat := 1
  progressive : Bool := false
  parallel : Bool := false
  reclaims : Nat := 0
  restarts : Nat := 0
  elapsed : Float := 0

/-- A scan under way. -/
structure Progress where
  index : Index
  faults : WorkerFaults := {}
  notices : List Notice := []
  scanned : Nat := 0
  failed : Nat := 0
  found : Nat := 0
  batches : Nat := 0
  reclaims : Nat := 0
  restarts : Nat := 0

namespace Progress

def note (progress : Progress) (notice : Notice) : Progress :=
  { progress with notices := progress.notices ++ [notice] }

def merge (progress : Progress) (result : FileResult) : Progress :=
  match result.outcome with
  | .error _ => { progress with failed := progress.failed + 1 }
  | .ok found =>
      { progress with
        scanned := progress.scanned + 1
        found := progress.found + found.length
        index := progress.index.merge found }

def mergeAll (progress : Progress) (results : List FileResult) : Progress :=
  results.foldl merge progress

def restartPool (progress : Progress) : Progress :=
  { progress with restarts := progress.restarts + 1 }

/-- Gives up a file whose worker died on it alone. -/
def giveUp (progress : Progress) (candidate : Candidate) : Progress :=
  { (progress.note (.fileLost (toString candidate.path))).restartPool with
    failed := progress.failed + 1 }

end Progress

/-- Runs units one after the other. -/
def runInline (scan : List String → Except Fault (List FileResult)) (progress : Progress) :
    List Chunk → Except Fault Unit × Progress
  | [] => (.ok (), progress)
  | chunk :: chunks =>
      match scan (Chunk.paths chunk) with
      | .ok results => runInline scan (progress.mergeAll results) chunks
      | .error fault => (.error fault, progress)

/-- Merges ended units as they stand and gives back the lost ones. -/
def settle (progress : Progress) :
    List (Chunk × UnitEnd) → Except Fault (List Chunk) × Progress
  | [] => (.ok [], progress)
  | (chunk, .lost) :: ends =>
      match settle progress ends with
      | (.ok lost, after) => (.ok (chunk :: lost), after)
      | failed => failed
  | (_, .ended (.ok results)) :: ends => settle (progress.mergeAll results) ends
  | (_, .ended (.error fault)) :: _ => (.error fault, progress)

/-- Runs units in the pool and gives back the lost ones. The units are taken in in the given order, but the lost ones
stay as they were submitted. -/
def runPooled (order : MergeOrder) (scan : List String → Except Fault (List FileResult))
    (progress : Progress) (chunks : List Chunk) : Except Fault (List Chunk) × Progress :=
  let (ends, left) := submit scan false progress.faults chunks
  match settle { progress with faults := left } (order.arrange progress.batches ends) with
  | (.ok _, after) => (.ok (lostUnits ends), after)
  | failed => failed

/-- Tries files one at a time, each in a pool that works. -/
def retry (order : MergeOrder) (scan : List String → Except Fault (List FileResult))
    (progress : Progress) : List Candidate → Except Fault Unit × Progress
  | [] => (.ok (), progress)
  | candidate :: candidates =>
      match runPooled order scan progress [[candidate]] with
      | (.ok [], after) => retry order scan after candidates
      | (.ok _, after) => retry order scan (after.giveUp candidate) candidates
      | (.error fault, after) => (.error fault, after)

def runBatch (plan : Plan) (order : MergeOrder) (scan : List String → Except Fault (List FileResult))
    (pooled : Bool) (progress : Progress) (batch : List Candidate) : Except Fault Unit × Progress :=
  if pooled then
    match runPooled order scan progress (plan.chunks batch) with
    | (.ok [], after) => (.ok (), after)
    | (.ok lost, after) =>
        retry order scan (after.note (.workerDied lost.flatten.length)).restartPool lost.flatten
    | (.error fault, after) => (.error fault, after)
  else runInline scan progress (plan.chunks batch)

/-- Counts a finished batch. -/
def finishBatch (plan : Plan) (progressive : Bool) (progress : Progress) : Progress :=
  { progress with
    batches := progress.batches + 1
    reclaims := progress.reclaims + if plan.reclaims progressive then 1 else 0 }

def runBatches (plan : Plan) (order : MergeOrder)
    (scan : List String → Except Fault (List FileResult)) (progressive pooled : Bool)
    (progress : Progress) : List (List Candidate) → Except Fault Unit × Progress
  | [] => (.ok (), progress)
  | batch :: batches =>
      match runBatch plan order scan pooled progress batch with
      | (.ok (), after) =>
          runBatches plan order scan progressive pooled (finishBatch plan progressive after) batches
      | failed => failed

/-- The targets are in the index before anything is scanned. -/
def start (plan : Plan) (index : Index) (faults : WorkerFaults) : Progress :=
  { index := index.ensureAll plan.targets, faults }

def statsOf (plan : Plan) (progressive pooled : Bool) (total : Nat) (elapsed : Float)
    (progress : Progress) : Stats where
  total := total
  scanned := progress.scanned
  failed := progress.failed
  found := progress.found
  batches := progress.batches
  batchSize := plan.batchSize
  concurrency := plan.concurrency
  progressive := progressive
  parallel := pooled
  reclaims := progress.reclaims
  restarts := progress.restarts
  elapsed := elapsed

def completion (stats : Stats) : Notice :=
  let rate := if stats.elapsed > 0 then Float.ofNat stats.total / stats.elapsed else 0
  .scanComplete stats.scanned stats.total stats.elapsed rate stats.failed stats.found

/-- Scans files on a platform and merges what is found; `elapsed` is the time that it takes. -/
def run [Syntax.Parser] (plan : Plan) (order : MergeOrder) (platform : String) (elapsed : Float)
    (tree : FileTree) (progress : Progress) (files : List Candidate) : Except Fault Stats × Progress :=
  let progressive := plan.isProgressive platform files.length
  let pooled := plan.usesPool progressive
  let opening :=
    if progressive then Notice.progressiveScan plan.batchSize
    else .scanStarted files.length plan.batchSize plan.concurrency pooled
  let scan := scanChunk plan.targets tree
  match runBatches plan order scan progressive pooled (progress.note opening) (plan.batches files) with
  | (.ok (), after) =>
      let stats := statsOf plan progressive pooled files.length elapsed after
      (.ok stats, after.note (completion stats))
  | (.error fault, after) => (.error fault, after)

end Roster.Scan
