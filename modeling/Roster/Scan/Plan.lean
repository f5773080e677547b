import Roster.Finder
import Roster.Host.Profile

/-! How a scan is split. Files go through in batches, one after the other; a batch is split into chunks, about one for
each unit that may run at a time. -/

namespace Roster.Scan

/-- What a scan looks for and how it is sized. -/
structure Plan where
  targets : List String
  profile : Profile
  batchSize : Int
  concurrency : Nat
  /-- forces progressive scanning on or off -/
  progressive : Option Bool

/-- Below this score memory is reclaimed after every batch. -/
def lowMemoryScore : Float := 0.5

/-- Cuts a list into pieces of the size, at least one each; the last one may be shorter. -/
def cut {α : Type} (size : Nat) : List α → List (List α)
  | [] => []
  | x :: xs =>
      (x :: xs.take (size - 1)) :: cut size (xs.drop (size - 1))
termination_by xs => xs.length
decreasing_by
  simp only [List.length_drop, List.length_cons]
  omega

namespace Plan

/-- A plan for the targets, of which there has to be one. A batch size of zero counts as none. -/
def make (targets : List String) (profile : Profile) (batchSize : Option Int)
    (progressive : Option Bool) : Except Finder.Fault Plan :=
  if targets.isEmpty then .error .noTargets
  else .ok {
    targets, profile, progressive
    batchSize := (batchSize.filter (· ≠ 0)).getD profile.batchSize
    concurrency := profile.concurrency }

/-- Whether batches run one by one with memory reclaimed in between. -/
def isProgressive (plan : Plan) (platform : String) (files : Nat) : Bool :=
  match plan.progressive with
  | some forced => forced
  | none =>
      platform == "Windows" || !plan.profile.fibers
        || (plan.profile.prefersProgressive && files > Profile.progressiveFileThreshold)

def usesPool (plan : Plan) (progressive : Bool) : Bool :=
  !progressive && plan.concurrency > 1 && plan.profile.parallel

def batches {α : Type} (plan : Plan) (files : List α) : List (List α) :=
  cut (max 1 plan.batchSize).toNat files

def chunks {α : Type} (plan : Plan) (batch : List α) : List (List α) :=
  cut (max 1 (batch.length / plan.concurrency)) batch

def reclaims (plan : Plan) (progressive : Bool) : Bool :=
  progressive || plan.profile.memoryScore < lowMemoryScore

end Plan

end Roster.Scan
