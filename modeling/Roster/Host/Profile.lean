/-! The resource profile of a host: how many cores and how much memory it offers, scores for both and for its
disk, and what its runtime can do. Batch size and concurrency of a scan follow from it. -/

namespace Roster

/-- A host's capability. Scores lie between nought and one. -/
structure Profile where
  cpuCores : Int
  cpuScore : Float
  /-- in bytes -/
  memoryAvailable : Int
  memoryScore : Float
  diskScore : Float
  bytecodeCache : Bool := false
  jit : Bool := false
  /-- work can be spread over processes -/
  parallel : Bool := false
  /-- structured concurrency is available -/
  fibers : Bool := true

namespace Profile

/-- Trees of at most so many files are never scanned progressively for want of memory. -/
def progressiveFileThreshold : Nat := 5000

def combinedScore (profile : Profile) : Float :=
  (profile.cpuScore + profile.memoryScore) / 2

def batchSize (profile : Profile) : Nat :=
  let combined := profile.combinedScore
  if combined ≥ 0.8 then 2000
  else if combined ≥ 0.5 then 1000
  else if combined ≥ 0.3 then 500
  else 100

/-- One core is left to the rest of the host, and half of the others when memory is very scarce. -/
def concurrency (profile : Profile) : Nat :=
  let base := max 1 (profile.cpuCores - 1).toNat
  if profile.memoryScore < 0.3 then max 1 (base / 2) else base

def prefersProgressive (profile : Profile) : Bool :=
  profile.memoryScore < 0.4

/-- Whole mebibytes of available memory. -/
def memoryMiB (profile : Profile) : Int :=
  profile.memoryAvailable.fdiv (1024 * 1024)

/-- A property in a report of the profile. -/
inductive Property where
  | integer (n : Int)
  | score (x : Float)
  | flag (b : Bool)

/-- All properties, in the order in which they are reported. -/
def properties (profile : Profile) : List (String × Property) := [
  ("cpu_cores", .integer profile.cpuCores),
  ("cpu_score", .score profile.cpuScore),
  ("memory_available", .integer profile.memoryAvailable),
  ("memory_score", .score profile.memoryScore),
  ("disk_io_score", .score profile.diskScore),
  ("bytecode_cache_enabled", .flag profile.bytecodeCache),
  ("jit_enabled", .flag profile.jit),
  ("parallel_extension", .flag profile.parallel),
  ("fiber_support", .flag profile.fibers),
  ("memory_available_mb", .integer profile.memoryMiB),
  ("batch_size", .integer profile.batchSize),
  ("concurrency", .integer profile.concurrency)]

theorem one_le_concurrency (profile : Profile) : 1 ≤ profile.concurrency := by
  unfold concurrency
  split <;> exact Nat.le_max_left ..

end Profile

end Roster
