import Roster.Collection
import Roster.Scan.File

/-! A pool of workers that may die. A worker dies on certain paths, always or once only; with it the pool breaks, the
unit it had is lost, and so is every unit submitted later. -/

namespace Roster.Scan

/-- Endings of paths on which a worker dies. -/
structure WorkerFaults where
  always : List String := []
  /-- used up by the first path that has the ending -/
  once : List String := []
deriving DecidableEq, Repr

def hasEnding (path ending : String) : Bool :=
  ending.toList.isSuffixOf path.toList

/-- Whether a worker dies on a path, and what is left of the faults. -/
def WorkerFaults.strikePath (faults : WorkerFaults) (path : String) : Bool × WorkerFaults :=
  if faults.always.any (hasEnding path) then (true, faults)
  else
    match faults.once.find? (hasEnding path) with
    | some ending => (true, { faults with once := faults.once.erase ending })
    | none => (false, faults)

/-- Whether a worker dies on a unit, and what is left of the faults; paths behind the fatal one are not met. -/
def WorkerFaults.strike (faults : WorkerFaults) : List String → Bool × WorkerFaults
  | [] => (false, faults)
  | path :: paths =>
      match faults.strikePath path with
      | (true, left) => (true, left)
      | (false, left) => left.strike paths

abbrev Chunk := List Candidate

def Chunk.paths (chunk : Chunk) : List String :=
  chunk.map fun candidate => toString candidate.path

/-- How a submitted unit ended. -/
inductive UnitEnd where
  | lost
  | ended (result : Except Fault (List FileResult))

/-- Submits units to a pool, in order. -/
def submit (scan : List String → Except Fault (List FileResult)) (broken : Bool)
    (faults : WorkerFaults) : List Chunk → List (Chunk × UnitEnd) × WorkerFaults
  | [] => ([], faults)
  | chunk :: chunks =>
      if broken then
        let (ends, left) := submit scan true faults chunks
        ((chunk, .lost) :: ends, left)
      else
        match faults.strike (Chunk.paths chunk) with
        | (true, left) =>
            let (ends, left) := submit scan true left chunks
            ((chunk, .lost) :: ends, left)
        | (false, left) =>
            let (ends, left) := submit scan false left chunks
            ((chunk, .ended (scan (Chunk.paths chunk))) :: ends, left)

/-- The units of a submission that were lost. -/
def lostUnits (ends : List (Chunk × UnitEnd)) : List Chunk :=
  ends.filterMap fun unit =>
    match unit.2 with
    | .lost => some unit.1
    | .ended _ => none

end Roster.Scan
