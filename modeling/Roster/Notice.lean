import Roster.Text.Decimal

/-! What a run reports along the way. -/

namespace Roster

inductive Notice where
  | noInterfaces
  | discovering (interfaces : Nat)
  | noFiles
  | progressiveScan (batchSize : Int)
  | scanStarted (files : Nat) (batchSize : Int) (concurrency : Nat) (pooled : Bool)
  | workerDied (files : Nat)
  | fileLost (path : String)
  | scanComplete (scanned total : Nat) (elapsed rate : Float) (failed found : Nat)
  | discovered (duration : Float)

namespace Notice

def isWarning : Notice → Bool
  | noInterfaces | noFiles | workerDied _ | fileLost _ => true
  | _ => false

/-- Seconds and rates are written with two places and one. -/
def message : Notice → String
  | noInterfaces => "No interfaces configured for discovery."
  | discovering interfaces => s!"Discovering {interfaces} interface(s)."
  | noFiles => "No PHP files found to scan."
  | progressiveScan batchSize => s!"Using progressive scanning mode (Batch Size: {batchSize})"
  | scanStarted files batchSize concurrency pooled =>
      let manner := if pooled then "process pool" else "inline"
      s!"Scanning {files} files (Batch Size: {batchSize}, Concurrency: {concurrency}, {manner})"
  | workerDied files => s!"Worker process died; retrying {files} files individually"
  | fileLost path => s!"Worker died while scanning {path}; skipping it"
  | scanComplete scanned total elapsed rate failed found =>
      let seconds := Text.fixedPlaces 2 elapsed
      let perSecond := Text.fixedPlaces 1 rate
      s!"Scan complete: {scanned}/{total} files in {seconds}s ({perSecond} files/sec, " ++
        s!"{failed} skipped, {found} matches)"
  | discovered duration =>
      let seconds := Text.fixedPlaces 2 duration
      s!"Discovery completed in {seconds}s"

/-- The notice as a line of a log. -/
def line (notice : Notice) : String :=
  (if notice.isWarning then "WARNING " else "INFO ") ++ notice.message

end Notice

end Roster
