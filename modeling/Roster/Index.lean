/-! The index from target interfaces to the classes that implement them. Targets stand in the order in which
they were first mentioned, classes in the order in which they were recorded; a class recorded twice is listed
twice. -/

namespace Roster

/-- A class that implements a target. -/
structure Match where
  target : String
  className : String
deriving DecidableEq, Repr

structure Index where
  entries : List (String × List String) := []
deriving DecidableEq, Repr

namespace Index

/-- Adds classes at the end of a target's list; a new target goes to the end of the index. -/
def appendTo (target : String) (classes : List String) :
    List (String × List String) → List (String × List String)
  | [] => [(target, classes)]
  | (key, known) :: rest =>
      if key = target then (key, known ++ classes) :: rest
      else (key, known) :: appendTo target classes rest

/-- Makes sure that the target has a list. -/
def ensure (index : Index) (target : String) : Index :=
  ⟨appendTo target [] index.entries⟩

def record (index : Index) (found : Match) : Index :=
  ⟨appendTo found.target [found.className] index.entries⟩

def ensureAll (index : Index) (targets : List String) : Index :=
  targets.foldl ensure index

/-- Records matches in order. -/
def merge (index : Index) (found : List Match) : Index :=
  found.foldl record index

def ofTargets (targets : List String) : Index :=
  ensureAll {} targets

/-- The classes recorded for a target; none for a target never mentioned. -/
def get (index : Index) (target : String) : List String :=
  ((index.entries.find? (·.1 = target)).map (·.2)).getD []

def targets (index : Index) : List String :=
  index.entries.map (·.1)

/-- The recorded matches, target by target. -/
def toMatches (index : Index) : List Match :=
  index.entries.flatMap fun entry => entry.2.map fun className => ⟨entry.1, className⟩

/-- The number of recorded matches. -/
def size (index : Index) : Nat :=
  index.entries.foldl (fun n entry => n + entry.2.length) 0

/-- Records matches in order and counts them. -/
def mergeCounted (index : Index) (found : List Match) : Index × Nat :=
  found.foldl (fun merged one => (merged.1.record one, merged.2 + 1)) (index, 0)

/-- What can be done to an index and asked of it. -/
inductive Operation where
  | ensure (target : String)
  | record (found : Match)
  | merge (found : List Match)
  | get (target : String)
  | pairs
  | entries
  | targets
  | size
deriving DecidableEq, Repr

inductive Reply where
  | nothing
  | count (n : Nat)
  | classes (names : List String)
  | pairs (found : List Match)
  | entries (entries : List (String × List String))
  | targets (names : List String)
deriving DecidableEq, Repr

/-- The index after an operation and what the operation answers. -/
def perform (index : Index) : Operation → Index × Reply
  | .ensure target => (index.ensure target, .nothing)
  | .record found => (index.record found, .nothing)
  | .merge found => ((index.mergeCounted found).1, .count (index.mergeCounted found).2)
  | .get target => (index, .classes (index.get target))
  | .pairs => (index, .pairs index.toMatches)
  | .entries => (index, .entries index.entries)
  | .targets => (index, .targets index.targets)
  | .size => (index, .count index.size)

end Index

end Roster
