import Roster.Finder

/-! A finder in use. Calls set its targets and record what trees declare, in its own index or in one given to it.
Whatever a call did before it fails stays done, so it is for the order of its steps that a failed call leaves the
targets and every index alone. -/

namespace Roster.Finder

open Roster.Syntax

/-- A finder, the indexes besides its own that it is given to record into, and the warnings it gave. -/
structure Session where
  finder : Finder := {}
  others : Nat → Index := fun _ => {}
  warnings : List String := []

/-- Where matches are recorded. -/
inductive Destination where
  | own
  | other (number : Nat)
deriving DecidableEq, Repr

/-- What a finder is called for. -/
inductive Call where
  | setTargets (names : List String)
  | setTarget (name : String)
  | find (tree : Tree) (into : Destination)

inductive Reply where
  | nothing
  | count (found : Nat)
deriving DecidableEq, Repr

def deprecation : String :=
  "set_interface_name() is deprecated, use set_interface_names()"

namespace Session

def update (session : Session) (into : Destination) (change : Index → Index) : Session :=
  match into with
  | .own => { session with finder := { session.finder with index := change session.finder.index } }
  | .other number =>
      { session with
        others := fun other =>
          if other = number then change (session.others other) else session.others other }

def warn (session : Session) (warning : String) : Session :=
  { session with warnings := session.warnings ++ [warning] }

/-- Steps that change a session, up to a fault. -/
abbrev Action (α : Type) := ExceptT Fault (StateM Session) α

def Action.runOn {α : Type} (action : Action α) (session : Session) : Except Fault α × Session :=
  Id.run (StateT.run (ExceptT.run action) session)

/-- Replaces the targets and gives each a list in the finder's own index. -/
def takeTargets (names : List String) : Action Unit := do
  let targets := distinct names
  if targets.contains "" then throw .emptyTargetName
  modify fun session => { session with finder := { session.finder with targets } }
  targets.forM fun target => modify (·.update .own (·.ensure target))

/-- Records the matches of a tree, once all of them are found, and counts them. -/
def recordMatches (tree : Tree) (into : Destination) : Action Nat := do
  let session ← get
  let found ← session.finder.matchesIn tree
  modify (·.update into (·.merge found))
  return found.length

def answer : Call → Action Reply
  | .setTargets names => do
      takeTargets names
      return .nothing
  | .setTarget name => do
      -- the warning is given for a name that is refused, too
      modify (·.warn deprecation)
      takeTargets [name]
      return .nothing
  | .find tree into => do
      return .count (← recordMatches tree into)

/-- How a call ends, and the session afterwards. -/
def perform (session : Session) (call : Call) : Except Fault Reply × Session :=
  (answer call).runOn session

/-- The session after a row of calls, whether they fail or not. -/
def after (session : Session) (calls : List Call) : Session :=
  calls.foldl (fun session call => (session.perform call).2) session

end Session

end Roster.Finder
