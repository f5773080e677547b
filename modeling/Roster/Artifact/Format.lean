import Roster.Artifact.JsonArray
import Roster.Artifact.PhpArray
import Roster.Name
import Roster.Path

/-! Artifacts: one file per target interface, named for its short name, that lists the implementors. -/

namespace Roster.Artifact

inductive Format where
  | php
  | json
deriving DecidableEq, Repr

def Format.name : Format → String
  | .php => "php"
  | .json => "json"

def Format.ofName? : String → Option Format
  | "php" => some .php
  | "json" => some .json
  | _ => none

def render (format : Format) (classNames : List String) : String :=
  match format with
  | .php => PhpArray.render classNames
  | .json => JsonArray.render classNames

def parse (format : Format) (content : String) : Except JsonArray.Fault (List String) :=
  match format with
  | .php => .ok (PhpArray.parse content)
  | .json => JsonArray.parse content

/-- Where the artifact of an interface lies. -/
def location (directory : Path) (interface : String) (format : Format) : Path :=
  directory / (Name.short interface ++ "." ++ format.name)

/-- Two interfaces with one artifact. -/
structure Conflict where
  first : String
  second : String
  shortName : String
deriving DecidableEq, Repr

def Conflict.message (conflict : Conflict) : String :=
  s!"Interfaces {conflict.first} and {conflict.second} would both be cached as {conflict.shortName}"

/-- The first interface whose artifact belongs to another one before it; `owners` maps short names. -/
def conflictAmong (owners : List (String × String)) : List String → Option Conflict
  | [] => none
  | interface :: rest =>
      let name := Name.short interface
      match owners.find? (·.1 = name) with
      | some (_, owner) =>
          if owner = interface then conflictAmong owners rest else some ⟨owner, interface, name⟩
      | none => conflictAmong (owners ++ [(name, interface)]) rest

/-- Refuses interfaces of which two share an artifact. -/
def checkNames (interfaces : List String) : Except Conflict Unit :=
  match conflictAmong [] interfaces with
  | some conflict => .error conflict
  | none => .ok ()

end Roster.Artifact
