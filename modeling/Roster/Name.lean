import Roster.Text.Blank

/-! Names of classes and interfaces, written as segments between backslashes. Matching is textual: a reference
names a target when it is the target or ends with it behind a separator. -/

namespace Roster.Name

open Roster.Text

def separator : Char := '\\'

/-- The words of the text put together, without separators in front. -/
def normalize (raw : String) : String :=
  String.ofList ((words raw.toList).flatten.dropWhile (· == separator))

/-- Whether a reference names the target. -/
def refersTo (reference target : String) : Bool :=
  reference == target || (separator :: target.toList).isSuffixOf reference.toList

/-- The last segment, separators at the end not counted. -/
def short (name : String) : String :=
  String.ofList (lastSegment separator (dropEndWhile (· == separator) name.toList))

/-- A class name inside its namespace. -/
def qualify (space className : String) : String :=
  String.ofList (space.toList ++ separator :: className.toList)

end Roster.Name
