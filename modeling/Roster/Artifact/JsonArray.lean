import Roster.Json.Parser
import Roster.Json.Printer

/-! Lists of strings as a JSON array, one string a line, indented by two. Reading accepts any array and takes the
plain text of each item. -/

namespace Roster.Artifact.JsonArray

/-- Why a text is no array. -/
inductive Fault where
  | json (fault : Json.Fault)
  | notAList
deriving DecidableEq, Repr

def Fault.message : Fault → String
  | .json fault => fault.message
  | .notAList => "Artifact does not contain a list"

def items : List String → List Char
  | [] => []
  | [value] => "\n  ".toList ++ Json.quoteChars value.toList ++ ['\n']
  | value :: rest => "\n  ".toList ++ Json.quoteChars value.toList ++ ',' :: items rest

def render (values : List String) : String :=
  String.ofList ('[' :: items values ++ [']', '\n'])

def parse (content : String) : Except Fault (List String) :=
  match Json.parse content with
  | .ok (.array values) => .ok (values.map Json.plainText)
  | .ok _ => .error .notAList
  | .error fault => .error (.json fault)

end Roster.Artifact.JsonArray
