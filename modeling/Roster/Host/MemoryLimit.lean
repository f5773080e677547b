import Roster.Text.Integer

/-! Memory sizes in text: a count of bytes, or of kibibytes, mebibytes or gibibytes with a unit letter in either
case. A size that is unlimited or cannot be read is no limit. -/

namespace Roster.MemoryLimit

open Roster.Text

/-- The number of bytes that a unit letter stands for. -/
def unit? (c : Char) : Option Int :=
  match c.toUpper with
  | 'G' => some (1024 * 1024 * 1024)
  | 'M' => some (1024 * 1024)
  | 'K' => some 1024
  | _ => none

def isUnlimited (value : String) : Bool :=
  value.isEmpty || value == "-1" || value.toLower == "max" || value.toLower == "unlimited"

/-- The limit in bytes. -/
def parse? (text : String) : Option Int :=
  let value := trim text
  if isUnlimited value then none
  else
    match value.toList.getLast?.bind unit? with
    | some unit => ((readInteger (String.ofList value.toList.dropLast)).toOption).map (· * unit)
    | none => (readInteger value).toOption

end Roster.MemoryLimit
