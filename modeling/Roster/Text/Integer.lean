import Roster.Text.Blank
import Roster.Text.Digit
import Roster.Text.Segments

/-! Reading integers from text. A numeral may stand between blanks and carry a sign; its digits may come from
any script and may be grouped by single underscores. Numerals of more than 4300 digits are refused. -/

namespace Roster.Text

/-- Why a text is no integer. -/
inductive IntegerFault where
  | malformed
  | tooLong (digits : Nat)
deriving DecidableEq, Repr

def longestNumeral : Nat := 4300

/-- The number that a list of decimal digits writes. -/
def digitsValue (cs : List Char) : Nat :=
  cs.foldl (fun value c => 10 * value + (digitValue? c).getD 0) 0

/-- Reads a numeral without sign. The digits count up to the first character that cannot continue it. -/
def readNatural (cs : List Char) : Except IntegerFault Nat :=
  let run := cs.takeWhile fun c => c == '_' || (digitValue? c).isSome
  let groups := segments '_' run
  let digits := groups.flatten
  if groups.any List.isEmpty then .error .malformed
  else if longestNumeral < digits.length then .error (.tooLong digits.length)
  else if run.length < cs.length then .error .malformed
  else .ok (digitsValue digits)

def readInteger (s : String) : Except IntegerFault Int :=
  match trimChars s.toList with
  | '-' :: cs => (readNatural cs).map fun n => -(n : Int)
  | '+' :: cs => (readNatural cs).map Int.ofNat
  | cs => (readNatural cs).map Int.ofNat

end Roster.Text
