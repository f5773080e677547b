import Mathlib.Data.List.DropRight
import Roster.Host.Detection

/-! When the detection of a host's resources gives a profile. The environment and commands are asked for a count of cores
in turn, and an answer that is no text, or whose digits form no numeral, stops the detection; otherwise there is at least
one core. A limit that is taken for the memory is taken as it is, however large it is, and also if it is not positive;
the file that states it has to be text. A temporary file that cannot be removed stops the detection as well. -/

namespace Roster

open Roster.Text

namespace Text

/-- Decimal digits, not too many of them. -/
def IsNumeral (cs : List Char) : Prop :=
  (∀ c ∈ cs, (digitValue? c).isSome = true) ∧ cs.length ≤ longestNumeral

end Text

namespace Host

/-- Between its blanks the text is digits and nothing else. -/
def IsDigits (text : String) : Prop :=
  (trim text).toList ≠ [] ∧ ∀ c ∈ (trim text).toList, isDigitSign c = true

/-- What asking for a count gives, a fault if it is no text. -/
abbrev Answer := Except Fault String

/-- The answer is no text, or digits that form no numeral: one of them stands in none, or they are too many. -/
inductive Unreadable : Answer → Prop
  | undecodable (fault : Fault) : Unreadable (.error fault)
  | digits {text : String} (hdigits : IsDigits text) (hnumeral : ¬ IsNumeral (trim text).toList) :
      Unreadable (.ok text)

/-- The answer gives no count: it is not only digits, or it is zero. -/
inductive Countless : Answer → Prop
  | other {text : String} (hdigits : ¬ IsDigits text) : Countless (.ok text)
  | zero {text : String} (hnumeral : IsNumeral (trim text).toList)
      (hzero : digitsValue (trim text).toList = 0) : Countless (.ok text)

/-- All that answers come to: each is asked for only if those before it give no count. -/
inductive AskedInTurn : List Answer → Except Fault (Option Int) → Prop where
  | done : AskedInTurn [] (.ok none)
  | stopped {answer : Answer} (fault : Fault) (hanswer : Unreadable answer) (rest : List Answer) :
      AskedInTurn (answer :: rest) (.error fault)
  | passed {answer : Answer} {rest : List Answer} {outcome : Except Fault (Option Int)}
      (hanswer : Countless answer) (hrest : AskedInTurn rest outcome) :
      AskedInTurn (answer :: rest) outcome
  | counted {answer : Answer} (n : Int) (hanswer : ¬ Unreadable answer) (hnone : ¬ Countless answer)
      (hn : 0 < n) (rest : List Answer) : AskedInTurn (answer :: rest) (.ok (some n))

namespace AskedInTurn

variable {answers more : List Answer} {outcome next : Except Fault (Option Int)}

theorem append (hasked : AskedInTurn answers (.ok none)) (hnext : AskedInTurn more next) :
    AskedInTurn (answers ++ more) next := by
  induction answers with
  | nil => exact hnext
  | cons answer rest ih =>
      cases hasked with
      | passed hanswer hrest => exact .passed hanswer (ih hrest)

end AskedInTurn

end Host

end Roster
