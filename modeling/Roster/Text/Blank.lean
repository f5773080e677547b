import Roster.Text.Segments

/-! Blank characters, trimming and words. The blanks of a text are the white space of Unicode together with the
four information separators; the blanks of raw bytes are the six layout bytes of ASCII. -/

namespace Roster.Text

def isBlank (c : Char) : Bool :=
  let n := c.toNat
  (9 ≤ n && n ≤ 13) || (28 ≤ n && n ≤ 32) || n == 0x85 || n == 0xA0 || n == 0x1680
    || (0x2000 ≤ n && n ≤ 0x200A) || n == 0x2028 || n == 0x2029 || n == 0x202F || n == 0x205F
    || n == 0x3000

def isBlankByte (b : UInt8) : Bool :=
  (9 ≤ b && b ≤ 13) || b == 32

/-- Removes the longest run of accepted characters at the end. -/
def dropEndWhile {α : Type} (p : α → Bool) (cs : List α) : List α :=
  (cs.reverse.dropWhile p).reverse

def trimChars (cs : List Char) : List Char :=
  dropEndWhile isBlank (cs.dropWhile isBlank)

/-- The runs of characters between blanks. -/
def words (cs : List Char) : List (List Char) :=
  (segmentsBy isBlank cs).filter (!·.isEmpty)

def trim (s : String) : String :=
  String.ofList (trimChars s.toList)

/-- Removes the blanks at the end only. -/
def trimRight (s : String) : String :=
  String.ofList (dropEndWhile isBlank s.toList)

end Roster.Text
