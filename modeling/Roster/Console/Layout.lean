import Roster.Text.Blank
import Roster.Text.Width

/-! Laying text out in columns: words stay whole where they fit on a line, and a line is filled as far as it goes. -/

namespace Roster.Console

open Roster.Text

/-- What becomes of a word that no line can hold. -/
inductive Overflow where
  | fold
  | ellipsis
deriving DecidableEq, Repr

inductive Justify where
  | left
  | center
  | right
deriving DecidableEq, Repr

/-- Where in a word reading stands. -/
inductive WordPart where
  | lead
  | core
  | tail
deriving DecidableEq, Repr

/-- Cuts a text into words. A word takes the blanks behind it, the first one those before it too; blanks alone
are no word. -/
def cutWords (part : WordPart) (word : List Char) : List Char → List (List Char)
  | [] => if part = .lead then [] else [word.reverse]
  | c :: cs =>
      if isBlank c then cutWords (if part = .lead then .lead else .tail) (c :: word) cs
      else if part = .tail then word.reverse :: cutWords .core [c] cs
      else cutWords .core (c :: word) cs

/-- Cuts a text into pieces that fill the given columns. -/
def chop (limit : Nat) (used : Nat) (piece : List Char) : List Char → List (List Char)
  | [] => [piece.reverse]
  | c :: cs =>
      if limit < used + columns c then piece.reverse :: chop limit (columns c) [c] cs
      else chop limit (used + columns c) (c :: piece) cs

/-- Lines under construction: the finished ones, latest first, the current one, and its columns. -/
structure Lines where
  finished : List (List Char) := []
  current : List Char := []
  used : Nat := 0
  /-- nothing has been placed yet -/
  fresh : Bool := true

namespace Lines

/-- Adds to the current line. -/
def extend (lines : Lines) (cs : List Char) : Lines :=
  { lines with current := lines.current ++ cs, used := lines.used + width cs, fresh := false }

/-- Begins a new line with the given characters; the very first begins none. -/
def start (lines : Lines) (cs : List Char) : Lines :=
  if lines.fresh then { lines with current := cs, used := width cs, fresh := false }
  else { lines with finished := lines.current :: lines.finished, current := cs, used := width cs }

def place (limit : Nat) (overflow : Overflow) (lines : Lines) (word : List Char) : Lines :=
  let size := width (dropEndWhile isBlank word)
  if lines.used + size ≤ limit then lines.extend word
  else if limit < size then
    match overflow with
    | .fold => (chop limit 0 [] word).foldl start lines
    | .ellipsis => lines.start word
  else lines.start word

def toList (lines : Lines) : List (List Char) :=
  (lines.current :: lines.finished).reverse

end Lines

/-- Takes blanks away that stand beyond the last column. -/
def cropBlanks (limit : Nat) (cs : List Char) : List Char :=
  let blanks := (cs.reverse.takeWhile isBlank).length
  cs.take (cs.length - min blanks (cs.length - limit))

/-- The characters that fit into the given columns. -/
def takeColumns (limit : Nat) : List Char → List Char
  | [] => []
  | c :: cs => if columns c ≤ limit then c :: takeColumns (limit - columns c) cs else []

def padRight (limit : Nat) (cs : List Char) : List Char :=
  cs ++ List.replicate (limit - width cs) ' '

def padLeft (limit : Nat) (cs : List Char) : List Char :=
  List.replicate (limit - width cs) ' ' ++ cs

/-- Cuts a line that is too long. -/
def truncate (limit : Nat) (overflow : Overflow) (cs : List Char) : List Char :=
  if width cs ≤ limit then cs
  else
    match overflow with
    | .fold => padRight limit (takeColumns limit cs)
    | .ellipsis => padRight (limit - 1) (takeColumns (limit - 1) cs) ++ ['…']

/-- A line in its place; one in the middle leans to the left. -/
def justify (limit : Nat) (overflow : Overflow) (manner : Justify) (cs : List Char) : List Char :=
  match manner with
  | .left => padRight limit (truncate limit overflow cs)
  | .right => padLeft limit (truncate limit overflow (dropEndWhile isBlank cs))
  | .center =>
      let line := truncate limit overflow (dropEndWhile isBlank cs)
      padRight limit (List.replicate ((limit - width line) / 2) ' ' ++ line)

def tabStop : Nat := 8

/-- Puts blanks for tabs, up to the next stop. -/
def expandTabs (used : Nat) : List Char → List Char
  | [] => []
  | c :: cs =>
      if c = '\t' then
        let gap := tabStop - used % tabStop
        List.replicate gap ' ' ++ expandTabs (used + gap) cs
      else c :: expandTabs (used + columns c) cs

/-- Bells, backspaces and the like are not shown. -/
def isShown (c : Char) : Bool :=
  !(c.toNat = 7 || c.toNat = 8 || (11 ≤ c.toNat && c.toNat ≤ 13))

/-- The lines of a text before they are wrapped. -/
def rawLines (text : String) : List (List Char) :=
  (segments '\n' (text.toList.filter isShown)).map (expandTabs 0)

/-- The lines of a text in the given columns. -/
def wrap (limit : Nat) (overflow : Overflow) (text : String) : List (List Char) :=
  (rawLines text).flatMap fun line =>
    (((cutWords .lead [] line).foldl (Lines.place limit overflow) {}).toList.map (cropBlanks limit))

/-- The lines of a text, each in its place and padded to the given columns. -/
def block (limit : Nat) (overflow : Overflow) (manner : Justify) (text : String) : List (List Char) :=
  (wrap limit overflow text).map (justify limit overflow manner)

/-- How many columns a text takes when nothing is wrapped. -/
def textWidth (text : String) : Nat :=
  ((rawLines text).map width).foldl max 0

end Roster.Console
