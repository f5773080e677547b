import Roster.Console.Layout

/-! Tables in boxes, and panels: boxes around a text with a title in the upper edge. A table that is too wide
narrows its widest columns first. -/

namespace Roster.Console

open Roster.Text

structure Column where
  header : String
  justify : Justify := .left

structure Table where
  title : String
  columns : List Column
  showsHeader : Bool := true
  rows : List (List String)

/-- The signs of one kind of edge or row: at the left, within, between columns and at the right. -/
structure Edge where
  left : Char
  fill : Char
  between : Char
  right : Char

/-- The edges and rows of a box. -/
structure Frame where
  top : Edge
  header : Edge
  divider : Edge
  row : Edge
  bottom : Edge

/-- Heavy lines around the header. -/
def Frame.headed : Frame where
  top := ⟨'┏', '━', '┳', '┓'⟩
  header := ⟨'┃', ' ', '┃', '┃'⟩
  divider := ⟨'┡', '━', '╇', '┩'⟩
  row := ⟨'│', ' ', '│', '│'⟩
  bottom := ⟨'└', '─', '┴', '┘'⟩

/-- Light lines all around. -/
def Frame.plain : Frame where
  top := ⟨'┌', '─', '┬', '┐'⟩
  header := ⟨'│', ' ', '│', '│'⟩
  divider := ⟨'├', '─', '┼', '┤'⟩
  row := ⟨'│', ' ', '│', '│'⟩
  bottom := ⟨'└', '─', '┴', '┘'⟩

/-- Joins the cells of one line. -/
def Edge.line (edge : Edge) (cells : List (List Char)) : List Char :=
  edge.left :: ([edge.between].intercalate cells ++ [edge.right])

/-- A line without content, for columns of the given widths. -/
def Edge.rule (edge : Edge) (widths : List Nat) : List Char :=
  edge.line (widths.map fun n => List.replicate n edge.fill)

namespace Table

/-- How wide the columns of a table are together. -/
def total (widths : List Nat) : Nat :=
  widths.foldl (· + ·) 0

/-- The quotient to the nearest integer, a half to the even one. -/
def nearest (num den : Nat) : Nat :=
  let quotient := num / den
  let twice := 2 * (num % den)
  if den < twice || (twice = den && quotient % 2 = 1) then quotient + 1 else quotient

/-- Takes columns away from the chosen widths in equal shares, at most `most` from each. -/
def reduce (most : Nat) (chosen : Nat → Bool) : Nat → Nat → List Nat → List Nat
  | _, _, [] => []
  | total, shares, w :: rest =>
      if chosen w && 0 < shares then
        let cut := min most (nearest total shares)
        (w - cut) :: reduce most chosen (total - cut) (shares - 1) rest
      else w :: reduce most chosen total shares rest

/-- Narrows the widest columns to the next width, and again, until the row fits. -/
def collapse (limit : Nat) : Nat → List Nat → List Nat
  | 0, widths => widths
  | fuel + 1, widths =>
      let excess := total widths - limit
      let widest := widths.foldl max 0
      let next := (widths.filter (· ≠ widest)).foldl max 0
      if excess = 0 || widest = next then widths
      else
        let chosen (w : Nat) : Bool := w == widest
        collapse limit fuel
          (reduce (min excess (widest - next)) chosen excess (widths.countP chosen) widths)

/-- The widths of the columns, a blank at each side included. -/
def widths (limit : Nat) (table : Table) : List Nat :=
  let natural := table.columns.zipIdx.map fun (column, i) =>
    let cells := table.rows.map fun row => row.getD i ""
    let texts := if table.showsHeader then column.header :: cells else cells
    (texts.map textWidth).foldl max 0 + 2
  collapse (limit - (natural.length + 1)) (total natural) natural

/-- The lines of one row. -/
def rowLines (edge : Edge) (columns : List Column) (widths : List Nat) (cells : List String) :
    List (List Char) :=
  let blocks := (columns.zip (widths.zip cells)).map fun (column, w, cell) =>
    (w, block (w - 2) .ellipsis column.justify cell)
  let height := (blocks.map fun (_, lines) => lines.length).foldl max 0
  (List.range height).map fun i =>
    edge.line (blocks.map fun (w, lines) =>
      ' ' :: ((lines[i]?).getD (List.replicate (w - 2) ' ') ++ [' ']))

/-- The lines of a table in a console of the given columns. -/
def lines (limit : Nat) (table : Table) : List (List Char) :=
  let widths := table.widths limit
  let frame := if table.showsHeader then Frame.headed else Frame.plain
  let title := block (total widths + widths.length + 1) .fold .center table.title
  let header := if table.showsHeader then
      rowLines frame.header table.columns widths (table.columns.map (·.header))
        ++ [frame.divider.rule widths]
    else []
  let rows := table.rows.flatMap (rowLines frame.row table.columns widths)
  title ++ [frame.top.rule widths] ++ header ++ rows ++ [frame.bottom.rule widths]

end Table

/-- The lines of a panel that fills a console of the given columns. -/
def panel (limit : Nat) (title body : String) : List (List Char) :=
  let shown := title.toList.filter isShown |>.map fun c => if c = '\n' then ' ' else c
  let heading := truncate (limit - 4) .fold (' ' :: (expandTabs 0 shown ++ [' ']))
  let room := limit - 4 - width heading
  let dashes (n : Nat) : List Char := List.replicate n '─'
  let inner := block (limit - 4) .fold .left body
  let top := ['╭'] ++ dashes (1 + room / 2) ++ heading ++ dashes (room - room / 2 + 1) ++ ['╮']
  [top] ++ inner.map (fun line => "│ ".toList ++ line ++ " │".toList)
    ++ [['╰'] ++ dashes (limit - 2) ++ ['╯']]

end Roster.Console
