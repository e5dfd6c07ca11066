import ScriptWarden.Text.Width

/-!
# Tables

Texts in rows and columns within ruled lines. A cell has a blank on either side and may have several
lines; a column is as wide as its widest line. A table that would be too wide has its columns
narrowed in turn, one place at a time, and its cells broken to fit.
-/

namespace ScriptWarden

/-- A table of texts: a head and the rows below it, all of one length. -/
structure Table where
  head : List String
  rows : List (List String)
deriving DecidableEq, Repr, Inhabited

namespace Table

/-- The lines of a cell, at least one. -/
def cellLines (s : String) : List (List Char) := (s.splitOn "\n").map String.toList

/-- The width of the widest line of a cell. -/
def cellWidth (s : String) : Nat := (cellLines s).foldl (fun w l => max w (Text.lineWidth l)) 0

/-- The head and the rows. -/
def lines (t : Table) : List (List String) := t.head :: t.rows

/-- The width of every column: that of its widest cell. -/
def widths (t : Table) : List Nat :=
  t.rows.foldl (fun ws row => List.zipWith max ws (row.map cellWidth)) (t.head.map cellWidth)

/-- The width of a table whose columns have these widths: each has two blanks and a rule. -/
def totalWidth (ws : List Nat) : Nat := total (ws.map (· + 3)) + 1

-- ---------------------------------------------------------------------------
-- Narrowing
-- ---------------------------------------------------------------------------

/-- Take a place from each column that has one, from the left, until so many are taken. Returns how
many are still to be taken. -/
def narrowOnce : Nat → List Nat → Nat × List Nat
  | n, [] => (n, [])
  | n, w :: ws =>
    let taken := min (min n 1) w
    let (left, ws) := narrowOnce (n - taken) ws
    (left, (w - taken) :: ws)

/-- Take places from the columns in turn until so many are taken or none is left. The fuel bounds
the number of turns. -/
def narrow : Nat → Nat → List Nat → List Nat
  | 0, _, ws => ws
  | fuel + 1, n, ws =>
    if n == 0 || ws.all (· == 0) then ws
    else
      let (left, ws) := narrowOnce n ws
      narrow fuel left ws

/-- The character that fills the place of one that is too wide for the rest of its line. -/
def filler : Char := '\uFFFD'

/-- Break a text into lines of a width. A wide character for which a line has too little room is
given up for fillers. -/
def breakInto (width : Nat) : List Char → Nat → List Char → List (List Char)
  | [], _, line => if line.isEmpty then [] else [line.reverse]
  | c :: rest, used, line =>
    let w := Text.charWidth c
    let (used, line) :=
      if width < used + w then (width, List.replicate (width - used) filler ++ line)
      else (used + w, c :: line)
    if used == width then line.reverse :: breakInto width rest 0 []
    else breakInto width rest used line

/-- A cell broken to fit a width. -/
def fitCell (width : Nat) (s : String) : String :=
  if cellWidth s ≤ width then s
  else if width == 0 then ""
  else "\n".intercalate ((breakInto width s.toList 0 []).map String.ofList)

/-- A table with its cells broken to fit the widths of their columns. -/
def fit (t : Table) (ws : List Nat) : Table :=
  { head := List.zipWith fitCell ws t.head, rows := t.rows.map (List.zipWith fitCell ws) }

-- ---------------------------------------------------------------------------
-- Drawing
-- ---------------------------------------------------------------------------

/-- A ruled line: its left end, what is between columns and its right end. -/
def rule (ws : List Nat) (left middle right : String) : String :=
  left ++ middle.intercalate (ws.map fun w => String.ofList (List.replicate (w + 2) '─')) ++ right

/-- A line of a cell, padded to the width of its column. -/
def paddedLine (width : Nat) (line : List Char) : String :=
  " " ++ String.ofList (line ++ List.replicate (width - Text.lineWidth line) ' ') ++ " "

/-- The lines of a row. -/
def rowLines (ws : List Nat) (row : List String) : List String :=
  let cells := row.map cellLines
  let height := cells.foldl (fun h c => max h c.length) 1
  (List.range height).map fun i =>
    "│" ++ "│".intercalate (List.zipWith (fun w c => paddedLine w (c.getD i [])) ws cells) ++ "│"

/-- A table drawn with columns of these widths. -/
def draw (t : Table) (ws : List Nat) : String :=
  "\n".intercalate ([rule ws "╭" "┬" "╮"] ++ rowLines ws t.head ++ [rule ws "├" "┼" "┤"] ++
    (t.rows.map (rowLines ws)).flatten ++ [rule ws "╰" "┴" "╯"])

/-- A table drawn as wide as it is. -/
def text (t : Table) : String := t.draw t.widths

/-- A table drawn within a width, as far as its rules leave it room. -/
def textWithin (t : Table) (limit : Nat) : String :=
  let total := totalWidth t.widths
  if total ≤ limit then t.text
  else
    let ws := narrow (total - limit) (total - limit) t.widths
    (t.fit ws).draw ws

end Table

end ScriptWarden
