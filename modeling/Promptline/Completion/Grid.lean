import Promptline.Text.Quoted
import Promptline.Unicode.Cluster
import Promptline.Unicode.Width

set_option autoImplicit false

/-! # Candidate grids

Names laid out in columns of one width, row by row, so that they fit a terminal. Widths are
columns of the terminal, so wide characters line up. -/

namespace Promptline

open Unicode

/-- Names in rows. Every cell of a row is `columnWidth` wide, if its name is not wider. -/
structure Grid where
  rows : List (List Char)
  columnWidth : Nat
  columnCount : Nat
  deriving DecidableEq, Repr

namespace Grid

def rowCount (g : Grid) : Nat :=
  g.rows.length

/-- The clusters from the front of a list that together are no wider than `width`. -/
def fitting : Nat → List (List Char) → List (List Char)
  | _, [] => []
  | width, cluster :: rest =>
    if displayWidth cluster ≤ width then cluster :: fitting (width - displayWidth cluster) rest
    else []

/-- The longest beginning of whole clusters that is no wider than `width`. -/
def truncate (name : List Char) (width : Nat) : List Char :=
  (fitting width (clusters name)).flatten

/-- A name with spaces behind it up to a width. -/
def pad (name : List Char) (width : Nat) : List Char :=
  name ++ List.replicate (width - displayWidth name) ' '

/-- The elements of a list in groups of `n`, the last of which may be smaller; `fuel` bounds the
    number of groups. -/
def chunksWith {α : Type} (n : Nat) : Nat → List α → List (List α)
  | 0, _ => []
  | _, [] => []
  | fuel + 1, x :: xs => (x :: xs).take n :: chunksWith n fuel ((x :: xs).drop n)

/-- The elements of a list in groups of `n > 0`. -/
def chunks {α : Type} (n : Nat) (xs : List α) : List (List α) :=
  chunksWith n xs.length xs

/-- The width of the widest name. -/
def widest (names : List (List Char)) : Nat :=
  names.foldl (fun w name => max w (displayWidth name)) 0

/-- How wide a column is: one more than the widest name, and not wider than the terminal. -/
def columnWidthFor (widest width : Nat) : Nat :=
  min (widest + 1) width

/-- What is shown of a name. It is cut if the columns are as wide as the terminal has room and the
    widest name leaves none for a space. -/
def cell (widest width : Nat) (name : List Char) : List Char :=
  if width < widest + 1 then truncate name width else name

/-- The grid of names for a terminal of `width > 0` columns. -/
def ofNames (names : List (List Char)) (width : Nat) : Grid :=
  let widest := widest names
  let columnWidth := columnWidthFor widest width
  let columnCount := max 1 (width / columnWidth)
  { rows := (chunks columnCount (names.map (cell widest width))).map fun row =>
      row.flatMap fun name => pad name columnWidth
    columnWidth
    columnCount }

/-- The grid of names for a terminal that counts as one column wide at least. There is none without
    names. -/
def layout (names : List (List Char)) (width : Nat) : Option Grid :=
  if names.isEmpty then none else some (ofNames names (max 1 width))

/-- How a grid is shown in a log. -/
def shown (g : Grid) : String :=
  "CandidateTable \x7b rows: ["
    ++ ", ".intercalate (g.rows.map fun row => String.ofList (Quoted.text row))
    ++ "], column_width: " ++ toString g.columnWidth
    ++ ", column_count: " ++ toString g.columnCount ++ " \x7d"

end Grid

end Promptline
