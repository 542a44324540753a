import Typewright.Api.Document
import Typewright.Text.Width

/-!
# Tables

A table of texts with a rule above it, below its header and at its end.  A column is as wide as
its widest cell, with a blank on both sides, and a blank divides the columns.
-/

namespace Typewright.Command

/-- On which side a cell is filled up with blanks. -/
inductive Alignment where
  | left
  | right
deriving DecidableEq, Repr

/-- A cell of a table; a line feed in its text starts a new line of the cell. -/
structure Cell where
  lines : List (List Char)
  alignment : Alignment := .left

namespace Cell

/-- A cell with the given text. -/
def ofText (text : String) (alignment : Alignment) : Cell :=
  { lines := Text.splitOnChar '\n' text.toList, alignment }

/-- The width of the widest line. -/
def width (cell : Cell) : Nat :=
  (cell.lines.map Text.width).foldl max 0

/-- Line `n` of the cell, filled up to a width. -/
def line (cell : Cell) (width n : Nat) : List Char :=
  let text := (cell.lines[n]?).getD []
  let fill := List.replicate (width - Text.width text) ' '
  match cell.alignment with
  | .left => text ++ fill
  | .right => fill ++ text

end Cell

namespace Table

/-- The widths of the columns of some rows. -/
def widths : List (List Cell) → List Nat
  | [] => []
  | [row] => row.map Cell.width
  | row :: rest => List.zipWith max (row.map Cell.width) (widths rest)

/-- One line of a row. -/
def rowLine (widths : List Nat) (row : List Cell) (n : Nat) : String :=
  let padded (cell : Cell) (width : Nat) := ' ' :: (cell.line width n ++ [' '])
  let cells := List.zipWith padded row widths
  String.ofList ([' '].intercalate cells)

/-- The lines of a row. -/
def rowLines (widths : List Nat) (row : List Cell) : List String :=
  let height := (row.map (·.lines.length)).foldl max 0
  (List.range height).map (rowLine widths row)

/-- A rule over the columns, with the given character between them. -/
def rule (widths : List Nat) (between : Char) : String :=
  let column (width : Nat) := List.replicate (width + 2) '─'
  String.ofList ([between].intercalate (widths.map column))

/-- The lines of a table. -/
def lines (header : List Cell) (rows : List (List Cell)) : List String :=
  let widths := widths (header :: rows)
  [rule widths ' '] ++ rowLines widths header ++ [rule widths '─']
    ++ rows.flatMap (rowLines widths) ++ [rule widths ' ']

end Table

/-! ### The table of operations -/

/-- The operations in the order of their identifiers; operations with one identifier keep their
    order. -/
def sortOperations (operations : List Api.OperationEntry) : List Api.OperationEntry :=
  operations.mergeSort fun a b => decide (a.id ≤ b.id)

/-- The header of the table of operations. -/
def operationsHeader : List Cell :=
  ["OPERATION ID", "METHOD", "PATH"].map (Cell.ofText · .left)

/-- The row of an operation. -/
def operationRow (operation : Api.OperationEntry) : List Cell :=
  [.ofText operation.id .left, .ofText operation.method.upperName .right,
    .ofText operation.path .left]

/-- The table of operations. -/
def operationsTable (operations : List Api.OperationEntry) : List String :=
  Table.lines operationsHeader ((sortOperations operations).map operationRow)

end Typewright.Command
