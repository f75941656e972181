import Conductor.Text.Blank
import Conductor.Text.Split

/-!
# Columns

Rows of cells under headers, in columns two blanks apart. A column is as wide as the
number of bytes of its longest cell, while a cell is filled up by the character, so
that a cell with characters of several bytes leaves more room behind it.
-/

namespace Conductor.Text

/-- The bytes that the longest cell of a column takes. -/
def columnWidth (rows : List (List String)) (header : String) (i : Nat) : Nat :=
  rows.foldl (fun w row => max w ((row[i]?.map String.utf8ByteSize).getD 0)) header.utf8ByteSize

def columnWidths (headers : List String) (rows : List (List String)) : List Nat :=
  headers.zipIdx.map fun h => columnWidth rows h.1 h.2

/-- A cell with blanks behind it up to the given number of characters. -/
def fillUp (width : Nat) (cell : String) : String :=
  cell ++ String.ofList (List.replicate (width - cell.length) ' ')

/-- The cells of a row, each filled up to its column's width as far as there is one. -/
def fillRow : List Nat → List String → List String
  | _, [] => []
  | [], cells => cells
  | w :: ws, cell :: cells => fillUp w cell :: fillRow ws cells

/-- A row of cells without the blanks at its end. -/
def rowLine (widths : List Nat) (cells : List String) : String :=
  trimRight (joinWith "  " (fillRow widths cells))

/-- The line of dashes under the headers. -/
def ruleLine (widths : List Nat) : String :=
  joinWith "  " (widths.map fun w => String.ofList (List.replicate w '-'))

/-- Headers, a line of dashes, and the rows. -/
def columns (headers : List String) (rows : List (List String)) : String :=
  let widths := columnWidths headers rows
  joinWith "\n" (rowLine widths headers :: ruleLine widths :: rows.map (rowLine widths))

/-- A cell that is filled up begins with itself. -/
theorem fillUp_toList (width : Nat) (cell : String) :
    (fillUp width cell).toList = cell.toList ++ List.replicate (width - cell.length) ' ' := by
  simp [fillUp]

/-- There are as many widths as headers. -/
@[simp] theorem length_columnWidths (headers : List String) (rows : List (List String)) :
    (columnWidths headers rows).length = headers.length := by
  simp [columnWidths]

/-- Filling up does not change the number of cells. -/
@[simp] theorem length_fillRow (widths : List Nat) (cells : List String) :
    (fillRow widths cells).length = cells.length := by
  induction cells generalizing widths with
  | nil => cases widths <;> rfl
  | cons c cs ih =>
      cases widths with
      | nil => rfl
      | cons w ws => simp [fillRow, ih]

end Conductor.Text
